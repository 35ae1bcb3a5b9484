import AmlogicUpdate.Bl2
import AmlogicUpdate.LargeMem

/-!
The life of a device handle in each entry point: opened first, used between, closed last.

A routine is judged from the answer to its one opening. What comes after is `Tidy` when it
only uses the handle it got and closes it before it returns, and `Crashes` when it can be
driven to read through `NULL`.
-/

namespace AmlogicUpdate.Handles

open Interaction CData Usb AmlLibusb Bl2 UsbRomDrv Wire LargeMem Checksum

/-! ### Handles in a trace -/

/-- How often the handle has been handed out. -/
def opened (h : Handle) (t : Trace) : ℕ :=
  t.countP fun
    | ⟨.libusbOpen _, r⟩ => (r : Option Handle) = some h
    | _ => false

/-- How often the handle has been closed. -/
def closed (h : Handle) (t : Trace) : ℕ :=
  t.countP fun e => e.1 = .libusbClose h

/-- The call goes to no handle, or to one that is open. -/
def Safe (t : Trace) : Op → Prop
  | .nullHandle => False
  | .libusbClose h | .libusbReset h | .controlOut h .. | .controlIn h .. | .bulkOut h ..
  | .bulkIn h .. => closed h t < opened h t
  | _ => True

/-- From the history `t` on, calls only go to open handles, and on return every handle
handed out has been closed as often. -/
def WellUsed {α : Type} (t : Trace) (p : Program α) : Prop :=
  Sat Safe (fun t' _ => ∀ h, closed h t' = opened h t') t p

/-- `h` is open, and nothing else. -/
def OnlyOpen (h : Handle) (t : Trace) : Prop :=
  ∀ h', opened h' t = closed h' t + if h' = h then 1 else 0

/-- A call on the handle, or on no handle at all. -/
def Uses (handle : Option Handle) : Op → Prop
  | .nullHandle => handle = none
  | .libusbReset h | .controlOut h .. | .controlIn h .. | .bulkOut h .. | .bulkIn h .. =>
    handle = some h
  | .libusbOpen _ | .libusbClose _ => False
  | _ => True

lemma onlyOpen_snoc {h : Handle} {t : Trace} {o : Op} {r : Resp o} (ht : OnlyOpen h t)
    (ho : Uses (some h) o) : OnlyOpen h (t ++ [⟨o, r⟩]) := by
  intro h'
  have := ht h'
  cases o <;> first | exact ho.elim | simpa [opened, closed, List.countP_append] using this

lemma safe_of_uses {h : Handle} {t : Trace} {o : Op} (ht : OnlyOpen h t)
    (ho : Uses (some h) o) : Safe t o := by
  have hh := ht h
  rw [if_pos rfl] at hh
  cases o with
  | nullHandle => cases ho
  | libusbOpen => exact ho.elim
  | libusbClose => exact ho.elim
  | fopen => trivial
  | fread => trivial
  | fwrite => trivial
  | clock => trivial
  | _ =>
    obtain rfl := Option.some.inj ho
    show closed h t < opened h t
    omega

/-- A part that only uses the open handle. -/
lemma WellUsed.bind {α β : Type} {h : Handle} {p : Program α} {f : α → Program β} {t : Trace}
    (ht : OnlyOpen h t) (hp : Calls (Uses (some h)) p)
    (hf : ∀ a t', OnlyOpen h t' → WellUsed t' (f a)) : WellUsed t (p >>= f) := by
  induction p generalizing t with
  | ret a => exact hf a t ht
  | call o k ih => exact ⟨safe_of_uses ht hp.1, fun r => ih r (onlyOpen_snoc ht hp.1) (hp.2 r)⟩
  | stop => trivial

/-- The way out. -/
lemma WellUsed.close {α : Type} {h : Handle} {drv : AmlUsbDrv} {a : α} {t : Trace}
    (ht : OnlyOpen h t) (hd : drv.device ≠ .null) (hh : drv.handle = some h) :
    WellUsed t (closeUsbDevice drv >>= fun _ => .ret a) := by
  have hopen := ht h
  rw [if_pos rfl] at hopen
  refine keeps_closing hd (fun h' => by rw [hh] at h'; cases h') fun h' hh' => ?_
  obtain rfl := Option.some.inj (hh.symm.trans hh')
  refine ⟨show closed h t < opened h t by omega, fun h' => ?_⟩
  have := ht h'
  by_cases he : h' = h
  · subst he
    simp [opened, closed, List.countP_append] at this ⊢
    omega
  · simp [opened, closed, List.countP_append, he, Ne.symm he] at this ⊢
    omega

/-! ### What the building blocks call -/

section Uses

variable (handle : Option Handle)

lemma uses_segfault {α : Type} : Calls (Uses none) (segfault : Program α) :=
  ⟨rfl, fun e => e.elim⟩

lemma uses_usbControlMsg (bmRequestType bRequest : ℕ) (wValue wIndex : ℤ) (bytes : Bytes)
    (size timeout : ℤ) :
    Calls (Uses handle)
      (usbControlMsg handle bmRequestType bRequest wValue wIndex bytes size timeout) := by
  cases handle with
  | none => exact uses_segfault
  | some h =>
    unfold usbControlMsg
    dsimp only
    split_ifs
    · exact ⟨rfl, fun _ => trivial⟩
    · exact ⟨rfl, fun _ => trivial⟩

lemma uses_usbBulkRead (ep : ℕ) (bytes : Bytes) (size : ℕ) (timeout : ℤ) :
    Calls (Uses handle) (usbBulkRead handle ep bytes size timeout) := by
  cases handle with
  | none => exact uses_segfault
  | some h => exact ⟨rfl, fun _ => trivial⟩

lemma uses_usbBulkWrite (ep : ℕ) (bytes : Bytes) (size : ℕ) (timeout : ℤ) :
    Calls (Uses handle) (usbBulkWrite handle ep bytes size timeout) := by
  cases handle with
  | none => exact uses_segfault
  | some h => exact ⟨rfl, fun _ => trivial⟩

lemma uses_fopenRead (files : Files) (path : Bytes) :
    Calls (Uses handle) (fopenRead files path) := ⟨trivial, fun _ => trivial⟩

lemma uses_fread (f : File) (n : ℕ) : Calls (Uses handle) (fread f n) :=
  ⟨trivial, fun _ => trivial⟩

lemma uses_getTickCount : Calls (Uses handle) getTickCount := ⟨trivial, fun _ => trivial⟩

lemma uses_usbDeviceIoControl (drv : AmlUsbDrv) (code : Ioctl) (inBuf : Option Bytes)
    (inLen : ℕ) (outBuf : Option Bytes) (outLen bytesReturned : ℕ) :
    Calls (Uses drv.handle)
      (usbDeviceIoControl drv code inBuf inLen outBuf outLen bytesReturned) :=
  calls_usbDeviceIoControl (uses_usbControlMsg drv.handle) code inBuf inLen outBuf outLen
    bytesReturned

lemma uses_usbDeviceIoControlEx (drv : AmlUsbDrv) (code : Ioctl) (inBuf : Option Bytes)
    (inLen : ℕ) (outBuf : Option Bytes) (outLen bytesReturned timeout : ℕ) :
    Calls (Uses drv.handle)
      (usbDeviceIoControlEx drv code inBuf inLen outBuf outLen bytesReturned timeout) :=
  calls_usbDeviceIoControlEx (uses_usbControlMsg drv.handle) code inBuf inLen outBuf outLen
    bytesReturned timeout

lemma uses_usbReadFile (drv : AmlUsbDrv) (outBuf : Bytes) (outLen bytesReturned : ℕ) :
    Calls (Uses drv.handle) (usbReadFile drv outBuf outLen bytesReturned) := by
  unfold usbReadFile
  split_ifs
  · trivial
  · exact calls_bind (uses_usbBulkRead _ _ _ _ _) fun _ => trivial

lemma uses_usbWriteFile (drv : AmlUsbDrv) (inBuf : Bytes) (inLen bytesReturned : ℕ) :
    Calls (Uses drv.handle) (usbWriteFile drv inBuf inLen bytesReturned) := by
  unfold usbWriteFile
  split_ifs
  · trivial
  · exact calls_bind (uses_usbBulkWrite _ _ _ _ _) fun _ => trivial

lemma uses_resetDev (drv : AmlUsbDrv) : Calls (Uses drv.handle) (resetDev drv) := by
  unfold resetDev
  split_ifs
  · trivial
  · cases drv.handle with
    | none => exact uses_segfault
    | some h => exact ⟨rfl, fun _ => trivial⟩

variable (drv : AmlUsbDrv)

lemma uses_rwLargeMemCmd (address size bulkSize cksum seqNum : ℕ) (doRead : Bool) :
    Calls (Uses drv.handle) (rwLargeMemCmd drv address size bulkSize cksum seqNum doRead) :=
  calls_bind (uses_usbDeviceIoControl _ _ _ _ _ _ _) fun _ => trivial

lemma uses_rwMediaCmd (address size seqNum cksum bulkSize : ℕ) (doRead : Bool)
    (timeout : ℕ) :
    Calls (Uses drv.handle)
      (rwMediaCmd drv address size seqNum cksum bulkSize doRead timeout) :=
  calls_bind (uses_usbDeviceIoControlEx _ _ _ _ _ _ _ _) fun _ => trivial

lemma uses_writeBulkUsb (buf : Bytes) (len : ℕ) :
    Calls (Uses drv.handle) (writeBulkUsb drv buf len) :=
  calls_bind (uses_usbWriteFile _ _ _ _) fun _ => trivial

lemma uses_readBulkUsb (buf : Bytes) (len : ℕ) :
    Calls (Uses drv.handle) (readBulkUsb drv buf len) :=
  calls_bind (uses_usbReadFile _ _ _ _) fun _ => trivial

lemma uses_rwCtrlUsb (ctrl : ℕ) (buf : Bytes) (len : ℕ) (doRead : Bool) :
    Calls (Uses drv.handle) (rwCtrlUsb drv ctrl buf len doRead) := by
  unfold rwCtrlUsb
  split_ifs
  · exact calls_bind (uses_usbDeviceIoControl _ _ _ _ _ _ _) fun _ => trivial
  · exact calls_bind (uses_usbDeviceIoControl _ _ _ _ _ _ _) fun _ => trivial

/-! ### What the loops call -/

lemma uses_ctrlRdWrTurn (len : ℤ) (doRead : Bool) (timeout : ℤ) (s : CtrlRdWr) :
    Calls (Uses handle) (ctrlRdWrTurn handle len doRead timeout s) := by
  unfold ctrlRdWrTurn
  split
  · refine calls_bind (uses_usbControlMsg _ _ _ _ _ _ _ _) fun r => ?_
    dsimp only
    split_ifs <;> trivial
  · trivial

lemma uses_memCtrTurn (doRead : Bool) (s : MemCtr) :
    Calls (Uses drv.handle) (memCtrTurn drv doRead s) := by
  simp only [memCtrTurn, controlUsb_eq]
  split_ifs
  · refine calls_bind (uses_rwCtrlUsb _ _ _ _ _) fun r => ?_
    split_ifs <;> trivial
  · trivial

lemma uses_writeDir (address cksum bufferLen : ℕ) (s : ℕ × LargeMem) :
    Calls (Uses drv.handle) (largeRound (writeDir drv address cksum) bufferLen s) :=
  calls_largeRound (fun _ _ _ => uses_rwLargeMemCmd _ _ _ _ _ _ _)
    (fun _ _ _ => calls_bind (uses_writeBulkUsb _ _ _) fun _ => calls_ret _) bufferLen s

lemma uses_readDir (address len cksum bufferLen : ℕ) (s : ℕ × LargeMem) :
    Calls (Uses drv.handle) (largeRound (readDir drv address len cksum) bufferLen s) :=
  calls_largeRound (fun _ _ _ => uses_rwLargeMemCmd _ _ _ _ _ _ _)
    (fun _ _ _ => calls_bind (uses_readBulkUsb _ _ _) fun _ => calls_ret _) bufferLen s

lemma uses_mediaPollTurn (startTime : ℤ) (s : MediaPoll) :
    Calls (Uses drv.handle) (mediaPollTurn drv startTime s) := by
  unfold mediaPollTurn
  split_ifs
  · refine calls_bind (uses_usbReadFile _ _ _ _) fun r => ?_
    dsimp only
    split_ifs <;> first | trivial | exact calls_bind (uses_getTickCount _) fun _ => trivial
  · trivial

lemma uses_writeMediaData (rom : AmlUsbRomRW) (turns addr : ℕ) :
    Calls (Uses drv.handle) (writeMediaData drv rom turns addr) := by
  unfold writeMediaData
  refine calls_bind (uses_usbWriteFile _ _ _ _) fun r => ?_
  split_ifs
  · trivial
  · trivial
  refine calls_bind (uses_getTickCount _) fun startTime => ?_
  exact calls_bind (calls_iterate (uses_mediaPollTurn _ startTime) _ _) fun p => trivial

lemma uses_writeMediaTurn (rom : AmlUsbRomRW) (cksum turns : ℕ) (s : ℕ × ℤ) :
    Calls (Uses drv.handle) (writeMediaTurn drv rom cksum turns s) := by
  unfold writeMediaTurn
  split_ifs
  · refine calls_bind (uses_rwMediaCmd _ _ _ _ _ _ _ _) fun ret => ?_
    split_ifs
    · trivial
    · exact uses_writeMediaData _ rom turns s.1
  · trivial

lemma uses_bulkPollTurn (startTime : ℤ) (s : BulkPoll) :
    Calls (Uses drv.handle) (bulkPollTurn drv startTime s) := by
  unfold bulkPollTurn
  split_ifs
  · refine calls_bind (uses_readBulkUsb _ _ _) fun r => ?_
    dsimp only
    split_ifs <;> first | trivial | exact calls_bind (uses_getTickCount _) fun _ => trivial
  · trivial

/-! ### What the BL2 commands call -/

lemma uses_csw (doSend doOkay : Bool) :
    Calls (Uses handle) (amlLibusbBl2Csw handle doSend doOkay) := by
  unfold amlLibusbBl2Csw
  dsimp only
  split_ifs
  · exact calls_bind (uses_usbBulkWrite _ _ _ _ _) fun _ => trivial
  · exact calls_bind (uses_usbBulkWrite _ _ _ _ _) fun _ => trivial
  · exact calls_bind (uses_usbBulkRead _ _ _ _ _) fun _ => trivial

lemma uses_downloadTurn (param : AmlBl2Cmd) (s : Download) :
    Calls (Uses handle) (downloadTurn handle param s) := by
  unfold downloadTurn
  split
  · refine calls_bind (uses_usbControlMsg _ _ _ _ _ _ _ _) fun r => ?_
    split
    · trivial
    refine calls_bind (uses_fread _ _ _) fun d => ?_
    dsimp only
    split
    · trivial
    refine calls_bind (uses_usbBulkWrite _ _ _ _ _) fun ret => ?_
    split
    · trivial
    refine calls_bind (uses_csw _ _ _) fun ret => ?_
    split <;> trivial
  · trivial

lemma uses_secureDownload (file : File) (buf : Bytes) (param : AmlBl2Cmd) :
    Calls (Uses handle) (amlLibusbBl2SecureDownload handle file buf param) := by
  unfold amlLibusbBl2SecureDownload
  refine calls_bind (calls_iterate (uses_downloadTurn handle param) _ _) fun l => ?_
  dsimp only
  split_ifs
  · trivial
  refine calls_bind (uses_usbControlMsg _ _ _ _ _ _ _ _) fun r => ?_
  split_ifs
  · trivial
  refine calls_bind (uses_usbBulkWrite _ _ _ _ _) fun ret => ?_
  split_ifs
  · trivial
  · exact calls_bind (uses_csw _ _ _) fun _ => trivial

lemma uses_cmdParser (cmd : ℤ) (param : AmlBl2Cmd) :
    Calls (Uses handle) (amlLibusbBl2CmdParser handle cmd param) := by
  unfold amlLibusbBl2CmdParser
  refine calls_bind (uses_usbControlMsg _ _ _ _ _ _ _ _) fun r => ?_
  split_ifs
  · trivial
  refine calls_bind (uses_usbBulkRead _ _ _ _ _) fun r => ?_
  split_ifs
  · trivial
  · exact calls_bind (uses_csw _ _ _) fun _ => trivial

lemma uses_bootTurn (s : Session) : Calls (Uses handle) (bootTurn handle s) := by
  unfold bootTurn
  refine calls_bind (uses_cmdParser _ _ _) fun r => ?_
  dsimp only
  split_ifs
  iterate 4 trivial
  refine calls_bind (uses_secureDownload _ _ _ _) fun r => ?_
  split_ifs <;> trivial

lemma uses_testTurn (dataSize timeout : ℤ) (s : Test) :
    Calls (Uses handle) (testTurn handle dataSize timeout s) := by
  unfold testTurn
  split_ifs
  · refine calls_bind (uses_usbControlMsg _ _ _ _ _ _ _ _) fun r => ?_
    split_ifs
    · trivial
    refine calls_bind (uses_fread _ _ _) fun d => ?_
    dsimp only
    split_ifs
    · trivial
    refine calls_bind (uses_usbBulkWrite _ _ _ _ _) fun ret => ?_
    split_ifs
    · trivial
    refine calls_bind (uses_csw _ _ _) fun ret => ?_
    split_ifs <;> trivial
  · trivial

lemma uses_testDownload (file : File) (buf cbw : Bytes) (timeout : ℤ) :
    Calls (Uses handle) (testDownload handle file buf cbw timeout) := by
  unfold testDownload
  split_ifs
  · trivial
  refine calls_bind (uses_csw _ _ _) fun ret => ?_
  split_ifs
  · trivial
  refine calls_bind (calls_iterate (uses_testTurn _ _ _) _ _) fun l => ?_
  dsimp only
  split_ifs
  · trivial
  refine calls_bind (uses_usbControlMsg _ _ _ _ _ _ _ _) fun r => ?_
  split_ifs
  · trivial
  refine calls_bind (uses_usbBulkWrite _ _ _ _ _) fun ret => ?_
  split_ifs
  · trivial
  · exact calls_bind (uses_csw _ _ _) fun _ => trivial

end Uses

/-! ### Without a handle -/

/-- The program can be driven to read through `NULL`. -/
def Crashes {α : Type} (p : Program α) : Prop := ∃ t, Issues p t .nullHandle

/-- The program can be driven to a read through `NULL` or to its end. -/
def Ends {α : Type} (p : Program α) : Prop := Crashes p ∨ ∃ t a, Runs p t a

lemma crashes_segfault {α : Type} : Crashes (segfault : Program α) := ⟨[], _, .refl _⟩

lemma Crashes.bind {α β : Type} {p : Program α} (hp : Crashes p) (f : α → Program β) :
    Crashes (p >>= f) := by
  obtain ⟨t, h⟩ := hp
  exact ⟨t, h.bind f⟩

lemma crashes_run {α β : Type} {p : Program α} {f : α → Program β} {t : Trace} {a : α}
    (hp : Runs p t a) (hf : Crashes (f a)) : Crashes (p >>= f) := by
  obtain ⟨t', h'⟩ := hf
  exact ⟨_, hp.issues_bind h'⟩

lemma ends_ret {α : Type} (a : α) : Ends (.ret a : Program α) := .inr ⟨[], a, .ret a⟩

lemma crashes_bind {α β : Type} {p : Program α} {f : α → Program β} (hp : Ends p)
    (hf : ∀ a, Crashes (f a)) : Crashes (p >>= f) := by
  rcases hp with h | ⟨t, a, h⟩
  · exact h.bind f
  · exact crashes_run h (hf a)

lemma ends_of_returns {α : Type} {p : Program α} (hp : Returns p) : Ends p := by
  rcases hp.ends with h | ⟨t, o, hi, ho⟩
  · exact .inr h
  · refine .inl ⟨t, ?_⟩
    cases o with
    | nullHandle => exact hi
    | libusbOpen => exact (ho ⟨none⟩).elim
    | libusbClose => exact (ho ⟨()⟩).elim
    | libusbReset => exact (ho ⟨none⟩).elim
    | controlOut => exact (ho ⟨⟨none, 0⟩⟩).elim
    | controlIn => exact (ho ⟨⟨none, [], Nat.zero_le _⟩⟩).elim
    | bulkOut => exact (ho ⟨⟨none, 0⟩⟩).elim
    | bulkIn => exact (ho ⟨⟨none, [], Nat.zero_le _⟩⟩).elim
    | fopen => exact (ho ⟨true⟩).elim
    | fread => exact (ho ⟨0⟩).elim
    | fwrite => exact (ho ⟨0⟩).elim
    | clock => exact (ho ⟨0⟩).elim

/-- A loop whose first turn crashes or is its last. -/
lemma ends_iterate {σ β : Type} {body : σ → Program (Loop σ β)} {s : σ} (n : ℕ)
    (h : Crashes (body s) ∨ ∃ b, body s = .ret (.done b)) : Ends (iterate body (n + 1) s) := by
  rw [iterate]
  rcases h with h | ⟨b, h⟩
  · exact .inl (h.bind _)
  · rw [h]
    exact ends_ret b

lemma crashes_close {α : Type} {drv : AmlUsbDrv} {f : ℕ × AmlUsbDrv → Program α}
    (hd : drv.device ≠ .null) (hh : drv.handle = none) :
    Crashes (closeUsbDevice drv >>= f) := by
  rw [closeUsbDevice_none hd hh, segfault_bind]
  exact crashes_segfault

/-- On a `NULL` handle a request reads through it or fails without a call. -/
lemma crashes_or_refused {code : Ioctl} {p : Program (ℕ × UsbDevIoCtrl)}
    (hp : Handled none code p) : Crashes p ∨ ∃ ctrl, p = .ret (0, ctrl) := by
  cases hp with
  | refused ctrl => exact .inr ⟨ctrl, rfl⟩
  | requested h wValue wIndex bytes size timeout result => exact .inl (crashes_segfault.bind _)

lemma usbDeviceIoControl_null (drv : AmlUsbDrv) (hh : drv.handle = none) (code : Ioctl)
    (inBuf : Option Bytes) (inLen : ℕ) (outBuf : Option Bytes) (outLen bytesReturned : ℕ) :
    let p := usbDeviceIoControl drv code inBuf inLen outBuf outLen bytesReturned
    Crashes p ∨ ∃ ctrl, p = .ret (0, ctrl) :=
  crashes_or_refused
    (hh ▸ usbDeviceIoControl_handled drv code inBuf inLen outBuf outLen bytesReturned)

lemma usbDeviceIoControlEx_null (drv : AmlUsbDrv) (hh : drv.handle = none) (code : Ioctl)
    (inBuf : Option Bytes) (inLen : ℕ) (outBuf : Option Bytes)
    (outLen bytesReturned timeout : ℕ) :
    let p := usbDeviceIoControlEx drv code inBuf inLen outBuf outLen bytesReturned timeout
    Crashes p ∨ ∃ ctrl, p = .ret (0, ctrl) :=
  crashes_or_refused
    (hh ▸ usbDeviceIoControlEx_handled drv code inBuf inLen outBuf outLen bytesReturned timeout)

lemma ends_of_null {α : Type} {p : Program (ℕ × α)} (h : Crashes p ∨ ∃ c, p = .ret (0, c)) :
    Ends p := by
  rcases h with h | ⟨c, rfl⟩
  · exact .inl h
  · exact ends_ret _

/-! ### Routines that open once -/

/-- The program opens the device, then is tidy with a handle and crashes without. -/
def Disciplined {α : Type} (dev : Device) (p : Program α) : Prop :=
  ∃ body : Option Handle → Program α, p = .call (.libusbOpen dev) body ∧
    (∀ h, WellUsed [⟨.libusbOpen dev, some h⟩] (body (some h))) ∧ Crashes (body none)

lemma Disciplined.ignored {α : Type} {dev : Device} {p : Program α} (hp : Disciplined dev p) :
    Disciplined dev (p >>= fun _ => .ret ()) := by
  obtain ⟨body, rfl, hgood, t, hcrash⟩ := hp
  refine ⟨fun handle => body handle >>= fun _ => .ret (), rfl, fun h => ?_, t, hcrash.bind _⟩
  exact sat_bind.mpr ((hgood h).mono fun _ _ hc => hc)

lemma onlyOpen_first (dev : Device) (h : Handle) :
    OnlyOpen h [⟨.libusbOpen dev, some h⟩] := by
  intro h'
  by_cases he : h' = h
  · simp [opened, closed, he]
  · simp [opened, closed, he, Ne.symm he]

section Disciplined

variable {α β : Type} {dev : Device} (hd : dev ≠ .null) {readEp writeEp : ℕ}
  {F : ℕ × AmlUsbDrv → Program α}
include hd

lemma disciplined_open
    (good : ∀ h t, OnlyOpen h t → WellUsed t (F (1, ⟨dev, some h, amEpIn, amEpOut⟩)))
    (crash : Crashes (F (1, ⟨dev, none, amEpIn, amEpOut⟩))) :
    Disciplined dev (openUsbDevice ⟨dev, none, readEp, writeEp⟩ >>= F) := by
  rw [openUsbDevice_eq hd]
  exact ⟨fun handle => F (1, ⟨dev, handle, amEpIn, amEpOut⟩), rfl,
    fun h => good h _ (onlyOpen_first dev h), crash⟩

/-- The usual routine: what it does with the handle, then the way out. -/
lemma disciplined_plain (inner : AmlUsbDrv → Program β) {g : β → α}
    (hF : ∀ handle, F (1, ⟨dev, handle, amEpIn, amEpOut⟩) =
      inner ⟨dev, handle, amEpIn, amEpOut⟩ >>= fun b =>
        closeUsbDevice ⟨dev, handle, amEpIn, amEpOut⟩ >>= fun _ => .ret (g b))
    (uses : ∀ drv : AmlUsbDrv, Calls (Uses drv.handle) (inner drv))
    (ends : Ends (inner ⟨dev, none, amEpIn, amEpOut⟩)) :
    Disciplined dev (openUsbDevice ⟨dev, none, readEp, writeEp⟩ >>= F) := by
  refine disciplined_open hd (fun h t ht => ?_) ?_
  · rw [hF]
    exact WellUsed.bind ht (uses ⟨dev, some h, amEpIn, amEpOut⟩)
      fun b t' ht' => WellUsed.close ht' hd rfl
  · rw [hF]
    exact crashes_bind ends fun b => crashes_close hd rfl

end Disciplined

/-! ### Each of them -/

section Each

variable {dev : Device} (hd : dev ≠ .null) {rom : AmlUsbRomRW} (hr : rom.device ≠ .null)

include hd in
lemma ctrlRdWr_disciplined (addr : ℕ) (buf : Bytes) (len : ℤ) (doRead : Bool) (timeout : ℤ) :
    Disciplined dev (amlLibusbCtrlRdWr dev addr buf len doRead timeout) := by
  refine disciplined_plain hd (fun drv => iterate (ctrlRdWrTurn drv.handle len doRead timeout)
    (len.toNat + 1) ⟨0, 0, addr, buf⟩) (fun _ => rfl)
    (fun drv => calls_iterate (uses_ctrlRdWrTurn drv.handle len doRead timeout) _ _)
    (ends_iterate _ ?_)
  unfold ctrlRdWrTurn
  split
  · exact .inl (Crashes.bind (p := segfault) crashes_segfault _)
  · exact .inr ⟨_, rfl⟩

include hd in
lemma password_disciplined (buf : Bytes) (size timeout : ℤ) :
    Disciplined dev (amlLibusbPassword dev buf size timeout) := by
  by_cases hs : 64 < size
  · refine disciplined_plain hd (fun _ => .ret ()) (g := fun _ => -703) (fun _ => ?_)
      (fun _ => trivial) (ends_ret ())
    simp [hs]
  · refine disciplined_plain hd (fun drv => usbControlMsg drv.handle vendorOut amReqPassword
      (charSum buf size) 0 buf size timeout) (g := Prod.fst) (fun _ => ?_)
      (fun drv => uses_usbControlMsg drv.handle _ _ _ _ _ _ _) (.inl crashes_segfault)
    simp [hs]

include hd in
lemma getChipinfo_disciplined (buf : Bytes) (size index timeout : ℤ) :
    Disciplined dev (amlLibusbGetChipinfo dev buf size index timeout) := by
  by_cases hs : 64 < size
  · refine disciplined_plain hd (fun _ => .ret ()) (g := fun _ => (-755, buf)) (fun _ => ?_)
      (fun _ => trivial) (ends_ret ())
    simp [hs]
  · refine disciplined_plain hd (fun drv => usbControlMsg drv.handle vendorIn amReqChipInfo
      0 index buf size timeout) (g := id) (fun _ => ?_)
      (fun drv => uses_usbControlMsg drv.handle _ _ _ _ _ _ _) (.inl crashes_segfault)
    simp [hs]

include hr in
lemma writeLargeMem_disciplined (writeSeqNum : ℕ) :
    Disciplined rom.device (amlUsbWriteLargeMem writeSeqNum rom) := by
  refine disciplined_plain hr (fun drv => iterate (largeRound (writeDir drv rom.address
    (checksum rom.buffer (i32 rom.bufferLen))) rom.bufferLen) 5
    (0, ⟨0, 0, -1, 0, writeSeqNum, rom.buffer⟩)) (fun _ => rfl) (fun h => ?_) ?_
  · exact calls_iterate (uses_writeDir _ _ _ _) _ _
  · exact ends_of_returns (rounds_return (writeDir_single rfl) (by norm_num) (by norm_num))

include hr in
lemma readLargeMem_disciplined (readSeqNum : ℕ) :
    Disciplined rom.device (amlUsbReadLargeMem readSeqNum rom) := by
  refine disciplined_plain hr (fun drv => iterate (largeRound (readDir drv rom.address
    rom.bufferLen 0) rom.bufferLen) 5 (0, ⟨0, 0, -1, 0, readSeqNum + 1, rom.buffer⟩))
    (fun _ => rfl) (fun h => ?_) ?_
  · exact calls_iterate (uses_readDir _ _ _ _ _) _ _
  · exact ends_of_returns (rounds_return (readDir_single rfl) (by norm_num) (by norm_num))

lemma ends_memCtr (doRead : Bool) (s : MemCtr) (n : ℕ) :
    Ends (iterate (memCtrTurn ⟨dev, none, amEpIn, amEpOut⟩ doRead) (n + 1) s) := by
  refine ends_iterate n ?_
  simp only [memCtrTurn, controlUsb_eq]
  split
  · cases doRead with
    | true =>
      dsimp only [rwCtrlUsb]
      rcases usbDeviceIoControl_null ⟨dev, none, amEpIn, amEpOut⟩ rfl _ _ _ _ _ _
        with h | ⟨ctrl, h⟩
      · exact .inl ((h.bind _).bind _)
      · rw [h]; exact .inr ⟨_, rfl⟩
    | false =>
      dsimp only [rwCtrlUsb]
      rcases usbDeviceIoControl_null ⟨dev, none, amEpIn, amEpOut⟩ rfl _ _ _ _ _ _
        with h | ⟨ctrl, h⟩
      · exact .inl ((h.bind _).bind _)
      · rw [h]; exact .inr ⟨_, rfl⟩
  · exact .inr ⟨_, rfl⟩

include hr in
lemma readMemCtr_disciplined : Disciplined rom.device (amlUsbReadMemCtr rom) :=
  disciplined_plain hr (fun drv => iterate (memCtrTurn drv true) (rom.bufferLen + 1)
    ⟨rom.bufferLen, 0, rom.address, rom.buffer⟩) (fun _ => rfl)
    (fun _ => calls_iterate (uses_memCtrTurn _ true) _ _) (ends_memCtr true _ _)

include hr in
lemma writeMemCtr_disciplined : Disciplined rom.device (amlUsbWriteMemCtr rom) :=
  disciplined_plain hr (fun drv => iterate (memCtrTurn drv false) (rom.bufferLen + 1)
    ⟨rom.bufferLen, 0, rom.address, rom.buffer⟩) (fun _ => rfl)
    (fun _ => calls_iterate (uses_memCtrTurn _ false) _ _) (ends_memCtr false _ _)

include hr in
lemma runBinCode_disciplined : Disciplined rom.device (amlUsbRunBinCode rom) :=
  disciplined_plain hr
    (fun drv => usbDeviceIoControl drv .runInAddr (some (le32 rom.address)) 4 none 0 0)
    (fun _ => rfl) (fun _ => uses_usbDeviceIoControl _ _ _ _ _ _ _)
    (ends_of_null (usbDeviceIoControl_null _ rfl _ _ _ _ _ _))

include hr in
lemma identifyHost_disciplined : Disciplined rom.device (amlUsbIdentifyHost rom) :=
  disciplined_plain hr (fun drv => usbDeviceIoControl drv .identifyHost none 0
      (some rom.buffer) rom.bufferLen rom.dataSize)
    (fun _ => rfl) (fun _ => uses_usbDeviceIoControl _ _ _ _ _ _ _)
    (ends_of_null (usbDeviceIoControl_null _ rfl _ _ _ _ _ _))

include hr in
lemma tplCmd_disciplined : Disciplined rom.device (amlUsbTplCmd rom) :=
  disciplined_plain hr (fun drv => usbDeviceIoControl drv .tplCmd (some rom.buffer)
      rom.bufferLen none 0 rom.dataSize)
    (fun _ => rfl) (fun _ => uses_usbDeviceIoControl _ _ _ _ _ _ _)
    (ends_of_null (usbDeviceIoControl_null _ rfl _ _ _ _ _ _))

include hr in
lemma readStatus_disciplined : Disciplined rom.device (amlUsbReadStatus rom) :=
  disciplined_plain hr (fun drv => usbDeviceIoControl drv .tplStatus (some rom.buffer) 4
      (some rom.buffer) rom.bufferLen rom.dataSize)
    (fun _ => rfl) (fun _ => uses_usbDeviceIoControl _ _ _ _ _ _ _)
    (ends_of_null (usbDeviceIoControl_null _ rfl _ _ _ _ _ _))

include hr in
lemma readStatusEx_disciplined (timeout : ℕ) :
    Disciplined rom.device (amlUsbReadStatusEx rom timeout) :=
  disciplined_plain hr (fun drv => usbDeviceIoControlEx drv .tplStatus (some rom.buffer) 4
      (some rom.buffer) rom.bufferLen rom.dataSize timeout)
    (fun _ => rfl) (fun _ => uses_usbDeviceIoControlEx _ _ _ _ _ _ _ _)
    (ends_of_null (usbDeviceIoControlEx_null _ rfl _ _ _ _ _ _ _))

include hr in
lemma ctrlWr_disciplined : Disciplined rom.device (amlUsbCtrlWr rom) :=
  disciplined_plain hr (fun drv => usbDeviceIoControlEx drv .writeMem (some rom.buffer)
      rom.bufferLen none 0 rom.dataSize 5000)
    (fun _ => rfl) (fun _ => uses_usbDeviceIoControlEx _ _ _ _ _ _ _ _)
    (ends_of_null (usbDeviceIoControlEx_null _ rfl _ _ _ _ _ _ _))

include hr in
lemma reset_disciplined : Disciplined rom.device (amlResetDev rom) := by
  rw [amlResetDev, if_neg hr]
  refine disciplined_plain hr resetDev (fun _ => rfl) (uses_resetDev) ?_
  unfold resetDev
  split
  · exact ends_ret _
  · exact .inl crashes_segfault

lemma rwMediaCmd_null (dev : Device) (address size seqNum cksum bulkSize : ℕ) (doRead : Bool)
    (timeout : ℕ) :
    let p := rwMediaCmd ⟨dev, none, amEpIn, amEpOut⟩ address size seqNum cksum bulkSize doRead
      timeout
    Crashes p ∨ p = .ret 0 := by
  dsimp only [rwMediaCmd]
  rcases usbDeviceIoControlEx_null ⟨dev, none, amEpIn, amEpOut⟩ rfl _ _ _ _ _ _ _
    with h | ⟨ctrl, h⟩
  · exact .inl (h.bind _)
  · rw [h]; exact .inr rfl

include hr in
lemma writeMedia_disciplined (turns : ℕ) : Disciplined rom.device (amlWriteMedia turns rom) := by
  refine disciplined_plain hr (fun drv => iterate (writeMediaTurn drv rom
    (checksum64K rom.buffer (i32 rom.bufferLen)) turns) 4 (0, 0)) (fun _ => rfl)
    (fun _ => calls_iterate (uses_writeMediaTurn _ rom _ turns) _ _) (ends_iterate 3 ?_)
  rw [writeMediaTurn, if_pos (by norm_num)]
  dsimp only [writeMediaCmd]
  rcases rwMediaCmd_null rom.device _ _ _ _ _ _ _ with h | h
  · exact .inl (h.bind _)
  · rw [h]; exact .inr ⟨_, rfl⟩

include hr in
lemma readMedia_disciplined : Disciplined rom.device (amlReadMedia rom) := by
  refine disciplined_open hr (fun h t ht => ?_) ?_
  · refine WellUsed.bind ht
      (uses_rwMediaCmd ⟨rom.device, some h, amEpIn, amEpOut⟩ 0 rom.bufferLen 0 0 0 true 5000)
      fun ret t₁ ht₁ => ?_
    split
    · exact WellUsed.close ht₁ hr rfl
    · refine WellUsed.bind ht₁ (uses_usbReadFile ⟨rom.device, some h, amEpIn, amEpOut⟩ _ _ _)
        fun r t₂ ht₂ => ?_
      dsimp only
      split_ifs <;> exact WellUsed.close ht₂ hr rfl
  · rcases rwMediaCmd_null rom.device 0 rom.bufferLen 0 0 0 true 5000 with hc | hc
    · exact hc.bind _
    · have hrun : Runs (readMediaCmd ⟨rom.device, none, amEpIn, amEpOut⟩ 0 rom.bufferLen 0 0 0
          5000) [] 0 := by
        rw [readMediaCmd, hc]
        exact .ret 0
      exact crashes_run hrun (crashes_close hr rfl)

include hr in
lemma bulkCmd_disciplined (turns : ℕ) : Disciplined rom.device (amlUsbBulkCmd turns rom) := by
  refine disciplined_open hr (fun h t ht => ?_) ?_
  · refine WellUsed.bind ht (uses_usbDeviceIoControlEx ⟨rom.device, some h, amEpIn, amEpOut⟩
      .bulkCmd1 _ _ _ _ _ _) fun r t₁ ht₁ => ?_
    dsimp only
    split
    · exact WellUsed.close ht₁ hr rfl
    · refine WellUsed.bind ht₁ (uses_getTickCount _) fun startTime t₂ ht₂ => ?_
      exact WellUsed.bind ht₂ (calls_iterate
        (uses_bulkPollTurn ⟨rom.device, some h, amEpIn, amEpOut⟩ startTime) _ _)
        fun p t₃ ht₃ => WellUsed.close ht₃ hr rfl
  · rcases usbDeviceIoControlEx_null ⟨rom.device, none, amEpIn, amEpOut⟩ rfl .bulkCmd1
      (some rom.buffer) rom.bufferLen none 0 rom.dataSize 5000 with hc | ⟨ctrl, hc⟩
    · exact hc.bind _
    · refine crashes_run (t := []) (a := (0, ctrl)) (hc ▸ .ret _) ?_
      exact crashes_close hr rfl

lemma runs_fopenRead_none (files : Files) (path : Bytes) :
    Runs (fopenRead files path) [⟨.fopen path false, false⟩] none :=
  runs_call.mpr ⟨false, [], rfl, .ret none⟩

include hd in
lemma bl2Test_disciplined (files : Files) (buf : Bytes) (timeout : ℤ) {argc : ℤ}
    (argv : List Bytes) (ha : ¬ argc ≤ 0) :
    Disciplined dev (amlLibusbBl2Test files buf dev timeout argc argv) := by
  refine disciplined_open hd (fun h t ht => ?_) ?_
  · dsimp only
    rw [if_neg one_ne_zero, if_neg ha]
    refine WellUsed.bind ht (uses_fopenRead _ _ _) fun file t₁ ht₁ => ?_
    refine WellUsed.bind ht₁ ?_ fun ret t₂ ht₂ => WellUsed.close ht₂ hd rfl
    cases file with
    | none => trivial
    | some file =>
      refine calls_bind (uses_usbControlMsg _ _ _ _ _ _ _ _) fun r => ?_
      split_ifs
      · trivial
      refine calls_bind (uses_usbBulkRead _ _ _ _ _) fun r => ?_
      split_ifs
      · trivial
      · exact uses_testDownload _ _ _ _ _
  · dsimp only
    rw [if_neg one_ne_zero, if_neg ha]
    exact crashes_run (runs_fopenRead_none files _) (crashes_close hd rfl)

include hd in
lemma bl2Boot_disciplined (files : Files) (buf : Bytes) (turns : ℕ) {argc : ℤ}
    (argv : List Bytes) (ha : ¬ argc ≤ 0) :
    Disciplined dev (amlLibusbBl2Boot files buf turns dev argc argv) := by
  refine disciplined_open hd (fun h t ht => ?_) ?_
  · dsimp only
    rw [if_neg one_ne_zero, if_neg ha]
    refine WellUsed.bind ht (uses_fopenRead _ _ _) fun file t₁ ht₁ => ?_
    refine WellUsed.bind ht₁ ?_ fun ret t₂ ht₂ => WellUsed.close ht₂ hd rfl
    cases file with
    | none => trivial
    | some file => exact calls_iterate (uses_bootTurn _) _ _
  · dsimp only
    rw [if_neg one_ne_zero, if_neg ha]
    exact crashes_run (runs_fopenRead_none files _) (crashes_close hd rfl)

end Each

/-! ### The entry points -/

/-- The functions that open the device, with their arguments. -/
inductive EntryPoint
  | ctrlRdWr (dev : Device) (addr : ℕ) (buf : Bytes) (len : ℤ) (doRead : Bool) (timeout : ℤ)
  | password (dev : Device) (buf : Bytes) (size timeout : ℤ)
  | getChipinfo (dev : Device) (buf : Bytes) (size index timeout : ℤ)
  | bl2Test (files : Files) (buf : Bytes) (dev : Device) (timeout argc : ℤ) (argv : List Bytes)
  | bl2Boot (files : Files) (buf : Bytes) (turns : ℕ) (dev : Device) (argc : ℤ)
    (argv : List Bytes)
  | writeLargeMem (writeSeqNum : ℕ) (rom : AmlUsbRomRW)
  | readLargeMem (readSeqNum : ℕ) (rom : AmlUsbRomRW)
  | readMemCtr (rom : AmlUsbRomRW)
  | writeMemCtr (rom : AmlUsbRomRW)
  | runBinCode (rom : AmlUsbRomRW)
  | identifyHost (rom : AmlUsbRomRW)
  | tplCmd (rom : AmlUsbRomRW)
  | readStatus (rom : AmlUsbRomRW)
  | readStatusEx (rom : AmlUsbRomRW) (timeout : ℕ)
  | reset (rom : AmlUsbRomRW)
  | writeMedia (turns : ℕ) (rom : AmlUsbRomRW)
  | readMedia (rom : AmlUsbRomRW)
  | bulkCmd (turns : ℕ) (rom : AmlUsbRomRW)
  | ctrlWr (rom : AmlUsbRomRW)

def ignore {α : Type} (p : Program α) : Program Unit := p >>= fun _ => .ret ()

namespace EntryPoint

def device : EntryPoint → Device
  | ctrlRdWr dev .. | password dev .. | getChipinfo dev .. | bl2Test _ _ dev ..
  | bl2Boot _ _ _ dev .. => dev
  | writeLargeMem _ rom | readLargeMem _ rom | readMemCtr rom | writeMemCtr rom | runBinCode rom
  | identifyHost rom | tplCmd rom | readStatus rom | readStatusEx rom _ | reset rom
  | writeMedia _ rom | readMedia rom | bulkCmd _ rom | ctrlWr rom => rom.device

/-- The call, its results dropped. -/
def run : EntryPoint → Program Unit
  | ctrlRdWr dev addr buf len doRead timeout =>
    ignore (amlLibusbCtrlRdWr dev addr buf len doRead timeout)
  | password dev buf size timeout => ignore (amlLibusbPassword dev buf size timeout)
  | getChipinfo dev buf size index timeout =>
    ignore (amlLibusbGetChipinfo dev buf size index timeout)
  | bl2Test files buf dev timeout argc argv =>
    ignore (amlLibusbBl2Test files buf dev timeout argc argv)
  | bl2Boot files buf turns dev argc argv =>
    ignore (amlLibusbBl2Boot files buf turns dev argc argv)
  | writeLargeMem writeSeqNum rom => ignore (amlUsbWriteLargeMem writeSeqNum rom)
  | readLargeMem readSeqNum rom => ignore (amlUsbReadLargeMem readSeqNum rom)
  | readMemCtr rom => ignore (amlUsbReadMemCtr rom)
  | writeMemCtr rom => ignore (amlUsbWriteMemCtr rom)
  | runBinCode rom => ignore (amlUsbRunBinCode rom)
  | identifyHost rom => ignore (amlUsbIdentifyHost rom)
  | tplCmd rom => ignore (amlUsbTplCmd rom)
  | readStatus rom => ignore (amlUsbReadStatus rom)
  | readStatusEx rom timeout => ignore (amlUsbReadStatusEx rom timeout)
  | reset rom => ignore (amlResetDev rom)
  | writeMedia turns rom => ignore (amlWriteMedia turns rom)
  | readMedia rom => ignore (amlReadMedia rom)
  | bulkCmd turns rom => ignore (amlUsbBulkCmd turns rom)
  | ctrlWr rom => ignore (amlUsbCtrlWr rom)

/-- A BL2 command given no image path. -/
def NoImage : EntryPoint → Prop
  | bl2Test _ _ _ _ argc _ | bl2Boot _ _ _ _ argc _ => argc ≤ 0
  | _ => False

end EntryPoint

open EntryPoint

/-- With an image path, the entry points are all disciplined. -/
lemma run_disciplined {e : EntryPoint} (hd : e.device ≠ .null) (hn : ¬ e.NoImage) :
    Disciplined e.device e.run := by
  cases e with
  | ctrlRdWr => exact (ctrlRdWr_disciplined hd _ _ _ _ _).ignored
  | password => exact (password_disciplined hd _ _ _).ignored
  | getChipinfo => exact (getChipinfo_disciplined hd _ _ _ _).ignored
  | bl2Test => exact (bl2Test_disciplined hd _ _ _ _ hn).ignored
  | bl2Boot => exact (bl2Boot_disciplined hd _ _ _ _ hn).ignored
  | writeLargeMem => exact (writeLargeMem_disciplined hd _).ignored
  | readLargeMem => exact (readLargeMem_disciplined hd _).ignored
  | readMemCtr => exact (readMemCtr_disciplined hd).ignored
  | writeMemCtr => exact (writeMemCtr_disciplined hd).ignored
  | runBinCode => exact (runBinCode_disciplined hd).ignored
  | identifyHost => exact (identifyHost_disciplined hd).ignored
  | tplCmd => exact (tplCmd_disciplined hd).ignored
  | readStatus => exact (readStatus_disciplined hd).ignored
  | readStatusEx => exact (readStatusEx_disciplined hd _).ignored
  | reset => exact (reset_disciplined hd).ignored
  | writeMedia => exact (writeMedia_disciplined hd _).ignored
  | readMedia => exact (readMedia_disciplined hd).ignored
  | bulkCmd => exact (bulkCmd_disciplined hd _).ignored
  | ctrlWr => exact (ctrlWr_disciplined hd).ignored

/-- Without an image path, the BL2 commands return as soon as the device is open. -/
lemma run_noImage {e : EntryPoint} (hd : e.device ≠ .null) (hn : e.NoImage) :
    e.run = .call (.libusbOpen e.device) fun _ => .ret () := by
  cases e with
  | bl2Test _ _ dev _ argc _ =>
    have hd' : dev ≠ .null := hd
    have hn' : argc ≤ 0 := hn
    simp [run, ignore, amlLibusbBl2Test, openUsbDevice_eq hd', hn', EntryPoint.device]
  | bl2Boot _ _ _ dev argc _ =>
    have hd' : dev ≠ .null := hd
    have hn' : argc ≤ 0 := hn
    simp [run, ignore, amlLibusbBl2Boot, openUsbDevice_eq hd', hn', EntryPoint.device]
  | _ => exact hn.elim

lemma ignored_null {α : Type} {dev : Device} (hd : dev = .null) {readEp writeEp : ℕ}
    {F : ℕ × AmlUsbDrv → Program α} (hF : ∀ drv, ∃ a, F (0, drv) = .ret a) :
    (openUsbDevice ⟨dev, none, readEp, writeEp⟩ >>= F) >>= (fun _ => (.ret () : Program Unit)) =
      .ret () := by
  obtain ⟨a, ha⟩ := hF ⟨.null, none, readEp, writeEp⟩
  rw [hd, openUsbDevice_null, Prog.ret_bind, ha, Prog.ret_bind]

/-- On no device the entry points return at once. -/
lemma run_null {e : EntryPoint} (hd : e.device = .null) : e.run = .ret () := by
  cases e with
  | reset rom =>
    have hr : rom.device = .null := hd
    simp [run, ignore, amlResetDev, hr]
  | _ => exact ignored_null hd fun _ => ⟨_, rfl⟩

/-! ### The life of the handle -/

/-- What has happened once the device has been asked to open. -/
def opening (dev : Device) (r : Option Handle) : Trace :=
  if dev = .null then [] else [⟨.libusbOpen dev, r⟩]

/-- After this answer to the opening, and whatever comes then: calls only go to open handles,
and on return each handle has been closed as often as it was handed out. -/
def HandlesKept (e : EntryPoint) (r : Option Handle) : Prop :=
  (∀ t o, Issues e.run (opening e.device r ++ t) o → Safe (opening e.device r ++ t) o) ∧
    ∀ t, Runs e.run (opening e.device r ++ t) () →
      ∀ h, closed h (opening e.device r ++ t) = opened h (opening e.device r ++ t)

/-- The device is there and opens, and the BL2 commands have an image path; or nothing was
opened that is used later. -/
def Fits (e : EntryPoint) (r : Option Handle) : Prop :=
  e.device = .null ∨ (e.NoImage ∧ r = none) ∨ (¬ e.NoImage ∧ r ≠ none)

/-- **The life of the handle.** An entry point keeps the discipline exactly when the opening
succeeds and, for the BL2 commands, an image path is given; a BL2 command without one keeps it
exactly when the opening fails. -/
theorem handlesKept_iff (e : EntryPoint) (r : Option Handle) : HandlesKept e r ↔ Fits e r := by
  by_cases hd : e.device = .null
  · refine ⟨fun _ => .inl hd, fun _ => ?_⟩
    rw [HandlesKept, run_null hd, opening, if_pos hd]
    refine ⟨fun t o hi => (not_issues_ret hi).elim, fun t ht h => ?_⟩
    obtain ⟨rfl, -⟩ := runs_ret.mp ht
    rfl
  have hopen : opening e.device r = [⟨.libusbOpen e.device, r⟩] := if_neg hd
  by_cases hn : e.NoImage
  · -- the command returns with what it was handed
    have hrun := run_noImage hd hn
    have hret : Runs e.run (opening e.device r ++ []) () := by
      rw [hrun, hopen]
      exact runs_call.mpr ⟨r, [], rfl, .ret ()⟩
    refine ⟨fun hk => .inr (.inl ⟨hn, ?_⟩), fun hf => ?_⟩
    · cases r with
      | none => rfl
      | some h =>
        have hc := hk.2 [] hret h
        rw [hopen] at hc
        simp [closed, opened] at hc
    · have hr : r = none := by
        rcases hf with hf | ⟨-, hr⟩ | ⟨hn', -⟩
        · exact absurd hf hd
        · exact hr
        · exact absurd hn hn'
      subst hr
      rw [HandlesKept, hrun, hopen]
      refine ⟨fun t o hi => ?_, fun t ht h => ?_⟩
      · rcases issues_call.mp hi with ⟨ht, -⟩ | ⟨r, t', -, hi'⟩
        · cases ht
        · exact (not_issues_ret hi').elim
      · obtain ⟨r, t', he, ht'⟩ := runs_call.mp ht
        obtain ⟨rfl, -⟩ := runs_ret.mp ht'
        obtain rfl : t = [] := by simpa using congrArg List.tail he
        simp [closed, opened]
  · obtain ⟨body, hrun, hgood, t, hcrash⟩ := run_disciplined hd hn
    refine ⟨fun hk => .inr (.inr ⟨hn, ?_⟩), fun hf => ?_⟩
    · rintro rfl
      refine hk.1 t .nullHandle ?_
      rw [hrun, hopen]
      exact issues_call.mpr (.inr ⟨none, t, rfl, hcrash⟩)
    · obtain ⟨h, rfl⟩ : ∃ h, r = some h := by
        rcases hf with hf | ⟨hn', -⟩ | ⟨-, hr⟩
        · exact absurd hf hd
        · exact absurd hn' hn
        · exact Option.ne_none_iff_exists'.mp hr
      rw [HandlesKept, hrun, hopen]
      refine ⟨fun t o hi => ?_, fun t ht h' => ?_⟩
      · rcases issues_call.mp hi with ⟨ht, -⟩ | ⟨r', t', he, hi'⟩
        · cases ht
        · obtain ⟨rfl, rfl⟩ : r' = some h ∧ t' = t := by
            injection he with h₁ h₂
            injection h₁ with _ h₃
            exact ⟨h₃.symm, h₂.symm⟩
          exact (hgood h).issues hi'
      · obtain ⟨r', t', he, ht'⟩ := runs_call.mp ht
        obtain ⟨rfl, rfl⟩ : r' = some h ∧ t' = t := by
          injection he with h₁ h₂
          injection h₁ with _ h₃
          exact ⟨h₃.symm, h₂.symm⟩
        exact (hgood h).runs ht' h'

/-- The opening fails and the handle is used all the same; or it succeeds and the handle is
never closed. -/
theorem handles_not_kept :
    ¬ (∀ e r, HandlesKept e r) ∧
      Issues (EntryPoint.run (.reset ⟨.dev 0, 0, [], 0, 0⟩)) [⟨.libusbOpen (.dev 0), none⟩]
        .nullHandle ∧
      Runs (EntryPoint.run (.bl2Boot (fun _ => []) [] 0 (.dev 0) 0 []))
        [⟨.libusbOpen (.dev 0), some 7⟩] () := by
  have hissue : Issues (EntryPoint.run (.reset ⟨.dev 0, 0, [], 0, 0⟩))
      [⟨.libusbOpen (.dev 0), none⟩] .nullHandle :=
    issues_call.mpr (.inr ⟨none, [], rfl, _, .refl _⟩)
  refine ⟨fun hk => ?_, hissue, runs_call.mpr ⟨some 7, [], rfl, .ret ()⟩⟩
  exact (hk (.reset ⟨.dev 0, 0, [], 0, 0⟩) none).1 [] .nullHandle hissue

end AmlogicUpdate.Handles

import AmlogicUpdate.ScanCallers

/-!
What each command can do to a board and to the files.

A command makes requests of a few kinds only. That holds whatever the board answers and whatever
stands on the command line, so it can be read off the calls the routines are made of. The kinds are
put down in a table, and each entry of it is one that some run needs.
-/

namespace AmlogicUpdate.Privileges

open Interaction CData Usb AmlLibusb Bl2 UsbRomDrv LargeMem BulkCmd
open Update hiding updateSubCmdRunAndRreg updateSubCmdReadWrite mwriteData doCmdMwrtie
open TextCommands hiding mwriteArgv partition updateSubCmdMread
open Host Serial Arguments ChipCommands CommandLine

/-! ### Kinds of calls -/

/-- What a call does: a control request by its number, a bulk transfer by its endpoint, a reset, a
file read or written, or a look at the clock. -/
inductive Kind
  | request (req : ℕ)
  | query (req : ℕ)
  | bulkOut (ep : ℕ)
  | bulkIn (ep : ℕ)
  | reset
  | load
  | save
  | clock
  deriving DecidableEq

/-- Opening and closing are of no kind. -/
def kind : Op → Option Kind
  | .controlOut _ s _ _ => some (.request s.bRequest)
  | .controlIn _ s _ => some (.query s.bRequest)
  | .bulkOut _ ep _ _ _ => some (.bulkOut ep)
  | .bulkIn _ ep _ _ => some (.bulkIn ep)
  | .libusbReset _ => some .reset
  | .fopen _ write => some (if write then .save else .load)
  | .fread _ _ => some .load
  | .fwrite _ => some .save
  | .clock => some .clock
  | .libusbOpen _ | .libusbClose _ | .nullHandle => none

/-- The call is of one of these kinds. -/
def Of (ks : List Kind) (o : Op) : Prop := ∀ k, kind o = some k → k ∈ ks

lemma of_some {ks : List Kind} {o : Op} {k : Kind} (ho : kind o = some k) (hk : k ∈ ks) :
    Of ks o := by
  intro k' hk'
  obtain rfl := Option.some.inj (ho.symm.trans hk')
  exact hk

lemma of_none {ks : List Kind} {o : Op} (ho : kind o = none) : Of ks o := by
  intro k hk
  rw [ho] at hk
  cases hk

lemma calls_more {α : Type} {ks ks' : List Kind} {p : Program α} (hp : Calls (Of ks) p)
    (hks : ks ⊆ ks') : Calls (Of ks') p :=
  hp.mono fun _ ho k hk => hks (ho k hk)

/-! ### Requests -/

section Requests

variable {ks : List Kind} {handle : Option Handle}

lemma of_segfault {α : Type} : Calls (Of ks) (segfault : Program α) :=
  ⟨of_none rfl, fun e => e.elim⟩

/-- The kind of a control request. -/
def control (requestType req : ℕ) : Kind :=
  if requestType.testBit 7 then .query (req % 2 ^ 8) else .request (req % 2 ^ 8)

lemma of_usbControlMsg {requestType req : ℕ} {wValue wIndex : ℤ} {bytes : Bytes} {size timeout : ℤ}
    (h : control requestType req ∈ ks) :
    Calls (Of ks) (usbControlMsg handle requestType req wValue wIndex bytes size timeout) := by
  cases handle with
  | none => exact of_segfault
  | some hd =>
    unfold control at h
    unfold usbControlMsg
    dsimp only
    split_ifs at h ⊢
    · exact ⟨of_some rfl h, fun _ => trivial⟩
    · exact ⟨of_some rfl h, fun _ => trivial⟩

lemma of_usbBulkRead {bytes : Bytes} {size : ℕ} {timeout : ℤ} (h : .bulkIn amEpIn ∈ ks) :
    Calls (Of ks) (usbBulkRead handle amEpIn bytes size timeout) := by
  cases handle with
  | none => exact of_segfault
  | some hd => exact ⟨of_some rfl h, fun _ => trivial⟩

lemma of_usbBulkWrite {bytes : Bytes} {size : ℕ} {timeout : ℤ} (h : .bulkOut amEpOut ∈ ks) :
    Calls (Of ks) (usbBulkWrite handle amEpOut bytes size timeout) := by
  cases handle with
  | none => exact of_segfault
  | some hd => exact ⟨of_some rfl h, fun _ => trivial⟩

/-- The kind of the request a control code stands for. -/
def requested (code : Ioctl) : List Kind :=
  ((Wire.ioctlRequest code).map fun r => control r.1 r.2).toList

lemma of_handled {code : Ioctl} {p : Program (ℕ × UsbDevIoCtrl)}
    (hp : Wire.Handled handle code p) : Calls (Of (requested code)) p := by
  cases hp with
  | refused ctrl => trivial
  | requested h wValue wIndex bytes size timeout result =>
    exact calls_bind (of_usbControlMsg (by simp [requested, h])) fun _ => trivial

lemma of_usbDeviceIoControl (drv : AmlUsbDrv) (code : Ioctl) (inBuf : Option Bytes) (inLen : ℕ)
    (outBuf : Option Bytes) (outLen bytesReturned : ℕ) :
    Calls (Of (requested code))
      (usbDeviceIoControl drv code inBuf inLen outBuf outLen bytesReturned) :=
  of_handled (Wire.usbDeviceIoControl_handled drv code inBuf inLen outBuf outLen bytesReturned)

lemma of_usbDeviceIoControlEx (drv : AmlUsbDrv) (code : Ioctl) (inBuf : Option Bytes)
    (inLen : ℕ) (outBuf : Option Bytes) (outLen bytesReturned timeout : ℕ) :
    Calls (Of (requested code))
      (usbDeviceIoControlEx drv code inBuf inLen outBuf outLen bytesReturned timeout) :=
  of_handled
    (Wire.usbDeviceIoControlEx_handled drv code inBuf inLen outBuf outLen bytesReturned timeout)

lemma of_closeUsbDevice (drv : AmlUsbDrv) : Calls (Of ks) (closeUsbDevice drv) := by
  refine calls_unless ?_
  cases drv.handle with
  | none => exact ⟨of_none rfl, fun e => e.elim⟩
  | some hd => exact ⟨of_none rfl, fun _ => trivial⟩

/-- On an open device the two endpoints are set. -/
lemma of_opened {α : Type} {dev : Device} {readEp writeEp : ℕ} {F : ℕ × AmlUsbDrv → Program α}
    (hF : ∀ drv : AmlUsbDrv, drv.readEp = amEpIn → drv.writeEp = amEpOut →
      Calls (Of ks) (F (1, drv)))
    (hfail : ∀ drv, Calls (Of ks) (F (0, drv))) :
    Calls (Of ks) (openUsbDevice ⟨dev, none, readEp, writeEp⟩ >>= F) := by
  unfold openUsbDevice
  split_ifs
  · exact hfail _
  · exact ⟨of_none rfl, fun _ => hF _ rfl rfl⟩

lemma of_closing {α : Type} {drv : AmlUsbDrv} {f : ℕ × AmlUsbDrv → α} :
    Calls (Of ks) (closeUsbDevice drv >>= fun r => (.ret (f r) : Program α)) :=
  calls_bind (of_closeUsbDevice drv) fun _ => trivial

lemma of_fopenRead (files : Files) (path : Bytes) (h : .load ∈ ks) :
    Calls (Of ks) (fopenRead files path) := ⟨of_some rfl h, fun _ => trivial⟩

lemma of_fopenWrite (path : Bytes) (h : .save ∈ ks) : Calls (Of ks) (fopenWrite path) :=
  ⟨of_some rfl h, fun _ => trivial⟩

lemma of_fread (f : File) (n : ℕ) (h : .load ∈ ks) : Calls (Of ks) (fread f n) :=
  ⟨of_some rfl h, fun _ => trivial⟩

lemma of_fwrite (data : Bytes) (h : .save ∈ ks) : Calls (Of ks) (fwrite data) :=
  ⟨of_some rfl h, fun _ => trivial⟩

lemma of_getTickCount (h : .clock ∈ ks) : Calls (Of ks) getTickCount :=
  ⟨of_some rfl h, fun _ => trivial⟩

lemma of_updateProgress (info : DownloadProgressInfo) (len : ℕ) (h : .clock ∈ ks) :
    Calls (Of ks) (info.updateProgress len) := by
  refine (info.updateProgress_calls len).mono fun o ho => ?_
  subst ho
  exact of_some rfl h

variable {drv : AmlUsbDrv}

lemma of_usbReadFile (hep : drv.readEp = amEpIn) (outBuf : Bytes) (outLen bytesReturned : ℕ)
    (h : .bulkIn amEpIn ∈ ks) : Calls (Of ks) (usbReadFile drv outBuf outLen bytesReturned) := by
  unfold usbReadFile
  rw [hep]
  exact calls_unless <| calls_bind (of_usbBulkRead h) fun _ => trivial

lemma of_usbWriteFile (hep : drv.writeEp = amEpOut) (inBuf : Bytes) (inLen bytesReturned : ℕ)
    (h : .bulkOut amEpOut ∈ ks) : Calls (Of ks) (usbWriteFile drv inBuf inLen bytesReturned) := by
  unfold usbWriteFile
  rw [hep]
  exact calls_unless <| calls_bind (of_usbBulkWrite h) fun _ => trivial

end Requests

/-! ### Routines -/

section Routines

variable (rom : AmlUsbRomRW)

lemma of_amlUsbRunBinCode : Calls (Of [.request amReqRunInAddr]) (amlUsbRunBinCode rom) :=
  of_opened (fun drv _ _ => calls_bind (of_usbDeviceIoControl drv .runInAddr _ _ _ _ _)
    fun _ => of_closing) fun _ => trivial

lemma of_amlUsbIdentifyHost : Calls (Of [.query amReqIdentifyHost]) (amlUsbIdentifyHost rom) :=
  of_opened (fun drv _ _ => calls_bind (of_usbDeviceIoControl drv .identifyHost _ _ _ _ _)
    fun _ => of_closing) fun _ => trivial

lemma of_amlUsbTplCmd : Calls (Of [.request amReqTplCmd]) (amlUsbTplCmd rom) :=
  of_opened (fun drv _ _ => calls_bind (of_usbDeviceIoControl drv .tplCmd _ _ _ _ _)
    fun _ => of_closing) fun _ => trivial

lemma of_amlUsbReadStatus : Calls (Of [.query amReqTplStat]) (amlUsbReadStatus rom) :=
  of_opened (fun drv _ _ => calls_bind (of_usbDeviceIoControl drv .tplStatus _ _ _ _ _)
    fun _ => of_closing) fun _ => trivial

lemma of_amlUsbCtrlWr : Calls (Of [.request amReqWriteMem]) (amlUsbCtrlWr rom) :=
  of_opened (fun drv _ _ => calls_bind (of_usbDeviceIoControlEx drv .writeMem _ _ _ _ _ _) fun _ =>
    of_closing) fun _ => trivial

lemma of_amlResetDev : Calls (Of [.reset]) (amlResetDev rom) := by
  refine calls_unless <| of_opened (fun drv _ _ => ?_) fun _ => trivial
  refine calls_bind (calls_unless ?_) fun _ => of_closing
  cases drv.handle with
  | none => exact of_segfault
  | some hd => exact ⟨of_some rfl List.mem_cons_self, fun _ => trivial⟩

lemma of_amlLibusbPassword (dev : Device) (buf : Bytes) (size timeout : ℤ) :
    Calls (Of [.request amReqPassword]) (amlLibusbPassword dev buf size timeout) := by
  refine of_opened (fun drv _ _ => calls_unless ?_) fun _ => trivial
  refine calls_ite (fun _ => of_closing) fun _ => ?_
  exact calls_bind (of_usbControlMsg (by decide)) fun _ => of_closing

lemma of_amlLibusbGetChipinfo (dev : Device) (buf : Bytes) (size index timeout : ℤ) :
    Calls (Of [.query amReqChipInfo]) (amlLibusbGetChipinfo dev buf size index timeout) := by
  refine of_opened (fun drv _ _ => calls_unless ?_) fun _ => trivial
  refine calls_ite (fun _ => of_closing) fun _ => ?_
  exact calls_bind (of_usbControlMsg (by decide)) fun _ => of_closing

/-- A memory request, in either direction. -/
def memory (doRead : Bool) : Kind := if doRead then .query amReqReadMem else .request amReqWriteMem

lemma of_amlLibusbCtrlRdWr (dev : Device) (addr : ℕ) (buf : Bytes) (len : ℤ) (doRead : Bool)
    (timeout : ℤ) :
    Calls (Of [memory doRead]) (amlLibusbCtrlRdWr dev addr buf len doRead timeout) := by
  refine of_opened (fun drv _ _ => calls_bind (calls_iterate (fun s => ?_) _ _) fun _ => of_closing)
    fun _ => trivial
  refine calls_ite (fun _ => calls_bind (of_usbControlMsg ?_) fun _ => ?_) fun _ => trivial
  · cases doRead <;> decide
  · exact calls_unless trivial

lemma of_rwLargeMemCmd (drv : AmlUsbDrv) (address size bulkSize cksum seqNum : ℕ) (doRead : Bool) :
    Calls (Of [.request (if doRead then amReqRdLargeMem else amReqWrLargeMem)])
      (rwLargeMemCmd drv address size bulkSize cksum seqNum doRead) := by
  refine calls_bind ?_ fun _ => trivial
  cases doRead
  · exact of_usbDeviceIoControl drv .writeLargeMem _ _ _ _ _
  · exact of_usbDeviceIoControl drv .readLargeMem _ _ _ _ _

lemma of_amlUsbWriteLargeMem (seqNum : ℕ) :
    Calls (Of [.request amReqWrLargeMem, .bulkOut amEpOut]) (amlUsbWriteLargeMem seqNum rom) := by
  refine of_opened (fun drv _ hep => calls_bind (calls_iterate (fun s => ?_) _ _) fun _ =>
    calls_bind (of_closeUsbDevice _) fun _ => trivial) fun _ => trivial
  refine calls_largeRound (fun _ _ _ => ?_) (fun _ _ _ => ?_) _ s
  · exact calls_more (of_rwLargeMemCmd drv _ _ _ _ _ false) (by simp)
  · refine calls_bind (calls_bind (of_usbWriteFile hep _ _ _ (by simp)) fun _ => trivial)
      fun _ => ?_
    exact calls_ret _

lemma of_amlUsbReadLargeMem (seqNum : ℕ) :
    Calls (Of [.request amReqRdLargeMem, .bulkIn amEpIn]) (amlUsbReadLargeMem seqNum rom) := by
  refine of_opened (fun drv hep _ => calls_bind (calls_iterate (fun s => ?_) _ _) fun _ =>
    calls_bind (of_closeUsbDevice _) fun _ => trivial) fun _ => trivial
  refine calls_largeRound (fun _ _ _ => ?_) (fun _ _ _ => ?_) _ s
  · exact calls_more (of_rwLargeMemCmd drv _ _ _ _ _ true) (by simp)
  · refine calls_bind (calls_bind (of_usbReadFile hep _ _ _ (by simp)) fun _ => trivial) fun _ => ?_
    exact calls_ret _

/-- The requests of `AmlWriteMedia`. -/
def media : List Kind := [.request amReqWriteMedia, .bulkOut amEpOut, .bulkIn amEpIn, .clock]

lemma of_amlWriteMedia (turns : ℕ) : Calls (Of media) (amlWriteMedia turns rom) := by
  refine of_opened (fun drv hin hout => calls_bind (calls_iterate (fun s => ?_) _ _) fun _ =>
    calls_bind (of_closeUsbDevice _) fun _ => trivial) fun _ => trivial
  refine calls_ite (fun _ => calls_bind ?_ fun _ => calls_unless ?_) fun _ => trivial
  · exact calls_bind (calls_more (of_usbDeviceIoControlEx drv .writeMedia _ _ _ _ _ _) (by decide))
      fun _ => trivial
  refine calls_bind (of_usbWriteFile hout _ _ _ (by decide)) fun _ => calls_unless <|
    calls_unless ?_
  refine calls_bind (of_getTickCount (by decide)) fun start => calls_bind (calls_iterate
    (fun s => ?_) _ _) fun _ => trivial
  refine calls_ite (fun _ => calls_bind (of_usbReadFile hin _ _ _ (by decide)) fun _ => ?_)
    fun _ => trivial
  refine calls_unless <| calls_unless ?_
  exact calls_unless <| calls_bind (of_getTickCount (by decide)) fun _ => trivial

lemma of_amlReadMedia : Calls (Of [.query amReqReadMedia, .bulkIn amEpIn]) (amlReadMedia rom) := by
  refine of_opened (fun drv hin _ => calls_bind ?_ fun _ => calls_ite (fun _ => of_closing)
    fun _ => ?_) fun _ => trivial
  · exact calls_bind (calls_more (of_usbDeviceIoControlEx drv .readMedia _ _ _ _ _ _) (by decide))
      fun _ => trivial
  · refine calls_bind (of_usbReadFile hin _ _ _ (by decide)) fun _ =>
      calls_bind (of_closeUsbDevice _) fun _ => ?_
    exact calls_unless <| calls_unless trivial

lemma of_amlUsbBulkCmd (turns : ℕ) :
    Calls (Of [.request amReqBulkCmd, .bulkIn amEpIn, .clock]) (amlUsbBulkCmd turns rom) := by
  refine of_opened (fun drv hin _ => calls_bind ?_ fun _ => calls_ite (fun _ => of_closing)
    fun _ => ?_) fun _ => trivial
  · exact calls_more (of_usbDeviceIoControlEx drv .bulkCmd1 _ _ _ _ _ _) (by decide)
  refine calls_bind (of_getTickCount (by decide)) fun start => calls_bind (calls_iterate
    (fun s => ?_) _ _) fun _ => of_closing
  refine calls_ite (fun _ => calls_bind (calls_bind (of_usbReadFile hin _ _ _ (by decide)) fun _ =>
    calls_ret _) fun _ => ?_) fun _ => trivial
  refine calls_unless <| calls_unless ?_
  exact calls_bind (of_getTickCount (by decide)) fun _ => trivial

end Routines

/-! ### Downloads -/

section Downloads

/-- The requests of the BL2 commands. -/
def session : List Kind :=
  [.load, .request amReqStart, .request amReqCmd4, .bulkIn amEpIn, .bulkOut amEpOut]

variable (handle : Option Handle)

lemma of_csw (doSend doOkay : Bool) :
    Calls (Of session) (amlLibusbBl2Csw handle doSend doOkay) := by
  refine calls_ite (fun _ => ?_) fun _ => ?_
  · exact calls_bind (of_usbBulkWrite (by decide)) fun _ => trivial
  · exact calls_bind (of_usbBulkRead (by decide)) fun _ => trivial

lemma of_secureDownload (file : File) (buf : Bytes) (param : AmlBl2Cmd) :
    Calls (Of session) (amlLibusbBl2SecureDownload handle file buf param) := by
  refine calls_bind (calls_iterate (fun s => ?_) _ _) fun _ => calls_unless ?_
  · refine calls_ite (fun _ => calls_bind (of_usbControlMsg (by decide)) fun _ => calls_unless <|
      calls_bind (of_fread _ _ (by decide)) fun _ => ?_) fun _ => trivial
    refine calls_unless <| calls_bind (of_usbBulkWrite (by decide)) fun _ => ?_
    refine calls_unless <| calls_bind (of_csw _ _ _) fun _ => ?_
    exact calls_unless trivial
  · refine calls_bind (of_usbControlMsg (by decide)) fun _ => calls_unless ?_
    refine calls_bind (of_usbBulkWrite (by decide)) fun _ => calls_unless ?_
    exact calls_bind (of_csw _ _ _) fun _ => trivial

lemma of_bootTurn (s : Session) : Calls (Of session) (bootTurn handle s) := by
  refine calls_bind (calls_bind (of_usbControlMsg (by decide)) fun _ => calls_unless <|
    calls_bind (of_usbBulkRead (by decide)) fun _ => calls_unless <| calls_bind (of_csw _ _ _)
    fun _ => trivial) fun _ => calls_unless ?_
  refine calls_unless <| calls_unless ?_
  refine calls_unless <| calls_bind (of_secureDownload _ _ _ _) fun _ => ?_
  exact calls_unless trivial

lemma of_testDownload (file : File) (buf cbw : Bytes) (timeout : ℤ) :
    Calls (Of session) (testDownload handle file buf cbw timeout) := by
  refine calls_unless <| calls_bind (of_csw _ _ _) fun _ => ?_
  refine calls_unless <| calls_bind (calls_iterate (fun s => ?_) _ _) fun _ => calls_unless ?_
  · refine calls_ite (fun _ => calls_bind (of_usbControlMsg (by decide)) fun _ => calls_unless <|
      calls_bind (of_fread _ _ (by decide)) fun _ => ?_) fun _ => trivial
    refine calls_unless <| calls_bind (of_usbBulkWrite (by decide)) fun _ => ?_
    refine calls_unless <| calls_bind (of_csw _ _ _) fun _ => ?_
    exact calls_unless trivial
  · refine calls_bind (of_usbControlMsg (by decide)) fun _ => calls_unless ?_
    refine calls_bind (of_usbBulkWrite (by decide)) fun _ => calls_unless ?_
    exact calls_bind (of_csw _ _ _) fun _ => trivial

lemma of_amlLibusbBl2Boot (files : Files) (buf : Bytes) (turns : ℕ) (dev : Device) (argc : ℤ)
    (argv : List Bytes) : Calls (Of session) (amlLibusbBl2Boot files buf turns dev argc argv) := by
  refine of_opened (fun drv _ _ => calls_unless <| calls_unless <|
    calls_bind (of_fopenRead _ _ (by decide)) fun file => ?_) fun _ => trivial
  refine calls_bind ?_ fun _ => of_closing
  cases file with
  | none => trivial
  | some f => exact calls_iterate (of_bootTurn _) _ _

lemma of_amlLibusbBl2Test (files : Files) (buf : Bytes) (dev : Device) (timeout argc : ℤ)
    (argv : List Bytes) :
    Calls (Of session) (amlLibusbBl2Test files buf dev timeout argc argv) := by
  refine of_opened (fun drv _ _ => calls_unless <| calls_unless <|
    calls_bind (of_fopenRead _ _ (by decide)) fun file => ?_) fun _ => trivial
  refine calls_bind ?_ fun _ => of_closing
  cases file with
  | none => trivial
  | some f =>
    refine calls_bind (of_usbControlMsg (by decide)) fun _ => calls_unless ?_
    refine calls_bind (of_usbBulkRead (by decide)) fun _ => calls_unless ?_
    exact of_testDownload _ _ _ _ _

end Downloads

/-! ### Loops -/

section Loops

variable {files : Files} {junk : ℕ → UInt8} {rom : AmlUsbRomRW}

lemma of_openSave {ks : List Kind} (saveFile : Option Bytes) (h : .save ∈ ks) :
    Calls (Of ks) (openSave saveFile) := by
  cases saveFile with
  | none => trivial
  | some path => exact of_fopenWrite path h

/-- `rreg` has no file to read from, and no turn gives it one. -/
lemma of_rreg (dev : Device) (save : Bool) (transferSize n : ℕ) {s : Rreg}
    (hs : s.readStream = none) :
    Calls (Of [.query amReqReadMem, .save])
      (iterate (rregTurn dev true save transferSize) n s) := by
  refine calls_iterate_of (I := fun s => s.readStream = none) (fun s hs => ?_) (fun s hs => ?_) n hs
  · unfold rregTurn
    simp only [hs, Prog.pure_eq_ret, Prog.ret_bind]
    refine calls_ite (fun _ => calls_bind ?_ fun _ => calls_unless ?_) fun _ => trivial
    · exact calls_more (of_amlLibusbCtrlRdWr dev _ _ _ true _) (by decide)
    · exact calls_bind (calls_ite (fun _ => of_fwrite _ (by decide)) fun _ => trivial)
        fun _ => trivial
  · unfold rregTurn
    simp only [hs, Prog.pure_eq_ret, Prog.ret_bind]
    refine always_ite (fun _ => always_then fun r => always_ite (fun _ => always_ret nofun)
      fun _ => always_then fun _ => always_ret ?_) fun _ => always_ret nofun
    rintro s' ⟨⟩
    rfl

/-- What `read` and `dump` do. -/
def download : List Kind := [.request amReqRdLargeMem, .bulkIn amEpIn, .save, .clock]

lemma of_dumpTurn (isDump save : Bool) (s : Dump) :
    Calls (Of download) (dumpTurn isDump save s) := by
  refine calls_ite (fun _ => calls_bind (calls_more (of_amlUsbReadLargeMem _ _) (by decide))
    fun _ => calls_unless <| calls_unless ?_) fun _ => trivial
  refine calls_bind (calls_ite (fun _ => of_fwrite _ (by decide)) fun _ => trivial) fun _ =>
    calls_unless ?_
  exact calls_bind (calls_ite (fun _ => of_updateProgress _ _ (by decide)) fun _ => trivial)
    fun _ => trivial

/-- What `write` and `cwr` send the pieces with. -/
def piece (isCwr : Bool) : List Kind :=
  if isCwr then [.load, .request amReqWriteMem]
  else [.load, .request amReqWrLargeMem, .bulkOut amEpOut]

lemma of_writeTurn (isCwr : Bool) (s : Write) : Calls (Of (piece isCwr)) (writeTurn isCwr s) := by
  have hload : .load ∈ piece isCwr := by cases isCwr <;> decide
  refine calls_ite (fun _ => calls_bind (of_fread _ _ hload) fun _ => calls_unless <| calls_bind ?_
    fun _ => calls_unless trivial) fun _ => trivial
  cases isCwr with
  | true => exact calls_bind (calls_more (of_amlUsbCtrlWr _) (by decide)) fun _ => trivial
  | false => exact calls_bind (calls_more (of_amlUsbWriteLargeMem _ _) (by decide)) fun _ => trivial

lemma of_writeMediaFile (turns : ℕ) (filename : Bytes) :
    Calls (Of (.load :: media)) (writeMediaFile files junk turns rom filename) := by
  refine calls_bind (of_fopenRead _ _ (by decide)) fun stream => ?_
  cases stream with
  | none => trivial
  | some f =>
    refine calls_bind (of_getTickCount (by decide)) fun _ => calls_bind
      (calls_iterate (fun s => ?_) _ _) fun _ => calls_bind (of_getTickCount (by decide))
        fun _ => trivial
    refine calls_ite (fun _ => calls_bind (of_fread _ _ (by decide)) fun _ =>
      calls_unless ?_) fun _ => trivial
    exact calls_bind (calls_more (of_amlWriteMedia _ _) (by decide)) fun _ => calls_unless trivial

lemma of_readMediaFile (turns : ℕ) (filename : Option Bytes) (size : ℤ) :
    Calls (Of [.query amReqReadMedia, .bulkIn amEpIn, .save, .clock])
      (readMediaFile junk turns rom filename size) := by
  refine calls_bind ?_ fun _ => calls_ite (fun _ => calls_bind (calls_iterate (fun s => ?_) _ _)
    fun _ => trivial) fun _ => trivial
  · cases filename with
    | none => trivial
    | some path => exact of_fopenWrite path (by decide)
  · refine calls_ite (fun _ => calls_bind (calls_more (of_amlReadMedia _) (by decide)) fun _ =>
      calls_unless ?_) fun _ => trivial
    refine calls_bind (calls_ite (fun _ => ?_) fun _ => trivial) fun _ => trivial
    exact calls_bind (of_fwrite _ (by decide)) fun _ => of_updateProgress _ _ (by decide)

lemma of_isFileFormatSparse (path : Bytes) :
    Calls (Of [.load]) (isFileFormatSparse files path) := by
  refine calls_bind (of_fopenRead _ _ (by decide)) fun stream => ?_
  cases stream with
  | none => trivial
  | some f => exact calls_bind (of_fread _ _ (by decide)) fun _ => trivial

lemma of_mwriteVerify (turns : ℕ) (verifyFile : Bytes) :
    Calls (Of [.load, .request amReqBulkCmd, .bulkIn amEpIn, .clock])
      (mwriteVerify files turns rom verifyFile) := by
  refine calls_bind (of_fopenRead _ _ (by decide)) fun stream => ?_
  cases stream with
  | none => trivial
  | some f => exact calls_bind (of_fread _ _ (by decide)) fun _ =>
      calls_bind (calls_more (of_amlUsbBulkCmd _ _) (by decide)) fun _ => trivial

lemma of_identifyHost (idLen : ℤ) (id : Option Bytes) :
    Calls (Of [.query amReqIdentifyHost]) (updateSubCmdIdentifyHost junk rom idLen id) :=
  calls_unless <| calls_bind (of_amlUsbIdentifyHost _) fun _ =>
    calls_unless <| calls_unless trivial

lemma of_chipid :
    Calls (Of [.query amReqIdentifyHost, .query amReqChipInfo, .query amReqReadMem])
      (updateSubCmdGetChipid junk rom) := by
  refine calls_bind (calls_more (of_identifyHost _ _) (by decide)) fun r => calls_unless <|
    calls_unless ?_
  dsimp only
  generalize i32 _ = idVer
  refine calls_unless <| calls_ite (fun _ => ?_) fun _ => ?_
  · exact calls_bind (calls_more (of_amlLibusbGetChipinfo _ _ _ _ _) (by decide)) fun _ => trivial
  · exact calls_bind (calls_more (of_amlLibusbCtrlRdWr _ _ _ _ true _) (by decide)) fun _ =>
      calls_unless trivial

/-- The requests of a TPL command and its reply. -/
def command : List Kind := [.request amReqTplCmd, .query amReqTplStat]

lemma of_tplcmd (cmd : Bytes) : Calls (Of command) (updateSubCmdTplcmd rom cmd) := by
  refine calls_bind (calls_more (of_amlUsbTplCmd _) (by decide)) fun _ => calls_ite
    (fun _ => calls_iterate (fun s => ?_) _ _) fun _ => trivial
  exact calls_ite (fun _ => calls_bind (calls_more (of_amlUsbReadStatus _) (by decide))
    fun _ => trivial) fun _ => trivial

lemma of_bulkcmd (turns : ℕ) (cmd : Bytes) :
    Calls (Of [.request amReqBulkCmd, .bulkIn amEpIn, .clock]) (bulkcmd turns rom cmd) :=
  calls_bind (of_amlUsbBulkCmd _ _) fun _ => trivial

/-- The command to burn a piece is never sent. -/
lemma of_amlUsbburn (seqNum : ℕ) (dev : Device) (filename : Bytes) (address : ℕ) (memType : Bytes)
    (nBytes : ℤ) (bulkSize : ℕ) (cksum : ℤ) :
    Calls (Of [.load, .request amReqWrLargeMem, .bulkOut amEpOut])
      (Burn.amlUsbburn files junk seqNum dev filename address memType nBytes bulkSize cksum) := by
  refine calls_unless <| calls_bind (of_fopenRead _ _ (by decide)) fun stream => ?_
  cases stream with
  | none => trivial
  | some f =>
    refine calls_bind (calls_iterate (fun s => ?_) _ _) fun _ => trivial
    refine calls_ite (fun _ => calls_bind (of_fread _ _ (by decide)) fun _ => calls_unless <|
      calls_bind ?_ fun _ => calls_unless trivial) fun _ => trivial
    refine calls_bind (calls_more (of_amlUsbWriteLargeMem _ _) (by decide)) fun _ =>
      calls_unless <| calls_bind (of_opened (fun drv _ _ => ?_) fun _ => trivial) fun _ => trivial
    dsimp only
    rw [Burn.tplCmd_refused]
    exact of_closing

end Loops

/-! ### Commands -/

/-- Requests of these kinds only. What else is asked of the surroundings leaves a board and the
files as they are. -/
def Grants (ks : List Kind) : HostOp → Prop
  | .inl o => Of ks o
  | .inr _ => True

section Grants

variable {ks ks' : List Kind}

lemma grants_usb {α : Type} {p : Program α} (h : Calls (Of ks) p) (hks : ks ⊆ ks') :
    Calls (Grants ks') (usb p) := calls_left (calls_more h hks)

/-- A part of what a command does. -/
lemma grants_part {α : Type} {p : Program α} {row : List Kind} (h : Calls (Of ks) p)
    (hrow : row ⊆ ks') (hks : ks ⊆ row) : Calls (Grants ks') (usb p) :=
  grants_usb h (List.Subset.trans hks hrow)

lemma grants_element (argv : List Bytes) (i : ℕ) : Calls (Grants ks) (element argv i) :=
  element_calls trivial

lemma grants_scan (result : Bool) (devNo : ℤ) (mass : Bool) :
    Calls (Grants ks) (updateScan result devNo mass) := updateScan_calls trivial trivial _ _ _

lemma grants_more {α : Type} {p : HostProgram α} (h : Calls (Grants ks) p) (hks : ks ⊆ ks') :
    Calls (Grants ks') p :=
  h.mono fun o ho => by
    cases o with
    | inl q => exact fun k hk => hks (ho k hk)
    | inr q => trivial

lemma grants_fopenRead (files : Files) (path : Bytes) (h : .load ∈ ks) :
    Calls (Grants ks) (usb (fopenRead files path)) := calls_left (of_fopenRead files path h)

lemma grants_fopenWrite (path : Bytes) (h : .save ∈ ks) :
    Calls (Grants ks) (usb (fopenWrite path)) := calls_left (of_fopenWrite path h)

lemma grants_fread (f : File) (n : ℕ) (h : .load ∈ ks) : Calls (Grants ks) (usb (fread f n)) :=
  calls_left (of_fread f n h)

lemma grants_fwrite (data : Bytes) (h : .save ∈ ks) : Calls (Grants ks) (usb (fwrite data)) :=
  calls_left (of_fwrite data h)

lemma grants_openSave (saveFile : Option Bytes) (h : .save ∈ ks) :
    Calls (Grants ks) (usb (openSave saveFile)) := calls_left (of_openSave saveFile h)

variable {m : Machine} {rom : AmlUsbRomRW} {argv : Argv} {argc : ℤ}
  (hargv : ∀ j, Calls (Grants ks) (argv j))
include hargv

lemma grants_optional (i : ℕ) : Calls (Grants ks) (optional argv argc i) :=
  optional_calls (fun j _ => hargv j) i

lemma grants_run (h : [.request amReqRunInAddr] ⊆ ks) :
    Calls (Grants ks) (updateSubCmdRunAndRreg m.files m.junk rom cmdRun argv argc) := by
  refine calls_unless <| calls_unless <| calls_bind (hargv 0) fun address => ?_
  rw [if_pos rfl]
  exact grants_usb (of_amlUsbRunBinCode _) h

lemma grants_rreg (h : [.query amReqReadMem, .save] ⊆ ks) :
    Calls (Grants ks) (updateSubCmdRunAndRreg m.files m.junk rom cmdRreg argv argc) := by
  refine calls_unless <| calls_unless <| calls_bind (hargv 0) fun address => ?_
  rw [if_neg (by decide)]
  refine calls_bind (hargv 1) fun s => calls_bind (grants_optional hargv 2) fun saveFile =>
    calls_bind (grants_openSave _ (h (by decide))) fun save => ?_
  rw [if_pos rfl]
  exact grants_usb (of_rreg _ _ _ _ rfl) h

lemma grants_wreg (h : [.request amReqWriteMem] ⊆ ks) :
    Calls (Grants ks) (updateSubCmdReadWrite m.files m.junk m.seqNum rom cmdWreg argv argc) := by
  refine calls_unless <| calls_bind (hargv 1) fun addr => ?_
  rw [if_pos rfl]
  exact calls_bind (hargv 0) fun val => calls_bind
    (grants_usb (of_amlLibusbCtrlRdWr _ _ _ _ false _) h) fun _ => trivial

lemma grants_read {cmd : Bytes} (hcmd : cmd = cmdRead ∨ cmd = cmdDump)
    (h : download ⊆ ks) :
    Calls (Grants ks) (updateSubCmdReadWrite m.files m.junk m.seqNum rom cmd argv argc) := by
  refine calls_unless <| calls_bind (hargv 1) fun addr => ?_
  rw [if_neg (by rintro rfl; revert hcmd; decide), if_pos hcmd]
  refine calls_bind (grants_optional hargv 2) fun dumpFilename => calls_bind
    (grants_openSave _ (h (by decide))) fun save =>
      calls_bind (hargv 0) fun size => ?_
  exact calls_bind (grants_usb (calls_iterate (of_dumpTurn _ _) _ _) h) fun _ => trivial

lemma grants_write {cmd : Bytes} (hcmd : cmd = cmdWrite ∨ cmd = cmdCwr)
    (h : piece (cmd ≠ cmdWrite) ⊆ ks) :
    Calls (Grants ks) (updateSubCmdReadWrite m.files m.junk m.seqNum rom cmd argv argc) := by
  have hload : ∀ isCwr, .load ∈ piece isCwr := by decide
  refine calls_unless <| calls_bind (hargv 1) fun addr => ?_
  rw [if_neg (by rintro rfl; revert hcmd; decide),
    if_neg (by rcases hcmd with rfl | rfl <;> decide), if_pos hcmd]
  refine calls_bind (hargv 0) fun path => calls_bind
    (grants_fopenRead _ _ (h (hload _))) fun stream => ?_
  cases stream with
  | none => trivial
  | some f =>
    exact calls_bind (grants_optional hargv 2) fun _ => calls_bind (grants_optional hargv 3)
      fun _ => grants_usb (calls_iterate (of_writeTurn _) _ _) h

/-- `boot` and `write2` come to the same routine and do nothing there. -/
lemma grants_readWrite_other {cmd : Bytes}
    (hcmd : cmd ∉ [cmdWreg, cmdRead, cmdDump, cmdWrite, cmdCwr]) :
    Calls (Grants ks) (updateSubCmdReadWrite m.files m.junk m.seqNum rom cmd argv argc) := by
  simp only [List.mem_cons, List.not_mem_nil, or_false, not_or] at hcmd
  obtain ⟨hwreg, hread, hdump, hwrite, hcwr⟩ := hcmd
  refine calls_unless <| calls_bind (hargv 1) fun addr => ?_
  rw [if_neg hwreg, if_neg (not_or.mpr ⟨hread, hdump⟩), if_neg (not_or.mpr ⟨hwrite, hcwr⟩)]
  trivial

lemma grants_password (h : [.load, .request amReqPassword] ⊆ ks) :
    Calls (Grants ks) (updateSubCmdSetPassword m.files m.junk rom argv) := by
  have hsend : [.request amReqPassword] ⊆ ks := List.Subset.trans (by decide) h
  refine calls_bind (hargv 0) fun pwdFile =>
    calls_bind (grants_fopenRead _ _ (h (by decide))) fun stream => ?_
  cases stream with
  | none => trivial
  | some f =>
    refine calls_unless <| calls_bind (grants_fread _ _ (h (by decide))) fun _ => calls_unless <|
      calls_bind (grants_usb (of_amlLibusbPassword _ _ _ _) hsend) fun ret => ?_
    exact calls_bind (calls_unless <| grants_usb (of_amlLibusbPassword _ _ _ _) hsend)
      fun _ => trivial

lemma grants_chipinfo (h : [.query amReqChipInfo, .save] ⊆ ks) :
    Calls (Grants ks) (updateSubCmdGetChipinfo m.junk rom argv argc) := by
  have hover : Calls (Grants ks) (overrun : HostProgram ℤ) := ⟨trivial, fun e => e.elim⟩
  refine calls_bind (hargv 0) fun _ => calls_bind (grants_optional hargv 1) fun _ =>
    calls_bind (grants_optional hargv 2) fun _ => calls_bind (grants_optional hargv 3) fun _ => ?_
  refine calls_unless <| calls_unless ?_
  refine calls_bind (grants_part (of_amlLibusbGetChipinfo _ _ _ _ _) h (by decide)) fun _ =>
    calls_unless <| calls_ite (fun _ => calls_ite (fun _ => hover) fun _ => trivial) fun _ => ?_
  refine calls_bind (grants_fopenWrite _ (h (by decide))) fun _ => calls_unless <|
    calls_ite (fun _ => hover) fun _ => ?_
  exact calls_bind (grants_fwrite _ (h (by decide))) fun _ => trivial

/-- The requests of `mwrite` and `partition`. -/
def image : List Kind := .load :: .request amReqBulkCmd :: command ++ media

lemma grants_mwrite (h : image ⊆ ks) :
    Calls (Grants ks) (doCmdMwrtie m.files m.junk m.turns argv argc rom) := by
  refine calls_bind (hargv 0) fun readFile =>
    calls_bind (grants_fopenRead _ _ (h (by decide))) fun stream => ?_
  cases stream with
  | none => trivial
  | some f =>
    refine calls_unless <| calls_bind (hargv 1) fun _ => calls_bind (hargv 2) fun _ =>
      calls_bind (hargv 3) fun _ => ?_
    refine calls_bind (grants_part (of_amlUsbTplCmd _) h (by decide)) fun _ => calls_unless ?_
    refine calls_bind (grants_part (of_amlUsbReadStatus _) h (by decide)) fun _ =>
      calls_unless <| calls_unless ?_
    refine calls_bind (grants_part (of_writeMediaFile _ _) h (by decide)) fun _ => calls_unless ?_
    refine calls_bind (grants_part (of_amlUsbBulkCmd _ _) h (by decide)) fun _ =>
      calls_unless <| calls_unless <| calls_bind (hargv 4) fun _ => ?_
    exact grants_part (of_mwriteVerify _ _) h (by decide)

lemma grants_partition (h : image ⊆ ks) :
    Calls (Grants ks) (partition m.files m.junk m.turns rom argv argc) := by
  refine calls_bind (calls_unless <| calls_bind (hargv 1) fun path =>
    calls_bind (grants_part (of_isFileFormatSparse _) h (by decide)) fun _ => trivial)
      fun fmt => grants_mwrite (fun j => ?_) h
  match j with
  | 0 => exact hargv 1
  | 1 => trivial
  | 2 => exact hargv 0
  | 3 => exact calls_ite (fun _ => hargv 2) fun _ => trivial
  | j + 4 => exact hargv 3

/-- The requests of `mread`. -/
def upload : List Kind :=
  [.request amReqBulkCmd, .bulkIn amEpIn, .clock, .query amReqReadMedia, .save]

lemma grants_mread (h : upload ⊆ ks) :
    Calls (Grants ks) (updateSubCmdMread m.junk m.turns m.uploads rom argc argv) := by
  refine calls_unless <| calls_bind (hargv 3) fun _ => calls_bind (hargv 2) fun _ =>
    calls_unless <| calls_bind (hargv 0) fun _ => calls_bind (hargv 1) fun _ => ?_
  refine calls_bind (grants_part (of_amlUsbBulkCmd _ _) h (by decide)) fun _ =>
    calls_unless <| calls_bind (grants_optional hargv 4) fun _ => ?_
  exact calls_bind (grants_part (of_readMediaFile _ _ _) h (by decide)) fun _ => trivial

lemma grants_imagePath : Calls (Grants ks) (imagePath argv argc) :=
  calls_unless <| calls_bind (hargv 0) fun _ => trivial

end Grants

/-! ### Serial numbers -/

/-- The requests of `skgsn` and `skssn`. -/
def serial : List Kind := .query amReqIdentifyHost :: command

section Serial

lemma grants_sendCommand (dev : Device) (cmd : Bytes) (retry : ℤ) (reply : Bytes) :
    Calls (Grants serial) (amlSendCommand dev cmd retry reply) := by
  have hturn : ∀ s, Calls (Of [.query amReqTplStat]) (sendCommandTurn dev s) := fun s =>
    calls_ite (fun _ => calls_bind (of_amlUsbReadStatus _) fun _ =>
      calls_unless trivial) fun _ => trivial
  refine calls_unless <| calls_ite (fun _ => ⟨trivial, fun e => e.elim⟩)
    fun _ => calls_bind (grants_usb (of_amlUsbTplCmd _) (by decide)) fun _ => ?_
  exact calls_ite (fun _ => grants_usb (calls_iterate hturn _ _) (by decide)) fun _ => trivial

lemma grants_commandDevice (target : Bytes) : Calls (Grants serial) (commandDevice target) := by
  refine calls_bind ⟨trivial, fun _ => trivial⟩ fun dev => calls_unless ?_
  exact calls_bind (grants_usb (of_amlUsbIdentifyHost _) (by decide)) fun _ =>
    calls_unless <| calls_unless trivial

lemma grants_getSn (target usid : Bytes) : Calls (Grants serial) (amlGetSn target usid) := by
  refine calls_bind (grants_commandDevice _) fun dev => calls_unless ?_
  refine calls_bind (grants_sendCommand _ _ _ _) fun _ => calls_bind (grants_sendCommand _ _ _ _)
    fun _ => calls_unless ?_
  exact calls_unless trivial

lemma grants_setSn (src target usid : Bytes) :
    Calls (Grants serial) (amlSetSn src target usid) := by
  refine calls_bind (grants_commandDevice _) fun dev => calls_unless <|
    calls_ite (fun _ => ⟨trivial, fun e => e.elim⟩) fun _ => ?_
  refine calls_bind (grants_sendCommand _ _ _ _) fun _ => calls_bind (grants_sendCommand _ _ _ _)
    fun _ => calls_unless ?_
  exact calls_unless trivial

variable {ks : List Kind} {m : Machine} {cmd : Bytes} {argv : List Bytes}

lemma grants_serialDevice (devNo : ℤ) (h : cmd = cmdSkgsn ∨ cmd = cmdSkssn → serial ⊆ ks) :
    Calls (Grants ks) (serialDevice m cmd argv devNo) := by
  refine calls_bind ⟨trivial, fun _ => trivial⟩ fun r => calls_unless <| calls_ite (fun hcmd => ?_)
    fun _ => calls_ite (fun hcmd => ?_) fun _ => trivial
  · exact calls_bind (grants_more (grants_getSn _ _) (h (.inl hcmd))) fun _ => trivial
  · exact calls_bind (grants_element _ _) fun usid =>
      calls_bind (grants_more (grants_setSn _ _ _) (h (.inr hcmd))) fun _ => trivial

lemma grants_serialCommand (devNo : ℤ) (h : cmd = cmdSkgsn ∨ cmd = cmdSkssn → serial ⊆ ks) :
    Calls (Grants ks) (serialCommand m cmd argv devNo) := by
  refine calls_ite (fun _ => grants_serialDevice _ h) fun _ => calls_ite (fun _ => ?_) fun _ =>
    calls_unless <| grants_serialDevice _ h
  exact calls_bind (grants_element _ _) fun s => calls_unless <| grants_serialDevice _ h

end Serial

/-! ### The commands that only scan -/

section Scans

variable {ks : List Kind} {argv : List Bytes}

lemma grants_scanCommand : Calls (Grants ks) (scanCommand argv) := by
  refine calls_unless ?_
  have hlist : Calls (Grants ks) (updateScan false (-2) false >>= fun _ =>
      (pure 0 : HostProgram ℤ)) := calls_bind (grants_scan _ _ _) fun _ => trivial
  by_cases hthree : argv.length = 3
  · simp only [if_pos hthree]
    exact calls_bind (grants_element _ _) fun s => calls_ite
      (fun _ => calls_bind (grants_scan _ _ _) fun _ => hlist) fun _ => hlist
  · simp only [if_neg hthree]
    exact hlist

lemma grants_massStorageDevice (cmd : Bytes) (devNo : ℤ) :
    Calls (Grants ks) (massStorageDevice cmd argv devNo) :=
  calls_bind (grants_scan _ _ _) fun _ => calls_unless <| calls_ite (fun _ =>
    calls_bind (grants_element _ _) fun _ => trivial) fun _ => trivial

lemma grants_massStorageCommand (cmd : Bytes) :
    Calls (Grants ks) (massStorageCommand cmd argv) := by
  have hdevice : ∀ devNo, Calls (Grants ks) (massStorageDevice cmd argv devNo) :=
    grants_massStorageDevice cmd
  have hnumber : Calls (Grants ks) (element argv 2 >>= fun s =>
      if s.length ≠ 4 ∨ strncmp s strDev 3 ≠ 0 then pure noResult
      else massStorageDevice cmd argv (charDevNo s)) :=
    calls_bind (grants_element _ _) fun s => calls_unless <| hdevice _
  refine calls_ite (fun _ => calls_ite (fun _ => hnumber) fun _ => ?_) fun _ => ?_
  · refine calls_unless <| calls_bind (grants_element _ _) fun s₁ => ?_
    refine calls_ite (fun _ => ⟨trivial, fun yesno => ?_⟩) fun _ => hdevice _
    exact calls_unless <| hdevice _
  · exact calls_ite (fun _ => hdevice _) fun _ => calls_ite (fun _ => trivial) fun _ => hnumber

lemma grants_downCommand (m : Machine) (device : Device) :
    Calls (Grants ks) (downCommand m argv device) :=
  (ScanCallers.down_writes_nothing m argv device).mono fun o ho => by
    cases o with
    | inl q => exact absurd rfl (ho q)
    | inr q => trivial

end Scans

/-! ### The table -/

/-- What each command is for. -/
def permissions : List (Bytes × List Kind) :=
  [(cmdRun, [.request amReqRunInAddr]),
    (cmdRreg, [.query amReqReadMem, .save]),
    (cmdWreg, [.request amReqWriteMem]),
    (cmdRead, download),
    (cmdDump, download),
    (cmdWrite, piece false),
    (cmdCwr, piece true),
    (cmdPassword, [.load, .request amReqPassword]),
    (cmdChipinfo, [.query amReqChipInfo, .save]),
    (cmdChipid, [.query amReqIdentifyHost, .query amReqChipInfo, .query amReqReadMem]),
    (cmdIdentify, [.query amReqIdentifyHost]),
    (cmdReset, [.reset]),
    (cmdTplcmd, command),
    (cmdTplstat, [.query amReqTplStat]),
    (cmdBurn, [.load, .request amReqWrLargeMem, .bulkOut amEpOut]),
    (cmdSkgsn, serial),
    (cmdSkssn, serial),
    (cmdMwrite, image),
    (cmdPartition, image),
    (cmdBulkcmd, [.request amReqBulkCmd, .bulkIn amEpIn, .clock]),
    (cmdMread, upload),
    (cmdBl2Test, session),
    (cmdBl2Boot, session)]

/-- Any other command makes no request at all. -/
def allowed (cmd : Bytes) : List Kind := (permissions.lookup cmd).getD []

section Main

variable {m : Machine} {cmd : Bytes} {argv : List Bytes} {device : Device} {devNo : ℤ} {base : ℕ}
  {cmdArgc : ℤ}

lemma grants_dispatch :
    Calls (Grants (allowed cmd))
      (dispatch m cmd argv device devNo (elements argv base) cmdArgc) := by
  have hargv : ∀ ks j, Calls (Grants ks) (elements argv base j) := fun _ _ => grants_element _ _
  unfold dispatch
  refine calls_ite (fun hcmd => ?_) fun _ => ?_
  · rcases hcmd with rfl | rfl
    · exact grants_run (hargv _) (by decide)
    · exact grants_rreg (hargv _) (by decide)
  refine calls_ite (fun hcmd => ?_) fun _ => ?_
  · subst hcmd
    exact grants_password (hargv _) (by decide)
  refine calls_ite (fun hcmd => ?_) fun _ => ?_
  · subst hcmd
    exact calls_unless <| grants_chipinfo (hargv _) (by decide)
  refine calls_ite (fun hcmd => ?_) fun _ => ?_
  · subst hcmd
    exact calls_bind (grants_usb of_chipid (by decide)) fun _ => trivial
  refine calls_ite (fun hcmd => ?_) fun _ => ?_
  · rcases hcmd with rfl | rfl | rfl | rfl | rfl | rfl | rfl
    · exact grants_write (hargv _) (.inl rfl) (by decide)
    · exact grants_read (hargv _) (.inl rfl) (by decide)
    · exact grants_wreg (hargv _) (by decide)
    · exact grants_read (hargv _) (.inr rfl) (by decide)
    · exact grants_readWrite_other (hargv _) (by decide)
    · exact grants_write (hargv _) (.inr rfl) (by decide)
    · exact grants_readWrite_other (hargv _) (by decide)
  refine calls_ite (fun _ => grants_massStorageCommand _) fun _ => ?_
  refine calls_ite (fun hcmd => ?_) fun _ => ?_
  · subst hcmd
    refine calls_bind (calls_ite (fun _ => calls_bind (hargv _ 0) fun _ => trivial)
      fun _ => trivial) fun idLen => ?_
    exact calls_bind (grants_usb (of_identifyHost _ _) (by decide)) fun _ => trivial
  refine calls_ite (fun hcmd => ?_) fun _ => ?_
  · subst hcmd
    exact calls_bind (grants_usb (of_amlResetDev _) (by decide)) fun _ => trivial
  refine calls_ite (fun hcmd => ?_) fun _ => ?_
  · subst hcmd
    exact calls_bind (grants_element _ _) fun s =>
      calls_bind (grants_usb (of_tplcmd _) (by decide)) fun _ => trivial
  refine calls_ite (fun hcmd => ?_) fun _ => ?_
  · subst hcmd
    exact calls_bind (grants_usb (of_amlUsbburn _ _ _ _ _ _ _ _) (by decide)) fun _ => trivial
  refine calls_ite (fun hcmd => ?_) fun _ => ?_
  · subst hcmd
    exact calls_bind (grants_usb (of_amlUsbReadStatus _) (by decide)) fun _ => trivial
  refine calls_ite (fun hcmd => grants_serialCommand _ ?_) fun _ => ?_
  · rintro (rfl | rfl) <;> decide
  refine calls_ite (fun hcmd => ?_) fun _ => ?_
  · subst hcmd
    exact calls_unless <| grants_mwrite (hargv _) (by decide)
  refine calls_ite (fun hcmd => ?_) fun _ => ?_
  · subst hcmd
    exact calls_unless <| grants_partition (hargv _) (by decide)
  refine calls_ite (fun hcmd => ?_) fun _ => ?_
  · subst hcmd
    exact calls_bind (grants_element _ _) fun s => grants_usb (of_bulkcmd _ _) (by decide)
  refine calls_ite (fun _ => grants_downCommand _ _) fun _ => ?_
  refine calls_ite (fun hcmd => ?_) fun _ => ?_
  · subst hcmd
    exact grants_mread (hargv _) (by decide)
  refine calls_ite (fun hcmd => ?_) fun _ => calls_ite (fun hcmd => ?_) fun _ => trivial
  · subst hcmd
    exact calls_bind (grants_imagePath (hargv _)) fun _ =>
      grants_usb (of_amlLibusbBl2Test _ _ _ _ _ _) (by decide)
  · subst hcmd
    exact calls_bind (grants_imagePath (hargv _)) fun _ =>
      grants_usb (of_amlLibusbBl2Boot _ _ _ _ _ _) (by decide)

lemma grants_runOn :
    Calls (Grants (allowed cmd)) (runOn m cmd argv device devNo base cmdArgc) :=
  calls_bind (calls_ite (fun _ => grants_scan _ _ _) fun _ => trivial) fun _ =>
    calls_unless <| calls_unless <| grants_dispatch

lemma grants_main : Calls (Grants (allowed (argv.getD 1 []))) (main m argv) := by
  refine calls_unless <| calls_bind_of_runs (grants_element _ _) fun t cmd hcmd => ?_
  obtain rfl := getD_of_runs hcmd
  refine calls_unless <| calls_ite (fun _ => grants_scanCommand) fun _ =>
    calls_ite (fun _ => grants_runOn) fun _ => calls_bind (grants_element _ _) fun s => ?_
  cases deviceArg s with
  | err => trivial
  | number devNo => exact grants_runOn
  | path devPath => exact calls_bind ⟨trivial, fun _ => trivial⟩ fun device => grants_runOn
  | ordinary => exact grants_runOn

end Main

/-! ### What a run does -/

section Main

variable {m : Machine} {argv : List Bytes} {t : HostTrace} {o : Op} {k : Kind}

/-- A command makes only the requests of its row, whatever the board answers, the files hold and
stands on the command line. -/
theorem main_permits (h : Issues (main m argv) t (.inl o)) (hk : kind o = some k) :
    k ∈ allowed (argv.getD 1 []) :=
  grants_main.issues h k hk

lemma allowed_row {cmd : Bytes} (h : k ∈ allowed cmd) : ∃ ks, (cmd, ks) ∈ permissions ∧ k ∈ ks := by
  unfold allowed at h
  cases hrow : permissions.lookup cmd with
  | none =>
    rw [hrow] at h
    cases h
  | some ks =>
    rw [hrow] at h
    obtain ⟨l₁, l₂, hsplit, -⟩ := List.lookup_eq_some_iff.mp hrow
    exact ⟨ks, by simp [hsplit], h⟩

/-- The commands with such a kind in their row. -/
def users (P : Kind → Bool) : List Bytes :=
  (permissions.filter fun row => row.2.any P).map Prod.fst

/-- Only these commands make a request of such a kind. -/
theorem main_users {P : Kind → Bool} (h : Issues (main m argv) t (.inl o)) (hk : kind o = some k)
    (hP : P k) : argv.getD 1 [] ∈ users P := by
  obtain ⟨ks, hrow, hmem⟩ := allowed_row (main_permits h hk)
  exact List.mem_map.mpr ⟨(argv.getD 1 [], ks),
    List.mem_filter.mpr ⟨hrow, List.any_eq_true.mpr ⟨k, hmem, hP⟩⟩, rfl⟩

example : users (· = .reset) = [cmdReset] := by decide

/-- Sent data, and every request but the one to send back. -/
def Kind.acts : Kind → Bool
  | .request req => req ≠ amReqRdLargeMem
  | .bulkOut _ | .reset => true
  | .query _ | .bulkIn _ | .load | .save | .clock => false

example : users Kind.acts = [cmdRun, cmdWreg, cmdWrite, cmdCwr, cmdPassword, cmdReset, cmdTplcmd,
    cmdBurn, cmdSkgsn, cmdSkssn, cmdMwrite, cmdPartition, cmdBulkcmd, cmdMread, cmdBl2Test,
    cmdBl2Boot] := by decide

end Main

/-! ### Every row is used -/

/-- A board that takes all it is sent and answers what it is asked with the beginning of a text. -/
def obliging (control bulk : Bytes) : (o : HostOp) → Option (HostResp o)
  | .inl (.libusbOpen _) => some (some (0 : Handle))
  | .inl (.libusbClose _) => some ()
  | .inl (.libusbReset _) => some none
  | .inl .nullHandle => none
  | .inl (.controlOut _ s _ _) => some ⟨none, Fin.last s.wLength⟩
  | .inl (.controlIn _ s _) => some ⟨none, control.take s.wLength, List.length_take_le _ _⟩
  | .inl (.bulkOut _ _ _ n _) => some ⟨none, Fin.last n⟩
  | .inl (.bulkIn _ _ n _) => some ⟨none, bulk.take n, List.length_take_le _ _⟩
  | .inl (.fopen _ _) => some true
  | .inl (.fread want avail) => some (Fin.last (min want avail))
  | .inl (.fwrite data) => some (Fin.last data.length)
  | .inl .clock => some (0 : ℤ)
  | .inr .scan => some [⟨1, [⟨0, Scan.amlIdVendor, Scan.amlIdProduce, 1⟩]⟩]
  | .inr (.argv _) => some ()
  | .inr .scanf => some 0
  | .inr .overrun => none

/-- A command with its arguments, and what such a board answers. -/
structure Trial where
  cmd : Bytes
  control : Bytes
  bulk : Bytes
  args : List Bytes

/-- Files of one byte. -/
def bytewise : Machine := ⟨fun _ => [1], fun _ => 0, 1, 1, 0⟩

def hostKind : HostOp → Option Kind
  | .inl o => kind o
  | .inr _ => none

def Trial.made (x : Trial) : List Kind :=
  (callsMade (obliging x.control x.bulk) (main bytewise ([] :: x.cmd :: x.args))).filterMap hostKind

def one : Bytes := ascii ['1']

def trials : List Trial :=
  [⟨cmdRun, [], [], [one]⟩,
    ⟨cmdRreg, [], [], [one, one, one]⟩,
    ⟨cmdWreg, [], [], [one, one]⟩,
    ⟨cmdRead, [], [0], [one, one, one]⟩,
    ⟨cmdDump, [], [0], [one, one, one]⟩,
    ⟨cmdWrite, [], [], [one, one]⟩,
    ⟨cmdCwr, [], [], [one, one]⟩,
    ⟨cmdPassword, [], [], [one]⟩,
    ⟨cmdChipinfo, List.replicate 64 0, [], [one, one]⟩,
    -- the version of the chip decides how it is asked
    ⟨cmdChipid, [2, 3, 0, 0], [], []⟩,
    ⟨cmdChipid, [2, 0, 0, 0], [], []⟩,
    ⟨cmdIdentify, [], [], []⟩,
    ⟨cmdReset, [], [], []⟩,
    ⟨cmdTplcmd, [], [], [one]⟩,
    ⟨cmdTplstat, [], [], []⟩,
    ⟨cmdBurn, [], [], []⟩,
    ⟨cmdSkgsn, [0, 0, 0, 16], [], []⟩,
    ⟨cmdSkssn, [0, 0, 0, 16], [], [one]⟩,
    ⟨cmdMwrite, strSuccess, strOk ++ List.replicate 12 0, [one, one, one, one]⟩,
    ⟨cmdPartition, strSuccess, strOk ++ List.replicate 12 0, [one, one, one]⟩,
    ⟨cmdBulkcmd, [], strSuccess, [one]⟩,
    ⟨cmdMread, [], strSuccess ++ List.replicate 9 0, [one, one, strNormal, one, one]⟩,
    -- a request for nothing
    ⟨cmdBl2Test, [], List.replicate 512 0, [one]⟩,
    ⟨cmdBl2Boot, [], List.replicate 512 0, [one]⟩]

lemma trials_cover : ∀ row ∈ permissions, ∀ k ∈ row.2, ∃ x ∈ trials, x.cmd = row.1 ∧
    k ∈ x.made := by
  decide +kernel

/-- **The table is exact**: the kinds in the row of a command are those of the requests `main` can
make when it is given the command. -/
theorem main_makes_iff (cmd : Bytes) (k : Kind) :
    k ∈ allowed cmd ↔ ∃ m argv t o, argv.getD 1 [] = cmd ∧ Issues (main m argv) t (.inl o) ∧
      kind o = some k := by
  constructor
  · intro hk
    obtain ⟨ks, hrow, hmem⟩ := allowed_row hk
    obtain ⟨x, -, rfl, hmade⟩ := trials_cover _ hrow k hmem
    obtain ⟨o, ho, hkind⟩ := List.mem_filterMap.mp hmade
    obtain ⟨t, ht⟩ := callsMade_issued ho
    cases o with
    | inl q => exact ⟨bytewise, [] :: x.cmd :: x.args, t, q, rfl, ht, hkind⟩
    | inr q => cases hkind
  · rintro ⟨m, argv, t, o, rfl, ht, hkind⟩
    exact main_permits ht hkind

end AmlogicUpdate.Privileges

import AmlogicUpdate.GivingUp
import AmlogicUpdate.ReadMedia
import AmlogicUpdate.LargeMemEnds
import AmlogicUpdate.CommandLine

/-!
The tool comes to an end.

Most loops are over in as many turns as there are bytes or tries. Two wait for the board with an
eye on the clock, one serves a boot loader for as long as it has requests, and one counts away from
0 when it is given a negative size. So a command goes on for ever only if the clock stands still, if
the loader does not stop, or if there is nothing to read backwards for.
-/

namespace AmlogicUpdate.Halting

open Interaction CData Usb AmlLibusb Bl2 UsbRomDrv Wire Media ReadMedia LargeMem
open Update hiding updateSubCmdRunAndRreg updateSubCmdReadWrite mwriteData doCmdMwrtie
open TextCommands hiding mwriteArgv partition updateSubCmdMread
open Host Serial Arguments ChipCommands CommandLine

/-! ### Requests -/

lemma returns_usbControlMsg (handle : Option Handle) (requestType req : ℕ) (wValue wIndex : ℤ)
    (bytes : Bytes) (size timeout : ℤ) :
    Returns (usbControlMsg handle requestType req wValue wIndex bytes size timeout) := by
  cases handle with
  | none => exact returns_segfault
  | some hd =>
    unfold usbControlMsg
    exact returns_ite (fun _ => trivial) fun _ => trivial

lemma returns_usbBulkRead (handle : Option Handle) (ep : ℕ) (bytes : Bytes) (size : ℕ)
    (timeout : ℤ) : Returns (usbBulkRead handle ep bytes size timeout) := by
  cases handle with
  | none => exact returns_segfault
  | some hd => exact fun _ => trivial

lemma returns_usbBulkWrite (handle : Option Handle) (ep : ℕ) (bytes : Bytes) (size : ℕ)
    (timeout : ℤ) : Returns (usbBulkWrite handle ep bytes size timeout) := by
  cases handle with
  | none => exact returns_segfault
  | some hd => exact fun _ => trivial

lemma returns_handled {handle : Option Handle} {code : Ioctl} {p : Program (ℕ × UsbDevIoCtrl)}
    (hp : Handled handle code p) : Returns p := by
  cases hp with
  | refused ctrl => trivial
  | requested h wValue wIndex bytes size timeout result =>
    exact returns_bind (returns_usbControlMsg _ _ _ _ _ _ _ _) fun _ _ _ => trivial

/-- The usual routine returns if what it does on the open device does. -/
lemma returns_session {α β : Type} {dev : Device} {readEp writeEp : ℕ}
    {F : ℕ × AmlUsbDrv → Program β} (fail : β) (inner : AmlUsbDrv → Program α) (g : α → β)
    (hF : ∀ ok drv, F (ok, drv) = if ok = 0 then .ret fail else
      inner drv >>= fun r => closeUsbDevice drv >>= fun _ => .ret (g r))
    (hin : ∀ drv, Returns (inner drv)) :
    Returns (openUsbDevice ⟨dev, none, readEp, writeEp⟩ >>= F) := by
  refine returns_bind (returns_openUsbDevice _) fun t r _ => ?_
  obtain ⟨ok, drv⟩ := r
  rw [hF]
  refine returns_ite trivial (returns_bind (hin drv) fun _ _ _ => ?_)
  exact returns_bind (returns_closeUsbDevice drv) fun _ _ _ => trivial

section Routines

variable (rom : AmlUsbRomRW)

lemma returns_amlUsbRunBinCode : Returns (amlUsbRunBinCode rom) :=
  returns_session _ _ _ (fun _ _ => rfl) fun drv =>
    returns_handled (usbDeviceIoControl_handled drv _ _ _ _ _ _)

lemma returns_amlUsbIdentifyHost : Returns (amlUsbIdentifyHost rom) :=
  returns_session _ _ _ (fun _ _ => rfl) fun drv =>
    returns_handled (usbDeviceIoControl_handled drv _ _ _ _ _ _)

lemma returns_amlUsbTplCmd : Returns (amlUsbTplCmd rom) :=
  returns_session _ _ _ (fun _ _ => rfl) fun drv =>
    returns_handled (usbDeviceIoControl_handled drv _ _ _ _ _ _)

lemma returns_amlUsbReadStatus : Returns (amlUsbReadStatus rom) :=
  returns_session _ _ _ (fun _ _ => rfl) fun drv =>
    returns_handled (usbDeviceIoControl_handled drv _ _ _ _ _ _)

lemma returns_amlUsbCtrlWr : Returns (amlUsbCtrlWr rom) :=
  returns_session _ _ _ (fun _ _ => rfl) fun drv =>
    returns_handled (usbDeviceIoControlEx_handled drv _ _ _ _ _ _ _)

lemma returns_amlResetDev : Returns (amlResetDev rom) := by
  refine returns_ite trivial (returns_bind (returns_openUsbDevice _) fun t r _ =>
    returns_ite trivial (returns_bind (returns_ite trivial ?_) fun _ _ _ => ?_))
  · cases r.2.handle with
    | none => exact returns_segfault
    | some hd => exact fun _ => trivial
  · exact returns_bind (returns_closeUsbDevice _) fun _ _ _ => trivial

end Routines

section Control

variable (dev : Device) (buf : Bytes)

lemma returns_amlLibusbPassword (size timeout : ℤ) :
    Returns (amlLibusbPassword dev buf size timeout) := by
  refine returns_bind (returns_openUsbDevice _) fun t r _ => returns_ite trivial ?_
  refine returns_ite ?_ ?_
  · exact returns_bind (returns_closeUsbDevice _) fun _ _ _ => trivial
  · refine returns_bind (returns_usbControlMsg _ _ _ _ _ _ _ _) fun _ _ _ => ?_
    exact returns_bind (returns_closeUsbDevice _) fun _ _ _ => trivial

lemma returns_amlLibusbGetChipinfo (size index timeout : ℤ) :
    Returns (amlLibusbGetChipinfo dev buf size index timeout) := by
  refine returns_bind (returns_openUsbDevice _) fun t r _ => returns_ite trivial ?_
  refine returns_ite ?_ ?_
  · exact returns_bind (returns_closeUsbDevice _) fun _ _ _ => trivial
  · refine returns_bind (returns_usbControlMsg _ _ _ _ _ _ _ _) fun _ _ _ => ?_
    exact returns_bind (returns_closeUsbDevice _) fun _ _ _ => trivial

/-- A request that did not fail brings the loop nearer to the end. -/
lemma returns_amlLibusbCtrlRdWr (addr : ℕ) (len : ℤ) (doRead : Bool) (timeout : ℤ) :
    Returns (amlLibusbCtrlRdWr dev addr buf len doRead timeout) := by
  refine returns_bind (returns_openUsbDevice _) fun t r _ => returns_ite trivial ?_
  refine returns_bind (returns_iterate (I := fun _ => True)
    (μ := fun s => (len - s.processed).toNat) (fun s _ => ?_) (fun s t s' _ hr => ?_) trivial ?_)
    fun _ _ _ => returns_bind (returns_closeUsbDevice _) fun _ _ _ => trivial
  · refine returns_ite (returns_bind (returns_usbControlMsg _ _ _ _ _ _ _ _) fun _ _ _ => ?_)
      trivial
    exact returns_ite trivial trivial
  · obtain ⟨hlt, hrest⟩ := runs_while hr
    obtain ⟨x, t₁, t₂, rfl, -, -, hrest⟩ := runs_checked hrest
    cases (runs_ret.mp hrest).2
    refine ⟨trivial, ?_⟩
    dsimp only
    omega
  · dsimp only
    omega

end Control

section Large

variable (seqNum : ℕ) (rom : AmlUsbRomRW)

lemma returns_amlUsbWriteLargeMem : Returns (amlUsbWriteLargeMem seqNum rom) := by
  by_cases hdev : rom.device = .null
  · rw [amlUsbWriteLargeMem, hdev, openUsbDevice_null]
    trivial
  rw [amlUsbWriteLargeMem_eq hdev]
  intro handle
  exact returns_bind (rounds_return (writeDir_single rfl) (by norm_num) (by norm_num))
    fun t s _ => returns_closing hdev

lemma returns_amlUsbReadLargeMem : Returns (amlUsbReadLargeMem seqNum rom) := by
  by_cases hdev : rom.device = .null
  · rw [amlUsbReadLargeMem, hdev, openUsbDevice_null]
    trivial
  rw [amlUsbReadLargeMem_eq hdev]
  intro handle
  exact returns_bind (rounds_return (readDir_single rfl) (by norm_num) (by norm_num))
    fun t s _ => returns_closing hdev

/-- What was read is what was asked for, or it was a failure. -/
lemma amlUsbReadLargeMem_whole :
    Always (fun r => r.1 = 0 → r.2.1.dataSize = rom.bufferLen) (amlUsbReadLargeMem seqNum rom) := by
  refine always_then fun r => always_ite (fun _ => always_ret fun h => by cases h) fun _ => ?_
  refine always_then fun s => always_then fun _ => always_ret fun hzero => ?_
  dsimp only at hzero ⊢
  split_ifs at hzero with hlen
  exact hlen.symm

end Large

/-! ### The loops of the commands -/

lemma returns_fread (f : File) (n : ℕ) : Returns (fread f n) := fun _ => trivial

lemma returns_fwrite (data : Bytes) : Returns (fwrite data) := fun _ => trivial

lemma returns_fopenRead (files : Files) (path : Bytes) : Returns (fopenRead files path) :=
  fun _ => trivial

section Loops

variable {dev : Device}

/-- `rreg` goes on by at least a byte. -/
lemma returns_rreg (isRreg save : Bool) (transferSize : ℕ) (s : Rreg) :
    Returns (iterate (rregTurn dev isRreg save transferSize) (transferSize + 1) s) := by
  refine returns_iterate (I := fun _ => True) (μ := fun s => transferSize - s.offset)
    (fun s _ => ?_) (fun s t s' _ hr => ?_) trivial (by omega)
  · refine returns_ite (returns_bind ?_ fun _ s _ => ?_) trivial
    · cases s.readStream with
      | none => trivial
      | some f => exact returns_bind (returns_fread f _) fun _ _ _ => trivial
    · refine returns_bind (returns_amlLibusbCtrlRdWr _ _ _ _ _ _) fun _ r _ => ?_
      refine returns_ite trivial (returns_bind (returns_ite ?_ trivial) fun _ _ _ => trivial)
      exact returns_fwrite _
  · obtain ⟨hlt, hrest⟩ := runs_while hr
    obtain ⟨s₁, t₁, t₂, rfl, hread, hrest⟩ := runs_bind.mp hrest
    have hoffset : s₁.offset = s.offset := by
      cases hf : s.readStream with
      | none =>
        rw [hf] at hread
        rw [(runs_ret.mp hread).2]
      | some f =>
        rw [hf] at hread
        obtain ⟨x, u₁, u₂, -, -, hx⟩ := runs_bind.mp hread
        rw [(runs_ret.mp hx).2]
    obtain ⟨r, t₃, t₄, rfl, -, -, hrest⟩ := runs_checked hrest
    obtain ⟨_, t₅, t₆, rfl, -, hend⟩ := runs_bind.mp hrest
    cases (runs_ret.mp hend).2
    refine ⟨trivial, ?_⟩
    dsimp only
    rw [hoffset]
    omega

/-- `read` and `dump` go on by what was asked for. -/
lemma returns_dump (isDump save : Bool) (s : Dump) :
    Returns (iterate (dumpTurn isDump save) (s.transferSize + 1) s) := by
  refine returns_iterate (I := fun _ => True) (μ := fun s => s.transferSize)
    (fun s _ => ?_) (fun s t s' _ hr => ?_) trivial (by omega)
  · refine returns_ite (returns_bind (returns_amlUsbReadLargeMem _ _) fun _ r _ => ?_) trivial
    refine returns_ite trivial (returns_ite trivial (returns_bind (returns_ite ?_ trivial)
      fun _ _ _ => returns_ite trivial ?_))
    · exact returns_fwrite _
    · exact returns_bind (returns_ite (s.info.updateProgress_returns _) trivial)
        fun _ _ _ => trivial
  · obtain ⟨hne, hrest⟩ := runs_while hr
    obtain ⟨r, t₁, t₂, rfl, hread, hrest⟩ := runs_bind.mp hrest
    have hwhole := amlUsbReadLargeMem_whole _ _ _ _ hread
    obtain ⟨ret, rom, seqNum⟩ := r
    obtain ⟨hret, hrest⟩ := runs_unless hrest
    obtain ⟨hempty, hrest⟩ := runs_unless hrest
    obtain ⟨_, t₅, t₆, rfl, -, -, hrest⟩ := runs_checked hrest
    obtain ⟨_, t₇, t₈, rfl, -, hend⟩ := runs_bind.mp hrest
    cases (runs_ret.mp hend).2
    have hsize := hwhole (not_not.mp hret)
    refine ⟨trivial, ?_⟩
    dsimp only at hsize hempty ⊢
    have hle : rom.dataSize ≤ s.transferSize := by
      rw [hsize]
      split_ifs <;> omega
    unfold u32
    omega

lemma returns_write (isCwr : Bool) (s : Write) :
    Returns (iterate (writeTurn isCwr) (s.transferSize + 1) s) := by
  refine returns_iterate (I := fun _ => True) (μ := fun s => s.transferSize)
    (fun s _ => ?_) (fun s t s' _ hr => ?_) trivial (by omega)
  · refine returns_ite (returns_bind (returns_fread _ _) fun _ r _ => ?_) trivial
    refine returns_ite trivial (returns_bind (returns_ite ?_ ?_) fun _ _ _ =>
      returns_ite trivial trivial)
    · exact returns_bind (returns_amlUsbCtrlWr _) fun _ _ _ => trivial
    · exact returns_bind (returns_amlUsbWriteLargeMem _ _) fun _ _ _ => trivial
  · obtain ⟨hne, hrest⟩ := runs_while hr
    obtain ⟨x, t₁, t₂, rfl, -, -, hrest⟩ := runs_checked hrest
    obtain ⟨_, t₃, t₄, rfl, -, -, hrest⟩ := runs_checked hrest
    cases (runs_ret.mp hrest).2
    refine ⟨trivial, ?_⟩
    have hpos : 0 < min s.transferSize (if isCwr then 0x40 else 0x10000) := by
      split_ifs <;> omega
    dsimp only
    omega

/-- The wait for a reply has a number of tries. -/
lemma returns_tplcmd (s : ℤ × Bytes) {n : ℕ} (hn : s.1.toNat < n) :
    Returns (iterate (tplcmdTurn dev) n s) := by
  refine returns_iterate (I := fun _ => True) (μ := fun s => s.1.toNat)
    (fun s _ => ?_) (fun s t s' _ hr => ?_) trivial hn
  · exact returns_ite (returns_bind (returns_amlUsbReadStatus _) fun _ _ _ => trivial) trivial
  · obtain ⟨hlt, hrest⟩ := runs_while hr
    obtain ⟨r, t₁, t₂, rfl, -, hrest⟩ := runs_bind.mp hrest
    have hnext := (runs_ret.mp hrest).2
    split_ifs at hnext
    cases hnext
    refine ⟨trivial, ?_⟩
    dsimp only
    omega

lemma returns_sendCommand (s : ℤ × Bytes) {n : ℕ} (hn : s.1.toNat < n) :
    Returns (iterate (Serial.sendCommandTurn dev) n s) := by
  refine returns_iterate (I := fun _ => True) (μ := fun s => s.1.toNat)
    (fun s _ => ?_) (fun s t s' _ hr => ?_) trivial hn
  · exact returns_ite (returns_bind (returns_amlUsbReadStatus _) fun _ _ _ =>
      returns_ite trivial trivial) trivial
  · obtain ⟨hlt, hrest⟩ := runs_while hr
    obtain ⟨r, t₁, t₂, rfl, -, -, hrest⟩ := runs_checked hrest
    cases (runs_ret.mp hrest).2
    refine ⟨trivial, ?_⟩
    dsimp only
    omega

lemma returns_amlUsbBurnWrite (seqNum : ℕ) (rom : AmlUsbRomRW) (memType : Bytes) (nBytes : ℕ)
    (cksum : ℤ) : Returns (Burn.amlUsbBurnWrite seqNum rom memType nBytes cksum) := by
  refine returns_bind (returns_amlUsbWriteLargeMem _ _) fun _ _ _ => returns_ite trivial ?_
  exact returns_bind (returns_amlUsbTplCmd _) fun _ _ _ => trivial

/-- There is no second turn. -/
lemma returns_amlUsbburn (files : Files) (junk : ℕ → UInt8) (seqNum : ℕ) (filename : Bytes)
    (address : ℕ) (memType : Bytes) (nBytes : ℤ) {bulkSize : ℕ} (hbulk : bulkSize ≤ 0x10000)
    (cksum : ℤ) : Returns (Burn.amlUsbburn files junk seqNum dev filename address memType nBytes
      bulkSize cksum) := by
  refine returns_ite trivial (returns_bind (returns_fopenRead _ _) fun _ stream _ => ?_)
  cases stream with
  | none => trivial
  | some f =>
    refine returns_bind (returns_iterate (I := fun s => s.buf.length = bulkSize)
      (μ := fun _ => 0) (fun s _ => ?_) (fun s t s' hs hr => ?_) (malloc_length _ _) (by omega))
      fun _ _ _ => trivial
    · refine returns_ite (returns_bind (returns_fread _ _) fun _ _ _ => returns_ite trivial ?_)
        trivial
      exact returns_bind (returns_amlUsbBurnWrite _ _ _ _ _) fun _ _ _ => returns_ite trivial
        trivial
    · obtain ⟨hne, -⟩ := runs_while hr
      obtain ⟨ret, hdone, -⟩ := Burn.burnTurn_runs hne hbulk hs hr
      cases hdone

lemma returns_isFileFormatSparse (files : Files) (filename : Bytes) :
    Returns (isFileFormatSparse files filename) := by
  refine returns_bind (returns_fopenRead _ _) fun _ stream _ => ?_
  cases stream with
  | none => trivial
  | some f => exact returns_bind (returns_fread _ _) fun _ _ _ => trivial

/-- An upload of a size that is not negative, with a turn for each byte. -/
lemma returns_readMediaFile (junk : ℕ → UInt8) (rom : AmlUsbRomRW) (filename : Option Bytes)
    {size : ℤ} {turns : ℕ} (hsize : 0 ≤ size) (hturns : size.toNat < turns) :
    Returns (readMediaFile junk turns rom filename size) := by
  refine returns_bind ?_ fun _ opened _ => returns_ite (returns_bind ?_ fun _ _ _ => trivial)
    trivial
  · cases filename with
    | none => trivial
    | some path => exact fun _ => trivial
  · refine returns_iterate (I := fun s => 0 ≤ s.size) (μ := fun s => s.size.toNat)
      (fun s _ => returns_uploadTurn _ s) (fun s t s' hs hr => ?_) hsize hturns
    obtain ⟨hnonneg, hlt⟩ := uploadTurn_size hs hr
    exact ⟨hnonneg, by omega⟩

end Loops

/-! ### Downloads -/

section Downloads

variable (handle : Option Handle)

lemma returns_csw (doSend doOkay : Bool) : Returns (amlLibusbBl2Csw handle doSend doOkay) := by
  refine returns_ite ?_ ?_
  · exact returns_bind (returns_usbBulkWrite _ _ _ _ _) fun _ _ _ => trivial
  · exact returns_bind (returns_usbBulkRead _ _ _ _ _) fun _ _ _ => trivial

lemma returns_cmdParser (cmd : ℤ) (param : AmlBl2Cmd) :
    Returns (amlLibusbBl2CmdParser handle cmd param) := by
  refine returns_bind (returns_usbControlMsg _ _ _ _ _ _ _ _) fun _ _ _ => returns_ite trivial ?_
  refine returns_bind (returns_usbBulkRead _ _ _ _ _) fun _ _ _ => returns_ite trivial ?_
  exact returns_bind (returns_csw _ _ _) fun _ _ _ => trivial

attribute [local irreducible] pieceCount testPieceCount

lemma returns_secureDownload (file : File) (buf : Bytes) (param : AmlBl2Cmd) :
    Returns (amlLibusbBl2SecureDownload handle file buf param) := by
  refine returns_bind (returns_iterate (I := fun _ => True)
    (μ := fun s => (pieceCount param.dataSize).toNat - s.i) (fun s _ => ?_) (fun s t s' _ hr => ?_)
    trivial (by dsimp only; omega)) fun _ r _ => returns_ite trivial ?_
  · refine returns_ite (returns_bind (returns_usbControlMsg _ _ _ _ _ _ _ _) fun _ _ _ =>
      returns_ite trivial (returns_bind (returns_fread _ _) fun _ _ _ => ?_)) trivial
    refine returns_ite trivial (returns_bind (returns_usbBulkWrite _ _ _ _ _) fun _ _ _ => ?_)
    exact returns_ite trivial (returns_bind (returns_csw _ _ _) fun _ _ _ => returns_ite trivial
      trivial)
  · obtain ⟨hlt, hrest⟩ := runs_while hr
    obtain ⟨_, -, t₁, -, -, -, hrest⟩ := runs_checked hrest
    obtain ⟨_, -, t₂, -, -, -, hrest⟩ := runs_checked hrest
    obtain ⟨_, -, t₃, -, -, -, hrest⟩ := runs_checked hrest
    obtain ⟨_, -, t₄, -, -, -, hrest⟩ := runs_checked hrest
    cases (runs_ret.mp hrest).2
    refine ⟨trivial, ?_⟩
    dsimp only
    omega
  · refine returns_bind (returns_usbControlMsg _ _ _ _ _ _ _ _) fun _ _ _ => returns_ite trivial ?_
    refine returns_bind (returns_usbBulkWrite _ _ _ _ _) fun _ _ _ => returns_ite trivial ?_
    exact returns_bind (returns_csw _ _ _) fun _ _ _ => trivial

lemma returns_testDownload (file : File) (buf cbw : Bytes) (timeout : ℤ) :
    Returns (testDownload handle file buf cbw timeout) := by
  refine returns_ite trivial (returns_bind (returns_csw _ _ _) fun _ _ _ => returns_ite trivial ?_)
  refine returns_bind (returns_iterate (I := fun _ => True)
    (μ := fun s => testPieceCount (i32 (getU32 cbw 8)) - s.i) (fun s _ => ?_)
    (fun s t s' _ hr => ?_) trivial (by dsimp only; omega)) fun _ r _ => returns_ite trivial ?_
  · refine returns_ite (returns_bind (returns_usbControlMsg _ _ _ _ _ _ _ _) fun _ _ _ =>
      returns_ite trivial (returns_bind (returns_fread _ _) fun _ _ _ => ?_)) trivial
    refine returns_ite trivial (returns_bind (returns_usbBulkWrite _ _ _ _ _) fun _ _ _ => ?_)
    exact returns_ite trivial (returns_bind (returns_csw _ _ _) fun _ _ _ => returns_ite trivial
      trivial)
  · obtain ⟨hlt, hrest⟩ := runs_while hr
    obtain ⟨_, -, t₁, -, -, -, hrest⟩ := runs_checked hrest
    obtain ⟨_, -, t₂, -, -, -, hrest⟩ := runs_checked hrest
    obtain ⟨_, -, t₃, -, -, -, hrest⟩ := runs_checked hrest
    obtain ⟨_, -, t₄, -, -, -, hrest⟩ := runs_checked hrest
    cases (runs_ret.mp hrest).2
    refine ⟨trivial, ?_⟩
    dsimp only
    omega
  · refine returns_bind (returns_usbControlMsg _ _ _ _ _ _ _ _) fun _ _ _ => returns_ite trivial ?_
    refine returns_bind (returns_usbBulkWrite _ _ _ _ _) fun _ _ _ => returns_ite trivial ?_
    exact returns_bind (returns_csw _ _ _) fun _ _ _ => trivial

lemma returns_amlLibusbBl2Test (files : Files) (buf : Bytes) (dev : Device) (timeout argc : ℤ)
    (argv : List Bytes) : Returns (amlLibusbBl2Test files buf dev timeout argc argv) := by
  refine returns_bind (returns_openUsbDevice _) fun _ r _ => returns_ite trivial ?_
  refine returns_ite trivial (returns_bind (returns_fopenRead _ _) fun _ file _ => ?_)
  refine returns_bind ?_ fun _ _ _ => returns_bind (returns_closeUsbDevice _) fun _ _ _ => trivial
  cases file with
  | none => trivial
  | some f =>
    refine returns_bind (returns_usbControlMsg _ _ _ _ _ _ _ _) fun _ _ _ => returns_ite trivial ?_
    refine returns_bind (returns_usbBulkRead _ _ _ _ _) fun _ _ _ => returns_ite trivial ?_
    exact returns_testDownload _ _ _ _ _

end Downloads

/-! ### Waiting -/

/-- That many looks at the clock in a row, all of them within 20 minutes of the first. -/
def Hurried (turns : ℕ) (t : Trace) : Prop :=
  ∃ cs, cs <:+: t.filterMap clockOf ∧ cs.length = turns ∧
    ∀ start ∈ cs.head?, ∀ c ∈ cs, c - start < 20 * 60 * 1000

/-- The boot loader was asked for its next request that many times. -/
def Served (turns : ℕ) (t : Trace) : Prop := turns ≤ t.countP fun e => isRequest amReqStart e.1

/-- What it takes to use up the turns of the loops that wait. -/
def Spent (turns : ℕ) (t : Trace) : Prop := Hurried turns t ∨ Served turns t

variable {turns : ℕ}

lemma spent_lasts : Lasts (Spent turns) := by
  rintro t₁ t₂ (⟨cs, hcs, hrest⟩ | h)
  · refine .inl ⟨cs, hcs.trans ?_, hrest⟩
    rw [List.filterMap_append]
    exact (List.suffix_append _ _).isInfix
  · refine .inr (le_trans h ?_)
    rw [List.countP_append]
    exact Nat.le_add_left _ _

lemma spent_of_returns {α : Type} {p : Program α} (hp : Returns p) : GivesUp (Spent turns) p :=
  givesUp_of_returns hp

/-- A wait that begins with a look at the clock and ends within 20 minutes. -/
lemma spent_wait {σ α : Type} {body : ℤ → σ → Program (Loop σ σ)} (now : σ → ℤ) {s₀ : ℤ → σ}
    {g : σ → Program α} {limit : ℤ} (hlimit : limit ≤ 20 * 60 * 1000)
    (turn : ∀ start s, Returns (body start s))
    (next : ∀ start s t s', Runs (body start s) t (.next s') →
      now s - start < limit ∧ t.filterMap clockOf = [now s'])
    (hstart : ∀ start, now (s₀ start) = start) (hg : ∀ s, Returns (g s)) :
    GivesUp (Spent turns)
      (getTickCount >>= fun start => iterate (body start) turns (s₀ start) >>= g) := by
  rw [← Prog.assoc]
  refine givesUp_bind spent_lasts (fun t hs => ?_) fun _ _ _ => spent_of_returns (hg _)
  rcases steps_call.mp hs with ⟨-, he⟩ | ⟨start, t', rfl, hloop⟩
  · cases he
  have hgives : ∃ cs, cs <+: now (s₀ start) :: t'.filterMap clockOf ∧ cs.length = turns ∧
      ∀ c ∈ cs, c < start + limit :=
    givesUp_iterate_timed (turn start) (fun s t s' hr => by
      obtain ⟨hlt, hread⟩ := next _ _ _ _ hr
      exact ⟨by omega, hread⟩) t' hloop
  obtain ⟨cs, hcs, hlen, hall⟩ := hgives
  rw [hstart] at hcs
  refine .inl ⟨cs, hcs.isInfix, hlen, fun c₀ hc₀ c hc => ?_⟩
  obtain ⟨l, rfl⟩ : ∃ l, cs = c₀ :: l := List.head?_eq_some_iff.mp hc₀
  obtain rfl : c₀ = start := (List.cons_prefix_cons.mp hcs).1
  have hlt := hall c hc
  omega

lemma returns_usbWriteFile (drv : AmlUsbDrv) (inBuf : Bytes) (inLen bytesReturned : ℕ) :
    Returns (usbWriteFile drv inBuf inLen bytesReturned) :=
  returns_ite trivial (returns_bind (returns_usbBulkWrite _ _ _ _ _) fun _ _ _ => trivial)

lemma returns_writeMediaCmd (drv : AmlUsbDrv) (address size seqNum cksum bulkSize timeout : ℕ) :
    Returns (writeMediaCmd drv address size seqNum cksum bulkSize timeout) :=
  returns_bind (returns_handled (usbDeviceIoControlEx_handled _ _ _ _ _ _ _ _)) fun _ _ _ => trivial

/-- A reply is received without a look at the clock. -/
lemma usbReadFile_clock {drv : AmlUsbDrv} {outBuf : Bytes} {outLen bytesReturned : ℕ} {t : Trace}
    {r : ℕ × ℕ × Bytes} (hr : Runs (usbReadFile drv outBuf outLen bytesReturned) t r) :
    t.filterMap clockOf = [] := by
  obtain ⟨dev, handle, readEp, writeEp⟩ := drv
  unfold usbReadFile at hr
  split_ifs at hr
  · rw [(runs_ret.mp hr).1]
    rfl
  · cases handle with
    | none =>
      obtain ⟨e, -⟩ := runs_call.mp hr
      exact e.elim
    | some hd =>
      obtain ⟨x, t', rfl, hend⟩ := runs_call.mp hr
      rw [(runs_ret.mp hend).1]
      rfl

/-- The wait of `AmlWriteMedia`, for at most 12 minutes. -/
lemma spent_writeMediaData (drv : AmlUsbDrv) (rom : AmlUsbRomRW) (addr : ℕ) :
    GivesUp (Spent turns) (writeMediaData drv rom turns addr) := by
  refine givesUp_bind spent_lasts (spent_of_returns (returns_usbWriteFile _ _ _ _)) fun _ r _ => ?_
  refine givesUp_ite (fun _ => givesUp_ret _) fun _ => givesUp_ite (fun _ => givesUp_ret _)
    fun _ => ?_
  refine spent_wait MediaPoll.curTime (by decide : (12 * 60 * 1000 : ℤ) ≤ 20 * 60 * 1000)
    (fun start s => ?_) (fun start s t s' hr => ?_) (fun _ => rfl) fun _ => trivial
  · refine returns_ite (returns_bind (returns_usbReadFile _ _ _ _) fun _ _ _ => ?_) trivial
    exact returns_ite trivial (returns_ite trivial (returns_ite trivial fun _ => trivial))
  · obtain ⟨hlt, hrest⟩ := runs_while hr
    obtain ⟨x, t₁, t₂, rfl, hread, -, hrest⟩ := runs_checked hrest
    obtain ⟨-, hrest⟩ := runs_unless hrest
    obtain ⟨-, hrest⟩ := runs_unless hrest
    obtain ⟨c, t₃, rfl, hend⟩ := runs_call.mp hrest
    obtain ⟨rfl, he⟩ := runs_ret.mp hend
    cases he
    refine ⟨hlt, ?_⟩
    rw [List.filterMap_append, usbReadFile_clock hread]
    rfl

lemma spent_amlWriteMedia (rom : AmlUsbRomRW) :
    GivesUp (Spent turns) (amlWriteMedia turns rom) := by
  refine givesUp_bind spent_lasts (spent_of_returns (returns_openUsbDevice _)) fun _ r _ => ?_
  refine givesUp_ite (fun _ => givesUp_ret _) fun _ => givesUp_bind spent_lasts ?_ fun _ _ _ =>
    spent_of_returns (returns_bind (returns_closeUsbDevice _) fun _ _ _ => trivial)
  refine givesUp_iterate spent_lasts (I := fun _ => True) (μ := fun s => 3 - s.1) (fun s _ => ?_)
    (fun s t s' _ hr => ?_) trivial (by dsimp only; omega)
  · refine givesUp_ite (fun _ => ?_) fun _ => givesUp_ret _
    refine givesUp_bind spent_lasts (spent_of_returns (returns_writeMediaCmd _ _ _ _ _ _ _))
      fun _ _ _ => ?_
    exact givesUp_ite (fun _ => givesUp_ret _) fun _ => spent_writeMediaData _ _ _
  · obtain ⟨hle, hrest⟩ := runs_while hr
    obtain ⟨ret, t₁, t₂, rfl, -, -, hdata⟩ := runs_checked hrest
    obtain ⟨_, -, t₃, -, -, hdata⟩ := runs_bind.mp hdata
    obtain ⟨-, hdata⟩ := runs_unless hdata
    obtain ⟨-, hdata⟩ := runs_unless hdata
    obtain ⟨start, -, t₄, -, -, hdata⟩ := runs_bind.mp hdata
    obtain ⟨p, -, t₅, -, -, hend⟩ := runs_bind.mp hdata
    have hverdict := (runs_ret.mp hend).2
    unfold mediaVerdict at hverdict
    split_ifs at hverdict
    cases hverdict
    refine ⟨trivial, ?_⟩
    dsimp only
    omega

/-- A file is written in as many pieces as it has, each with its waits. -/
lemma spent_writeMediaFile (files : Files) (junk : ℕ → UInt8) (rom : AmlUsbRomRW)
    (filename : Bytes) : GivesUp (Spent turns) (writeMediaFile files junk turns rom filename) := by
  refine givesUp_bind spent_lasts (spent_of_returns (returns_fopenRead _ _)) fun _ stream _ => ?_
  cases stream with
  | none => exact givesUp_ret _
  | some f =>
    have hclock : Returns timeGetTime := fun _ => trivial
    refine givesUp_bind spent_lasts (spent_of_returns hclock) fun _ _ _ => ?_
    refine givesUp_bind spent_lasts ?_ fun _ _ _ => givesUp_bind spent_lasts
      (spent_of_returns hclock) fun _ _ _ => givesUp_ret _
    refine givesUp_iterate spent_lasts (I := fun _ => True) (μ := fun s => s.remain) (fun s _ => ?_)
      (fun s t s' _ hr => ?_) trivial (Nat.lt_succ_self _)
    · refine givesUp_ite (fun _ => ?_) fun _ => givesUp_ret _
      refine givesUp_bind spent_lasts (spent_of_returns (returns_fread _ _)) fun _ _ _ => ?_
      refine givesUp_ite (fun _ => givesUp_ret _) fun _ => ?_
      refine givesUp_bind spent_lasts (spent_amlWriteMedia _) fun _ _ _ => ?_
      exact givesUp_ite (fun _ => givesUp_ret _) fun _ => givesUp_ret _
    · obtain ⟨hne, hrest⟩ := runs_while hr
      obtain ⟨_, -, t₁, -, -, -, hrest⟩ := runs_checked hrest
      obtain ⟨_, -, t₂, -, -, -, hrest⟩ := runs_checked hrest
      cases (runs_ret.mp hrest).2
      refine ⟨trivial, ?_⟩
      dsimp only
      omega

/-- The wait of `AmlUsbBulkCmd`, for at most 20 minutes. -/
lemma spent_amlUsbBulkCmd (rom : AmlUsbRomRW) :
    GivesUp (Spent turns) (amlUsbBulkCmd turns rom) := by
  refine givesUp_bind spent_lasts (spent_of_returns (returns_openUsbDevice _)) fun _ r _ => ?_
  refine givesUp_ite (fun _ => givesUp_ret _) fun _ => givesUp_bind spent_lasts
    (spent_of_returns (returns_handled (usbDeviceIoControlEx_handled _ _ _ _ _ _ _ _)))
      fun _ r' _ => ?_
  refine givesUp_ite (fun _ => spent_of_returns ?_) fun _ => ?_
  · exact returns_bind (returns_closeUsbDevice _) fun _ _ _ => trivial
  refine spent_wait BulkPoll.curTime le_rfl (fun start s => ?_)
    (fun start s t s' hr => ?_) (fun _ => rfl) fun _ =>
      returns_bind (returns_closeUsbDevice _) fun _ _ _ => trivial
  · refine returns_ite (returns_bind (returns_bind (returns_usbReadFile _ _ _ _) fun _ _ _ =>
      trivial)
      fun _ _ _ => ?_) trivial
    exact returns_ite trivial (returns_ite trivial fun _ => trivial)
  · obtain ⟨hlt, hrest⟩ := runs_while hr
    obtain ⟨x, t₁, t₂, rfl, hread, hrest⟩ := runs_bind.mp hrest
    obtain ⟨y, t₃, t₄, rfl, hfile, hpure⟩ := runs_bind.mp hread
    obtain ⟨rfl, rfl⟩ := runs_ret.mp hpure
    obtain ⟨-, hrest⟩ := runs_unless hrest
    obtain ⟨-, hrest⟩ := runs_unless hrest
    obtain ⟨c, t₅, rfl, hend⟩ := runs_call.mp hrest
    obtain ⟨rfl, he⟩ := runs_ret.mp hend
    cases he
    refine ⟨hlt, ?_⟩
    rw [List.filterMap_append, List.append_nil, usbReadFile_clock hfile]
    rfl

/-- A session begins a turn by asking for a request. -/
lemma cmdParser_asks {handle : Option Handle} {cmd : ℤ} {param : AmlBl2Cmd} {t : Trace}
    {r : ℤ × ℤ × AmlBl2Cmd} (hr : Runs (amlLibusbBl2CmdParser handle cmd param) t r) :
    ∃ e ∈ t, isRequest amReqStart e.1 := by
  cases handle with
  | none =>
    obtain ⟨e, -⟩ := runs_call.mp hr
    exact e.elim
  | some hd =>
    obtain ⟨x, t', rfl, -⟩ := runs_call.mp hr
    exact ⟨_, List.mem_cons_self, rfl⟩

/-- A boot loader is served request by request. -/
lemma spent_amlLibusbBl2Boot (files : Files) (buf : Bytes) (dev : Device) (argc : ℤ)
    (argv : List Bytes) :
    GivesUp (Spent turns) (amlLibusbBl2Boot files buf turns dev argc argv) := by
  refine givesUp_bind spent_lasts (spent_of_returns (returns_openUsbDevice _)) fun _ r _ => ?_
  refine givesUp_ite (fun _ => givesUp_ret _) fun _ => givesUp_ite (fun _ => givesUp_ret _)
    fun _ => ?_
  refine givesUp_bind spent_lasts (spent_of_returns (returns_fopenRead _ _)) fun _ file _ => ?_
  refine givesUp_bind spent_lasts ?_ fun _ _ _ =>
    spent_of_returns (returns_bind (returns_closeUsbDevice _) fun _ _ _ => trivial)
  cases file with
  | none => exact givesUp_ret _
  | some f =>
    refine (givesUp_iterate_counted (c := fun e => isRequest amReqStart e.1) (fun s => ?_)
      fun s t s' hr => ?_).mono fun t ht => .inr ht
    · refine returns_bind (returns_cmdParser _ _ _) fun _ r _ => returns_ite trivial ?_
      refine returns_ite trivial (returns_ite trivial (returns_ite trivial ?_))
      exact returns_bind (returns_secureDownload _ _ _ _) fun _ _ _ => returns_ite trivial trivial
    · obtain ⟨_, t₁, t₂, rfl, hparse, -⟩ := runs_bind.mp hr
      obtain ⟨e, he, hasks⟩ := cmdParser_asks hparse
      exact ⟨e, List.mem_append_left _ he, hasks⟩

/-! ### On the command line -/

/-- Where on the command line the size of an upload stands: it is the fourth argument of `mread`,
behind the device if one is named. -/
def sizePlace (argv : List Bytes) : ℕ := match deviceArg (argv.getD 2 []) with
  | .ordinary => 5
  | _ => 6

/-- An upload that has fewer turns than bytes to count, or counts away from 0. -/
def Endless (m : Machine) (argv : List Bytes) : Prop :=
  argv.getD 1 [] = cmdMread ∧ ∃ s, argv[sizePlace argv]? = some s ∧
    (strtoll s 0 < 0 ∨ m.uploads ≤ (strtoll s 0).toNat)

/-- The ways not to come to an end. -/
def Unfinished (m : Machine) (argv : List Bytes) (t : HostTrace) : Prop :=
  Spent m.turns (lefts t) ∨ (∃ i, argv.length ≤ i ∧ ⟨.inr (.argv i), ()⟩ ∈ t) ∨ Endless m argv

/-- There are no others. -/
abbrev Halts (m : Machine) (argv : List Bytes) {α : Type} (p : HostProgram α) : Prop :=
  GivesUp (Unfinished m argv) p

section Halts

variable {m : Machine} {argv : List Bytes} {α β : Type}

lemma unfinished_lasts : Lasts (Unfinished m argv) := by
  rintro t₁ t₂ (h | ⟨i, hi, hmem⟩ | h)
  · refine .inl ?_
    rw [lefts_append]
    exact spent_lasts _ _ h
  · exact .inr (.inl ⟨i, hi, List.mem_append_right _ hmem⟩)
  · exact .inr (.inr h)

lemma Halts.bind {p : HostProgram α} {f : α → HostProgram β} (hp : Halts m argv p)
    (hf : ∀ t a, Runs p t a → Halts m argv (f a)) : Halts m argv (p >>= f) :=
  givesUp_bind unfinished_lasts hp hf

lemma halts_ret (a : α) : Halts m argv (.ret a) := givesUp_ret a

lemma halts_ite {c : Prop} [Decidable c] {p q : HostProgram α} (hp : Halts m argv p)
    (hq : Halts m argv q) : Halts m argv (if c then p else q) :=
  givesUp_ite (fun _ => hp) fun _ => hq

lemma halts_waits {p : Program α} (hp : GivesUp (Spent m.turns) p) : Halts m argv (usb p) :=
  (givesUp_left hp).mono fun _ h => .inl h

lemma halts_returns {p : Program α} (hp : Returns p) : Halts m argv (usb p) :=
  halts_waits (spent_of_returns hp)

lemma halts_element (i : ℕ) : Halts m argv (element argv i) := by
  intro t hs
  rcases steps_call.mp hs with ⟨-, he⟩ | ⟨_, t', rfl, h⟩
  · cases he
  cases hget : argv[i]? with
  | some s =>
    rw [hget] at h
    cases (steps_ret.mp h).2
  | none => exact .inr (.inl ⟨i, List.getElem?_eq_none_iff.mp hget, List.mem_cons_self⟩)

lemma halts_overrun : Halts m argv (overrun : HostProgram α) := by
  refine givesUp_of_returns ?_
  exact fun e => e.elim

lemma halts_scan (vendorName : Bytes) (maxDevices : ℤ) :
    Halts m argv (scanX3Devices vendorName maxDevices) :=
  givesUp_of_returns fun _ => trivial

lemma halts_handle (vendorName target : Bytes) : Halts m argv (getDeviceHandle vendorName target) :=
  givesUp_of_returns fun _ => trivial

/-! ### The commands -/

lemma halts_updateScan (result : Bool) (devNo : ℤ) (mass : Bool) :
    Halts m argv (updateScan result devNo mass) := by
  have hcandidate : ∀ c, Halts m argv (candidate c devNo) := fun c =>
    halts_ite (halts_ret _) halts_overrun
  refine Halts.bind (halts_scan _ _) fun _ r _ => halts_ite (halts_ret _) ?_
  refine halts_ite (halts_ite (halts_ret _) (halts_ite (halts_ite (halts_ret _) ?_) ?_))
    (halts_ret _)
  · refine Halts.bind (hcandidate _) fun _ target _ => ?_
    exact Halts.bind (halts_handle _ _) fun _ _ _ => halts_ret _
  · exact Halts.bind (hcandidate _) fun _ _ _ => halts_ret _

lemma halts_scanCommand : Halts m argv (scanCommand argv) := by
  have hlist : Halts m argv (updateScan false (-2) false >>= fun _ => (pure 0 : HostProgram ℤ)) :=
    Halts.bind (halts_updateScan _ _ _) fun _ _ _ => halts_ret _
  refine halts_ite (halts_ret _) (halts_ite (Halts.bind (halts_element _) fun _ s _ => ?_) hlist)
  exact halts_ite (Halts.bind (halts_updateScan _ _ _) fun _ _ _ => hlist) hlist

section Others

variable {cmd : Bytes}

lemma halts_massStorageDevice (devNo : ℤ) : Halts m argv (massStorageDevice cmd argv devNo) := by
  refine Halts.bind (halts_updateScan _ _ _) fun _ r _ => halts_ite (halts_ret _) ?_
  exact halts_ite (Halts.bind (halts_element _) fun _ _ _ => halts_ret _) (halts_ret _)

lemma halts_massStorageCommand : Halts m argv (massStorageCommand cmd argv) := by
  have hdev : ∀ devNo, Halts m argv (massStorageDevice cmd argv devNo) := halts_massStorageDevice
  refine halts_ite (halts_ite ?_ (halts_ite (halts_ret _) ?_)) (halts_ite (hdev _) (halts_ite
    (halts_ret _) ?_))
  · exact Halts.bind (halts_element _) fun _ _ _ => halts_ite (halts_ret _) (hdev _)
  · refine Halts.bind (halts_element _) fun _ _ _ => halts_ite ?_ (hdev _)
    refine Halts.bind (givesUp_of_returns fun _ => trivial) fun _ _ _ => ?_
    exact halts_ite (halts_ret _) (hdev _)
  · exact Halts.bind (halts_element _) fun _ _ _ => halts_ite (halts_ret _) (hdev _)

lemma halts_amlSendCommand (dev : Device) (text : Bytes) (retry : ℤ) (reply : Bytes) :
    Halts m argv (amlSendCommand dev text retry reply) := by
  refine halts_ite (halts_ret _) (halts_ite halts_overrun ?_)
  refine Halts.bind (halts_returns (returns_amlUsbTplCmd _)) fun _ r _ => halts_ite ?_ (halts_ret _)
  exact halts_returns (returns_sendCommand _ (Nat.lt_succ_self _))

lemma halts_commandDevice (target : Bytes) : Halts m argv (commandDevice target) := by
  refine Halts.bind (halts_handle _ _) fun _ dev _ => halts_ite (halts_ret _) ?_
  refine Halts.bind (halts_returns (returns_amlUsbIdentifyHost _)) fun _ r _ => ?_
  exact halts_ite (halts_ret _) (halts_ite (halts_ret _) (halts_ret _))

lemma halts_amlGetSn (target usid : Bytes) : Halts m argv (amlGetSn target usid) := by
  refine Halts.bind (halts_commandDevice _) fun _ dev _ => halts_ite (halts_ret _) ?_
  refine Halts.bind (halts_amlSendCommand _ _ _ _) fun _ r _ => ?_
  refine Halts.bind (halts_amlSendCommand _ _ _ _) fun _ r' _ => halts_ite (halts_ret _) ?_
  exact halts_ite (halts_ret _) (halts_ret _)

lemma halts_amlSetSn (src target usid : Bytes) : Halts m argv (amlSetSn src target usid) := by
  refine Halts.bind (halts_commandDevice _) fun _ dev _ => halts_ite (halts_ret _) ?_
  refine halts_ite halts_overrun (Halts.bind (halts_amlSendCommand _ _ _ _) fun _ r _ => ?_)
  refine Halts.bind (halts_amlSendCommand _ _ _ _) fun _ r' _ => halts_ite (halts_ret _) ?_
  exact halts_ite (halts_ret _) (halts_ret _)

lemma halts_serialDevice (devNo : ℤ) : Halts m argv (serialDevice m cmd argv devNo) := by
  refine Halts.bind (halts_scan _ _) fun _ r _ => halts_ite (halts_ret _) (halts_ite ?_
    (halts_ite ?_ (halts_ret _)))
  · exact Halts.bind (halts_amlGetSn _ _) fun _ _ _ => halts_ret _
  · refine Halts.bind (halts_element _) fun _ usid _ => ?_
    exact Halts.bind (halts_amlSetSn _ _ _) fun _ _ _ => halts_ret _

lemma halts_serialCommand (devNo : ℤ) : Halts m argv (serialCommand m cmd argv devNo) := by
  refine halts_ite (halts_serialDevice _) (halts_ite ?_ (halts_ite (halts_ret _)
    (halts_serialDevice _)))
  exact Halts.bind (halts_element _) fun _ s _ => halts_ite (halts_ret _) (halts_serialDevice _)

lemma halts_downDevice (device : Device) (devNo : ℤ) :
    Halts m argv (downDevice m argv device devNo) := by
  refine Halts.bind (halts_updateScan _ _ _) fun _ r _ => halts_ite (halts_ret _) ?_
  refine halts_ite (Halts.bind (halts_element _) fun _ s _ => ?_) (halts_ret _)
  exact Halts.bind (halts_waits (spent_writeMediaFile _ _ _ _)) fun _ _ _ => halts_ret _

lemma halts_downCommand (device : Device) : Halts m argv (downCommand m argv device) := by
  refine halts_ite (Halts.bind (halts_element _) fun _ s _ => ?_) (halts_ite (halts_ret _)
    (halts_downDevice _ _))
  exact halts_ite (halts_ret _) (halts_downDevice _ _)

end Others

section Arguments

variable {cmd : Bytes} {cmdArgv : Argv} {cmdArgc : ℤ} {rom : AmlUsbRomRW}

lemma halts_optional (hargs : ∀ j, Halts m argv (cmdArgv j)) (i : ℕ) :
    Halts m argv (optional cmdArgv cmdArgc i) :=
  halts_ite (halts_ret _) (Halts.bind (hargs i) fun _ _ _ => halts_ret _)

lemma returns_openSave (path : Option Bytes) : Returns (openSave path) := by
  cases path with
  | none => trivial
  | some path => exact fun _ => trivial

variable (hargs : ∀ j, Halts m argv (cmdArgv j))
include hargs

lemma halts_runAndRreg :
    Halts m argv (updateSubCmdRunAndRreg m.files m.junk rom cmd cmdArgv cmdArgc) := by
  refine halts_ite (halts_ret _) (halts_ite (halts_ret _) (Halts.bind (hargs 0) fun _ s _ => ?_))
  refine halts_ite (halts_returns (returns_amlUsbRunBinCode _)) ?_
  refine Halts.bind (hargs 1) fun _ s' _ => Halts.bind (halts_optional hargs 2)
    fun _ saveFile _ => ?_
  refine Halts.bind (halts_returns (returns_openSave _)) fun _ save _ => ?_
  refine halts_ite (halts_returns (returns_rreg _ _ _ _)) (Halts.bind (hargs 0) fun _ path _ => ?_)
  refine Halts.bind (halts_returns (returns_fopenRead _ _)) fun _ stream _ => ?_
  cases stream with
  | none => exact halts_returns returns_segfault
  | some f => exact halts_returns (returns_rreg _ _ _ _)

lemma halts_readWrite :
    Halts m argv (updateSubCmdReadWrite m.files m.junk m.seqNum rom cmd cmdArgv cmdArgc) := by
  refine halts_ite (halts_ret _) (Halts.bind (hargs 1) fun _ s _ => halts_ite ?_ (halts_ite ?_
    (halts_ite ?_ (halts_ret _))))
  · refine Halts.bind (hargs 0) fun _ val _ => ?_
    exact Halts.bind (halts_returns (returns_amlLibusbCtrlRdWr _ _ _ _ _ _))
      fun _ _ _ => halts_ret _
  · refine Halts.bind (halts_optional hargs 2) fun _ path _ => ?_
    refine Halts.bind (halts_returns (returns_openSave _)) fun _ save _ => ?_
    refine Halts.bind (hargs 0) fun _ size _ => ?_
    exact Halts.bind (halts_returns (returns_dump _ _ _)) fun _ _ _ => halts_ret _
  · refine Halts.bind (hargs 0) fun _ path _ => ?_
    refine Halts.bind (halts_returns (returns_fopenRead _ _)) fun _ stream _ => ?_
    cases stream with
    | none => exact halts_ret _
    | some f =>
      refine Halts.bind (halts_optional hargs 2) fun _ sizeArg _ => ?_
      refine Halts.bind (halts_optional hargs 3) fun _ skipArg _ => ?_
      exact halts_returns (returns_write _ _)

lemma halts_setPassword :
    Halts m argv (updateSubCmdSetPassword m.files m.junk rom cmdArgv) := by
  refine Halts.bind (hargs 0) fun _ path _ => ?_
  refine Halts.bind (halts_returns (returns_fopenRead _ _)) fun _ stream _ => ?_
  cases stream with
  | none => exact halts_ret _
  | some f =>
    have hpassword : ∀ buf size, Halts m argv (usb (amlLibusbPassword rom.device buf size 8000)) :=
      fun buf size => halts_returns (returns_amlLibusbPassword rom.device buf size 8000)
    refine halts_ite (halts_ret _) (Halts.bind (halts_returns (returns_fread _ _)) fun _ r _ => ?_)
    refine halts_ite (halts_ret _) (Halts.bind (hpassword _ _) fun _ ret _ => ?_)
    exact Halts.bind (halts_ite (halts_ret _) (hpassword _ _)) fun _ _ _ => halts_ret _

lemma halts_getChipinfo : Halts m argv (updateSubCmdGetChipinfo m.junk rom cmdArgv cmdArgc) := by
  refine Halts.bind (hargs 0) fun _ page _ => Halts.bind (halts_optional hargs 1) fun _ file _ => ?_
  refine Halts.bind (halts_optional hargs 2) fun _ n _ => Halts.bind (halts_optional hargs 3)
    fun _ start _ => ?_
  refine halts_ite (halts_ret _) (halts_ite (halts_ret _) ?_)
  refine Halts.bind (halts_returns (returns_amlLibusbGetChipinfo _ _ _ _ _)) fun _ r _ => ?_
  refine halts_ite (halts_ret _) (halts_ite (halts_ite halts_overrun (halts_ret _)) ?_)
  refine Halts.bind (halts_returns fun _ => trivial) fun _ opened _ => halts_ite (halts_ret _) ?_
  refine halts_ite halts_overrun ?_
  exact Halts.bind (halts_returns (returns_fwrite _)) fun _ _ _ => halts_ret _

lemma halts_doCmdMwrtie :
    Halts m argv (doCmdMwrtie m.files m.junk m.turns cmdArgv cmdArgc rom) := by
  have hbulk : ∀ rom, Halts m argv (usb (amlUsbBulkCmd m.turns rom)) := fun rom =>
    halts_waits (spent_amlUsbBulkCmd rom)
  refine Halts.bind (hargs 0) fun _ path _ => ?_
  refine Halts.bind (halts_returns (returns_fopenRead _ _)) fun _ stream _ => ?_
  cases stream with
  | none => exact halts_ret _
  | some f =>
    refine halts_ite (halts_ret _) (Halts.bind (hargs 1) fun _ place _ => ?_)
    refine Halts.bind (hargs 2) fun _ name _ => Halts.bind (hargs 3) fun _ fmt _ => ?_
    refine Halts.bind (halts_returns (returns_amlUsbTplCmd _)) fun _ r _ => halts_ite
      (halts_ret _) ?_
    refine Halts.bind (halts_returns (returns_amlUsbReadStatus _)) fun _ r' _ => ?_
    refine halts_ite (halts_ret _) (halts_ite (halts_ret _) ?_)
    refine Halts.bind (halts_waits (spent_writeMediaFile _ _ _ _)) fun _ ret _ => ?_
    refine halts_ite (halts_ret _) (Halts.bind (hbulk _) fun _ r'' _ => halts_ite (halts_ret _) ?_)
    refine halts_ite (halts_ret _) (Halts.bind (hargs 4) fun _ verifyFile _ => ?_)
    refine halts_waits (givesUp_bind spent_lasts (spent_of_returns (returns_fopenRead _ _))
      fun _ stream _ => ?_)
    cases stream with
    | none => exact givesUp_ret _
    | some f =>
      refine givesUp_bind spent_lasts (spent_of_returns (returns_fread _ _)) fun _ _ _ => ?_
      exact givesUp_bind spent_lasts (spent_amlUsbBulkCmd _) fun _ _ _ => givesUp_ret _

lemma halts_partition : Halts m argv (partition m.files m.junk m.turns rom cmdArgv cmdArgc) := by
  refine Halts.bind (halts_ite (halts_ret _) ?_) fun _ fmt _ => halts_doCmdMwrtie fun j => ?_
  · refine Halts.bind (hargs 1) fun _ path _ => ?_
    exact Halts.bind (halts_returns (returns_isFileFormatSparse _ _)) fun _ _ _ => halts_ret _
  · match j with
    | 0 => exact hargs 1
    | 1 => exact halts_ret _
    | 2 => exact hargs 0
    | 3 => exact halts_ite (hargs 2) (halts_ret _)
    | n + 4 => exact hargs 3

lemma halts_bl2Test (buf : Bytes) (dev : Device) :
    Halts m argv (Arguments.bl2Test m.files buf dev 5000 cmdArgc cmdArgv) := by
  refine Halts.bind (halts_ite (halts_ret _) (Halts.bind (hargs 0) fun _ _ _ => halts_ret _))
    fun _ image _ => ?_
  exact halts_returns (returns_amlLibusbBl2Test _ _ _ _ _ _)

lemma halts_bl2Boot (buf : Bytes) (dev : Device) :
    Halts m argv (Arguments.bl2Boot m.files buf m.turns dev cmdArgc cmdArgv) := by
  refine Halts.bind (halts_ite (halts_ret _) (Halts.bind (hargs 0) fun _ _ _ => halts_ret _))
    fun _ image _ => ?_
  exact halts_waits (spent_amlLibusbBl2Boot _ _ _ _ _)

end Arguments

/-- The size of an upload is the element of the command line at its place. -/
lemma halts_mread {cmdArgc : ℤ} {base : ℕ} {rom : AmlUsbRomRW} (hcmd : argv.getD 1 [] = cmdMread)
    (hbase : 3 < cmdArgc → base + 3 = sizePlace argv) :
    Halts m argv (updateSubCmdMread m.junk m.turns m.uploads rom cmdArgc (elements argv base)) := by
  have hargs : ∀ j, Halts m argv (elements argv base j) := fun j => halts_element _
  refine givesUp_ite (fun _ => halts_ret _) fun hargc => Halts.bind (hargs 3) fun t s hs => ?_
  refine Halts.bind (hargs 2) fun _ fileType _ => halts_ite (halts_ret _) ?_
  refine Halts.bind (hargs 0) fun _ place _ => Halts.bind (hargs 1) fun _ name _ => ?_
  refine Halts.bind (halts_waits (spent_amlUsbBulkCmd _)) fun _ r _ => halts_ite (halts_ret _) ?_
  refine Halts.bind (halts_optional hargs 4) fun _ filename _ => Halts.bind ?_
    fun _ _ _ => halts_ret _
  by_cases hend : strtoll s 0 < 0 ∨ m.uploads ≤ (strtoll s 0).toNat
  · have hplace : argv[sizePlace argv]? = some s := by
      rw [← hbase (by omega)]
      exact element_runs hs
    exact fun _ _ => .inr (.inr ⟨hcmd, s, hplace, hend⟩)
  · push Not at hend
    exact halts_returns (returns_readMediaFile _ _ _ hend.1 hend.2)

lemma returns_updateSubCmdIdentifyHost (junk : ℕ → UInt8) (rom : AmlUsbRomRW) (idLen : ℤ)
    (id : Option Bytes) : Returns (updateSubCmdIdentifyHost junk rom idLen id) := by
  refine returns_ite trivial (returns_bind (returns_amlUsbIdentifyHost _) fun _ r _ => ?_)
  exact returns_ite trivial (returns_ite trivial trivial)

lemma returns_updateSubCmdGetChipid (junk : ℕ → UInt8) (rom : AmlUsbRomRW) :
    Returns (updateSubCmdGetChipid junk rom) := by
  refine returns_bind (returns_updateSubCmdIdentifyHost _ _ _ _) fun _ r _ => ?_
  refine returns_ite trivial (returns_ite trivial ?_)
  dsimp only
  generalize i32 (u32 (charVal (r.2.getD 1 0)) ||| u32 (charVal (r.2.getD 0 0) * 2 ^ 8) : ℕ) = idVer
  refine returns_ite trivial (returns_ite ?_ ?_)
  · exact returns_bind (returns_amlLibusbGetChipinfo _ _ _ _ _) fun _ _ _ => trivial
  · refine returns_bind (returns_amlLibusbCtrlRdWr _ _ _ _ _ _) fun _ r _ => ?_
    exact returns_ite trivial trivial

lemma returns_updateSubCmdTplcmd (rom : AmlUsbRomRW) (cmd : Bytes) :
    Returns (updateSubCmdTplcmd rom cmd) := by
  refine returns_bind (returns_amlUsbTplCmd _) fun _ r _ => returns_ite ?_ trivial
  exact returns_tplcmd _ (Nat.lt_succ_self 5)

section Main

variable {cmd : Bytes}

lemma halts_dispatch (hcmd : argv.getD 1 [] = cmd) (device : Device) (devNo : ℤ) {base : ℕ}
    {cmdArgc : ℤ} (hbase : 3 < cmdArgc → base + 3 = sizePlace argv) :
    Halts m argv (dispatch m cmd argv device devNo (elements argv base) cmdArgc) := by
  have hargs : ∀ j, Halts m argv (elements argv base j) := fun j => halts_element _
  have hdrop : ∀ {α : Type} {p : Program α} {r : ℤ}, Returns p →
      Halts m argv (usb p >>= fun _ => pure r) := fun hp =>
    Halts.bind (halts_returns hp) fun _ _ _ => halts_ret _
  unfold dispatch
  refine halts_ite (halts_runAndRreg hargs) (halts_ite (halts_setPassword hargs) ?_)
  refine halts_ite (halts_ite (halts_ret _) (halts_getChipinfo hargs)) (halts_ite ?_ ?_)
  · exact Halts.bind (halts_returns (returns_updateSubCmdGetChipid _ _)) fun _ _ _ => halts_ret _
  refine halts_ite (halts_readWrite hargs) (halts_ite halts_massStorageCommand (halts_ite ?_ ?_))
  · refine Halts.bind (halts_ite ?_ (halts_ret _)) fun _ idLen _ =>
      hdrop (returns_updateSubCmdIdentifyHost _ _ _ _)
    exact Halts.bind (hargs 0) fun _ _ _ => halts_ret _
  refine halts_ite (hdrop (returns_amlResetDev _)) (halts_ite ?_ (halts_ite ?_ (halts_ite ?_ ?_)))
  · exact Halts.bind (halts_element _) fun _ s _ => hdrop (returns_updateSubCmdTplcmd _ _)
  · exact hdrop (returns_amlUsbburn _ _ _ _ _ _ _ (by omega) _)
  · exact hdrop (returns_amlUsbReadStatus _)
  refine halts_ite (halts_serialCommand _) (halts_ite (halts_ite (halts_ret _)
    (halts_doCmdMwrtie hargs)) (halts_ite (halts_ite (halts_ret _) (halts_partition hargs)) ?_))
  refine halts_ite (Halts.bind (halts_element _) fun _ s _ => ?_)
    (halts_ite (halts_downCommand _) ?_)
  · refine halts_waits (givesUp_bind spent_lasts (spent_amlUsbBulkCmd _) fun _ _ _ => ?_)
    exact givesUp_ret _
  by_cases hmread : cmd = cmdMread
  · rw [if_pos hmread]
    exact halts_mread (hcmd.trans hmread) hbase
  · rw [if_neg hmread]
    exact halts_ite (halts_bl2Test hargs _ _) (halts_ite (halts_bl2Boot hargs _ _) (halts_ret _))

lemma halts_runOn (hcmd : argv.getD 1 [] = cmd) (device : Device) (devNo : ℤ) {base : ℕ}
    {cmdArgc : ℤ} (hbase : 3 < cmdArgc → base + 3 = sizePlace argv) :
    Halts m argv (runOn m cmd argv device devNo base cmdArgc) := by
  refine Halts.bind (halts_ite (halts_updateScan _ _ _) (halts_ret _)) fun _ r _ => ?_
  exact halts_ite (halts_ret _) (halts_ite (halts_ret _) (halts_dispatch hcmd _ _ hbase))

/-- **The tool comes to an end.** What keeps it from that is one of four things: a wait in which
20 minutes do not pass by the clock however often it is looked at, a boot loader that asks on and
on, an element of the command line that is not there, and `mread` of a negative size. -/
theorem main_halts (m : Machine) (argv : List Bytes) {t : HostTrace}
    (hs : Steps (main m argv) t .stop) :
    Hurried m.turns (lefts t) ∨ Served m.turns (lefts t) ∨
      (∃ i, argv.length ≤ i ∧ ⟨.inr (.argv i), ()⟩ ∈ t) ∨ Endless m argv := by
  have hmain : Halts m argv (main m argv) := by
    refine halts_ite (halts_ret _) (Halts.bind (halts_element 1) fun _ cmd hr => ?_)
    have hcmd : argv.getD 1 [] = cmd := by
      rw [List.getD_eq_getElem?_getD, element_runs hr]
      rfl
    refine halts_ite (halts_ret _) (halts_ite halts_scanCommand
      (halts_ite (halts_runOn hcmd _ _ (by omega)) (Halts.bind (halts_element 2) fun _ s hs => ?_)))
    have hplace : argv.getD 2 [] = s := by
      rw [List.getD_eq_getElem?_getD, element_runs hs]
      rfl
    cases harg : deviceArg s with
    | err => exact halts_ret _
    | number devNo =>
      exact halts_runOn hcmd _ _ fun _ => by rw [sizePlace, hplace, harg]
    | path devPath =>
      refine Halts.bind (halts_handle _ _) fun _ _ _ => halts_runOn hcmd _ _ fun _ => ?_
      rw [sizePlace, hplace, harg]
    | ordinary =>
      exact halts_runOn hcmd _ _ fun _ => by rw [sizePlace, hplace, harg]
  rcases hmain t hs with (h | h) | h
  · exact .inl h
  · exact .inr (.inl h)
  · exact .inr (.inr h)

end Main

end Halts

/-- A board that is always busy, looked at by a clock that goes on by a second. -/
def busyAnswers (h : HostTrace) : (o : HostOp) → Option (HostResp o)
  | .inl .clock => some (1000 * ((lefts h).filterMap clockOf).length : ℤ)
  | .inl (.bulkIn _ _ n _) => some ⟨none, strBusy34.take n, List.length_take_le n _⟩
  | .inr (.argv _) => some ()
  | o => boardAnswers h o

/-- `bulkcmd dev0 x`. -/
def busyLine : List Bytes := [[], cmdBulkcmd, ascii ['d', 'e', 'v', '0'], ascii ['x']]

def twoTurns : Machine := ⟨fun _ => [], fun _ => 0, 2, 0, 0⟩

set_option maxRecDepth 20000 in
theorem main_halts_busy : ∃ t, Steps (main twoTurns busyLine) t .stop ∧
    (lefts t).filterMap clockOf = [0, 1000, 2000] ∧
    (Hurried 2 (lefts t) ∨ Served 2 (lefts t) ∨
      (∃ i, busyLine.length ≤ i ∧ ⟨.inr (.argv i), ()⟩ ∈ t) ∨ Endless twoTurns busyLine) := by
  have hsteps : ∃ t, Steps (main twoTurns busyLine) t .stop ∧
      (lefts t).filterMap clockOf = [0, 1000, 2000] := by
    have hsome : ∃ t, givenUp busyAnswers [] (main twoTurns busyLine) = some t ∧
        (lefts t).filterMap clockOf = [0, 1000, 2000] := ⟨_, rfl, rfl⟩
    obtain ⟨t, ht, hclock⟩ := hsome
    obtain ⟨_, rfl, hu⟩ := givenUp_steps ht
    exact ⟨_, hu, hclock⟩
  obtain ⟨t, ht, hclock⟩ := hsteps
  exact ⟨t, ht, hclock, main_halts twoTurns busyLine ht⟩

end AmlogicUpdate.Halting

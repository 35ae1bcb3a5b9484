import AmlogicUpdate.CommandText
import AmlogicUpdate.MemFiles

/-!
`AmlUsbburn`: a file in pieces, each sent to memory and followed by a command to burn it.

The descriptor of the command has 88 bytes, and a request for a TPL command is accepted with 68
only. So the command is never made, and the first piece is the last.
-/

namespace AmlogicUpdate.Burn

open Interaction CData Usb AmlLibusb UsbRomDrv Update Wire

/-! ### The routines -/

/-- `SET_U64`. -/
def setU64 (buf : Bytes) (off n : ℕ) : Bytes := setU32 (setU32 buf off n) (off + 4) (n / 2 ^ 32)

def burnDescriptor (address bufferLen nBytes : ℕ) (memType : Bytes) (cksum : ℤ) : Bytes :=
  let buf := List.replicate 88 0
  let buf := setU32 buf 0 address
  let buf := setU32 buf 4 0
  let buf := setU32 buf 8 (u32 cksum)
  let buf := setU32 buf 24 bufferLen
  let buf := setU64 buf 32 nBytes
  let buf := blit buf 48 memType
  setU32 buf 80 0

/-- The result, the request and `WriteSeqNum`. -/
def amlUsbBurnWrite (writeSeqNum : ℕ) (cmd : AmlUsbRomRW) (memType : Bytes) (nBytes : ℕ)
    (cksum : ℤ) : Program (ℤ × AmlUsbRomRW × ℕ) := do
  let (ret, cmd, writeSeqNum) ← amlUsbWriteLargeMem writeSeqNum cmd
  if ret ≠ 0 then pure (ret, cmd, writeSeqNum)
  else do
    let oldDataSize := cmd.dataSize
    let buf := burnDescriptor cmd.address cmd.bufferLen nBytes memType cksum
    let (ret, cmd) ← amlUsbTplCmd { cmd with bufferLen := 88, buffer := buf }
    pure (ret, { cmd with dataSize := if ret ≠ 0 then 0 else oldDataSize }, writeSeqNum)

/-- The variables of the loop of `AmlUsbburn`. -/
structure BurnLoop where
  fileSize : ℕ
  offset : ℕ
  rom : AmlUsbRomRW
  buf : Bytes
  file : File
  seqNum : ℕ

/-- The loop is left with `ret` and `offset`. -/
def burnTurn (memType : Bytes) (nBytes bulkSize : ℕ) (cksum : ℤ) (s : BurnLoop) :
    Program (Loop BurnLoop (ℤ × ℕ)) :=
  if s.fileSize ≠ 0 then do
    let transferSize := min s.fileSize bulkSize
    let (data, file) ← fread s.file transferSize
    let buf := blit s.buf 0 data
    if data.length ≠ transferSize then pure (.done (-16, s.offset))
    else do
      let (ret, rom, seqNum) ← amlUsbBurnWrite s.seqNum
        { s.rom with buffer := buf, bufferLen := u32 transferSize } memType nBytes cksum
      if ret ≠ 0 then pure (.done (ret, s.offset))
      else
        let offset := (s.offset + rom.dataSize) % 2 ^ 32
        pure (.next
          { fileSize := (((s.fileSize : ℤ) - rom.dataSize) % 2 ^ 64).toNat
            offset := offset
            rom := { rom with address := (rom.address + rom.dataSize) % 2 ^ 32 }
            buf := buf
            file := fseekSet file offset
            seqNum := seqNum })
  else pure (.done (0, s.offset))

def amlUsbburn (files : Files) (junk : ℕ → UInt8) (writeSeqNum : ℕ) (dev : Device)
    (filename : Bytes) (address : ℕ) (memType : Bytes) (nBytes : ℤ) (bulkSize : ℕ) (cksum : ℤ) :
    Program ℤ :=
  if dev = .null then pure (-15)
  else do
    let stream ← fopenRead files filename
    match stream with
    | none => pure (-25)
    | some f =>
      let (ret, offset) ← iterate (burnTurn memType (nBytes % 2 ^ 64).toNat bulkSize cksum)
        (f.content.length + 1)
        ⟨f.content.length, 0, ⟨dev, 0, [], 0, address⟩, malloc junk bulkSize, f, writeSeqNum⟩
      pure (if ret ≠ 0 then ret else i32 offset)

/-! ### What is asked of it -/

/-- A burn command that reached the device, for the piece of `len` bytes at `address`. -/
def burnCommand (address len : ℕ) : Event → Prop
  | ⟨.controlOut h s data timeout, r⟩ =>
    requestAccepted amReqTplCmd ⟨.controlOut h s data timeout, r⟩ = true ∧
      getU32 data 0 = address ∧ getU32 data 24 = len
  | _ => False

/-- From the byte `n` on: what is left of the file is sent in pieces, in order, each followed by
its burn command. -/
inductive Burning (start bulkSize : ℕ) : ℕ → Bytes → Trace → Prop
  | done {n : ℕ} {t : Trace} (hsent : t.flatMap accepted = [])
      (hnone : ∀ e ∈ t, ¬ isRequest amReqTplCmd e.1) : Burning start bulkSize n [] t
  | piece {n : ℕ} {data rest : Bytes} {t t' : Trace} {e : Event} (hdata : data ≠ [])
      (hlen : data.length ≤ bulkSize) (hsent : t.flatMap accepted = data)
      (hnone : ∀ e ∈ t, ¬ isRequest amReqTplCmd e.1)
      (hcmd : burnCommand ((start + n) % 2 ^ 32) data.length e)
      (hrest : Burning start bulkSize (n + data.length) rest t') :
      Burning start bulkSize n (data ++ rest) (t ++ e :: t')

/-- The file is burned. -/
structure Burned (address bulkSize : ℕ) (content : Bytes) (t : Trace) (r : ℤ) : Prop where
  returned : r = content.length
  burned : Burning address bulkSize 0 content t

/-- Everything asked for was done, and done in full. -/
def inFull : Event → Bool
  | ⟨.libusbOpen _, r⟩ => (r : Option Handle).isSome
  | ⟨.controlOut _ s _ _, r⟩ =>
    have r : OutResult s.wLength := r
    r.status.isNone && r.actual = Fin.last _
  | ⟨.bulkOut _ _ _ n _, r⟩ =>
    have r : OutResult n := r
    r.status.isNone && r.actual = Fin.last _
  | ⟨.fopen _ _, ok⟩ => (ok : Bool)
  | ⟨.fread want avail, k⟩ => (k : Fin (min want avail + 1)) = Fin.last _
  | _ => true

/-! ### No burn command is made -/

lemma burnCommand_isRequest {address len : ℕ} {e : Event} (h : burnCommand address len e) :
    isRequest amReqTplCmd e.1 = true := by
  obtain ⟨o, r⟩ := e
  cases o
  case controlOut hd s data timeout =>
    obtain ⟨hacc, -⟩ := h
    simp only [requestAccepted, Bool.and_eq_true] at hacc
    exact hacc.1
  all_goals exact h.elim

lemma Burning.commanded {start bulkSize n : ℕ} {content : Bytes} {t : Trace}
    (h : Burning start bulkSize n content t) (hne : content ≠ []) :
    ∃ e ∈ t, isRequest amReqTplCmd e.1 = true := by
  cases h with
  | done => exact absurd rfl hne
  | piece _ _ _ _ hcmd _ => exact ⟨_, by simp, burnCommand_isRequest hcmd⟩

/-- Anything but a TPL command. -/
def NoCommand (o : Op) : Prop := isRequest amReqTplCmd o = false

lemma noCommand_plain : CommandText.Plain NoCommand := ⟨fun _ => rfl, fun _ => rfl, rfl⟩

lemma ioctlDoLargeMemHandler_noCommand (ctrl : UsbDevIoCtrl) (doRead : Bool) :
    Calls NoCommand (ioctlDoLargeMemHandler ctrl doRead) := by
  obtain ⟨handle, inBuf, outBuf, inLen, outLen, bytesReturned⟩ := ctrl
  cases inBuf with
  | none => trivial
  | some inBuf =>
    refine calls_ite (fun _ => calls_ret _) fun _ => calls_bind ?_ fun _ => calls_ret _
    cases handle with
    | none => exact CommandText.calls_segfault noCommand_plain
    | some hd => cases doRead <;> exact ⟨rfl, fun _ => trivial⟩

lemma rwLargeMemCmd_noCommand (drv : AmlUsbDrv) (address size bulkSize cksum seqNum : ℕ)
    (doRead : Bool) :
    Calls NoCommand (rwLargeMemCmd drv address size bulkSize cksum seqNum doRead) := by
  refine calls_bind (calls_ite (fun _ => calls_ret _) fun _ => ?_) fun _ => calls_ret _
  cases doRead <;> exact ioctlDoLargeMemHandler_noCommand _ _

lemma writeBulkUsb_noCommand (drv : AmlUsbDrv) (buf : Bytes) (len : ℕ) :
    Calls NoCommand (writeBulkUsb drv buf len) := by
  refine calls_bind ?_ fun _ => trivial
  unfold usbWriteFile
  refine calls_ite (fun _ => trivial) fun _ => calls_bind ?_ fun _ => trivial
  cases drv.handle with
  | none => exact CommandText.calls_segfault noCommand_plain
  | some hd => exact ⟨rfl, fun _ => trivial⟩

lemma amlUsbWriteLargeMem_noCommand (seqNum : ℕ) (rom : AmlUsbRomRW) :
    Calls NoCommand (amlUsbWriteLargeMem seqNum rom) := by
  refine calls_bind (CommandText.calls_openUsbDevice noCommand_plain _) fun ⟨ok, drv⟩ => ?_
  refine calls_ite (fun _ => trivial) fun _ => calls_bind (calls_iterate (fun s => ?_) _ _) fun s =>
    calls_bind (CommandText.calls_closeUsbDevice noCommand_plain drv) fun _ => trivial
  exact LargeMem.calls_largeRound (fun _ _ _ => rwLargeMemCmd_noCommand _ _ _ _ _ _ _)
    (fun _ _ _ => calls_bind (writeBulkUsb_noCommand _ _ _) fun _ => calls_ret _) _ s

/-- A descriptor of 88 bytes is refused before anything is sent. -/
lemma tplCmd_refused (drv : AmlUsbDrv) (buf : Bytes) (bytesReturned : ℕ) :
    usbDeviceIoControl drv .tplCmd (some buf) 88 none 0 bytesReturned =
      .ret (0, ⟨drv.handle, some buf, none, 88, 0, bytesReturned⟩) := by
  unfold usbDeviceIoControl
  split_ifs <;> rfl

lemma amlUsbTplCmd_noCommand {rom : AmlUsbRomRW} (hlen : rom.bufferLen = 88) :
    Calls NoCommand (amlUsbTplCmd rom) := by
  refine CommandText.calls_session noCommand_plain _ (fun drv => usbDeviceIoControl drv .tplCmd
    (some rom.buffer) rom.bufferLen none 0 rom.dataSize) _ (fun _ _ => rfl) fun drv => ?_
  rw [hlen, tplCmd_refused]
  trivial

lemma amlUsbBurnWrite_noCommand (seqNum : ℕ) (rom : AmlUsbRomRW) (memType : Bytes) (nBytes : ℕ)
    (cksum : ℤ) : Calls NoCommand (amlUsbBurnWrite seqNum rom memType nBytes cksum) := by
  refine calls_bind (amlUsbWriteLargeMem_noCommand _ _) fun _ => calls_ite (fun _ => calls_ret _)
    fun _ => calls_bind (amlUsbTplCmd_noCommand rfl) fun _ => calls_ret _

lemma amlUsbburn_noCommand (files : Files) (junk : ℕ → UInt8) (seqNum : ℕ) (dev : Device)
    (filename : Bytes) (address : ℕ) (memType : Bytes) (nBytes : ℤ) (bulkSize : ℕ) (cksum : ℤ) :
    Calls NoCommand
      (amlUsbburn files junk seqNum dev filename address memType nBytes bulkSize cksum) := by
  refine calls_ite (fun _ => trivial) fun _ =>
    calls_bind ⟨rfl, fun _ => trivial⟩ fun stream => ?_
  cases stream with
  | none => trivial
  | some f =>
    refine calls_bind (calls_iterate (fun s => ?_) _ _) fun _ => trivial
    refine calls_ite (fun _ => ⟨rfl, fun k => ?_⟩) fun _ => trivial
    refine calls_ite (fun _ => trivial) fun _ => ?_
    exact calls_bind (amlUsbBurnWrite_noCommand _ _ _ _ _) fun _ =>
      calls_ite (fun _ => trivial) fun _ => trivial

/-! ### The first piece is the last -/

lemma amlUsbWriteLargeMem_nonpos {seqNum : ℕ} {rom : AmlUsbRomRW} {t : Trace}
    {r : ℤ × AmlUsbRomRW × ℕ} (hr : Runs (amlUsbWriteLargeMem seqNum rom) t r) :
    r.1 = 0 ∨ r.1 = -4 ∨ r.1 = -6 := by
  obtain ⟨⟨ok, drv⟩, t₁, t₂, rfl, -, hrest⟩ := runs_bind.mp hr
  dsimp only at hrest
  by_cases hok : ok = 0
  · rw [if_pos hok] at hrest
    obtain ⟨-, rfl⟩ := runs_ret.mp hrest
    exact .inr (.inl rfl)
  rw [if_neg hok] at hrest
  obtain ⟨s, t₃, t₄, -, -, hclose⟩ := runs_bind.mp hrest
  obtain ⟨_, t₅, t₆, -, -, hend⟩ := runs_bind.mp hclose
  obtain ⟨-, rfl⟩ := runs_ret.mp hend
  dsimp only
  split_ifs
  · exact .inl rfl
  · exact .inr (.inr rfl)

lemma amlUsbTplCmd_negative {rom : AmlUsbRomRW} (hlen : rom.bufferLen = 88) {t : Trace}
    {r : ℤ × AmlUsbRomRW} (hr : Runs (amlUsbTplCmd rom) t r) :
    (r.1 = -1 ∨ r.1 = -2) ∧ t.flatMap accepted = [] := by
  by_cases hdev : rom.device = .null
  · rw [amlUsbTplCmd, hdev, openUsbDevice_null] at hr
    obtain ⟨rfl, rfl⟩ := runs_ret.mp hr
    exact ⟨.inl rfl, rfl⟩
  obtain ⟨hd, b, t', rfl, hcmd, rfl⟩ := runs_opened hdev (fun drv => usbDeviceIoControl drv .tplCmd
    (some rom.buffer) rom.bufferLen none 0 rom.dataSize) (fun _ => rfl) hr
  rw [hlen, tplCmd_refused] at hcmd
  obtain ⟨rfl, rfl⟩ := runs_ret.mp hcmd
  exact ⟨.inr rfl, rfl⟩

/-- A piece is sent, and then its command is refused. -/
lemma amlUsbBurnWrite_runs {seqNum : ℕ} {rom : AmlUsbRomRW} {memType : Bytes} {nBytes : ℕ}
    {cksum : ℤ} (hlen : rom.bufferLen ≤ rom.buffer.length) {t : Trace} {r : ℤ × AmlUsbRomRW × ℕ}
    (hr : Runs (amlUsbBurnWrite seqNum rom memType nBytes cksum) t r) :
    r.1 < 0 ∧ (r.1 = -2 → t.flatMap accepted = rom.buffer.take rom.bufferLen) := by
  obtain ⟨⟨ret, cmd, seqNum'⟩, t₁, t₂, rfl, hwrite, hrest⟩ := runs_bind.mp hr
  dsimp only at hrest
  have hret := amlUsbWriteLargeMem_nonpos hwrite
  by_cases hz : ret = 0
  swap
  · rw [if_pos hz] at hrest
    obtain ⟨-, rfl⟩ := runs_ret.mp hrest
    dsimp only at hret ⊢
    omega
  rw [if_neg (not_not.mpr hz)] at hrest
  obtain ⟨⟨ret', cmd'⟩, t₃, t₄, rfl, hcmd, hend⟩ := runs_bind.mp hrest
  obtain ⟨rfl, rfl⟩ := runs_ret.mp hend
  obtain ⟨hneg, hsilent⟩ := amlUsbTplCmd_negative rfl hcmd
  dsimp only at hneg ⊢
  refine ⟨by omega, fun _ => ?_⟩
  rw [List.append_nil, List.flatMap_append, hsilent, List.append_nil]
  exact (LargeMem.amlUsbWriteLargeMem_runs seqNum hlen hwrite hz).1

lemma burnTurn_runs {memType : Bytes} {nBytes bulkSize : ℕ} {cksum : ℤ} {s : BurnLoop}
    (hsize : s.fileSize ≠ 0) (hbulk : bulkSize ≤ 0x10000) (hbuf : s.buf.length = bulkSize)
    {t : Trace}
    {l : Loop BurnLoop (ℤ × ℕ)} (hr : Runs (burnTurn memType nBytes bulkSize cksum s) t l) :
    ∃ ret, l = .done (ret, s.offset) ∧ ret < 0 ∧ (ret = -2 →
      t.flatMap accepted = slice s.file.content s.file.pos (min s.fileSize bulkSize)) := by
  unfold burnTurn at hr
  rw [if_pos hsize] at hr
  dsimp only at hr
  have hle : min s.fileSize bulkSize ≤ bulkSize := Nat.min_le_right _ _
  generalize min s.fileSize bulkSize = n at hle hr ⊢
  simp only [fread, Prog.call_bind, Prog.ret_bind] at hr
  obtain ⟨k, t₁, rfl, hrest⟩ := runs_call.mp hr
  have hk : (k : Fin (min n (s.file.content.length - s.file.pos) + 1)).val ≤ n :=
    (Nat.lt_succ_iff.mp k.2).trans (Nat.min_le_left _ _)
  have hsilent : ∀ t : Trace, (⟨.fread n (s.file.content.length - s.file.pos), k⟩ :: t :
      Trace).flatMap accepted = t.flatMap accepted := fun _ => rfl
  rw [hsilent]
  generalize (k : Fin (min n (s.file.content.length - s.file.pos) + 1)).val = m at hk hrest
  by_cases hlen : (slice s.file.content s.file.pos m).length = n
  swap
  · rw [if_pos hlen] at hrest
    obtain ⟨-, rfl⟩ := runs_ret.mp hrest
    exact ⟨-16, rfl, by decide, fun h => absurd h (by decide)⟩
  obtain rfl : m = n := by
    rw [slice_length] at hlen
    omega
  rw [if_neg (not_not.mpr hlen)] at hrest
  obtain ⟨⟨ret, rom, seqNum⟩, t₂, t₃, rfl, hwrite, hend⟩ := runs_bind.mp hrest
  have hu : u32 m = m := by rw [u32_natCast]; omega
  have hblit : (blit s.buf 0 (slice s.file.content s.file.pos m)).length = bulkSize := by
    rw [blit_length (by omega), hbuf]
  obtain ⟨hneg, hsent⟩ := amlUsbBurnWrite_runs (by dsimp only; rw [hu, hblit]; exact hle) hwrite
  dsimp only at hneg hsent hend
  rw [if_pos (Int.ne_of_lt hneg)] at hend
  obtain ⟨rfl, rfl⟩ := runs_ret.mp hend
  refine ⟨ret, rfl, hneg, fun h => ?_⟩
  rw [List.append_nil, hsent h, hu, blit_zero, List.take_left' hlen]

/-- Every run of a file that is not empty ends in an error; with the one of a refused command the
first piece has been sent, and nothing else. -/
lemma amlUsbburn_runs {files : Files} {junk : ℕ → UInt8} {seqNum : ℕ} {dev : Device}
    {filename : Bytes} {address : ℕ} {memType : Bytes} {nBytes : ℤ} {bulkSize : ℕ} {cksum : ℤ}
    (hfile : files filename ≠ []) (hbulk : bulkSize ≤ 0x10000) {t : Trace} {r : ℤ}
    (hr : Runs (amlUsbburn files junk seqNum dev filename address memType nBytes bulkSize cksum)
      t r) :
    r < 0 ∧ (r = -2 → t.flatMap accepted = (files filename).take bulkSize) := by
  unfold amlUsbburn at hr
  by_cases hdev : dev = .null
  · rw [if_pos hdev] at hr
    obtain ⟨-, rfl⟩ := runs_ret.mp hr
    exact ⟨by decide, nofun⟩
  rw [if_neg hdev] at hr
  obtain ⟨stream, t₁, t₂, rfl, hopen, hrest⟩ := runs_bind.mp hr
  obtain ⟨ok, t₃, rfl, hend⟩ := runs_call.mp hopen
  obtain ⟨rfl, rfl⟩ := runs_ret.mp hend
  cases (ok : Bool) with
  | false =>
    obtain ⟨-, rfl⟩ := runs_ret.mp hrest
    exact ⟨by decide, nofun⟩
  | true =>
    simp only [if_true] at hrest
    obtain ⟨⟨ret, offset⟩, t₄, t₅, rfl, hloop, hend⟩ := runs_bind.mp hrest
    obtain ⟨l, t₆, t₇, rfl, hturn, hleft⟩ := runs_bind.mp hloop
    obtain ⟨ret', rfl, hneg, hsent⟩ := burnTurn_runs
      (fun h => hfile (List.length_eq_zero_iff.mp h)) hbulk (malloc_length _ _) hturn
    obtain ⟨rfl, he⟩ := runs_ret.mp hleft
    obtain ⟨rfl, rfl⟩ := Prod.mk.inj he
    obtain ⟨rfl, rfl⟩ := runs_ret.mp hend
    rw [if_pos (Int.ne_of_lt hneg)]
    refine ⟨hneg, fun h => ?_⟩
    have hfirst := hsent h
    dsimp only at hfirst
    rw [List.append_nil, List.append_nil, List.singleton_append, List.flatMap_cons, hfirst, slice,
      List.drop_zero, Nat.min_comm, ← List.take_eq_take_min]
    rfl

/-! ### On a device that takes everything -/

lemma serve_inFull {hd : Handle} {path : Bytes} {b b' : MemDevice.Board} {o : Op} {r : Resp o}
    (h : MemDevice.serve hd path b o = some (r, b')) : inFull ⟨o, r⟩ = true := by
  have hmk : ∀ {r' : Resp o} {b'' : MemDevice.Board}, some (r', b'') = some (r, b') → r' = r :=
    fun he => (Prod.mk.inj (Option.some.inj he)).1
  cases o with
  | libusbOpen dev =>
    obtain rfl := hmk h
    rfl
  | controlOut h s data timeout =>
    simp only [MemDevice.serve] at h
    split_ifs at h
    all_goals
      obtain rfl := hmk h
      simp [inFull]
  | bulkOut h ep data n timeout =>
    simp only [MemDevice.serve] at h
    split at h
    · split_ifs at h
      obtain rfl := hmk h
      simp [inFull]
    · cases h
  | fopen file write =>
    cases write with
    | false =>
      obtain rfl := hmk h
      rfl
    | true =>
      simp only [MemDevice.serve] at h
      split_ifs at h
      obtain rfl := hmk h
      rfl
  | fread want avail =>
    obtain rfl := hmk h
    simp [inFull]
  | _ => rfl

lemma amlUsbTplCmd_board (hd : Handle) (path : Bytes) (b : MemDevice.Board) {rom : AmlUsbRomRW}
    {d : ℕ} (hdev : rom.device = .dev d) (hlen : rom.bufferLen = 88) :
    Ensures (MemDevice.serve hd path) b (amlUsbTplCmd rom) fun r _ => r.1 = -2 := by
  have hnull : rom.device ≠ .null := by
    rw [hdev]
    exact dev_ne_null d
  refine ensures_opened hnull (fun drv => usbDeviceIoControl drv .tplCmd (some rom.buffer)
    rom.bufferLen none 0 rom.dataSize) (fun _ => rfl) rfl ?_
  rw [hlen, tplCmd_refused, ensures_ret]
  exact ⟨_, MemDevice.serve_close hd path rfl, rfl⟩

lemma amlUsbBurnWrite_board (hd : Handle) (path : Bytes) (b : MemDevice.Board) {rom : AmlUsbRomRW}
    {d n : ℕ}
    (hdev : rom.device = .dev d) (hlen : rom.bufferLen = n) (h₀ : 0 < n) (h₁ : n ≤ 0x10000)
    (hbuf : n ≤ rom.buffer.length) (haddr : rom.address < 2 ^ 32) (seqNum : ℕ) (memType : Bytes)
    (nBytes : ℕ) (cksum : ℤ) :
    Ensures (MemDevice.serve hd path) b (amlUsbBurnWrite seqNum rom memType nBytes cksum) fun r _ =>
      r.1 = -2 := by
  refine ensures_bind.mpr ((MemDevice.writeLargeMem_stores hd path b rom hdev hlen h₀ h₁ hbuf haddr
    seqNum).mono ?_)
  rintro ⟨ret, cmd, seqNum'⟩ b' ⟨hret, hdev', -⟩
  dsimp only at hret hdev' ⊢
  rw [if_neg (not_not.mpr hret)]
  refine ensures_bind.mpr (Ensures.mono (Q := fun r _ => r.1 = -2) ?_ fun r _ hr => ?_)
  · exact amlUsbTplCmd_board hd path b' (hdev'.trans hdev) rfl
  · exact ensures_ret.mpr hr

lemma burnTurn_board {content : Bytes} (hfile : content.length ≠ 0) {bulkSize : ℕ}
    (hpos : 0 < bulkSize) (hbulk : bulkSize ≤ 0x10000) {buf : Bytes} (hbuf : buf.length = bulkSize)
    {address : ℕ} (haddr : address < 2 ^ 32) (seqNum d : ℕ) (memType : Bytes) (nBytes : ℕ)
    (cksum : ℤ) (hd : Handle) (path : Bytes) (b : MemDevice.Board) :
    Ensures (MemDevice.serve hd path) b (burnTurn memType nBytes bulkSize cksum
      ⟨content.length, 0, ⟨.dev d, 0, [], 0, address⟩, buf, ⟨content, 0⟩, seqNum⟩)
      fun l _ => l = .done (-2, 0) := by
  unfold burnTurn
  rw [if_pos hfile]
  dsimp only
  have hn : 0 < min content.length bulkSize ∧ min content.length bulkSize ≤ content.length ∧
      min content.length bulkSize ≤ bulkSize := by omega
  generalize min content.length bulkSize = n at hn ⊢
  have hu : u32 n = n := by rw [u32_natCast]; omega
  refine ensures_bind.mpr ((MemFiles.fread_serves hd path _ (f := ⟨content, 0⟩) hn.2.1).mono ?_)
  rintro _ _ ⟨rfl, rfl⟩
  have hpiece : (slice content 0 n).length = n := by rw [slice_length]; omega
  dsimp only
  rw [if_neg (not_not.mpr hpiece), hu]
  have hblit : n ≤ (blit buf 0 (slice content 0 n)).length := by
    rw [blit_length (by omega), hbuf]
    exact hn.2.2
  refine ensures_bind.mpr ((amlUsbBurnWrite_board hd path _ rfl rfl hn.1 (hn.2.2.trans hbulk) hblit
    haddr seqNum memType nBytes cksum).mono ?_)
  rintro ⟨ret, rom, seqNum'⟩ b' hret
  dsimp only at hret ⊢
  rw [hret, if_pos (by decide), Prog.pure_eq_ret, ensures_ret]

/-- Against the board the routine ends with the refused command. -/
lemma amlUsbburn_board (files : Files) (junk : ℕ → UInt8) (seqNum d : ℕ) (filename : Bytes)
    {address : ℕ} (memType : Bytes) (nBytes : ℤ) {bulkSize : ℕ} (cksum : ℤ)
    (hfile : files filename ≠ []) (hpos : 0 < bulkSize) (hbulk : bulkSize ≤ 0x10000)
    (haddr : address < 2 ^ 32) (hd : Handle) (path : Bytes) (b : MemDevice.Board) :
    Ensures (MemDevice.serve hd path) b (amlUsbburn files junk seqNum (.dev d) filename address
      memType nBytes bulkSize cksum) fun r _ => r = -2 := by
  unfold amlUsbburn
  rw [if_neg (dev_ne_null d)]
  refine ensures_bind.mpr ((ensures_call rfl).mpr (ensures_ret.mpr ?_))
  refine ensures_bind.mpr (ensures_bind.mpr ((burnTurn_board
    (fun h => hfile (List.length_eq_zero_iff.mp h)) hpos hbulk (malloc_length _ _) haddr seqNum d
    memType _ cksum hd path b).mono ?_))
  rintro _ b' rfl
  exact ensures_ret.mpr (ensures_ret.mpr rfl)

/-- A run in which everything asked for is done in full. -/
lemma amlUsbburn_full (files : Files) (junk : ℕ → UInt8) (seqNum d : ℕ) (filename : Bytes)
    {address : ℕ} (memType : Bytes) (nBytes : ℤ) {bulkSize : ℕ} (cksum : ℤ)
    (hfile : files filename ≠ []) (hpos : 0 < bulkSize) (hbulk : bulkSize ≤ 0x10000)
    (haddr : address < 2 ^ 32) :
    ∃ t, Runs (amlUsbburn files junk seqNum (.dev d) filename address memType nBytes bulkSize cksum)
      t (-2) ∧ t.all inFull := by
  obtain ⟨_, b', hexec, rfl⟩ := amlUsbburn_board files junk seqNum d filename memType nBytes cksum
    hfile hpos hbulk haddr 0 [] ⟨fun _ => 0, none, none, fun _ => 0⟩
  exact exec_runs (I := fun _ h => h.all inFull = true) (h := []) (fun s h o r s' hI hserve => by
    rw [List.all_append, hI, Bool.true_and, List.all_cons, serve_inFull hserve]
    rfl) rfl hexec

/-- **Burning never succeeds.** A device that takes everything gets the first piece of the file,
and the routine returns -2. Whatever the device does, no command is made, the result is negative
and the file is not burned. -/
theorem never_burned (files : Files) (junk : ℕ → UInt8) (seqNum d : ℕ) (filename : Bytes)
    {address : ℕ} (haddr : address < 2 ^ 32) (memType : Bytes) (nBytes : ℤ) {bulkSize : ℕ}
    (hpos : 0 < bulkSize) (hbulk : bulkSize ≤ 0x10000) (cksum : ℤ) (hfile : files filename ≠ []) :
    (∃ t, Runs (amlUsbburn files junk seqNum (.dev d) filename address memType nBytes bulkSize
        cksum) t (-2) ∧ t.all inFull ∧ t.flatMap accepted = (files filename).take bulkSize) ∧
      ∀ t r, Runs (amlUsbburn files junk seqNum (.dev d) filename address memType nBytes bulkSize
          cksum) t r →
        r < 0 ∧ (∀ e ∈ t, isRequest amReqTplCmd e.1 = false) ∧
          ¬ Burned address bulkSize (files filename) t r := by
  refine ⟨?_, fun t r hr => ?_⟩
  · obtain ⟨t, hr, hfull⟩ :=
      amlUsbburn_full files junk seqNum d filename memType nBytes cksum hfile hpos hbulk haddr
    exact ⟨t, hr, hfull, (amlUsbburn_runs hfile hbulk hr).2 rfl⟩
  · have hnone : ∀ e ∈ t, isRequest amReqTplCmd e.1 = false :=
      fun e he => (amlUsbburn_noCommand _ _ _ _ _ _ _ _ _ _).event hr he
    refine ⟨(amlUsbburn_runs hfile hbulk hr).1, hnone, fun h => ?_⟩
    obtain ⟨e, he, hcmd⟩ := h.burned.commanded hfile
    rw [hnone e he] at hcmd
    cases hcmd

/-- One byte to where `burn` puts the boot loader. -/
def byteBurn : Program ℤ :=
  amlUsbburn (fun _ => [7]) (fun _ => 0) 0 (.dev 0) [] 0x49000000 (ascii ['n', 'a', 'n', 'd'])
    0x12345678 0x2000 0

theorem never_burned_byte :
    (∃ t, Runs byteBurn t (-2) ∧ t.all inFull ∧ t.flatMap accepted = [7]) ∧
      ∀ t r, Runs byteBurn t r → r < 0 ∧ (∀ e ∈ t, isRequest amReqTplCmd e.1 = false) ∧
        ¬ Burned 0x49000000 0x2000 [7] t r :=
  never_burned (fun _ => [7]) (fun _ => 0) 0 0 [] (by decide)
    (ascii ['n', 'a', 'n', 'd']) 0x12345678
    (by decide) (by decide) 0 nofun

/-- The byte is sent in full, and the result is not 1. -/
theorem byte_not_burned :
    ∃ t, Runs byteBurn t (-2) ∧ t.all inFull ∧ ¬ Burned 0x49000000 0x2000 [7] t (-2) := by
  obtain ⟨t, hr, hfull⟩ := amlUsbburn_full (fun _ => [7]) (fun _ => 0) 0 0 []
    (ascii ['n', 'a', 'n', 'd']) 0x12345678 0 nofun (by decide : 0 < 0x2000) (by decide)
    (by decide : 0x49000000 < 2 ^ 32)
  exact ⟨t, hr, hfull, fun h => absurd h.returned (by decide)⟩

end AmlogicUpdate.Burn

import AmlogicUpdate.Arguments

/-!
The commands of `update.cpp` about the chip: `password`, `chipinfo`, `identify` and `chipid`.
-/

namespace AmlogicUpdate.ChipCommands

open Interaction CData Usb AmlLibusb UsbRomDrv Update TextCommands Host Arguments

/-- `atoi`: the low 32 bits of what `strtol` returns. -/
def atoi (s : Bytes) : ℤ := i32 (strtoll s 10)

/-- The value of a `char`, which is signed. -/
def charVal (b : UInt8) : ℤ := if b.toNat < 2 ^ 7 then (b.toNat : ℤ) else b.toNat - 2 ^ 8

/-! ### `password` -/

/-- The number of arguments is not looked at. -/
def updateSubCmdSetPassword (files : Files) (junk : ℕ → UInt8) (rom : AmlUsbRomRW) (argv : Argv) :
    HostProgram ℤ := do
  let pwdFile ← argv 0
  let stream ← usb (fopenRead files pwdFile)
  match stream with
  | none => pure (-1)
  | some f =>
    let totalFileSz := f.content.length
    if 64 < totalFileSz then pure (-487)
    else do
      let (data, _) ← usb (fread f totalFileSz)
      if data.length ≠ totalFileSz then pure (-496)
      else do
        let buf := blit (malloc junk 64) 0 data
        let ret ← usb (amlLibusbPassword rom.device buf data.length 8000)
        -- the second time only if the first was not refused
        let ret ← (if ret < 0 then pure ret
          else usb (amlLibusbPassword rom.device buf data.length 8000))
        pure (if ret ≤ 0 then ret else 0)

/-! ### `chipinfo` -/

/-- Where `_print_memory_view` reads, word by word. -/
def viewed (size : ℕ) : List ℕ :=
  (List.range ((size + 15) / 16)).flatMap fun line =>
    let len := if 16 * (line + 1) ≤ size then 16 else size % 16
    (List.range ((len + 3) / 4)).flatMap fun col => (List.range 4).map (4 * (4 * line + col) + ·)

def strDash : Bytes := ascii ['-']

/-- `nBytes` and `startOffset` say what of the page of 64 bytes is shown or saved. -/
def chipinfoPage (junk : ℕ → UInt8) (rom : AmlUsbRomRW) (pageIndex : ℤ) (saveFile : Bytes)
    (nBytes startOffset : ℤ) : HostProgram ℤ :=
  if nBytes < 0 ∨ startOffset < 0 ∨ 64 < i32 (startOffset + nBytes) then pure (-527)
  else if 64 < nBytes then pure (-527)
  else do
    let (actualLen, buf) ← usb (amlLibusbGetChipinfo rom.device (malloc junk 64) 64 pageIndex 8000)
    if actualLen ≠ 64 then pure (-538)
    else if saveFile = strDash then
      if ∃ i ∈ viewed nBytes.toNat, 64 ≤ startOffset.toNat + i then overrun else pure actualLen
    else do
      let opened ← usb (fopenWrite saveFile)
      if !opened then pure (-548)
      else if 64 < startOffset + nBytes then overrun
      else do
        let n ← usb (fwrite (slice buf startOffset.toNat nBytes.toNat))
        pure (if n ≠ nBytes then -554 else 0)

def updateSubCmdGetChipinfo (junk : ℕ → UInt8) (rom : AmlUsbRomRW) (argv : Argv) (argc : ℤ) :
    HostProgram ℤ := do
  let pageIndex ← argv 0
  let saveFile ← optional argv argc 1
  let nBytes ← optional argv argc 2
  let startOffset ← optional argv argc 3
  chipinfoPage junk rom (atoi pageIndex) (saveFile.getD strDash) ((nBytes.map atoi).getD 64)
    ((startOffset.map atoi).getD 0)

/-! ### `identify` and `chipid` -/

/-- The result and the identification; `id` is the buffer for it, if the caller has one. -/
def updateSubCmdIdentifyHost (junk : ℕ → UInt8) (rom : AmlUsbRomRW) (idLen : ℤ)
    (id : Option Bytes) : Program (ℤ × Bytes) :=
  let buf := id.getD (malloc junk 16)
  if idLen ≤ 3 then pure (-765, buf)
  else do
    let (ret, rom) ← amlUsbIdentifyHost
      { rom with buffer := buf, bufferLen := u32 idLen, dataSize := 0 }
    if ret ≠ 0 then pure (774, rom.buffer)
    -- up to four bytes of what was received
    else if ((rom.buffer.take rom.dataSize).take 4).all (· = 0) then pure (-784, rom.buffer)
    else pure (0, rom.buffer)

/-- The register the identification is read from, by the version of the chip. -/
def chipidAddr (idVer : ℤ) : ℕ :=
  if idVer = 0x200 ∨ idVer = 0x201 then 0xD9013C24
  else if idVer = 0x202 then 0xC8013C24
  else if idVer = 0x204 then 0xD900D400
  else if idVer = 0x205 ∨ idVer = 0x300 then 0xFFFCD400
  else 0

/-- The result and the identification that is printed. -/
def updateSubCmdGetChipid (junk : ℕ → UInt8) (rom : AmlUsbRomRW) : Program (ℤ × Bytes) := do
  let (ret, id) ← updateSubCmdIdentifyHost junk rom 4 (some (malloc junk 16))
  if ret ≠ 0 then pure (-855, [])
  else if getU8 id 3 ≠ 0 ∧ getU8 id 3 ≠ 8 then pure (-860, [])
  else
    let idVer := i32 (u32 (charVal (id.getD 1 0)) ||| u32 (charVal (id.getD 0 0) * 2 ^ 8) : ℕ)
    if idVer < 0x200 ∨ (0x205 < idVer ∧ idVer ≠ 0x300) then pure (-900, [])
    else if idVer = 0x203 then do
      -- a page that comes short is used all the same
      let (_, buf) ← amlLibusbGetChipinfo rom.device (malloc junk 40) 40 1 8000
      pure (0, slice buf 20 12)
    else do
      let (ret, chipID) ← amlLibusbCtrlRdWr rom.device (chipidAddr idVer) (malloc junk 16) 12 true
        5000
      if ret ≠ 0 then pure (-908, []) else pure (0, chipID.take 12)

/-! ### The elements they read -/

section Calls

variable {G : HostOp → Prop} (hG : ∀ o, G (.inl o)) {files : Files} {junk : ℕ → UInt8}
  {rom : AmlUsbRomRW} {argv : Argv} {argc : ℤ}
include hG

lemma setPassword_calls (h : Calls G (argv 0)) :
    Calls G (updateSubCmdSetPassword files junk rom argv) := by
  refine calls_bind h fun pwdFile => calls_bind (usb_calls hG _) fun stream => ?_
  cases stream with
  | none => trivial
  | some f =>
    refine calls_ite (fun _ => trivial) fun _ => calls_bind (usb_calls hG _) fun r =>
      calls_ite (fun _ => trivial) fun _ => calls_bind (usb_calls hG _) fun ret => ?_
    exact calls_bind (calls_ite (fun _ => trivial) fun _ => usb_calls hG _) fun _ => trivial

lemma getChipinfo_calls (hover : G (.inr .overrun)) (h : Guarded G argv argc) (hargc : 0 < argc) :
    Calls G (updateSubCmdGetChipinfo junk rom argv argc) := by
  have hout : Calls G (overrun : HostProgram ℤ) := ⟨hover, fun e => e.elim⟩
  refine calls_bind (h 0 hargc) fun pageIndex => calls_bind (optional_calls h 1) fun saveFile =>
    calls_bind (optional_calls h 2) fun nBytes => calls_bind (optional_calls h 3)
      fun startOffset => ?_
  refine calls_ite (fun _ => trivial) fun _ => calls_ite (fun _ => trivial) fun _ =>
    calls_bind (usb_calls hG _) fun r => calls_ite (fun _ => trivial) fun _ =>
      calls_ite (fun _ => calls_ite (fun _ => hout) fun _ => trivial) fun _ => ?_
  refine calls_bind (usb_calls hG _) fun opened => calls_ite (fun _ => trivial) fun _ =>
    calls_ite (fun _ => hout) fun _ => ?_
  exact calls_bind (usb_calls hG _) fun _ => trivial

end Calls

end AmlogicUpdate.ChipCommands

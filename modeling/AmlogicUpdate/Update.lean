import AmlogicUpdate.UsbRomDrv

/-!
The commands of `update.cpp` that move data: `read`, `dump`, `write`, `cwr`, `wreg`, `run`,
`rreg` and `mwrite`.

What a freshly allocated buffer holds is a parameter; printing is left out, but not the readings of
the clock that are made for it.
-/

namespace AmlogicUpdate.Update

open Interaction CData Usb AmlLibusb UsbRomDrv

/-! ### Numbers on the command line -/

def isSpace (c : UInt8) : Bool := c = 32 || (9 ≤ c && c ≤ 13)

/-- The value of a digit, of any base up to 36. -/
def digit (c : UInt8) : Option ℕ :=
  if 48 ≤ c ∧ c ≤ 57 then some (c.toNat - 48)
  else if 97 ≤ c ∧ c ≤ 122 then some (c.toNat - 87)
  else if 65 ≤ c ∧ c ≤ 90 then some (c.toNat - 55)
  else none

/-- The digits of a number, read on from `n`. -/
def digits (base : ℕ) : Bytes → ℕ → ℕ
  | [], n => n
  | c :: s, n => match digit c with
    | some d => if d < base then digits base s (base * n + d) else n
    | none => n

def isHexDigit (c : UInt8) : Bool := (digit c).any (· < 16)

/-- The base and the digits after a prefix `0x` or `0`. -/
def numberPrefix (s : Bytes) (base : ℕ) : ℕ × Bytes :=
  match s with
  | 48 :: x :: d :: s' =>
    if (x = 120 ∨ x = 88) ∧ isHexDigit d ∧ (base = 0 ∨ base = 16) then (16, d :: s')
    else (if base = 0 then 8 else base, s)
  | 48 :: _ => (if base = 0 then 8 else base, s)
  | _ => (if base = 0 then 10 else base, s)

/-- `strtoul` with 64-bit results. -/
def strtoul (s : Bytes) (base : ℕ) : ℕ :=
  let s := s.dropWhile isSpace
  let neg := s.head? = some 45
  let s := if s.head? = some 45 ∨ s.head? = some 43 then s.tail else s
  let (base, s) := numberPrefix s base
  let n := digits base s 0
  if 2 ^ 64 ≤ n then 2 ^ 64 - 1 else if neg then (2 ^ 64 - n) % 2 ^ 64 else n

def simpleStrtoul (s : Bytes) (base : ℕ) : ℕ := strtoul s base

example : strtoul (ascii ['0', 'x', '1', '0', '8', '0', 'g']) 0 = 0x1080 := by decide

/-! ### Memory -/

/-- A buffer of `n` bytes as the allocator hands it out. -/
def malloc (junk : ℕ → UInt8) (n : ℕ) : Bytes := (List.range n).map junk

def cmdRun : Bytes := ascii ['r', 'u', 'n']
def cmdRreg : Bytes := ascii ['r', 'r', 'e', 'g']
def cmdWreg : Bytes := ascii ['w', 'r', 'e', 'g']
def cmdRead : Bytes := ascii ['r', 'e', 'a', 'd']
def cmdDump : Bytes := ascii ['d', 'u', 'm', 'p']
def cmdWrite : Bytes := ascii ['w', 'r', 'i', 't', 'e']
def cmdCwr : Bytes := ascii ['c', 'w', 'r']

/-- The variables of the loop of `rreg`. -/
structure Rreg where
  offset : ℕ
  addr : ℕ
  ret : ℤ
  buf : Bytes
  readStream : Option File

def rregTurn (dev : Device) (isRreg save : Bool) (transferSize : ℕ) (s : Rreg) :
    Program (Loop Rreg ℤ) :=
  if s.offset < transferSize then do
    let bulkSize := min (transferSize - s.offset) 0x100000
    let s ← (match s.readStream with
      | none => pure s
      | some f => do
        let (data, f) ← fread f bulkSize
        pure { s with buf := blit s.buf 0 data, readStream := some f })
    let (ret, buf) ← amlLibusbCtrlRdWr dev s.addr s.buf bulkSize isRreg 5000
    let s := { s with ret := ret, buf := buf }
    if ret ≠ 0 then pure (.done ret)
    else do
      -- what could be saved is not looked at
      let _ ← (if isRreg && save then fwrite (s.buf.take bulkSize) else pure 0)
      pure (.next
        { s with offset := s.offset + bulkSize, addr := (s.addr + bulkSize) % 2 ^ 32 })
  else pure (.done s.ret)

def updateSubCmdRunAndRreg (files : Files) (junk : ℕ → UInt8) (rom : AmlUsbRomRW)
    (cmd : Bytes) (argv : List Bytes) (argc : ℤ) : Program ℤ :=
  if argc ≤ 0 then pure (-382)
  else if cmd ≠ cmdRun ∧ argc ≤ 1 then pure (-382)
  else do
    let rom := { rom with address := u32 (strtoul (argv.getD 0 []) 0) }
    if cmd = cmdRun then amlUsbRunBinCode { rom with buffer := le32 rom.address }
    else do
      let addr := u32 (strtoul (argv.getD 1 []) 0)
      let save ← (if argc ≤ 2 then pure false else fopenWrite (argv.getD 2 []))
      let buf := malloc junk 0x100000
      if cmd = cmdRreg then
        iterate (rregTurn rom.device true save rom.address) (rom.address + 1)
          ⟨0, addr, 0, buf, none⟩
      else do
        let readStream ← fopenRead files (argv.getD 0 [])
        match readStream with
        | none => segfault
        | some f =>
          let transferSize := u32 f.content.length
          iterate (rregTurn rom.device false save transferSize) (transferSize + 1)
            ⟨0, addr, 0, buf, some f⟩

/-! ### The display of progress -/

/-- What is counted for the display; only the display looks at it. -/
structure DownloadProgressInfo where
  nBytes : ℕ
  startTime : ℤ
  unshownBytes : ℕ
  transferSize : ℕ
  updateBytes : ℕ

def DownloadProgressInfo.new (nBytes : ℕ) : DownloadProgressInfo :=
  ⟨max nBytes 100, 0, 0, 0, max (max nBytes 100 / 100) 0x400000⟩

/-- The clock is read before the first byte is counted, and once all of them have been. -/
def DownloadProgressInfo.updateProgress (info : DownloadProgressInfo) (len : ℕ) :
    Program DownloadProgressInfo := do
  let startTime ← (if info.transferSize = 0 then timeGetTime else pure info.startTime)
  let info := { info with
    startTime := startTime
    unshownBytes := (info.unshownBytes + len) % 2 ^ 64
    transferSize := (info.transferSize + len) % 2 ^ 64 }
  if info.unshownBytes < info.updateBytes ∧ info.transferSize < info.nBytes then pure info
  else do
    let _ ← (if info.transferSize < info.nBytes then pure 0 else timeGetTime)
    pure { info with unshownBytes := 0 }

lemma DownloadProgressInfo.updateProgress_calls (info : DownloadProgressInfo) (len : ℕ) :
    Calls (· = .clock) (info.updateProgress len) := by
  have hclock : Calls (· = .clock) timeGetTime := ⟨rfl, fun _ => trivial⟩
  unfold updateProgress
  refine calls_bind (calls_ite (fun _ => hclock) fun _ => trivial) fun _ => ?_
  refine calls_ite (fun _ => trivial) fun _ => calls_bind ?_ fun _ => trivial
  exact calls_ite (fun _ => trivial) fun _ => hclock

lemma DownloadProgressInfo.updateProgress_returns (info : DownloadProgressInfo) (len : ℕ) :
    Returns (info.updateProgress len) := by
  have hclock : Returns timeGetTime := fun _ => trivial
  unfold updateProgress
  refine returns_bind (returns_ite hclock trivial) fun _ _ _ => ?_
  refine returns_ite trivial (returns_bind ?_ fun _ _ _ => trivial)
  exact returns_ite trivial hclock

/-! ### `read`, `dump`, `write`, `cwr`, `wreg` -/

/-- The variables of the loop of `read` and `dump`. -/
structure Dump where
  transferSize : ℕ
  rom : AmlUsbRomRW
  seqNum : ℕ
  info : DownloadProgressInfo

/-- `false` leaves for the label `end`, with the result. -/
def dumpTurn (isDump save : Bool) (s : Dump) : Program (Loop Dump (Bool × ℤ)) :=
  if s.transferSize ≠ 0 then do
    let bulkSize :=
      if isDump ∧ 0x10000 ≤ s.transferSize then 0x10000
      else if isDump ∧ 0x1000 ≤ s.transferSize then 0x1000
      else min s.transferSize 0x200
    let (ret, rom, seqNum) ← amlUsbReadLargeMem s.seqNum { s.rom with bufferLen := bulkSize }
    if ret ≠ 0 then pure (.done (false, -639))
    else if rom.dataSize = 0 then pure (.done (false, -641))
    else do
      let written ← (if save then fwrite (rom.buffer.take bulkSize) else pure bulkSize)
      if written ≠ bulkSize then pure (.done (true, -648))
      else do
        let info ← (if save then s.info.updateProgress bulkSize else pure s.info)
        pure (.next
          { transferSize := u32 ((s.transferSize : ℤ) - rom.dataSize)
            rom := { rom with address := (rom.address + rom.dataSize) % 2 ^ 32 }
            seqNum := seqNum
            info := info })
  else pure (.done (true, 0))

/-- The variables of the loop of `write` and `cwr`. -/
structure Write where
  transferSize : ℕ
  rom : AmlUsbRomRW
  buf : Bytes
  file : File
  seqNum : ℕ

def writeTurn (isCwr : Bool) (s : Write) : Program (Loop Write ℤ) :=
  if s.transferSize ≠ 0 then do
    let bulkSize := min s.transferSize (if isCwr then 0x40 else 0x10000)
    let (data, file) ← fread s.file bulkSize
    let s := { s with file := file, buf := blit s.buf 8 data }
    if data.length ≠ bulkSize then pure (.done (-734))
    else do
      let (ret, rom, buf, seqNum) ← (if isCwr then do
          let buf := setU32 s.buf 4 s.rom.address
          let (ret, rom) ← amlUsbCtrlWr
            { s.rom with buffer := buf.drop 4, bufferLen := bulkSize + 4 }
          pure (ret, rom, buf, s.seqNum)
        else do
          let (ret, rom, seqNum) ← amlUsbWriteLargeMem s.seqNum
            { s.rom with buffer := s.buf.drop 8, bufferLen := bulkSize }
          pure (ret, rom, s.buf, seqNum))
      if ret ≠ 0 then pure (.done (-735))
      else pure (.next
        { transferSize := s.transferSize - bulkSize
          rom := { rom with address := (rom.address + bulkSize) % 2 ^ 32 }
          buf := buf
          file := file
          seqNum := seqNum })
  else pure (.done 0)

/-- `seqNum` is `ReadSeqNum` or `WriteSeqNum`, whichever the command uses. -/
def updateSubCmdReadWrite (files : Files) (junk : ℕ → UInt8) (seqNum : ℕ) (rom : AmlUsbRomRW)
    (cmd : Bytes) (argv : List Bytes) (argc : ℤ) : Program ℤ :=
  if argc ≤ 1 then pure 583
  else do
    let rom := { rom with address := u32 (strtoul (argv.getD 1 []) 0) }
    if cmd = cmdWreg then do
      let val := le32 (u32 (simpleStrtoul (argv.getD 0 []) 16))
      let (ret, _) ← amlLibusbCtrlRdWr rom.device rom.address val 4 false 5000
      pure ret
    else if cmd = cmdRead ∨ cmd = cmdDump then do
      let save ← (if argc ≤ 2 then pure false else fopenWrite (argv.getD 2 []))
      let transferSize := u32 (strtoul (argv.getD 0 []) 0)
      let (ok, ret) ← iterate (dumpTurn (cmd = cmdDump) save) (transferSize + 1)
        ⟨transferSize, { rom with buffer := malloc junk 0x20000 }, seqNum, .new transferSize⟩
      -- a short write leaves the loop with a result that is then overwritten
      pure (if ok then 0 else ret)
    else if cmd = cmdWrite ∨ cmd = cmdCwr then do
      let stream ← fopenRead files (argv.getD 0 [])
      match stream with
      | none => pure (-689)
      | some f =>
        let size := if argc ≤ 2 then 0 else u32 (simpleStrtoul (argv.getD 2 []) 0)
        let skip := if argc ≤ 3 then 0 else u32 (simpleStrtoul (argv.getD 3 []) 0)
        let transferSize := if size = 0 then u32 ((f.content.length : ℤ) - skip) else size
        iterate (writeTurn (cmd ≠ cmdWrite)) (transferSize + 1)
          ⟨transferSize, rom, malloc junk 0x10008, fseekSet f skip, seqNum⟩
    else pure 0

/-- `write` and `cwr` of a whole file: no size is given, or its own, and nothing is skipped. -/
lemma updateSubCmdReadWrite_write (files : Files) (junk : ℕ → UInt8) (seqNum : ℕ)
    (rom : AmlUsbRomRW) {cmd : Bytes} (hcmd : cmd = cmdWrite ∨ cmd = cmdCwr) (argv : List Bytes)
    {argc : ℤ} (hargc : 2 ≤ argc)
    (hsize : 2 < argc → u32 (simpleStrtoul (argv.getD 2 []) 0) = 0 ∨
      u32 (simpleStrtoul (argv.getD 2 []) 0) = u32 (files (argv.getD 0 [])).length)
    (hskip : 3 < argc → u32 (simpleStrtoul (argv.getD 3 []) 0) = 0) :
    updateSubCmdReadWrite files junk seqNum rom cmd argv argc =
      .call (.fopen (argv.getD 0 []) false) fun ok : Bool =>
        if ok then
          iterate (writeTurn (cmd ≠ cmdWrite)) (u32 (files (argv.getD 0 [])).length + 1)
            ⟨u32 (files (argv.getD 0 [])).length,
              { rom with address := u32 (strtoul (argv.getD 1 []) 0) }, malloc junk 0x10008,
              ⟨files (argv.getD 0 []), 0⟩, seqNum⟩
        else .ret (-689) := by
  have h₁ : ¬ cmd = cmdWreg := by rintro rfl; revert hcmd; decide
  have h₂ : ¬ (cmd = cmdRead ∨ cmd = cmdDump) := by
    rintro (rfl | rfl) <;> revert hcmd <;> decide
  have hskip' : (if argc ≤ 3 then 0 else u32 (simpleStrtoul (argv.getD 3 []) 0)) = 0 := by
    split_ifs with h
    · rfl
    · exact hskip (by omega)
  have htransfer : (if (if argc ≤ 2 then 0 else u32 (simpleStrtoul (argv.getD 2 []) 0)) = 0 then
        u32 (files (argv.getD 0 [])).length
      else if argc ≤ 2 then 0 else u32 (simpleStrtoul (argv.getD 2 []) 0)) =
      u32 (files (argv.getD 0 [])).length := by
    by_cases h : argc ≤ 2
    · rw [if_pos h, if_pos rfl]
    · rw [if_neg h]
      rcases hsize (by omega) with hz | hz
      · rw [if_pos hz]
      · rw [hz, ite_self]
  rw [updateSubCmdReadWrite, if_neg (by omega : ¬ argc ≤ 1)]
  simp only [h₁, h₂, hcmd, hskip', fopenRead, Prog.call_bind, Prog.ret_bind, reduceIte,
    Nat.cast_zero, sub_zero, fseekSet]
  congr 1
  funext ok
  cases ok with
  | false => rfl
  | true =>
    simp only [reduceIte, htransfer]
    rfl

@[simp] lemma malloc_length (junk : ℕ → UInt8) (n : ℕ) : (malloc junk n).length = n := by
  simp [malloc]

/-! ### `mwrite` -/

/-- The variables of the loop of `WriteMediaFile`. -/
structure MediaFile where
  addr : ℕ
  remain : ℕ
  file : File
  buf : Bytes

def mediaFileTurn (turns : ℕ) (rom : AmlUsbRomRW) (s : MediaFile) :
    Program (Loop MediaFile MediaFile) :=
  if s.remain ≠ 0 then do
    let bulkSize := min s.remain 0x10000
    let (data, file) ← fread s.file bulkSize
    let s := { s with file := file, buf := blit s.buf 0 data }
    if data.length ≠ bulkSize then pure (.done s)
    else do
      let ret ← amlWriteMedia turns
        { rom with buffer := s.buf, bufferLen := bulkSize, address := s.addr }
      if ret ≠ 0 then pure (.done s)
      else pure (.next { s with remain := s.remain - bulkSize, addr := (s.addr + 1) % 2 ^ 32 })
  else pure (.done s)

/-- Only the device of the request is used; `turns` bounds the polling for a reply. -/
def writeMediaFile (files : Files) (junk : ℕ → UInt8) (turns : ℕ) (rom : AmlUsbRomRW)
    (filename : Bytes) : Program ℤ := do
  let stream ← fopenRead files filename
  match stream with
  | none => pure (-1)
  | some f =>
    let _ ← timeGetTime
    let s ← iterate (mediaFileTurn turns rom) (f.content.length + 1)
      ⟨0, f.content.length, f, malloc junk 0x10000⟩
    let _ ← timeGetTime
    pure (if s.remain = 0 then 0 else -1)

lemma writeMediaFile_eq (files : Files) (junk : ℕ → UInt8) (turns : ℕ) (rom : AmlUsbRomRW)
    (filename : Bytes) :
    writeMediaFile files junk turns rom filename =
      .call (.fopen filename false) fun ok : Bool =>
        if ok then
          .call .clock fun _ =>
            iterate (mediaFileTurn turns rom) ((files filename).length + 1)
                ⟨0, (files filename).length, ⟨files filename, 0⟩, malloc junk 0x10000⟩ >>=
              fun s => .call .clock fun _ => .ret (if s.remain = 0 then 0 else -1)
        else .ret (-1) := by
  rw [writeMediaFile, fopenRead, Prog.call_bind]
  congr 1
  funext ok
  cases ok with
  | false => rfl
  | true => rfl

/-- `%lX` of a number. -/
def hexUpper (n : ℕ) : Bytes :=
  (Nat.toDigits 16 n).map fun c => c.toUpper.toNat.toUInt8

/-- `snprintf` into a cleared buffer of 128 bytes. -/
def snprintf128 (text : Bytes) : Bytes :=
  blit (List.replicate 128 0) 0 (text.take 127)

/-- `strcpy`, with the terminating zero. -/
def strcpy (buf text : Bytes) : Bytes := blit buf 0 (text ++ [0])

def downloadText (argv : List Bytes) (fileSize : ℕ) : Bytes :=
  ascii ['d', 'o', 'w', 'n', 'l', 'o', 'a', 'd', ' '] ++ argv.getD 1 [] ++ [32] ++
    argv.getD 2 [] ++ [32] ++ argv.getD 3 [] ++ ascii [' ', '0', 'x'] ++ hexUpper fileSize

def strGetStatus : Bytes :=
  ascii ['d', 'o', 'w', 'n', 'l', 'o', 'a', 'd', ' ', 'g', 'e', 't', '_', 's', 't', 'a', 't',
    'u', 's']
def strVerify : Bytes := ascii ['v', 'e', 'r', 'i', 'f', 'y', ' ']

/-- `buf[66] = 1` and the request for a command in the first 68 bytes. -/
def commandRom (rom : AmlUsbRomRW) (buf : Bytes) : AmlUsbRomRW :=
  { rom with buffer := blit buf 66 [1], bufferLen := 68 }

/-- The verification of a written image against the file the fifth argument names. -/
def mwriteVerify (files : Files) (turns : ℕ) (rom : AmlUsbRomRW) (verifyFile : Bytes) :
    Program ℤ := do
  let buf := List.replicate 128 0
  let stream ← fopenRead files verifyFile
  match stream with
  -- the result is still the zero it was initialised with
  | none => pure 0
  | some f => do
    let (data, _) ← fread f 0x79
    let (ret, _) ← amlUsbBulkCmd turns (commandRom rom (blit (strcpy buf strVerify) 7 data))
    pure (if ret ≠ 0 then -354 else 0)

/-- From the accepted `download` command on. -/
def mwriteData (files : Files) (junk : ℕ → UInt8) (turns : ℕ) (argv : List Bytes) (argc : ℤ)
    (rom : AmlUsbRomRW) : Program ℤ := do
  -- the one retry is used up by the first failure
  let (ret, rom) ← amlUsbReadStatus
    { rom with buffer := List.replicate 128 0, bufferLen := 64 }
  if ret ≠ 0 then pure (-300)
  else if strncmp rom.buffer strSuccess 7 ≠ 0 then pure (-307)
  else do
    let ret ← writeMediaFile files junk turns rom (argv.getD 0 [])
    if ret ≠ 0 then pure (-314)
    else do
      let (ret, _) ← amlUsbBulkCmd turns (commandRom rom (strcpy rom.buffer strGetStatus))
      if ret ≠ 0 then pure (-328)
      else if argc ≤ 4 then pure 0
      else mwriteVerify files turns rom (argv.getD 4 [])

def doCmdMwrtie (files : Files) (junk : ℕ → UInt8) (turns : ℕ) (argv : List Bytes) (argc : ℤ)
    (rom : AmlUsbRomRW) : Program ℤ := do
  let stream ← fopenRead files (argv.getD 0 [])
  match stream with
  | none => pure (-236)
  | some f =>
    let fileSize := f.content.length
    if fileSize = 0 then pure (-103)
    else do
      let (ret, rom) ← amlUsbTplCmd
        (commandRom rom (snprintf128 (downloadText argv fileSize)))
      -- left with the zero that `ret` was initialised with
      if ret ≠ 0 then pure 0
      else mwriteData files junk turns argv argc rom

end AmlogicUpdate.Update

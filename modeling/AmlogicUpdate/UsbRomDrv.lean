import AmlogicUpdate.AmlLibusb
import AmlogicUpdate.Checksum

/-!
`UsbRomDrv.cpp`: the commands of the boot ROM and of the later stages, each opening the
device, talking to it and closing it.

A routine returns its result together with the request structure as it leaves it. The
counters `WriteSeqNum` and `ReadSeqNum`, static in the source, are passed along.
-/

namespace AmlogicUpdate.UsbRomDrv

open Interaction CData Usb AmlLibusb Checksum

/-- `struct AmlUsbRomRW`, with the cell `pDataSize` points to. -/
structure AmlUsbRomRW where
  device : Device
  bufferLen : ℕ
  buffer : Bytes
  dataSize : ℕ
  address : ℕ

/-- The 128-byte request that both command builders fill in. -/
def rwHeader (address size cksum seqNum bulkSize : ℕ) : Bytes :=
  setU32 (setU32 (setU32 (setU32 (setU32 (List.replicate 128 0) 0 address) 4 size) 8 cksum) 12
    seqNum) 64 bulkSize

def rwLargeMemCmd (drv : AmlUsbDrv) (address size bulkSize cksum seqNum : ℕ)
    (doRead : Bool) : Program ℕ := do
  let r ← usbDeviceIoControl drv (if doRead then .readLargeMem else .writeLargeMem)
    (some (rwHeader address size cksum seqNum bulkSize)) 128 none 0 0
  pure r.1

def rwMediaCmd (drv : AmlUsbDrv) (address size seqNum cksum bulkSize : ℕ) (doRead : Bool)
    (timeout : ℕ) : Program ℕ := do
  let r ← usbDeviceIoControlEx drv (if doRead then .readMedia else .writeMedia)
    (some (rwHeader address size cksum seqNum bulkSize)) 128 none 0 0 timeout
  pure r.1

def writeLargeMemCmd (drv : AmlUsbDrv) (address size bulkSize cksum writeSeqNum : ℕ) :
    Program ℕ := rwLargeMemCmd drv address size bulkSize cksum writeSeqNum false

def readLargeMemCmd (drv : AmlUsbDrv) (address size bulkSize cksum readSeqNum : ℕ) :
    Program ℕ := rwLargeMemCmd drv address size bulkSize cksum readSeqNum true

def writeMediaCmd (drv : AmlUsbDrv) (address size seqNum cksum bulkSize timeout : ℕ) :
    Program ℕ := rwMediaCmd drv address size seqNum cksum bulkSize false timeout

def readMediaCmd (drv : AmlUsbDrv) (address size seqNum cksum bulkSize timeout : ℕ) :
    Program ℕ := rwMediaCmd drv address size seqNum cksum bulkSize true timeout

def writeBulkUsb (drv : AmlUsbDrv) (buf : Bytes) (len : ℕ) : Program ℤ := do
  let r ← usbWriteFile drv buf len 0
  pure (if r.1 = 0 then -1 else r.2)

def readBulkUsb (drv : AmlUsbDrv) (buf : Bytes) (len : ℕ) : Program (ℤ × Bytes) := do
  let r ← usbReadFile drv buf len 0
  pure (if r.1 = 0 then -1 else r.2.1, r.2.2)

/-- The success of the transfer, and the buffer. -/
def rwCtrlUsb (drv : AmlUsbDrv) (ctrl : ℕ) (buf : Bytes) (len : ℕ) (doRead : Bool) :
    Program (ℕ × Bytes) :=
  if doRead then do
    let r ← usbDeviceIoControl drv .readMem (some (le32 ctrl ++ le32 (ctrl / 2 ^ 32))) 4
      (some buf) len 0
    pure (r.1, r.2.outBuf.getD buf)
  else do
    let r ← usbDeviceIoControl drv .writeMem (some (le32 ctrl ++ buf.take len)) (len + 4)
      none 0 0
    pure (r.1, buf)

def writeControlUsb (drv : AmlUsbDrv) (ctrl : ℕ) (buf : Bytes) (len : ℕ) :
    Program (ℕ × Bytes) := rwCtrlUsb drv ctrl buf len false

def readControlUsb (drv : AmlUsbDrv) (ctrl : ℕ) (buf : Bytes) (len : ℕ) :
    Program (ℕ × Bytes) := rwCtrlUsb drv ctrl buf len true

lemma controlUsb_eq (drv : AmlUsbDrv) (ctrl : ℕ) (buf : Bytes) (len : ℕ) (doRead : Bool) :
    (if doRead then readControlUsb drv ctrl buf len else writeControlUsb drv ctrl buf len) =
      rwCtrlUsb drv ctrl buf len doRead := by
  cases doRead <;> rfl

/-! ### Large transfers -/

/-- The variables of the loops of `AmlUsbWriteLargeMem` and `AmlUsbReadLargeMem`: `size` is
`sizeToSend` or `sizeToRead`, -1 until a start command has been accepted. -/
structure LargeMem where
  offset : ℕ
  remain : ℕ
  size : ℤ
  retry : ℕ
  seqNum : ℕ
  buffer : Bytes

/-- What the two directions differ in: the most a bulk transfer moves, the start command
with the mark it leaves, the step of the counter, and the bulk transfer. -/
structure LargeDir where
  chunk : ℕ
  mark : ℕ → ℕ
  command : ℕ → ℕ → ℕ → Program ℕ
  tick : ℕ → ℕ
  transfer : Bytes → ℕ → ℕ → Program (ℤ × Bytes)

/-- What a turn makes of the result of the bulk transfer and the buffer it leaves; `true`
leaves for the label `end`. -/
def afterTransfer (dir : LargeDir) (s : LargeMem) (r : ℤ × Bytes) :
    Loop LargeMem (Bool × LargeMem) :=
  let actualLen := r.1
  let s := { s with
    seqNum := dir.tick s.seqNum
    buffer := r.2
    retry := if actualLen ≠ 0 then 0 else s.retry + 1 }
  if actualLen = 0 ∧ 5 < s.retry then .done (true, s)
  else if actualLen = -1 then .done (true, s)
  else .next
    { s with offset := s.offset + actualLen.toNat, remain := s.remain - actualLen.toNat }

/-- A turn of the inner loop from the bulk transfer on. -/
def largeTransfer (dir : LargeDir) (s : LargeMem) :
    Program (Loop LargeMem (Bool × LargeMem)) := do
  let r ← dir.transfer s.buffer s.offset (min s.remain dir.chunk)
  pure (afterTransfer dir s r)

def largeTurn (dir : LargeDir) (s : LargeMem) :
    Program (Loop LargeMem (Bool × LargeMem)) :=
  if 0 < s.remain then
    if s.size = -1 then do
      let ret ← dir.command s.remain (min s.remain dir.chunk) s.seqNum
      if ret = 0 then pure (.done (false, s))
      else largeTransfer dir { s with size := dir.mark s.remain }
    else largeTransfer dir s
  else pure (.done (false, s))

/-- A round of the outer loop, which starts over with the whole length. -/
def largeRound (dir : LargeDir) (bufferLen : ℕ) (s : ℕ × LargeMem) :
    Program (Loop (ℕ × LargeMem) LargeMem) :=
  if s.1 < 4 then do
    let (toEnd, s') ← iterate (largeTurn dir) (6 * bufferLen + 7)
      { s.2 with remain := bufferLen }
    if toEnd ∨ s'.remain = 0 then pure (.done s') else pure (.next (s.1 + 1, s'))
  else pure (.done s.2)

def writeDir (drv : AmlUsbDrv) (address cksum : ℕ) : LargeDir where
  chunk := 0x1000
  mark remain := min remain 0x10000
  command remain transferSize seqNum :=
    writeLargeMemCmd drv address (min remain 0x10000) transferSize cksum seqNum
  tick seqNum := seqNum + 1
  transfer buffer offset len := do
    let actualLen ← writeBulkUsb drv (buffer.drop offset) len
    pure (actualLen, buffer)

def readDir (drv : AmlUsbDrv) (address bufferLen cksum : ℕ) : LargeDir where
  chunk := 0x10000
  mark remain := min remain 0x10000
  command _ transferSize seqNum :=
    readLargeMemCmd drv address bufferLen
      (if 0x1000 ≤ transferSize then 0x1000 else min transferSize 0x200) cksum seqNum
  tick seqNum := seqNum
  transfer buffer offset len := do
    let r ← readBulkUsb drv (buffer.drop offset) len
    pure (r.1, buffer.take offset ++ r.2)

/-- From the open device on: the loops and the way out. -/
def largeMem (dir : LargeDir) (drv : AmlUsbDrv) (seqNum : ℕ) (rom : AmlUsbRomRW) :
    Program (ℤ × AmlUsbRomRW × ℕ) := do
  let s ← iterate (largeRound dir rom.bufferLen) 5 (0, ⟨0, 0, -1, 0, seqNum, rom.buffer⟩)
  let _ ← closeUsbDevice drv
  pure (if rom.bufferLen = s.offset then 0 else -6,
    { rom with buffer := s.buffer, dataSize := s.offset }, s.seqNum)

/-- The result, the request and `WriteSeqNum`. -/
def amlUsbWriteLargeMem (writeSeqNum : ℕ) (rom : AmlUsbRomRW) :
    Program (ℤ × AmlUsbRomRW × ℕ) := do
  let (ok, drv) ← openUsbDevice ⟨rom.device, none, 0, 0⟩
  if ok = 0 then pure (-4, rom, writeSeqNum)
  else
    let cksum := checksum rom.buffer (i32 rom.bufferLen)
    largeMem (writeDir drv rom.address cksum) drv writeSeqNum rom

/-- The result, the request and `ReadSeqNum`. -/
def amlUsbReadLargeMem (readSeqNum : ℕ) (rom : AmlUsbRomRW) :
    Program (ℤ × AmlUsbRomRW × ℕ) := do
  let readSeqNum := readSeqNum + 1
  let (ok, drv) ← openUsbDevice ⟨rom.device, none, 0, 0⟩
  if ok = 0 then pure (-4, rom, readSeqNum)
  else largeMem (readDir drv rom.address rom.bufferLen 0) drv readSeqNum rom

/-! ### Memory through the control endpoint -/

/-- The variables of the two loops; `off` is how far `buf` has advanced. -/
structure MemCtr where
  remain : ℕ
  off : ℕ
  address : ℕ
  buffer : Bytes

def memCtrTurn (drv : AmlUsbDrv) (doRead : Bool) (s : MemCtr) :
    Program (Loop MemCtr MemCtr) :=
  if 0 < s.remain then do
    let transferSize := min s.remain 64
    let r ← (if doRead then readControlUsb drv s.address (s.buffer.drop s.off) transferSize
      else writeControlUsb drv s.address (s.buffer.drop s.off) transferSize)
    let s := { s with buffer := s.buffer.take s.off ++ r.2 }
    if r.1 = 0 then pure (.done s)
    else pure (.next
      { s with
        address := (s.address + transferSize) % 2 ^ 32
        off := s.off + transferSize
        remain := s.remain - transferSize })
  else pure (.done s)

/-- The result 0 of a failed opening is also the result of success. -/
def amlUsbReadMemCtr (rom : AmlUsbRomRW) : Program (ℤ × AmlUsbRomRW) := do
  let (ok, drv) ← openUsbDevice ⟨rom.device, none, 0, 0⟩
  if ok = 0 then pure (0, rom)
  else do
    let s ← iterate (memCtrTurn drv true) (rom.bufferLen + 1)
      ⟨rom.bufferLen, 0, rom.address, rom.buffer⟩
    let _ ← closeUsbDevice drv
    pure (if s.remain = 0 then 0 else -1,
      { rom with address := s.address, buffer := s.buffer, dataSize := s.off })

def amlUsbWriteMemCtr (rom : AmlUsbRomRW) : Program (ℤ × AmlUsbRomRW) := do
  let (ok, drv) ← openUsbDevice ⟨rom.device, none, 0, 0⟩
  if ok = 0 then pure (0, rom)
  else do
    let s ← iterate (memCtrTurn drv false) (rom.bufferLen + 1)
      ⟨rom.bufferLen, 0, rom.address, rom.buffer⟩
    let _ ← closeUsbDevice drv
    pure (if s.remain = 0 then 1 else 0, { rom with address := s.address })

/-! ### Single requests -/

def amlUsbRunBinCode (rom : AmlUsbRomRW) : Program ℤ := do
  let (ok, drv) ← openUsbDevice ⟨rom.device, none, 0, 0⟩
  if ok = 0 then pure (-1)
  else do
    let r ← usbDeviceIoControl drv .runInAddr (some (le32 rom.address)) 4 none 0 0
    let _ ← closeUsbDevice drv
    pure (if r.1 ≠ 0 then 0 else -2)

def amlUsbIdentifyHost (rom : AmlUsbRomRW) : Program (ℤ × AmlUsbRomRW) := do
  let (ok, drv) ← openUsbDevice ⟨rom.device, none, 0, 0⟩
  if ok = 0 then pure (-1, rom)
  else do
    let r ← usbDeviceIoControl drv .identifyHost none 0 (some rom.buffer) rom.bufferLen
      rom.dataSize
    let _ ← closeUsbDevice drv
    pure (if r.1 ≠ 0 then 0 else -2,
      { rom with buffer := r.2.outBuf.getD rom.buffer, dataSize := r.2.bytesReturned })

def amlUsbTplCmd (rom : AmlUsbRomRW) : Program (ℤ × AmlUsbRomRW) := do
  let (ok, drv) ← openUsbDevice ⟨rom.device, none, 0, 0⟩
  if ok = 0 then pure (-1, rom)
  else do
    let r ← usbDeviceIoControl drv .tplCmd (some rom.buffer) rom.bufferLen none 0 rom.dataSize
    let _ ← closeUsbDevice drv
    pure (if r.1 ≠ 0 then 0 else -2, { rom with dataSize := r.2.bytesReturned })

/-- The buffer is both the request and the reply. -/
def amlUsbReadStatus (rom : AmlUsbRomRW) : Program (ℤ × AmlUsbRomRW) := do
  let (ok, drv) ← openUsbDevice ⟨rom.device, none, 0, 0⟩
  if ok = 0 then pure (-1, rom)
  else do
    let r ← usbDeviceIoControl drv .tplStatus (some rom.buffer) 4 (some rom.buffer)
      rom.bufferLen rom.dataSize
    let _ ← closeUsbDevice drv
    pure (if r.1 = 1 then 0 else -2, { rom with buffer := r.2.outBuf.getD rom.buffer })

def amlUsbReadStatusEx (rom : AmlUsbRomRW) (timeout : ℕ) : Program (ℤ × AmlUsbRomRW) := do
  let (ok, drv) ← openUsbDevice ⟨rom.device, none, 0, 0⟩
  if ok = 0 then pure (-1, rom)
  else do
    let r ← usbDeviceIoControlEx drv .tplStatus (some rom.buffer) 4 (some rom.buffer)
      rom.bufferLen rom.dataSize timeout
    let _ ← closeUsbDevice drv
    pure (if r.1 = 1 then 0 else -2, { rom with buffer := r.2.outBuf.getD rom.buffer })

def amlResetDev (rom : AmlUsbRomRW) : Program ℤ :=
  if rom.device = .null then pure (-1)
  else do
    let (ok, drv) ← openUsbDevice ⟨rom.device, none, 0, 0⟩
    if ok = 0 then pure (-2)
    else do
      let ret ← resetDev drv
      let _ ← closeUsbDevice drv
      pure ret

def amlUsbCtrlWr (rom : AmlUsbRomRW) : Program (ℤ × AmlUsbRomRW) := do
  let (ok, drv) ← openUsbDevice ⟨rom.device, none, 0, 0⟩
  if ok = 0 then pure (-1, rom)
  else do
    let r ← usbDeviceIoControlEx drv .writeMem (some rom.buffer) rom.bufferLen none 0
      rom.dataSize 5000
    let _ ← closeUsbDevice drv
    pure (if r.1 ≠ 0 then 0 else -2, { rom with dataSize := r.2.bytesReturned })

/-! ### Media blocks -/

def strBusy32 : Bytes := ascii ['C', 'o', 'n', 't', 'i', 'n', 'u', 'e', ':', '3', '2']
def strBusy34 : Bytes := ascii ['C', 'o', 'n', 't', 'i', 'n', 'u', 'e', ':', '3', '4']
def strOk : Bytes := ascii ['O', 'K', '!', '!']
def strSuccess : Bytes := ascii ['s', 'u', 'c', 'c', 'e', 's', 's']

/-- The variables of the polling loop of `AmlWriteMedia`. -/
structure MediaPoll where
  curTime : ℤ
  ret : ℤ
  actualLen : ℕ
  buf : Bytes

def mediaPollTurn (drv : AmlUsbDrv) (startTime : ℤ) (s : MediaPoll) :
    Program (Loop MediaPoll MediaPoll) :=
  if s.curTime - startTime < 12 * 60 * 1000 then do
    let r ← usbReadFile drv s.buf 256 s.actualLen
    let s := { s with actualLen := r.2.1, buf := r.2.2 }
    if r.1 = 0 then pure (.done { s with ret := -811 })
    else if s.actualLen < strBusy32.length then pure (.done { s with ret := -816 })
    else if strncmp s.buf strBusy32 strBusy32.length ≠ 0 then pure (.done s)
    else do
      let curTime ← getTickCount
      pure (.next { s with curTime := curTime })
  else pure (.done s)

/-- What an attempt makes of the end of the polling. -/
def mediaVerdict (addr : ℕ) (p : MediaPoll) : Loop (ℕ × ℤ) ℤ :=
  if p.ret = 0 then
    if strncmp p.buf strOk 4 ≠ 0 then .next (addr + 1, strncmp p.buf strOk 4) else .done 0
  else .done p.ret

/-- An attempt from the accepted command on. -/
def writeMediaData (drv : AmlUsbDrv) (rom : AmlUsbRomRW) (turns addr : ℕ) :
    Program (Loop (ℕ × ℤ) ℤ) := do
  let bulkSize := min rom.bufferLen 0x10000
  let r ← usbWriteFile drv rom.buffer bulkSize 0
  if r.1 = 0 then pure (.done (-7))
  else if bulkSize ≠ r.2 then pure (.done (-799))
  else do
    let startTime ← getTickCount
    let p ← iterate (mediaPollTurn drv startTime) turns
      ⟨startTime, 0, r.2, List.replicate 0x200 0⟩
    pure (mediaVerdict addr p)

/-- An attempt, from the variables `addr` and `ret`. -/
def writeMediaTurn (drv : AmlUsbDrv) (rom : AmlUsbRomRW) (cksum turns : ℕ) (s : ℕ × ℤ) :
    Program (Loop (ℕ × ℤ) ℤ) :=
  if s.1 ≤ 2 then do
    let bulkSize := min rom.bufferLen 0x10000
    let cmd := (16 * rom.address) % 2 ^ 32
    -- the helper calls these two `seqNum` and `cksum`
    let ret ← writeMediaCmd drv s.1 rom.bufferLen cksum cmd bulkSize 5000
    if ret = 0 then pure (.done (-6)) else writeMediaData drv rom turns s.1
  else pure (.done s.2)

/-- `turns` bounds the polling for one reply. -/
def amlWriteMedia (turns : ℕ) (rom : AmlUsbRomRW) : Program ℤ := do
  let (ok, drv) ← openUsbDevice ⟨rom.device, none, 0, 0⟩
  if ok = 0 then pure (-4)
  else do
    let cksum := checksum64K rom.buffer (i32 rom.bufferLen)
    let ret ← iterate (writeMediaTurn drv rom cksum turns) 4 (0, 0)
    let _ ← closeUsbDevice drv
    pure ret

def amlReadMedia (rom : AmlUsbRomRW) : Program (ℤ × AmlUsbRomRW) := do
  let (ok, drv) ← openUsbDevice ⟨rom.device, none, 0, 0⟩
  if ok = 0 then pure (-4, rom)
  else do
    let ret ← readMediaCmd drv 0 rom.bufferLen 0 0 0 5000
    if ret = 0 then do
      let _ ← closeUsbDevice drv
      pure (-5, rom)
    else do
      let buffer := blit rom.buffer 0 (List.replicate rom.bufferLen 0)
      let r ← usbReadFile drv buffer rom.bufferLen 0
      let rom := { rom with buffer := r.2.2 }
      let _ ← closeUsbDevice drv
      if r.1 = 0 then pure (-6, rom)
      else if rom.bufferLen ≠ r.2.1 then pure (-7, rom)
      else pure (0, { rom with dataSize := r.2.1 })

/-! ### Bulk commands -/

/-- The variables of the polling loop of `AmlUsbBulkCmd`. -/
structure BulkPoll where
  curTime : ℤ
  success : Bool
  buf : Bytes

def bulkPollTurn (drv : AmlUsbDrv) (startTime : ℤ) (s : BulkPoll) :
    Program (Loop BulkPoll BulkPoll) :=
  if s.curTime - startTime < 20 * 60 * 1000 then do
    let (ret, buf) ← readBulkUsb drv s.buf 0x200
    let s := { s with buf := buf }
    if ret < strBusy34.length then pure (.done { s with success := false })
    else if strncmp s.buf strBusy34 strBusy34.length ≠ 0 then pure (.done s)
    else do
      let curTime ← getTickCount
      pure (.next { s with curTime := curTime })
  else pure (.done s)

/-- `turns` bounds the polling. -/
def amlUsbBulkCmd (turns : ℕ) (rom : AmlUsbRomRW) : Program (ℤ × AmlUsbRomRW) := do
  let (ok, drv) ← openUsbDevice ⟨rom.device, none, amEpOut, 0⟩
  if ok = 0 then pure (-926, rom)
  else do
    let r ← usbDeviceIoControlEx drv .bulkCmd1 (some rom.buffer) rom.bufferLen none 0
      rom.dataSize 5000
    let rom := { rom with dataSize := r.2.bytesReturned }
    if r.1 = 0 then do
      let _ ← closeUsbDevice drv
      pure (-2, rom)
    else do
      let startTime ← getTickCount
      let p ← iterate (bulkPollTurn drv startTime) turns
        ⟨startTime, true, List.replicate 0x200 0⟩
      let success := p.success ∧ strncmp p.buf strSuccess 7 = 0
      let _ ← closeUsbDevice drv
      pure (if success then 0 else -2, rom)

end AmlogicUpdate.UsbRomDrv

import AmlogicUpdate.AmlLibusb
import AmlogicUpdate.Checksum

/-!
The BL2 commands of `AmlLibusb.cpp`: the download protocol that a first-stage loader drives
by sending requests (CBWs) and acknowledging what it gets (CSWs).
-/

namespace AmlogicUpdate.Bl2

open Interaction CData Usb AmlLibusb Checksum

structure AmlBl2Cmd where
  offset : ℤ
  dataSize : ℤ
  seq : ℤ
  doCksum : Bool

def okay : Bytes := ascii ['O', 'K', 'A', 'Y']
def fail : Bytes := ascii ['F', 'A', 'I', 'L']
def amls : Bytes := ascii ['A', 'M', 'L', 'S']

/-- The status word is handed out through a pointer that no caller looks at. -/
def amlLibusbBl2Csw (handle : Option Handle) (doSend doOkay : Bool) : Program ℤ :=
  let csw : Bytes := List.replicate 16 0
  if doSend then do
    let ret ← usbBulkWrite handle amEpOut (blit csw 0 (if doOkay then okay else fail)) 16 30000
    pure (if ret ≠ 16 then -815 else 0)
  else do
    let r ← usbBulkRead handle amEpIn csw 16 30000
    pure (if r.1 ≠ 16 then -815 else if slice r.2 0 4 ≠ okay then -821 else 0)

/-- `(dataSize + 0x10000 - 1) >> 16` on `int`s; an overflowing sum wraps around. -/
def pieceCount (dataSize : ℤ) : ℤ := i32 (dataSize + 0x10000 - 1) / 2 ^ 16

/-- The variables of the loop of `_Aml_Libusb_bl2_secure_download`. -/
structure Download where
  i : ℕ
  dataOffset : ℕ
  dataSize : ℕ
  cksum : ℕ
  file : File
  buf : Bytes

def downloadTurn (dev : Option Handle) (param : AmlBl2Cmd) (s : Download) :
    Program (Loop Download (ℤ × Download)) :=
  if (s.i : ℤ) < pieceCount param.dataSize then do
    let bulkSize := min s.dataSize 0x10000
    let r ← usbControlMsg dev vendorOut amReqCmd4 (s.dataOffset / 2 ^ 9 : ℕ)
      ((bulkSize : ℤ) - 1) [] 0 5000
    if r.1 < 0 then pure (.done (-1005, s))
    else do
      let (data, file) ← fread s.file bulkSize
      let s := { s with file := file, buf := blit s.buf 0 data }
      if data.length ≠ bulkSize ∨ bulkSize = 0 then pure (.done (-1011, s))
      else do
        let ret ← usbBulkWrite dev amEpOut s.buf bulkSize 30000
        if ret ≠ bulkSize then pure (.done (-1017, s))
        else do
          let ret ← amlLibusbBl2Csw dev false false
          if ret ≠ 0 then pure (.done (-1025, s))
          else pure (.next
            { s with
              cksum := if param.doCksum then (s.cksum + checksum64K s.buf bulkSize) % 2 ^ 32
                else s.cksum
              dataOffset := (s.dataOffset + 0x10000) % 2 ^ 32
              dataSize := u32 ((s.dataSize : ℤ) - 0x10000)
              i := s.i + 1 })
  else pure (.done (0, s))

/-- The first 512 bytes of the buffer are the trailer once its four words are set. -/
def trailer (buf : Bytes) (seq cksum : ℕ) : Bytes :=
  setU32 (setU32 (setU32 (blit buf 0 amls) 4 seq) 8 cksum) 12 0

def amlLibusbBl2SecureDownload (dev : Option Handle) (file : File) (buf : Bytes)
    (param : AmlBl2Cmd) : Program (ℤ × File × Bytes) := do
  let (ret, s) ← iterate (downloadTurn dev param) ((pieceCount param.dataSize).toNat + 1)
    ⟨0, 0, u32 param.dataSize, 0, file, buf⟩
  if ret ≠ 0 then pure (ret, s.file, s.buf)
  else do
    let r ← usbControlMsg dev vendorOut amReqCmd4 (param.offset / 2 ^ 9) 0x1FF [] 0 5000
    if r.1 < 0 then pure (-1036, s.file, s.buf)
    else do
      let buf := trailer s.buf (u32 param.seq) s.cksum
      let ret ← usbBulkWrite dev amEpOut buf 0x200 30000
      if ret ≠ 0x200 then pure (-1047, s.file, buf)
      else do
        -- the verdict of the device is printed, not looked at
        let _ ← amlLibusbBl2Csw dev false false
        pure (0, s.file, buf)

/-- The request read off a CBW: the internal command code and, for a download, what is
asked for. -/
def parseCbw (cbw : Bytes) : ℤ × AmlBl2Cmd :=
  let cmd := if getU8 cbw 17 = 0 then (if getU8 cbw 16 < 2 ^ 7 then 0xABCD else 0xABCE)
    else if getU8 cbw 17 = 1 then 0xABCF else 0xABD0
  if cmd = 0xABCD then
    (cmd, ⟨i32 (getU32 cbw 12), i32 (getU32 cbw 8), i32 (getU32 cbw 4),
      getU8 cbw 16 % 2 = 0⟩)
  else (cmd, ⟨0, 0, 0, false⟩)

/-- The result, the command code and the parameters. -/
def amlLibusbBl2CmdParser (dev : Option Handle) (cmd : ℤ) (param : AmlBl2Cmd) :
    Program (ℤ × ℤ × AmlBl2Cmd) := do
  let r ← usbControlMsg dev vendorOut amReqStart 0x0200 0x0000 [] 0 3000
  if r.1 < 0 then pure (-1070, cmd, param)
  else do
    let r ← usbBulkRead dev amEpIn (List.replicate 512 0) 512 3000
    if r.1 ≠ 512 then pure (-1079, cmd, param)
    else do
      let (cmd, param) := parseCbw r.2
      let ret ← amlLibusbBl2Csw dev true (cmd = 0xABCD ∨ cmd = 0xABCF)
      pure (if ret ≠ 0 then -1118 else 0, cmd, param)

/-- The variables of the session: the stream, the work buffer and the last command. -/
structure Session where
  file : File
  buf : Bytes
  cmd : ℤ

def bootTurn (dev : Option Handle) (s : Session) : Program (Loop Session ℤ) := do
  let (ret, cmd, param) ← amlLibusbBl2CmdParser dev s.cmd ⟨0, 0, 0, false⟩
  if ret ≠ 0 then pure (.done (-1173))
  else if cmd ≤ 0xABCC ∨ 0xABD0 < cmd then pure (.done (-1177))
  else if 0xABCE < cmd then pure (.done 0)
  -- an unsupported command leaves with the zero of the parser
  else if cmd ≠ 0xABCD then pure (.done ret)
  else do
    let (ret, file, buf) ← amlLibusbBl2SecureDownload dev (fseekSet s.file param.offset) s.buf
      param
    if ret ≠ 0 then pure (.done (-1188)) else pure (.next ⟨file, buf, cmd⟩)

/-- `buf` is what the freshly allocated work buffer holds, `turns` bounds the session. -/
def amlLibusbBl2Boot (files : Files) (buf : Bytes) (turns : ℕ) (dev : Device) (argc : ℤ)
    (argv : List Bytes) : Program ℤ := do
  let (ok, drv) ← openUsbDevice ⟨dev, none, amEpIn, 0⟩
  if ok = 0 then pure (-1151)
  -- the device stays open on this way out
  else if argc ≤ 0 then pure (-1157)
  else do
    let file ← fopenRead files (argv.getD 0 [])
    let ret ← (match file with
      | none => pure (-1165)
      | some file => iterate (bootTurn drv.handle) turns ⟨file, buf, 0⟩)
    let _ ← closeUsbDevice drv
    pure ret

/-! ### The single download of `bl2_test` -/

/-- `(unsigned int) (dataSize + 0x10000 - 1) >> 16`. -/
def testPieceCount (dataSize : ℤ) : ℕ := u32 (dataSize + 0x10000 - 1) / 2 ^ 16

/-- The variables of the loop of `Aml_Libusb_bl2_test`. -/
structure Test where
  i : ℕ
  dataOffset : ℕ
  cksum : ℕ
  file : File
  buf : Bytes

def testTurn (dev : Option Handle) (dataSize timeout : ℤ) (s : Test) :
    Program (Loop Test (ℤ × Test)) :=
  if s.i < testPieceCount dataSize then do
    let bulkSize := min (u32 (dataSize - s.dataOffset)) 0x10000
    let r ← usbControlMsg dev vendorOut amReqCmd4 (s.dataOffset / 2 ^ 9 : ℕ)
      ((bulkSize : ℤ) - 1) [] 0 timeout
    if r.1 < 0 then pure (.done (-926, s))
    else do
      let (data, file) ← fread s.file bulkSize
      let s := { s with file := file, buf := blit s.buf 0 data }
      if data.length ≠ bulkSize ∨ bulkSize = 0 then pure (.done (-932, s))
      else do
        let ret ← usbBulkWrite dev amEpOut s.buf bulkSize 30000
        if ret ≠ bulkSize then pure (.done (-938, s))
        else do
          let ret ← amlLibusbBl2Csw dev false false
          if ret ≠ 0 then pure (.done (-946, s))
          else pure (.next
            { s with
              cksum := (s.cksum + checksum64K s.buf bulkSize) % 2 ^ 32
              dataOffset := (s.dataOffset + 0x10000) % 2 ^ 32
              i := s.i + 1 })
  else pure (.done (0, s))

/-- From the request read to the verdict. -/
def testDownload (dev : Option Handle) (file : File) (buf cbw : Bytes) (timeout : ℤ) :
    Program ℤ :=
  let seq := i32 (getU32 cbw 4)
  let dataSize := i32 (getU32 cbw 8)
  let offset := getU32 cbw 12
  if getU8 cbw 17 ≠ 0 then pure (-904)
  else do
    let ret ← amlLibusbBl2Csw dev true true
    if ret ≠ 0 then pure (-911)
    else do
      let (ret, s) ← iterate (testTurn dev dataSize timeout) (testPieceCount dataSize + 1)
        ⟨0, 0, 0, fseekSet file offset, buf⟩
      if ret ≠ 0 then pure ret
      else do
        let r ← usbControlMsg dev vendorOut amReqCmd4 (offset / 2 ^ 9 : ℕ) 0x1FF [] 0 timeout
        if r.1 < 0 then pure (-959)
        else do
          let ret ← usbBulkWrite dev amEpOut (trailer s.buf (u32 seq) s.cksum) 0x200 30000
          if ret ≠ 0x200 then pure (-969)
          else do
            let _ ← amlLibusbBl2Csw dev false false
            pure 0

def amlLibusbBl2Test (files : Files) (buf : Bytes) (dev : Device) (timeout argc : ℤ)
    (argv : List Bytes) : Program ℤ := do
  let (ok, drv) ← openUsbDevice ⟨dev, none, amEpIn, 0⟩
  if ok = 0 then pure (-855)
  -- the device stays open on this way out
  else if argc ≤ 0 then pure (-869)
  else do
    let file ← fopenRead files (argv.getD 0 [])
    let ret ← (match file with
      | none => pure (-874)
      | some file => do
        let r ← usbControlMsg drv.handle vendorOut amReqStart 0x0200 0x0000 [] 0 timeout
        if r.1 < 0 then pure (-885)
        else do
          let r ← usbBulkRead drv.handle amEpIn (List.replicate 0x200 0) 0x200 30000
          if r.1 ≠ 0x200 then pure (-896)
          else testDownload drv.handle file buf r.2 timeout)
    let _ ← closeUsbDevice drv
    pure ret

end AmlogicUpdate.Bl2

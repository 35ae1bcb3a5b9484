import AmlogicUpdate.Usb

/-!
`AmlLibusb.cpp` up to the BL2 commands: the request handlers behind the two `ioctl`
dispatchers, the bulk files, opening and closing, and the routines that talk to the control
endpoint themselves.

A buffer the program points at is passed as the bytes from the pointer on and returned as
the transfer leaves them.
-/

namespace AmlogicUpdate.AmlLibusb

open Interaction CData Usb

def amReqWriteMem : ℕ := 0x01
def amReqReadMem : ℕ := 0x02
def amReqRunInAddr : ℕ := 0x05
def amReqWrLargeMem : ℕ := 0x11
def amReqRdLargeMem : ℕ := 0x12
def amReqIdentifyHost : ℕ := 0x20
def amReqTplCmd : ℕ := 0x30
def amReqTplStat : ℕ := 0x31
def amReqWriteMedia : ℕ := 0x32
def amReqReadMedia : ℕ := 0x33
def amReqPassword : ℕ := 0x35
def amReqChipInfo : ℕ := 0x40
def amReqStart : ℕ := 0x50
def amReqCmd4 : ℕ := 0x60

def amEpIn : ℕ := 0x81
def amEpOut : ℕ := 0x02

/-- `USB_ENDPOINT_IN | USB_TYPE_VENDOR` and `USB_ENDPOINT_OUT | USB_TYPE_VENDOR`. -/
def vendorIn : ℕ := usbEndpointIn ||| usbTypeVendor
def vendorOut : ℕ := usbEndpointOut ||| usbTypeVendor

structure AmlUsbDrv where
  device : Device
  handle : Option Handle
  readEp : ℕ
  writeEp : ℕ

structure UsbDevIoCtrl where
  handle : Option Handle
  inBuf : Option Bytes
  outBuf : Option Bytes
  inLen : ℕ
  outLen : ℕ
  bytesReturned : ℕ

/-- What a handler makes of the result of its control transfer. -/
def ioctlResult (ctrl : UsbDevIoCtrl) (ret : ℤ) : ℕ × UsbDevIoCtrl :=
  (if ret < 0 then 0 else 1, { ctrl with bytesReturned := (max 0 ret).toNat })

def ioctlReadMemHandler (ctrl : UsbDevIoCtrl) : Program (ℕ × UsbDevIoCtrl) :=
  match ctrl.inBuf, ctrl.outBuf with
  | some inBuf, some outBuf =>
    if ctrl.inLen ≠ 4 ∨ ctrl.outLen = 0 then pure (0, ctrl)
    else do
      let r ← usbControlMsg ctrl.handle vendorIn amReqReadMem (getU16 inBuf 2)
        (getU16 inBuf 0) outBuf (min ctrl.outLen 64 : ℕ) 50000
      pure (ioctlResult { ctrl with outBuf := some r.2 } r.1)
  | _, _ => pure (0, ctrl)

/-- The length sent is `in_len - 4` in unsigned arithmetic, which passes 64 when `in_len`
is 3. -/
def ioctlWriteMemHandler (ctrl : UsbDevIoCtrl) : Program (ℕ × UsbDevIoCtrl) :=
  match ctrl.inBuf with
  | some inBuf =>
    if ctrl.inLen ≤ 2 then pure (0, ctrl)
    else do
      let r ← usbControlMsg ctrl.handle vendorOut amReqWriteMem (getU16 inBuf 2)
        (getU16 inBuf 0) (inBuf.drop 4) (min (u32 ((ctrl.inLen : ℤ) - 4)) 64 : ℕ) 50000
      pure (ioctlResult ctrl r.1)
  | none => pure (0, ctrl)

/-- `IOCTL_READ_AUX_REG_Handler` and the three others that do nothing. -/
def ioctlNothingHandler (ctrl : UsbDevIoCtrl) : Program (ℕ × UsbDevIoCtrl) := pure (0, ctrl)

/-- The low half of the address goes out as it was, the data with bit 4 set. -/
def ioctlRunInAddrHandler (ctrl : UsbDevIoCtrl) : Program (ℕ × UsbDevIoCtrl) :=
  match ctrl.inBuf with
  | some inBuf =>
    if ctrl.inLen ≠ 4 then pure (0, ctrl)
    else do
      let lo := getU16 inBuf 0
      let inBuf := blit inBuf 0 [(inBuf.getD 0 0) ||| 0x10]
      let _ ← usbControlMsg ctrl.handle vendorOut amReqRunInAddr (getU16 inBuf 2) lo inBuf 4
        50000
      pure (1, { ctrl with inBuf := some inBuf })
  | none => pure (0, ctrl)

/-- The block length of a large transfer: the word at 64, unless it is 0 or over 4096. -/
def blockLen (inBuf : Bytes) (inLen : ℕ) : ℕ :=
  let bulkSize := if 16 < inLen then getU16 inBuf 64 else 0
  if bulkSize = 0 ∨ 4096 < bulkSize then 4096 else bulkSize

/-- The number of blocks, rounded up in 32 bits and stored in 16. -/
def blockCnt (len bulkSize : ℕ) : ℕ :=
  (u32 ((len : ℤ) + bulkSize - 1) / bulkSize) % 2 ^ 16

def ioctlDoLargeMemHandler (ctrl : UsbDevIoCtrl) (doRead : Bool) :
    Program (ℕ × UsbDevIoCtrl) :=
  match ctrl.inBuf with
  | some inBuf =>
    if ctrl.inLen < 16 then pure (0, ctrl)
    else do
      let bulkSize := blockLen inBuf ctrl.inLen
      let cnt := blockCnt (getU32 inBuf 4) bulkSize
      let r ← usbControlMsg ctrl.handle vendorOut
        (if doRead then amReqRdLargeMem else amReqWrLargeMem) bulkSize cnt inBuf 16 50000
      pure (ioctlResult ctrl r.1)
  | none => pure (0, ctrl)

def ioctlIdentifyHostHandler (ctrl : UsbDevIoCtrl) : Program (ℕ × UsbDevIoCtrl) :=
  match ctrl.outBuf with
  | some outBuf =>
    if 8 < ctrl.outLen then pure (0, ctrl)
    else do
      let r ← usbControlMsg ctrl.handle vendorIn amReqIdentifyHost 0 0 outBuf ctrl.outLen 5000
      pure (ioctlResult { ctrl with outBuf := some r.2 } r.1)
  | none => pure (0, ctrl)

def ioctlTplCmdHandler (ctrl : UsbDevIoCtrl) : Program (ℕ × UsbDevIoCtrl) :=
  match ctrl.inBuf with
  | some inBuf =>
    if ctrl.inLen ≠ 68 then pure (0, ctrl)
    else do
      let r ← usbControlMsg ctrl.handle vendorOut amReqTplCmd (getU16 inBuf 64)
        (getU16 inBuf 66) inBuf 64 50000
      pure (ioctlResult ctrl r.1)
  | none => pure (0, ctrl)

/-- The one handler that leaves the number of bytes returned alone. -/
def ioctlTplStatusHandlerEx (ctrl : UsbDevIoCtrl) (timeout : ℕ) :
    Program (ℕ × UsbDevIoCtrl) :=
  match ctrl.inBuf, ctrl.outBuf with
  | some inBuf, some outBuf =>
    if ctrl.inLen ≠ 4 ∨ ctrl.outLen ≠ 64 then pure (0, ctrl)
    else do
      let r ← usbControlMsg ctrl.handle vendorIn amReqTplStat (getU16 inBuf 0)
        (getU16 inBuf 2) outBuf 64 (1000 * timeout)
      pure (if r.1 < 0 then 0 else 1, { ctrl with outBuf := some r.2 })
  | _, _ => pure (0, ctrl)

def ioctlTplStatusHandler (ctrl : UsbDevIoCtrl) : Program (ℕ × UsbDevIoCtrl) :=
  ioctlTplStatusHandlerEx ctrl 60

def ioctlWriteMediaHandler (ctrl : UsbDevIoCtrl) (timeout : ℕ) :
    Program (ℕ × UsbDevIoCtrl) :=
  match ctrl.inBuf with
  | some inBuf =>
    if ctrl.inLen < 32 then pure (0, ctrl)
    else do
      let inBuf := setU32 inBuf 16 0x010000EF
      let r ← usbControlMsg ctrl.handle vendorOut amReqWriteMedia 1 0xFFFF inBuf 32 timeout
      pure (ioctlResult { ctrl with inBuf := some inBuf } r.1)
  | none => pure (0, ctrl)

/-- A request to the host: the reply overwrites the header. -/
def ioctlReadMediaHandler (ctrl : UsbDevIoCtrl) (timeout : ℕ) :
    Program (ℕ × UsbDevIoCtrl) :=
  match ctrl.inBuf with
  | some inBuf =>
    if ctrl.inLen < 16 then pure (0, ctrl)
    else do
      let bulkSize := blockLen inBuf ctrl.inLen
      let cnt := blockCnt (getU32 inBuf 4) bulkSize
      let r ← usbControlMsg ctrl.handle vendorIn amReqReadMedia bulkSize cnt inBuf 16 timeout
      pure (ioctlResult { ctrl with inBuf := some r.2 } r.1)
  | none => pure (0, ctrl)

def ioctlBulkCmdHandler (ctrl : UsbDevIoCtrl) (request : ℕ) : Program (ℕ × UsbDevIoCtrl) :=
  match ctrl.inBuf with
  | some inBuf =>
    if ctrl.inLen ≠ 68 then pure (0, ctrl)
    else do
      let r ← usbControlMsg ctrl.handle vendorOut request 0 2 inBuf 64 50000
      pure (ioctlResult ctrl r.1)
  | none => pure (0, ctrl)

/-- The control codes of `AmlLibusb.h`. -/
inductive Ioctl
  | readMem | writeMem | fillMem | runInAddr | readLargeMem | writeLargeMem | readAuxReg
  | writeAuxReg | modifyMem | identifyHost | tplCmd | tplStatus | writeMedia | readMedia
  | bulkCmd1 | bulkCmd2
  | unknown (code : ℕ)
  deriving DecidableEq

def usbDeviceIoControl (drv : AmlUsbDrv) (code : Ioctl) (inBuf : Option Bytes) (inLen : ℕ)
    (outBuf : Option Bytes) (outLen bytesReturned : ℕ) : Program (ℕ × UsbDevIoCtrl) :=
  let ctrl : UsbDevIoCtrl := ⟨drv.handle, inBuf, outBuf, inLen, outLen, bytesReturned⟩
  if drv.device = .invalid then pure (0, ctrl)
  else match code with
    | .readMem => ioctlReadMemHandler ctrl
    | .writeMem => ioctlWriteMemHandler ctrl
    | .fillMem => ioctlNothingHandler ctrl
    | .runInAddr => ioctlRunInAddrHandler ctrl
    | .readLargeMem => ioctlDoLargeMemHandler ctrl true
    | .writeLargeMem => ioctlDoLargeMemHandler ctrl false
    | .readAuxReg => ioctlNothingHandler ctrl
    | .writeAuxReg => ioctlNothingHandler ctrl
    | .modifyMem => ioctlNothingHandler ctrl
    | .identifyHost => ioctlIdentifyHostHandler ctrl
    | .tplCmd => ioctlTplCmdHandler ctrl
    | .tplStatus => ioctlTplStatusHandler ctrl
    | _ => pure (0, ctrl)

def usbDeviceIoControlEx (drv : AmlUsbDrv) (code : Ioctl) (inBuf : Option Bytes) (inLen : ℕ)
    (outBuf : Option Bytes) (outLen bytesReturned timeout : ℕ) :
    Program (ℕ × UsbDevIoCtrl) :=
  let ctrl : UsbDevIoCtrl := ⟨drv.handle, inBuf, outBuf, inLen, outLen, bytesReturned⟩
  if drv.device = .invalid then pure (0, ctrl)
  else match code with
    | .writeMem => ioctlWriteMemHandler ctrl
    | .tplStatus => ioctlTplStatusHandlerEx ctrl timeout
    | .writeMedia => ioctlWriteMediaHandler ctrl timeout
    | .readMedia => ioctlReadMediaHandler ctrl timeout
    | .bulkCmd1 => ioctlBulkCmdHandler ctrl 0x34
    | .bulkCmd2 => ioctlBulkCmdHandler ctrl 0x35
    | _ => pure (0, ctrl)

/-- Success, the number of bytes returned, and the buffer. -/
def usbReadFile (drv : AmlUsbDrv) (outBuf : Bytes) (outLen bytesReturned : ℕ) :
    Program (ℕ × ℕ × Bytes) :=
  if drv.device = .invalid then pure (0, bytesReturned, outBuf)
  else do
    let r ← usbBulkRead drv.handle drv.readEp outBuf outLen 30000
    pure (if r.1 < 0 then 0 else 1, (max 0 r.1).toNat, r.2)

def usbWriteFile (drv : AmlUsbDrv) (inBuf : Bytes) (inLen bytesReturned : ℕ) :
    Program (ℕ × ℕ) :=
  if drv.device = .invalid then pure (0, bytesReturned)
  else do
    let ret ← usbBulkWrite drv.handle drv.writeEp inBuf inLen 50000
    pure (if ret < 0 then 0 else 1, (max 0 ret).toNat)

/-- What `usb_open` returned is not looked at. -/
def openUsbDevice (drv : AmlUsbDrv) : Program (ℕ × AmlUsbDrv) :=
  if drv.device = .null ∨ drv.handle ≠ none then pure (0, drv)
  else do
    let handle ← usbOpen drv.device
    pure (1, { drv with handle := handle, readEp := amEpIn, writeEp := amEpOut })

def closeUsbDevice (drv : AmlUsbDrv) : Program (ℕ × AmlUsbDrv) :=
  if drv.device = .null then pure (0, drv)
  else do
    usbClose drv.handle
    pure (1, { drv with handle := none })

def resetDev (drv : AmlUsbDrv) : Program ℤ :=
  if drv.device = .invalid then pure 0 else usbReset drv.handle

/-! ### Routines on the control endpoint -/

/-- The variables of the loop of `Aml_Libusb_Ctrl_RdWr`; `buf` is advanced together with
`processed`, which is its distance from the start. -/
structure CtrlRdWr where
  processed : ℕ
  ret : ℤ
  addr : ℕ
  buf : Bytes

def ctrlRdWrTurn (handle : Option Handle) (len : ℤ) (doRead : Bool) (timeout : ℤ)
    (s : CtrlRdWr) : Program (Loop CtrlRdWr CtrlRdWr) :=
  if (s.processed : ℤ) < len then do
    let chunk := (min (len - s.processed) 64).toNat
    let r ← usbControlMsg handle (if doRead then vendorIn else usbTypeVendor)
      (if doRead then amReqReadMem else amReqWriteMem) (s.addr / 2 ^ 16 : ℕ)
      (s.addr % 2 ^ 16 : ℕ) (s.buf.drop s.processed) chunk timeout
    let s := { s with ret := r.1, buf := s.buf.take s.processed ++ r.2 }
    if r.1 < 0 then pure (.done s)
    else pure (.next
      { s with processed := s.processed + chunk, addr := (s.addr + chunk) % 2 ^ 32 })
  else pure (.done s)

/-- The result and the buffer. -/
def amlLibusbCtrlRdWr (dev : Device) (addr : ℕ) (buf : Bytes) (len : ℤ) (doRead : Bool)
    (timeout : ℤ) : Program (ℤ × Bytes) := do
  let (ok, drv) ← openUsbDevice ⟨dev, none, 0, 0⟩
  if ok = 0 then pure (-645, buf)
  else do
    let s ← iterate (ctrlRdWrTurn drv.handle len doRead timeout) (len.toNat + 1)
      ⟨0, 0, addr, buf⟩
    let _ ← closeUsbDevice drv
    pure (if s.ret < 0 then -646 else 0, s.buf)

/-- The sum of `size` characters, which are signed. -/
def charSum (buf : Bytes) (size : ℤ) : ℤ :=
  ((buf.take size.toNat).map fun b : UInt8 =>
    if b.toNat < 2 ^ 7 then (b.toNat : ℤ) else b.toNat - 2 ^ 8).sum

def amlLibusbPassword (dev : Device) (buf : Bytes) (size timeout : ℤ) : Program ℤ := do
  let (ok, drv) ← openUsbDevice ⟨dev, none, 0, 0⟩
  if ok = 0 then pure (-696)
  else if 64 < size then do
    let _ ← closeUsbDevice drv
    pure (-703)
  else do
    let r ← usbControlMsg drv.handle vendorOut amReqPassword (charSum buf size) 0 buf size
      timeout
    let _ ← closeUsbDevice drv
    pure r.1

def amlLibusbGetChipinfo (dev : Device) (buf : Bytes) (size index timeout : ℤ) :
    Program (ℤ × Bytes) := do
  let (ok, drv) ← openUsbDevice ⟨dev, none, 0, 0⟩
  if ok = 0 then pure (-748, buf)
  else if 64 < size then do
    let _ ← closeUsbDevice drv
    pure (-755, buf)
  else do
    let r ← usbControlMsg drv.handle vendorIn amReqChipInfo 0 index buf size timeout
    let _ ← closeUsbDevice drv
    pure r

end AmlogicUpdate.AmlLibusb

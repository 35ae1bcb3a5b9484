import AmlogicUpdate.TwoKinds
import AmlogicUpdate.Wire

/-!
Which bytes of the two buffers of a request are read and written.

The handlers once more, now with every access to a buffer as a call of its own. Answered from
the buffers these are the handlers of the tool; what they touch is then compared with the
lengths that were declared.
-/

namespace AmlogicUpdate.Bounds

open Interaction CData Usb Wire
open AmlLibusb (AmlUsbDrv UsbDevIoCtrl Ioctl vendorIn vendorOut amReqReadMem amReqWriteMem
  amReqRunInAddr amReqWrLargeMem amReqRdLargeMem amReqIdentifyHost amReqTplCmd amReqTplStat
  amReqWriteMedia amReqReadMedia blockCnt)

/-! ### Accesses -/

inductive Buffer
  | input | output

/-- Reading so many bytes of the input, printing a string in it, and writing to a buffer. -/
inductive Access
  | read (pos len : ℕ)
  | text (pos : ℕ)
  | write (buffer : Buffer) (pos : ℕ) (data : Bytes)

@[reducible] def Loaded : Access → Type
  | .read _ _ => Bytes
  | .text _ => Unit
  | .write _ _ _ => Unit

structure Buffers where
  input : Bytes
  output : Bytes

def Buffers.serve (m : Buffers) : (a : Access) → Loaded a × Buffers
  | .read pos len => (slice m.input pos len, m)
  | .text _ => ((), m)
  | .write .input pos data => ((), { m with input := blit m.input pos data })
  | .write .output pos data => ((), { m with output := blit m.output pos data })

abbrev BufProgram (α : Type) : Type := Prog (Either Resp Loaded) α

abbrev usb {α : Type} (p : Program α) : BufProgram α := left p

def readIn (pos len : ℕ) : BufProgram Bytes := right (Access.read pos len)
def printIn (pos : ℕ) : BufProgram Unit := right (Access.text pos)
def writeTo (buffer : Buffer) (pos : ℕ) (data : Bytes) : BufProgram Unit :=
  right (Access.write buffer pos data)

def readU16 (pos : ℕ) : BufProgram ℕ := do
  let data ← readIn pos 2
  pure (getU16 data 0)

def readU32 (pos : ℕ) : BufProgram ℕ := do
  let data ← readIn pos 4
  pure (getU32 data 0)

/-- `usb_control_msg` with the data in the input from `pos` on. -/
def controlOut (handle : Option Handle) (bRequest : ℕ) (wValue wIndex : ℤ) (pos : ℕ) (size : ℤ)
    (timeout : ℤ) : BufProgram ℤ :=
  match handle with
  | none => usb segfault
  | some h => do
    let data ← readIn pos (u16 size)
    let r ← usb (usbControlMsg (some h) vendorOut bRequest wValue wIndex data size timeout)
    pure r.1

/-- `usb_control_msg` with the answer put in `buffer`. -/
def controlIn (handle : Option Handle) (bRequest : ℕ) (wValue wIndex : ℤ) (buffer : Buffer)
    (size : ℤ) (timeout : ℤ) : BufProgram ℤ := do
  let r ← usb (usbControlMsg handle vendorIn bRequest wValue wIndex [] size timeout)
  writeTo buffer 0 r.2
  pure r.1

/-! ### The handlers -/

/-- `usbDevIoCtrl`, of the pointers whether they are `NULL`. -/
structure IoCtrl where
  handle : Option Handle
  hasIn : Bool
  hasOut : Bool
  inLen : ℕ
  outLen : ℕ
  bytesReturned : ℕ

/-- The result and the number of bytes returned. -/
abbrev Reply : Type := ℕ × ℕ

def ioctlResult (ret : ℤ) : Reply := (if ret < 0 then 0 else 1, (max 0 ret).toNat)

def refused (ctrl : IoCtrl) : BufProgram Reply := pure (0, ctrl.bytesReturned)

def ioctlReadMemHandler (ctrl : IoCtrl) : BufProgram Reply :=
  if ctrl.hasIn = false ∨ ctrl.hasOut = false ∨ ctrl.inLen ≠ 4 ∨ ctrl.outLen = 0 then refused ctrl
  else do
    let wValue ← readU16 2
    let wIndex ← readU16 0
    let ret ← controlIn ctrl.handle amReqReadMem wValue wIndex .output (min ctrl.outLen 64 : ℕ)
      50000
    pure (ioctlResult ret)

def ioctlWriteMemHandler (ctrl : IoCtrl) : BufProgram Reply :=
  if ctrl.hasIn = false ∨ ctrl.inLen ≤ 2 then refused ctrl
  else do
    let wValue ← readU16 2
    let wIndex ← readU16 0
    let ret ← controlOut ctrl.handle amReqWriteMem wValue wIndex 4
      (min (u32 ((ctrl.inLen : ℤ) - 4)) 64 : ℕ) 50000
    pure (ioctlResult ret)

def ioctlRunInAddrHandler (ctrl : IoCtrl) : BufProgram Reply :=
  if ctrl.hasIn = false ∨ ctrl.inLen ≠ 4 then refused ctrl
  else do
    let lo ← readU16 0
    let first ← readIn 0 1
    writeTo .input 0 [(first.getD 0 0) ||| 0x10]
    let wValue ← readU16 2
    let _ ← controlOut ctrl.handle amReqRunInAddr wValue lo 0 4 50000
    pure (1, ctrl.bytesReturned)

/-- The word at 64 is looked at when there is anything past the header. -/
def readBlockLen (inLen : ℕ) : BufProgram ℕ := do
  let bulkSize ← if 16 < inLen then readU16 64 else pure 0
  pure (if bulkSize = 0 ∨ 4096 < bulkSize then 4096 else bulkSize)

def ioctlDoLargeMemHandler (ctrl : IoCtrl) (doRead : Bool) : BufProgram Reply :=
  if ctrl.hasIn = false ∨ ctrl.inLen < 16 then refused ctrl
  else do
    let bulkSize ← readBlockLen ctrl.inLen
    let len ← readU32 4
    let ret ← controlOut ctrl.handle (if doRead then amReqRdLargeMem else amReqWrLargeMem)
      bulkSize (blockCnt len bulkSize) 0 16 50000
    pure (ioctlResult ret)

def ioctlIdentifyHostHandler (ctrl : IoCtrl) : BufProgram Reply :=
  if ctrl.hasOut = false ∨ 8 < ctrl.outLen then refused ctrl
  else do
    let ret ← controlIn ctrl.handle amReqIdentifyHost 0 0 .output ctrl.outLen 5000
    pure (ioctlResult ret)

/-- On an error the command is printed, as a string. -/
def ioctlTplCmdHandler (ctrl : IoCtrl) : BufProgram Reply :=
  if ctrl.hasIn = false ∨ ctrl.inLen ≠ 68 then refused ctrl
  else do
    let wValue ← readU16 64
    let wIndex ← readU16 66
    let ret ← controlOut ctrl.handle amReqTplCmd wValue wIndex 0 64 50000
    if ret < 0 then printIn 0
    pure (ioctlResult ret)

def ioctlTplStatusHandlerEx (ctrl : IoCtrl) (timeout : ℕ) : BufProgram Reply :=
  if ctrl.hasIn = false ∨ ctrl.hasOut = false ∨ ctrl.inLen ≠ 4 ∨ ctrl.outLen ≠ 64 then refused ctrl
  else do
    let wValue ← readU16 0
    let wIndex ← readU16 2
    let ret ← controlIn ctrl.handle amReqTplStat wValue wIndex .output 64 (1000 * timeout)
    pure (if ret < 0 then 0 else 1, ctrl.bytesReturned)

def ioctlWriteMediaHandler (ctrl : IoCtrl) (timeout : ℕ) : BufProgram Reply :=
  if ctrl.hasIn = false ∨ ctrl.inLen < 32 then refused ctrl
  else do
    writeTo .input 16 (le32 0x010000EF)
    let ret ← controlOut ctrl.handle amReqWriteMedia 1 0xFFFF 0 32 timeout
    pure (ioctlResult ret)

def ioctlReadMediaHandler (ctrl : IoCtrl) (timeout : ℕ) : BufProgram Reply :=
  if ctrl.hasIn = false ∨ ctrl.inLen < 16 then refused ctrl
  else do
    let bulkSize ← readBlockLen ctrl.inLen
    let len ← readU32 4
    let ret ← controlIn ctrl.handle amReqReadMedia bulkSize (blockCnt len bulkSize) .input 16
      timeout
    pure (ioctlResult ret)

def ioctlBulkCmdHandler (ctrl : IoCtrl) (request : ℕ) : BufProgram Reply :=
  if ctrl.hasIn = false ∨ ctrl.inLen ≠ 68 then refused ctrl
  else do
    let ret ← controlOut ctrl.handle request 0 2 0 64 50000
    if ret < 0 then printIn 0
    pure (ioctlResult ret)

def usbDeviceIoControl (drv : AmlUsbDrv) (code : Ioctl) (hasIn : Bool) (inLen : ℕ)
    (hasOut : Bool) (outLen bytesReturned : ℕ) : BufProgram Reply :=
  let ctrl : IoCtrl := ⟨drv.handle, hasIn, hasOut, inLen, outLen, bytesReturned⟩
  if drv.device = .invalid then refused ctrl
  else match code with
    | .readMem => ioctlReadMemHandler ctrl
    | .writeMem => ioctlWriteMemHandler ctrl
    | .runInAddr => ioctlRunInAddrHandler ctrl
    | .readLargeMem => ioctlDoLargeMemHandler ctrl true
    | .writeLargeMem => ioctlDoLargeMemHandler ctrl false
    | .identifyHost => ioctlIdentifyHostHandler ctrl
    | .tplCmd => ioctlTplCmdHandler ctrl
    | .tplStatus => ioctlTplStatusHandlerEx ctrl 60
    | _ => refused ctrl

def usbDeviceIoControlEx (drv : AmlUsbDrv) (code : Ioctl) (hasIn : Bool) (inLen : ℕ)
    (hasOut : Bool) (outLen bytesReturned timeout : ℕ) : BufProgram Reply :=
  let ctrl : IoCtrl := ⟨drv.handle, hasIn, hasOut, inLen, outLen, bytesReturned⟩
  if drv.device = .invalid then refused ctrl
  else match code with
    | .writeMem => ioctlWriteMemHandler ctrl
    | .tplStatus => ioctlTplStatusHandlerEx ctrl timeout
    | .writeMedia => ioctlWriteMediaHandler ctrl timeout
    | .readMedia => ioctlReadMediaHandler ctrl timeout
    | .bulkCmd1 => ioctlBulkCmdHandler ctrl 0x34
    | .bulkCmd2 => ioctlBulkCmdHandler ctrl 0x35
    | _ => refused ctrl

/-! ### Answered from the buffers these are the handlers of the tool -/

section Served

variable {α : Type} {m : Buffers}

lemma getU8_slice (buf : Bytes) {off n i : ℕ} (hi : i < n) :
    getU8 (slice buf off n) i = getU8 buf (off + i) := by
  simp only [getU8, slice, List.getD_eq_getElem?_getD, List.getElem?_take, if_pos hi,
    List.getElem?_drop]

lemma getU16_slice (buf : Bytes) {off n : ℕ} (hn : 1 < n) :
    getU16 (slice buf off n) 0 = getU16 buf off := by
  rw [getU16, getU16, getU8_slice buf (by omega), getU8_slice buf (by omega), Nat.add_zero,
    Nat.zero_add]

lemma getU32_slice (buf : Bytes) {off n : ℕ} (hn : 3 < n) :
    getU32 (slice buf off n) 0 = getU32 buf off := by
  simp (disch := omega) only [getU32, getU16, getU8_slice, Nat.zero_add, Nat.add_zero,
    Nat.add_assoc]

@[simp] lemma served_readIn (pos len : ℕ) :
    served Buffers.serve m (readIn pos len) = .ret (slice m.input pos len, m) := rfl

@[simp] lemma served_printIn (pos : ℕ) :
    served Buffers.serve m (printIn pos) = .ret ((), m) := rfl

@[simp] lemma served_writeIn (pos : ℕ) (data : Bytes) :
    served Buffers.serve m (writeTo .input pos data) =
      .ret ((), ⟨blit m.input pos data, m.output⟩) := rfl

@[simp] lemma served_writeOut (pos : ℕ) (data : Bytes) :
    served Buffers.serve m (writeTo .output pos data) =
      .ret ((), ⟨m.input, blit m.output pos data⟩) := rfl

@[simp] lemma served_readU16 (pos : ℕ) :
    served Buffers.serve m (readU16 pos) = .ret (getU16 m.input pos, m) := by
  rw [← getU16_slice m.input (n := 2) (by omega)]
  rfl

@[simp] lemma served_readU32 (pos : ℕ) :
    served Buffers.serve m (readU32 pos) = .ret (getU32 m.input pos, m) := by
  rw [← getU32_slice m.input (n := 4) (by omega)]
  rfl

@[simp] lemma served_readBlockLen (inLen : ℕ) :
    served Buffers.serve m (readBlockLen inLen) = .ret (AmlLibusb.blockLen m.input inLen, m) := by
  unfold readBlockLen AmlLibusb.blockLen
  by_cases h : 16 < inLen
  · rw [if_pos h, if_pos h, served_bind, served_readU16]
    rfl
  · rw [if_neg h, if_neg h]
    rfl

lemma usbControlMsg_null (bmRequestType bRequest : ℕ) (wValue wIndex : ℤ) (bytes : Bytes)
    (size timeout : ℤ) :
    usbControlMsg none bmRequestType bRequest wValue wIndex bytes size timeout = segfault := rfl

@[simp] lemma served_controlOut (handle : Option Handle) (bRequest : ℕ) (wValue wIndex : ℤ)
    (pos : ℕ) (size timeout : ℤ) :
    served Buffers.serve m (controlOut handle bRequest wValue wIndex pos size timeout) =
      usbControlMsg handle vendorOut bRequest wValue wIndex (m.input.drop pos) size timeout >>=
        fun r => .ret (r.1, m) := by
  cases handle with
  | none =>
    rw [usbControlMsg_null, segfault_bind]
    exact (served_lift segfault m).trans (segfault_bind _)
  | some h =>
    have hdata : (slice m.input pos (u16 size)).take (u16 size) =
        (m.input.drop pos).take (u16 size) := by rw [slice, List.take_take, Nat.min_self]
    simp only [controlOut, served_bind, served_readIn, served_lift, Prog.ret_bind]
    rw [usbControlMsg_out h rfl rfl rfl rfl hdata, usbControlMsg_out h rfl rfl rfl rfl rfl]
    rfl

@[simp] lemma served_controlIn_out (handle : Option Handle) (bRequest : ℕ) (wValue wIndex : ℤ)
    (size timeout : ℤ) :
    served Buffers.serve m (controlIn handle bRequest wValue wIndex .output size timeout) =
      usbControlMsg handle vendorIn bRequest wValue wIndex m.output size timeout >>=
        fun r => .ret (r.1, ⟨m.input, r.2⟩) := by
  rw [controlIn, served_bind, served_lift]
  cases handle with
  | none => simp only [usbControlMsg_null, segfault_bind]
  | some h =>
    rw [usbControlMsg_in h rfl rfl rfl rfl, usbControlMsg_in h rfl rfl rfl rfl]
    simp [served_bind, blit_zero]

@[simp] lemma served_controlIn_in (handle : Option Handle) (bRequest : ℕ) (wValue wIndex : ℤ)
    (size timeout : ℤ) :
    served Buffers.serve m (controlIn handle bRequest wValue wIndex .input size timeout) =
      usbControlMsg handle vendorIn bRequest wValue wIndex m.input size timeout >>=
        fun r => .ret (r.1, ⟨r.2, m.output⟩) := by
  rw [controlIn, served_bind, served_lift]
  cases handle with
  | none => simp only [usbControlMsg_null, segfault_bind]
  | some h =>
    rw [usbControlMsg_in h rfl rfl rfl rfl, usbControlMsg_in h rfl rfl rfl rfl]
    simp [served_bind, blit_zero]

/-- What is not behind the pointers, and what is. -/
def ioCtrlOf (ctrl : UsbDevIoCtrl) : IoCtrl :=
  ⟨ctrl.handle, ctrl.inBuf.isSome, ctrl.outBuf.isSome, ctrl.inLen, ctrl.outLen,
    ctrl.bytesReturned⟩

def buffersOf (ctrl : UsbDevIoCtrl) : Buffers := ⟨ctrl.inBuf.getD [], ctrl.outBuf.getD []⟩

def replyOf (r : ℕ × UsbDevIoCtrl) : Reply × Buffers := ((r.1, r.2.bytesReturned), buffersOf r.2)

/-- Answered from the buffers the one is the other. -/
def Mirrored (p : IoCtrl → BufProgram Reply)
    (q : UsbDevIoCtrl → Program (ℕ × UsbDevIoCtrl)) : Prop :=
  ∀ ctrl, served Buffers.serve (buffersOf ctrl) (p (ioCtrlOf ctrl)) =
    q ctrl >>= fun r => .ret (replyOf r)

attribute [local simp] served_bind ioCtrlOf replyOf buffersOf refused ioctlResult
  AmlLibusb.ioctlResult

lemma readMem_mirrored : Mirrored ioctlReadMemHandler AmlLibusb.ioctlReadMemHandler := by
  rintro ⟨handle, _ | inBuf, _ | outBuf, inLen, outLen, bytesReturned⟩
  · rfl
  · rfl
  · rfl
  · by_cases h : inLen ≠ 4 ∨ outLen = 0 <;>
      simp [ioctlReadMemHandler, AmlLibusb.ioctlReadMemHandler, h]

lemma writeMem_mirrored : Mirrored ioctlWriteMemHandler AmlLibusb.ioctlWriteMemHandler := by
  rintro ⟨handle, _ | inBuf, outBuf, inLen, outLen, bytesReturned⟩
  · rfl
  · by_cases h : inLen ≤ 2 <;> simp [ioctlWriteMemHandler, AmlLibusb.ioctlWriteMemHandler, h]

lemma runInAddr_mirrored : Mirrored ioctlRunInAddrHandler AmlLibusb.ioctlRunInAddrHandler := by
  rintro ⟨handle, _ | inBuf, outBuf, inLen, outLen, bytesReturned⟩
  · rfl
  · have hfirst : (slice inBuf 0 1)[0]? = inBuf[0]? := by cases inBuf <;> rfl
    by_cases h : inLen ≠ 4 <;>
      simp [ioctlRunInAddrHandler, AmlLibusb.ioctlRunInAddrHandler, h, hfirst]

lemma doLargeMem_mirrored (doRead : Bool) : Mirrored (ioctlDoLargeMemHandler · doRead)
    (AmlLibusb.ioctlDoLargeMemHandler · doRead) := by
  rintro ⟨handle, _ | inBuf, outBuf, inLen, outLen, bytesReturned⟩
  · rfl
  · by_cases h : inLen < 16 <;> simp [ioctlDoLargeMemHandler, AmlLibusb.ioctlDoLargeMemHandler, h]

lemma identifyHost_mirrored :
    Mirrored ioctlIdentifyHostHandler AmlLibusb.ioctlIdentifyHostHandler := by
  rintro ⟨handle, inBuf, _ | outBuf, inLen, outLen, bytesReturned⟩
  · rfl
  · by_cases h : 8 < outLen <;>
      simp [ioctlIdentifyHostHandler, AmlLibusb.ioctlIdentifyHostHandler, h]

/-- What is printed changes nothing. -/
lemma served_print {c : Prop} [Decidable c] (p : BufProgram α) :
    served Buffers.serve m (if c then printIn 0 >>= fun _ => p else p) =
      served Buffers.serve m p := by
  split_ifs <;> rfl

lemma tplCmd_mirrored : Mirrored ioctlTplCmdHandler AmlLibusb.ioctlTplCmdHandler := by
  rintro ⟨handle, _ | inBuf, outBuf, inLen, outLen, bytesReturned⟩
  · rfl
  · by_cases h : inLen ≠ 68 <;>
      simp [ioctlTplCmdHandler, AmlLibusb.ioctlTplCmdHandler, h, served_print]

lemma tplStatus_mirrored (timeout : ℕ) : Mirrored (ioctlTplStatusHandlerEx · timeout)
    (AmlLibusb.ioctlTplStatusHandlerEx · timeout) := by
  rintro ⟨handle, _ | inBuf, _ | outBuf, inLen, outLen, bytesReturned⟩
  · rfl
  · rfl
  · rfl
  · by_cases h : inLen ≠ 4 ∨ outLen ≠ 64 <;>
      simp [ioctlTplStatusHandlerEx, AmlLibusb.ioctlTplStatusHandlerEx, h]

lemma writeMedia_mirrored (timeout : ℕ) : Mirrored (ioctlWriteMediaHandler · timeout)
    (AmlLibusb.ioctlWriteMediaHandler · timeout) := by
  rintro ⟨handle, _ | inBuf, outBuf, inLen, outLen, bytesReturned⟩
  · rfl
  · by_cases h : inLen < 32 <;>
      simp [ioctlWriteMediaHandler, AmlLibusb.ioctlWriteMediaHandler, h, setU32]

lemma readMedia_mirrored (timeout : ℕ) : Mirrored (ioctlReadMediaHandler · timeout)
    (AmlLibusb.ioctlReadMediaHandler · timeout) := by
  rintro ⟨handle, _ | inBuf, outBuf, inLen, outLen, bytesReturned⟩
  · rfl
  · by_cases h : inLen < 16 <;> simp [ioctlReadMediaHandler, AmlLibusb.ioctlReadMediaHandler, h]

lemma bulkCmd_mirrored (request : ℕ) : Mirrored (ioctlBulkCmdHandler · request)
    (AmlLibusb.ioctlBulkCmdHandler · request) := by
  rintro ⟨handle, _ | inBuf, outBuf, inLen, outLen, bytesReturned⟩
  · rfl
  · by_cases h : inLen ≠ 68 <;>
      simp [ioctlBulkCmdHandler, AmlLibusb.ioctlBulkCmdHandler, h, served_print]

/-- The accesses are those of the tool. -/
theorem ioControl_mirrored (drv : AmlUsbDrv) (code : Ioctl) (inBuf outBuf : Option Bytes)
    (inLen outLen bytesReturned : ℕ) :
    served Buffers.serve ⟨inBuf.getD [], outBuf.getD []⟩
        (usbDeviceIoControl drv code inBuf.isSome inLen outBuf.isSome outLen bytesReturned) =
      AmlLibusb.usbDeviceIoControl drv code inBuf inLen outBuf outLen bytesReturned >>=
        fun r => .ret (replyOf r) := by
  unfold usbDeviceIoControl AmlLibusb.usbDeviceIoControl
  by_cases hd : drv.device = .invalid
  · rw [if_pos hd, if_pos hd]
    rfl
  rw [if_neg hd, if_neg hd]
  cases code with
  | readMem => exact readMem_mirrored ⟨drv.handle, inBuf, outBuf, inLen, outLen, bytesReturned⟩
  | writeMem => exact writeMem_mirrored ⟨drv.handle, inBuf, outBuf, inLen, outLen, bytesReturned⟩
  | runInAddr => exact runInAddr_mirrored ⟨drv.handle, inBuf, outBuf, inLen, outLen, bytesReturned⟩
  | readLargeMem =>
    exact doLargeMem_mirrored true ⟨drv.handle, inBuf, outBuf, inLen, outLen, bytesReturned⟩
  | writeLargeMem =>
    exact doLargeMem_mirrored false ⟨drv.handle, inBuf, outBuf, inLen, outLen, bytesReturned⟩
  | identifyHost =>
    exact identifyHost_mirrored ⟨drv.handle, inBuf, outBuf, inLen, outLen, bytesReturned⟩
  | tplCmd => exact tplCmd_mirrored ⟨drv.handle, inBuf, outBuf, inLen, outLen, bytesReturned⟩
  | tplStatus =>
    exact tplStatus_mirrored 60 ⟨drv.handle, inBuf, outBuf, inLen, outLen, bytesReturned⟩
  | _ => rfl

theorem ioControlEx_mirrored (drv : AmlUsbDrv) (code : Ioctl) (inBuf outBuf : Option Bytes)
    (inLen outLen bytesReturned timeout : ℕ) :
    served Buffers.serve ⟨inBuf.getD [], outBuf.getD []⟩
        (usbDeviceIoControlEx drv code inBuf.isSome inLen outBuf.isSome outLen bytesReturned
          timeout) =
      AmlLibusb.usbDeviceIoControlEx drv code inBuf inLen outBuf outLen bytesReturned timeout >>=
        fun r => .ret (replyOf r) := by
  unfold usbDeviceIoControlEx AmlLibusb.usbDeviceIoControlEx
  by_cases hd : drv.device = .invalid
  · rw [if_pos hd, if_pos hd]
    rfl
  rw [if_neg hd, if_neg hd]
  cases code with
  | writeMem => exact writeMem_mirrored ⟨drv.handle, inBuf, outBuf, inLen, outLen, bytesReturned⟩
  | tplStatus =>
    exact tplStatus_mirrored timeout ⟨drv.handle, inBuf, outBuf, inLen, outLen, bytesReturned⟩
  | writeMedia =>
    exact writeMedia_mirrored timeout ⟨drv.handle, inBuf, outBuf, inLen, outLen, bytesReturned⟩
  | readMedia =>
    exact readMedia_mirrored timeout ⟨drv.handle, inBuf, outBuf, inLen, outLen, bytesReturned⟩
  | bulkCmd1 =>
    exact bulkCmd_mirrored 0x34 ⟨drv.handle, inBuf, outBuf, inLen, outLen, bytesReturned⟩
  | bulkCmd2 =>
    exact bulkCmd_mirrored 0x35 ⟨drv.handle, inBuf, outBuf, inLen, outLen, bytesReturned⟩
  | _ => rfl

end Served

/-! ### What is claimed of a request -/

/-- The length of the string at the start of `buf`. -/
def strlen (buf : Bytes) : ℕ := (buf.takeWhile (· ≠ 0)).length

/-- The bytes of the input that an access reads; of a string also the final zero. -/
def Reads (m : Buffers) : Access → ℕ → Prop
  | .read pos len, i => pos ≤ i ∧ i < pos + len
  | .text pos, i => pos ≤ i ∧ i ≤ pos + strlen (m.input.drop pos)
  | .write _ _ _, _ => False

/-- The bytes of the output that an access writes. -/
def Writes : Access → ℕ → Prop
  | .write .output pos data, i => pos ≤ i ∧ i < pos + data.length
  | _, _ => False

def InBounds (inLen outLen : ℕ) (m : Buffers) (a : Access) : Prop :=
  (∀ i, Reads m a i → i < inLen) ∧ ∀ i, Writes a i → i < outLen

/-- Where the data of a transfer to the device begins: past the address to write to. -/
def dataFrom : Ioctl → ℕ
  | .writeMem => 4
  | _ => 0

/-- A transfer to the device takes no more than follows what has been consumed. -/
def Available (consumed inLen : ℕ) : Op → Prop
  | .controlOut _ s _ _ => s.wLength ≤ inLen - consumed
  | _ => True

/-- All that a request does to its buffers is covered by the declared lengths. -/
def Contained {α : Type} (consumed inLen outLen : ℕ) (Q : Buffers → α → Prop) (m : Buffers)
    (p : BufProgram α) : Prop :=
  Stays Buffers.serve (Available consumed inLen) (InBounds inLen outLen) Q m p

section Contained

variable {consumed inLen outLen : ℕ} {m : Buffers}

lemma inBounds_read {pos len : ℕ} :
    InBounds inLen outLen m (.read pos len) ↔ len = 0 ∨ pos + len ≤ inLen := by
  simp only [InBounds, Reads, Writes, false_implies, implies_true, and_true]
  constructor
  · intro h
    by_contra hc
    have := h (pos + len - 1) (by omega)
    omega
  · intro h i hi
    omega

lemma inBounds_text {pos : ℕ} :
    InBounds inLen outLen m (.text pos) ↔ pos + strlen (m.input.drop pos) < inLen := by
  simp only [InBounds, Reads, Writes, false_implies, implies_true, and_true]
  constructor
  · exact fun h => h _ ⟨Nat.le_add_right _ _, le_rfl⟩
  · exact fun h i hi => by omega

lemma inBounds_writeIn {pos : ℕ} {data : Bytes} :
    InBounds inLen outLen m (.write .input pos data) := ⟨nofun, nofun⟩

lemma inBounds_writeOut {pos : ℕ} {data : Bytes} (h : pos + data.length ≤ outLen) :
    InBounds inLen outLen m (.write .output pos data) :=
  ⟨nofun, fun i (hi : pos ≤ i ∧ i < pos + data.length) => by omega⟩

lemma contained_bind {α β : Type} {Q : Buffers → β → Prop} {p : BufProgram α}
    {f : α → BufProgram β} :
    Contained consumed inLen outLen Q m (p >>= f) ↔
      Contained consumed inLen outLen
        (fun m' a => Contained consumed inLen outLen Q m' (f a)) m p := stays_bind

lemma contained_pure {α : Type} {Q : Buffers → α → Prop} {a : α} :
    Contained consumed inLen outLen Q m (pure a) ↔ Q m a := Iff.rfl

lemma contained_readIn {Q : Buffers → Bytes → Prop} {pos len : ℕ} :
    Contained consumed inLen outLen Q m (readIn pos len) ↔
      (len = 0 ∨ pos + len ≤ inLen) ∧ Q m (slice m.input pos len) := by
  have hread : InBounds inLen outLen m (.read pos len) ↔ _ := inBounds_read
  rw [← hread]
  rfl

lemma contained_readU16 {Q : Buffers → ℕ → Prop} {pos : ℕ} :
    Contained consumed inLen outLen Q m (readU16 pos) ↔
      pos + 2 ≤ inLen ∧ Q m (getU16 m.input pos) := by
  rw [readU16, contained_bind, contained_readIn, ← getU16_slice m.input (n := 2) (by omega)]
  exact and_congr_left fun _ => by omega

lemma contained_readU32 {Q : Buffers → ℕ → Prop} {pos : ℕ} :
    Contained consumed inLen outLen Q m (readU32 pos) ↔
      pos + 4 ≤ inLen ∧ Q m (getU32 m.input pos) := by
  rw [readU32, contained_bind, contained_readIn, ← getU32_slice m.input (n := 4) (by omega)]
  exact and_congr_left fun _ => by omega

lemma contained_readBlockLen {Q : Buffers → ℕ → Prop} :
    Contained consumed inLen outLen Q m (readBlockLen inLen) ↔
      ¬ (16 < inLen ∧ inLen < 66) ∧ Q m (AmlLibusb.blockLen m.input inLen) := by
  unfold readBlockLen AmlLibusb.blockLen
  by_cases h : 16 < inLen
  · rw [if_pos h, if_pos h, contained_bind, contained_readU16]
    exact and_congr (by omega) Iff.rfl
  · rw [if_neg h, if_neg h]
    exact ⟨fun hq => ⟨fun hc => h hc.1, hq⟩, fun hq => hq.2⟩

lemma contained_printIn {Q : Buffers → Unit → Prop} :
    Contained consumed inLen outLen Q m (printIn 0) ↔ strlen m.input < inLen ∧ Q m () := by
  have htext : InBounds inLen outLen m (.text 0) ↔ _ := inBounds_text
  rw [Nat.zero_add, List.drop_zero] at htext
  rw [← htext]
  rfl

lemma contained_writeIn {Q : Buffers → Unit → Prop} {pos : ℕ} {data : Bytes} :
    Contained consumed inLen outLen Q m (writeTo .input pos data) ↔
      Q ⟨blit m.input pos data, m.output⟩ () := ⟨fun h => h.2, fun h => ⟨inBounds_writeIn, h⟩⟩

/-- The transfer may end in any way. -/
lemma contained_controlOut {Q : Buffers → ℤ → Prop} {handle : Option Handle} {bRequest pos : ℕ}
    {wValue wIndex size timeout : ℤ} :
    Contained consumed inLen outLen Q m
        (controlOut handle bRequest wValue wIndex pos size timeout) ↔
      ∀ h, handle = some h → (u16 size = 0 ∨ pos + u16 size ≤ inLen) ∧
        u16 size ≤ inLen - consumed ∧
        ∀ r : OutResult (u16 size), Q m (usbControlResult r.status r.actual) := by
  cases handle with
  | none => exact ⟨fun _ => nofun, fun _ => ⟨trivial, fun e => e.elim⟩⟩
  | some h =>
    have hmsg : ∀ data : Bytes, usbControlMsg (some h) vendorOut bRequest wValue wIndex data size
        timeout = .call (.controlOut h ⟨0x40, bRequest % 2 ^ 8, u16 wValue, u16 wIndex, u16 size⟩
          (data.take (u16 size)) timeout) fun r : OutResult (u16 size) =>
            .ret (usbControlResult r.status r.actual, data) :=
      fun data => usbControlMsg_out h rfl rfl rfl rfl rfl timeout
    have hone : Contained consumed inLen outLen Q m
        (controlOut (some h) bRequest wValue wIndex pos size timeout) ↔
        (u16 size = 0 ∨ pos + u16 size ≤ inLen) ∧ u16 size ≤ inLen - consumed ∧
          ∀ r : OutResult (u16 size), Q m (usbControlResult r.status r.actual) := by
      simp only [controlOut, contained_bind, contained_readIn, hmsg]
      rfl
    rw [hone]
    constructor
    · intro hc h' he
      exact hc
    · exact fun hc => hc h rfl

/-- The answer fits if so much was asked for. -/
lemma contained_controlIn {Q : Buffers → ℤ → Prop} {handle : Option Handle} {bRequest : ℕ}
    {wValue wIndex size timeout : ℤ} {buffer : Buffer} (hQ : ∀ m ret, Q m ret)
    (hsize : buffer = .output → u16 size ≤ outLen) :
    Contained consumed inLen outLen Q m
      (controlIn handle bRequest wValue wIndex buffer size timeout) := by
  cases handle with
  | none => exact ⟨trivial, fun e => e.elim⟩
  | some h =>
    have hmsg : usbControlMsg (some h) vendorIn bRequest wValue wIndex [] size timeout =
        .call (.controlIn h ⟨0xC0, bRequest % 2 ^ 8, u16 wValue, u16 wIndex, u16 size⟩ timeout)
          fun r : InResult (u16 size) =>
            .ret (usbControlResult r.status r.data.1.length, blit [] 0 r.data.1) :=
      usbControlMsg_in h rfl rfl rfl rfl timeout
    rw [controlIn, hmsg]
    refine ⟨trivial, fun r => ⟨?_, hQ _ _⟩⟩
    have hlen : (blit [] 0 r.data.1).length ≤ u16 size := by
      rw [blit_zero, List.drop_nil, List.append_nil]
      exact r.data.2
    cases buffer with
    | input => exact inBounds_writeIn
    | output => exact inBounds_writeOut ((Nat.zero_add _).le.trans (hlen.trans (hsize rfl)))

end Contained

/-! ### The handlers one by one -/

/-- Whatever is returned. -/
abbrev Any {α : Type} : Buffers → α → Prop := fun _ _ => True

section Handlers

variable {m : Buffers} (ctrl : IoCtrl)

lemma readMem_contained :
    Contained 0 ctrl.inLen ctrl.outLen Any m (ioctlReadMemHandler ctrl) := by
  unfold ioctlReadMemHandler
  split_ifs with h
  · trivial
  push Not at h
  have hsize : u16 (min ctrl.outLen 64 : ℕ) ≤ ctrl.outLen := by rw [u16_natCast]; omega
  simp only [contained_bind, contained_readU16]
  refine ⟨by omega, by omega, ?_⟩
  exact contained_controlIn (fun _ _ => trivial) fun _ => hsize

/-- Three bytes pass for an address. -/
lemma writeMem_contained :
    Contained 4 ctrl.inLen ctrl.outLen Any m (ioctlWriteMemHandler ctrl) ↔
      ¬ (ctrl.hasIn = true ∧ ctrl.inLen = 3) := by
  unfold ioctlWriteMemHandler
  split_ifs with h
  · refine iff_of_true trivial ?_
    rintro ⟨hin, hlen⟩
    rw [hin, hlen] at h
    simp at h
  push Not at h
  have hin : ctrl.hasIn = true := by simpa using h.1
  have hsize : 3 < ctrl.inLen → u16 (min (u32 ((ctrl.inLen : ℤ) - 4)) 64 : ℕ) ≤ ctrl.inLen - 4 := by
    intro h3
    rw [u16_natCast]
    unfold u32
    omega
  simp only [contained_bind, contained_readU16, contained_controlOut, contained_pure, Any,
    implies_true, and_true, hin, true_and]
  constructor
  · rintro ⟨h3, -⟩ he
    omega
  · intro h3
    have hle := hsize (by omega)
    exact ⟨by omega, by omega, fun _ _ => ⟨by omega, hle⟩⟩

lemma runInAddr_contained :
    Contained 0 ctrl.inLen ctrl.outLen Any m (ioctlRunInAddrHandler ctrl) := by
  unfold ioctlRunInAddrHandler
  split_ifs with h
  · trivial
  push Not at h
  have hsize : u16 4 = 4 := by decide
  simp only [contained_bind, contained_readU16, contained_readIn, contained_writeIn,
    contained_controlOut, contained_pure, Any, implies_true, and_true, hsize]
  exact ⟨by omega, by omega, by omega, fun _ _ => by omega⟩

/-- With a part of the padding declared the word at 64 is read all the same. -/
lemma doLargeMem_contained (doRead : Bool) :
    Contained 0 ctrl.inLen ctrl.outLen Any m (ioctlDoLargeMemHandler ctrl doRead) ↔
      ¬ (ctrl.hasIn = true ∧ 16 < ctrl.inLen ∧ ctrl.inLen < 66) := by
  unfold ioctlDoLargeMemHandler
  by_cases h : ctrl.hasIn = false ∨ ctrl.inLen < 16
  · rw [if_pos h]
    refine iff_of_true trivial ?_
    rintro ⟨hin, hlen⟩
    rw [hin] at h
    simp at h
    omega
  rw [if_neg h]
  push Not at h
  have hin : ctrl.hasIn = true := by simpa using h.1
  have hsize : u16 16 = 16 := by decide
  simp only [contained_bind, contained_readBlockLen, contained_readU32, contained_controlOut,
    contained_pure, Any, implies_true, and_true, hin, true_and, hsize]
  exact ⟨fun hc => hc.1, fun hc => ⟨hc, by omega, fun _ _ => by omega⟩⟩

lemma identifyHost_contained :
    Contained 0 ctrl.inLen ctrl.outLen Any m (ioctlIdentifyHostHandler ctrl) := by
  unfold ioctlIdentifyHostHandler
  split_ifs with h
  · trivial
  push Not at h
  have hsize : u16 (ctrl.outLen : ℤ) ≤ ctrl.outLen := by rw [u16_natCast]; omega
  rw [contained_bind]
  exact contained_controlIn (fun _ _ => trivial) fun _ => hsize

/-- The end of a command: 64 bytes of data and, if the transfer fails, the text printed. -/
lemma command_contained {handle : Option Handle} {bRequest outLen : ℕ} {wValue wIndex : ℤ} :
    Contained 0 68 outLen Any m (do
        let ret ← controlOut handle bRequest wValue wIndex 0 64 50000
        if ret < 0 then printIn 0
        pure (ioctlResult ret)) ↔ ¬ (handle ≠ none ∧ 68 ≤ strlen m.input) := by
  have hsize : u16 64 = 64 := by decide
  have hprint : ∀ ret : ℤ, Contained 0 68 outLen Any m
      (if ret < 0 then printIn 0 >>= fun _ => pure (ioctlResult ret) else pure (ioctlResult ret)) ↔
      (ret < 0 → strlen m.input < 68) := by
    intro ret
    by_cases h : ret < 0
    · rw [if_pos h, contained_bind, contained_printIn]
      exact ⟨fun hc _ => hc.1, fun hc => ⟨hc h, trivial⟩⟩
    · rw [if_neg h]
      exact ⟨fun _ hlt => absurd hlt h, fun _ => trivial⟩
  rw [contained_bind, contained_controlOut]
  constructor
  · rintro hc ⟨hh, hlen⟩
    obtain ⟨h, rfl⟩ := Option.ne_none_iff_exists'.mp hh
    obtain ⟨-, -, hr⟩ := hc h rfl
    -- any error will do
    have hio := (hprint _).mp (hr ⟨some .io, 0⟩) (compatErr_neg .io)
    omega
  · rintro hc h rfl
    refine ⟨by omega, by omega, fun r => (hprint _).mpr fun _ => ?_⟩
    by_contra hlen
    exact hc ⟨nofun, by omega⟩

lemma tplCmd_contained :
    Contained 0 ctrl.inLen ctrl.outLen Any m (ioctlTplCmdHandler ctrl) ↔
      ¬ (ctrl.hasIn = true ∧ ctrl.inLen = 68 ∧ ctrl.handle ≠ none ∧ 68 ≤ strlen m.input) := by
  unfold ioctlTplCmdHandler
  by_cases h : ctrl.hasIn = false ∨ ctrl.inLen ≠ 68
  · rw [if_pos h]
    refine iff_of_true trivial ?_
    rintro ⟨hin, hlen, -⟩
    rw [hin, hlen] at h
    simp at h
  rw [if_neg h]
  push Not at h
  have hin : ctrl.hasIn = true := by simpa using h.1
  rw [h.2]
  simp only [contained_bind, contained_readU16, hin, true_and]
  rw [← command_contained]
  simp only [contained_bind]
  exact ⟨fun hc => hc.2.2, fun hc => ⟨by omega, by omega, hc⟩⟩

lemma bulkCmd_contained (request : ℕ) :
    Contained 0 ctrl.inLen ctrl.outLen Any m (ioctlBulkCmdHandler ctrl request) ↔
      ¬ (ctrl.hasIn = true ∧ ctrl.inLen = 68 ∧ ctrl.handle ≠ none ∧ 68 ≤ strlen m.input) := by
  unfold ioctlBulkCmdHandler
  by_cases h : ctrl.hasIn = false ∨ ctrl.inLen ≠ 68
  · rw [if_pos h]
    refine iff_of_true trivial ?_
    rintro ⟨hin, hlen, -⟩
    rw [hin, hlen] at h
    simp at h
  rw [if_neg h]
  push Not at h
  have hin : ctrl.hasIn = true := by simpa using h.1
  rw [h.2, hin]
  simp only [true_and]
  exact command_contained

lemma tplStatus_contained (timeout : ℕ) :
    Contained 0 ctrl.inLen ctrl.outLen Any m (ioctlTplStatusHandlerEx ctrl timeout) := by
  unfold ioctlTplStatusHandlerEx
  by_cases h : ctrl.hasIn = false ∨ ctrl.hasOut = false ∨ ctrl.inLen ≠ 4 ∨ ctrl.outLen ≠ 64
  · rw [if_pos h]
    trivial
  rw [if_neg h]
  push Not at h
  have hsize : u16 64 ≤ ctrl.outLen := by rw [h.2.2.2]; decide
  simp only [contained_bind, contained_readU16]
  refine ⟨by omega, by omega, ?_⟩
  exact contained_controlIn (fun _ _ => trivial) fun _ => hsize

lemma writeMedia_contained (timeout : ℕ) :
    Contained 0 ctrl.inLen ctrl.outLen Any m (ioctlWriteMediaHandler ctrl timeout) := by
  unfold ioctlWriteMediaHandler
  by_cases h : ctrl.hasIn = false ∨ ctrl.inLen < 32
  · rw [if_pos h]
    trivial
  rw [if_neg h]
  push Not at h
  have hsize : u16 32 = 32 := by decide
  simp only [contained_bind, contained_writeIn, contained_controlOut, contained_pure, Any,
    implies_true, and_true, hsize]
  exact fun _ _ => by omega

lemma readMedia_contained (timeout : ℕ) :
    Contained 0 ctrl.inLen ctrl.outLen Any m (ioctlReadMediaHandler ctrl timeout) ↔
      ¬ (ctrl.hasIn = true ∧ 16 < ctrl.inLen ∧ ctrl.inLen < 66) := by
  unfold ioctlReadMediaHandler
  by_cases h : ctrl.hasIn = false ∨ ctrl.inLen < 16
  · rw [if_pos h]
    refine iff_of_true trivial ?_
    rintro ⟨hin, hlen⟩
    rw [hin] at h
    simp at h
    omega
  rw [if_neg h]
  push Not at h
  have hin : ctrl.hasIn = true := by simpa using h.1
  simp only [contained_bind, contained_readBlockLen, contained_readU32, hin, true_and]
  refine ⟨fun hc => hc.1, fun hc => ⟨hc, by omega, ?_⟩⟩
  exact contained_controlIn (fun _ _ => trivial) nofun

end Handlers

/-! ### The dispatchers -/

/-- The requests that reach past what was declared, by the handler they get. -/
def Oversteps (handle : Option Handle) (inBuf : Bytes) (inLen : ℕ) : Ioctl → Prop
  | .writeMem => inLen = 3
  | .readLargeMem => 16 < inLen ∧ inLen < 66
  | .writeLargeMem => 16 < inLen ∧ inLen < 66
  | .tplCmd => inLen = 68 ∧ handle ≠ none ∧ 68 ≤ strlen inBuf
  | _ => False

def OverstepsEx (handle : Option Handle) (inBuf : Bytes) (inLen : ℕ) : Ioctl → Prop
  | .writeMem => inLen = 3
  | .readMedia => 16 < inLen ∧ inLen < 66
  | .bulkCmd1 => inLen = 68 ∧ handle ≠ none ∧ 68 ≤ strlen inBuf
  | .bulkCmd2 => inLen = 68 ∧ handle ≠ none ∧ 68 ≤ strlen inBuf
  | _ => False

lemma ioControl_contained (drv : AmlUsbDrv) (code : Ioctl) (inBuf outBuf : Option Bytes)
    (inLen outLen bytesReturned : ℕ) :
    Contained (dataFrom code) inLen outLen Any ⟨inBuf.getD [], outBuf.getD []⟩
        (usbDeviceIoControl drv code inBuf.isSome inLen outBuf.isSome outLen bytesReturned) ↔
      ¬ (drv.device ≠ .invalid ∧ inBuf.isSome = true ∧
        Oversteps drv.handle (inBuf.getD []) inLen code) := by
  unfold usbDeviceIoControl
  dsimp only
  by_cases hd : drv.device = .invalid
  · rw [if_pos hd]
    exact iff_of_true trivial fun hc => hc.1 hd
  rw [if_neg hd]
  simp only [ne_eq, hd, not_false_eq_true, true_and]
  let ctrl : IoCtrl := ⟨drv.handle, inBuf.isSome, outBuf.isSome, inLen, outLen, bytesReturned⟩
  cases code with
  | writeMem => exact writeMem_contained ctrl
  | readLargeMem => exact doLargeMem_contained ctrl true
  | writeLargeMem => exact doLargeMem_contained ctrl false
  | tplCmd => exact tplCmd_contained ctrl
  | readMem => exact iff_of_true (readMem_contained ctrl) fun hc => hc.2
  | runInAddr => exact iff_of_true (runInAddr_contained ctrl) fun hc => hc.2
  | identifyHost => exact iff_of_true (identifyHost_contained ctrl) fun hc => hc.2
  | tplStatus => exact iff_of_true (tplStatus_contained ctrl 60) fun hc => hc.2
  | _ => exact iff_of_true trivial fun hc => hc.2

lemma ioControlEx_contained (drv : AmlUsbDrv) (code : Ioctl) (inBuf outBuf : Option Bytes)
    (inLen outLen bytesReturned timeout : ℕ) :
    Contained (dataFrom code) inLen outLen Any ⟨inBuf.getD [], outBuf.getD []⟩
        (usbDeviceIoControlEx drv code inBuf.isSome inLen outBuf.isSome outLen bytesReturned
          timeout) ↔
      ¬ (drv.device ≠ .invalid ∧ inBuf.isSome = true ∧
        OverstepsEx drv.handle (inBuf.getD []) inLen code) := by
  unfold usbDeviceIoControlEx
  dsimp only
  by_cases hd : drv.device = .invalid
  · rw [if_pos hd]
    exact iff_of_true trivial fun hc => hc.1 hd
  rw [if_neg hd]
  simp only [ne_eq, hd, not_false_eq_true, true_and]
  let ctrl : IoCtrl := ⟨drv.handle, inBuf.isSome, outBuf.isSome, inLen, outLen, bytesReturned⟩
  cases code with
  | writeMem => exact writeMem_contained ctrl
  | readMedia => exact readMedia_contained ctrl timeout
  | bulkCmd1 => exact bulkCmd_contained ctrl 0x34
  | bulkCmd2 => exact bulkCmd_contained ctrl 0x35
  | tplStatus => exact iff_of_true (tplStatus_contained ctrl timeout) fun hc => hc.2
  | writeMedia => exact iff_of_true (writeMedia_contained ctrl timeout) fun hc => hc.2
  | _ => exact iff_of_true trivial fun hc => hc.2

/-- **Requests are contained** in the declared lengths but for the four kinds named above. -/
theorem contained_iff (drv : AmlUsbDrv) (code : Ioctl) (inBuf outBuf : Option Bytes)
    (inLen outLen bytesReturned timeout : ℕ) :
    (Contained (dataFrom code) inLen outLen Any ⟨inBuf.getD [], outBuf.getD []⟩
        (usbDeviceIoControl drv code inBuf.isSome inLen outBuf.isSome outLen bytesReturned) ↔
      ¬ (drv.device ≠ .invalid ∧ inBuf.isSome = true ∧
        Oversteps drv.handle (inBuf.getD []) inLen code)) ∧
    (Contained (dataFrom code) inLen outLen Any ⟨inBuf.getD [], outBuf.getD []⟩
        (usbDeviceIoControlEx drv code inBuf.isSome inLen outBuf.isSome outLen bytesReturned
          timeout) ↔
      ¬ (drv.device ≠ .invalid ∧ inBuf.isSome = true ∧
        OverstepsEx drv.handle (inBuf.getD []) inLen code)) :=
  ⟨ioControl_contained drv code inBuf outBuf inLen outLen bytesReturned,
    ioControlEx_contained drv code inBuf outBuf inLen outLen bytesReturned timeout⟩

/-- An address of three bytes, a header with four bytes of padding, a command without a zero. -/
theorem not_contained :
    ¬ Contained (dataFrom .writeMem) 3 0 Any ⟨[1, 2, 3], []⟩
        (usbDeviceIoControl ⟨.dev 0, some 0, 0, 0⟩ .writeMem true 3 false 0 0) ∧
      ¬ Contained (dataFrom .readLargeMem) 20 0 Any ⟨List.replicate 20 0, []⟩
        (usbDeviceIoControl ⟨.dev 0, some 0, 0, 0⟩ .readLargeMem true 20 false 0 0) ∧
      ¬ Contained (dataFrom .tplCmd) 68 0 Any ⟨List.replicate 68 65, []⟩
        (usbDeviceIoControl ⟨.dev 0, some 0, 0, 0⟩ .tplCmd true 68 false 0 0) := by
  have hlen : 68 ≤ strlen (List.replicate 68 65) := by decide
  refine ⟨?_, ?_, ?_⟩
  · intro h
    have hno := (ioControl_contained ⟨.dev 0, some 0, 0, 0⟩ .writeMem (some [1, 2, 3]) none 3 0
      0).mp h
    exact hno ⟨nofun, rfl, rfl⟩
  · intro h
    have hno := (ioControl_contained ⟨.dev 0, some 0, 0, 0⟩ .readLargeMem
      (some (List.replicate 20 0)) none 20 0 0).mp h
    exact hno ⟨nofun, rfl, by decide, by decide⟩
  · intro h
    have hno := (ioControl_contained ⟨.dev 0, some 0, 0, 0⟩ .tplCmd
      (some (List.replicate 68 65)) none 68 0 0).mp h
    exact hno ⟨nofun, rfl, rfl, nofun, hlen⟩

end AmlogicUpdate.Bounds

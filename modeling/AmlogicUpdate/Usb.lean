import AmlogicUpdate.Interaction
import AmlogicUpdate.CData

/-!
The outside world of the tool, and `usbcompat.h`, the libusb-0.1 calls built on libusb-1.0.

A call is one request to libusb, to a file or to the clock, together with what the program
hands over; its answer is what comes back. Answers are typed by what libusb promises: a
transfer of `n` bytes moves at most `n`. Contents of files that are read are a parameter of
the programs; whether opening and reading them succeeds is up to the environment.
-/

namespace AmlogicUpdate.Usb

open Interaction CData

/-- The error codes of libusb-1.0. -/
inductive LibusbError
  | io | invalidParam | access | noDevice | notFound | busy | timeout | overflow | pipe
  | interrupted | noMem | notSupported | other
  deriving DecidableEq

def libusbToErrno : LibusbError → ℤ
  | .io => 5
  | .invalidParam => 22
  | .access => 13
  | .noDevice => 6
  | .notFound => 2
  | .busy => 16
  | .timeout => 110
  | .overflow => 75
  | .pipe => 32
  | .interrupted => 4
  | .noMem => 12
  | .notSupported => 38
  | .other => 34

def compatErr (e : LibusbError) : ℤ := -libusbToErrno e

lemma compatErr_neg (e : LibusbError) : compatErr e < 0 := by cases e <;> decide

/-- A `struct usb_device *`: `NULL`, `INVALID_HANDLE_VALUE`, or a device. -/
inductive Device
  | null
  | invalid
  | dev (n : ℕ)
  deriving DecidableEq

lemma dev_ne_null (n : ℕ) : Device.dev n ≠ .null := nofun
lemma dev_ne_invalid (n : ℕ) : Device.dev n ≠ .invalid := nofun

/-- An open device; a `usb_dev_handle *` is an `Option Handle`, `NULL` being `none`. -/
abbrev Handle : Type := ℕ

/-- The setup packet of a control transfer. -/
structure Setup where
  bmRequestType : ℕ
  bRequest : ℕ
  wValue : ℕ
  wIndex : ℕ
  wLength : ℕ
  deriving DecidableEq

/-- The outcome of sending at most `n` bytes: `none` is `LIBUSB_SUCCESS`. -/
structure OutResult (n : ℕ) where
  status : Option LibusbError
  actual : Fin (n + 1)

/-- The outcome of asking for at most `n` bytes, with the bytes put in the buffer. -/
structure InResult (n : ℕ) where
  status : Option LibusbError
  data : { l : Bytes // l.length ≤ n }

/-- What the program asks of the world. A `usb_*` function given a `NULL` handle reads
through it; that call has no answer. -/
inductive Op
  | libusbOpen (dev : Device)
  | libusbClose (h : Handle)
  | libusbReset (h : Handle)
  | nullHandle
  | controlOut (h : Handle) (setup : Setup) (data : Bytes) (timeout : ℤ)
  | controlIn (h : Handle) (setup : Setup) (timeout : ℤ)
  | bulkOut (h : Handle) (ep : ℕ) (data : Bytes) (length : ℕ) (timeout : ℤ)
  | bulkIn (h : Handle) (ep : ℕ) (length : ℕ) (timeout : ℤ)
  | fopen (path : Bytes) (write : Bool)
  | fread (want avail : ℕ)
  | fwrite (data : Bytes)
  | clock
  deriving DecidableEq

@[reducible] def Resp : Op → Type
  | .libusbOpen _ => Option Handle
  | .libusbClose _ => Unit
  | .libusbReset _ => Option LibusbError
  | .nullHandle => Empty
  | .controlOut _ s _ _ => OutResult s.wLength
  | .controlIn _ s _ => InResult s.wLength
  | .bulkOut _ _ _ n _ => OutResult n
  | .bulkIn _ _ n _ => InResult n
  | .fopen _ _ => Bool
  | .fread want avail => Fin (min want avail + 1)
  | .fwrite data => Fin (data.length + 1)
  | .clock => ℤ

abbrev Program (α : Type) : Type := Prog Resp α
abbrev Event : Type := Ev Resp
abbrev Trace : Type := List Event

/-! ### `usbcompat.h` -/

def usbEndpointIn : ℕ := 0x80
def usbEndpointOut : ℕ := 0x00
def usbTypeVendor : ℕ := 0x40

/-- The end of a program that reads through a `NULL` handle. -/
def segfault {α : Type} : Program α := .call .nullHandle fun e : Empty => nomatch e

def usbOpen (dev : Device) : Program (Option Handle) := .call (.libusbOpen dev) .ret

def usbClose : Option Handle → Program Unit
  | none => segfault
  | some h => .call (.libusbClose h) .ret

def usbReset : Option Handle → Program ℤ
  | none => segfault
  | some h => .call (.libusbReset h) fun r : Option LibusbError => .ret (match r with
    | none => 0
    | some e => compatErr e)

/-- The result of `usb_bulk_io`: a time-out that moved data is a short transfer. -/
def usbBulkIo (status : Option LibusbError) (actual : ℕ) : ℤ :=
  match status with
  | none => actual
  | some .timeout => if 0 < actual then actual else compatErr .timeout
  | some e => compatErr e

/-- The buffer after a transfer into it, with the returned length. -/
def usbBulkRead (dev : Option Handle) (ep : ℕ) (bytes : Bytes) (size : ℕ) (timeout : ℤ) :
    Program (ℤ × Bytes) :=
  match dev with
  | none => segfault
  | some h => .call (.bulkIn h (ep ||| usbEndpointIn) size timeout)
      fun r : InResult size => .ret (usbBulkIo r.status r.data.1.length, blit bytes 0 r.data.1)

def usbBulkWrite (dev : Option Handle) (ep : ℕ) (bytes : Bytes) (size : ℕ) (timeout : ℤ) :
    Program ℤ :=
  match dev with
  | none => segfault
  | some h => .call (.bulkOut h (ep &&& 0x7F) (bytes.take size) size timeout)
      fun r : OutResult size => .ret (usbBulkIo r.status r.actual)

/-- The result of `usb_control_msg`. -/
def usbControlResult (status : Option LibusbError) (actual : ℕ) : ℤ :=
  match status with
  | none => actual
  | some e => compatErr e

/-- `usb_control_msg`, a request to the host or, without the direction bit, to the device.
The fields of the setup packet are cut to their widths. -/
def usbControlMsg (dev : Option Handle) (bmRequestType bRequest : ℕ) (wValue wIndex : ℤ)
    (bytes : Bytes) (size : ℤ) (timeout : ℤ) : Program (ℤ × Bytes) :=
  match dev with
  | none => segfault
  | some h =>
    let setup : Setup :=
      ⟨bmRequestType % 2 ^ 8, bRequest % 2 ^ 8, u16 wValue, u16 wIndex, u16 size⟩
    if bmRequestType.testBit 7 then
      .call (.controlIn h setup timeout) fun r : InResult (u16 size) =>
        .ret (usbControlResult r.status r.data.1.length, blit bytes 0 r.data.1)
    else
      .call (.controlOut h setup (bytes.take (u16 size)) timeout)
        fun r : OutResult (u16 size) => .ret (usbControlResult r.status r.actual, bytes)

/-! ### Files and the clock -/

/-- A stream open for reading: the contents of the file and the position in it. -/
structure File where
  content : Bytes
  pos : ℕ

/-- What the files hold that can be opened for reading. -/
abbrev Files : Type := Bytes → Bytes

def fopenRead (files : Files) (path : Bytes) : Program (Option File) :=
  .call (.fopen path false) fun ok : Bool => .ret (if ok then some ⟨files path, 0⟩ else none)

def fopenWrite (path : Bytes) : Program Bool := .call (.fopen path true) .ret

/-- The next at most `n` bytes of the file; fewer at its end or on an error. -/
def fread (f : File) (n : ℕ) : Program (Bytes × File) :=
  .call (.fread n (f.content.length - f.pos))
    fun k : Fin (min n (f.content.length - f.pos) + 1) =>
      .ret (slice f.content f.pos k, { f with pos := f.pos + k })

def fwrite (data : Bytes) : Program ℕ :=
  .call (.fwrite data) fun k : Fin (data.length + 1) => .ret k

/-- `fseek` to a position counted from the start; a negative one leaves the stream alone. -/
def fseekSet (f : File) (offset : ℤ) : File :=
  if 0 ≤ offset then { f with pos := offset.toNat } else f

def timeGetTime : Program ℤ := .call .clock .ret

def getTickCount : Program ℤ := timeGetTime

end AmlogicUpdate.Usb

import AmlogicUpdate.Scan
import AmlogicUpdate.TwoKinds

/-!
What the tool asks of its surroundings besides transfers and files: which devices are
attached, what stands on the command line, a key from the terminal.

Two kinds of mistakes are calls as well. Reading an element of `argv` as a string is
recorded, and going past the end of a local array has no answer.
-/

namespace AmlogicUpdate.Host

open Interaction CData Usb Scan

inductive Query
  | scan
  | argv (i : ℕ)
  | scanf
  | overrun
  deriving DecidableEq

@[reducible] def Answer : Query → Type
  | .scan => List UsbBus
  | .argv _ => Unit
  | .scanf => UInt8
  | .overrun => Empty

abbrev HostOp : Type := Op ⊕ Query
abbrev HostResp : HostOp → Type := Either Resp Answer
abbrev HostProgram (α : Type) : Type := Prog HostResp α
abbrev HostTrace : Type := List (Ev HostResp)

/-- The transfers and files of the tool. -/
abbrev usb {α : Type} (p : Program α) : HostProgram α := left p

/-- The end of a program that reads or writes outside a local array. -/
def overrun {α : Type} : HostProgram α := .call (.inr .overrun) fun e : Empty => nomatch e

/-! ### Scans -/

def scanX3Devices (vendorName : Bytes) (maxDevices : ℤ) : HostProgram (ℤ × Candidates) :=
  .call (.inr .scan) fun busses : List UsbBus =>
    .ret (amlScanUsbX3Devices vendorName (fun _ => []) maxDevices busses)

def getDeviceHandle (vendorName targetDevice : Bytes) : HostProgram Device :=
  .call (.inr .scan) fun busses : List UsbBus =>
    .ret (amlGetDeviceHandle vendorName targetDevice busses)

end AmlogicUpdate.Host

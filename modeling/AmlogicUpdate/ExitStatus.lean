import AmlogicUpdate.ScanCallers

/-!
What `main` returns of what a command came to.

The result is a failure from the start, and most branches replace it by the result of their
routine. The others print what the routine said and leave it as it was; and one routine has 64
for a success that `main` passes on.
-/

namespace AmlogicUpdate.ExitStatus

open Interaction CData Usb UsbRomDrv Scan Host Serial Arguments ChipCommands CommandLine
open Update hiding updateSubCmdRunAndRreg updateSubCmdReadWrite mwriteData doCmdMwrtie
open TextCommands hiding mwriteArgv partition updateSubCmdMread

/-! ### Reports -/

/-- Whether the routine of the command reported success, if it was run, and what is returned. -/
structure Outcome where
  report : Option Bool
  status : ℤ

/-- The status is 0 after a success, and not after a failure. -/
def Outcome.Agrees (o : Outcome) : Prop := ∀ ok, o.report = some ok → (ok = true ↔ o.status = 0)

/-- No routine was run. -/
def unrun : Outcome := ⟨none, noResult⟩

/-- The result of the routine is returned. -/
def kept (success : ℤ → Bool) (p : HostProgram ℤ) : HostProgram Outcome := do
  let ret ← p
  pure ⟨some (success ret), ret⟩

/-- The result of the routine is at most printed. -/
def dropped {α : Type} (success : α → Bool) (p : HostProgram α) : HostProgram Outcome := do
  let r ← p
  pure ⟨some (success r), noResult⟩

/-- No command on a device. -/
def silent (p : HostProgram ℤ) : HostProgram Outcome := do
  let ret ← p
  pure ⟨none, ret⟩

def isZero (ret : ℤ) : Bool := ret = 0

/-! ### `main` with its reports -/

def serialDeviceReport (m : Machine) (cmd : Bytes) (argv : List Bytes) (devNo : ℤ) :
    HostProgram Outcome := do
  let (_, candidates) ← scanX3Devices worldCup 8
  if devNo < 0 ∨ 8 ≤ devNo ∨ candidates devNo.toNat = [] then pure unrun
  else if cmd = cmdSkgsn then
    dropped (fun r => decide (0 < r.1)) (amlGetSn (candidates devNo.toNat) (List.replicate 512 0))
  else if cmd = cmdSkssn then do
    let usid ← element argv (argv.length - 1)
    dropped (fun len => decide (0 < len))
      (amlSetSn (malloc m.junk 256) (candidates devNo.toNat) usid)
  else pure unrun

def serialCommandReport (m : Machine) (cmd : Bytes) (argv : List Bytes) (devNo : ℤ) :
    HostProgram Outcome :=
  let isSkssn := if cmd = cmdSkssn then 1 else 0
  if isSkssn + 2 = argv.length then serialDeviceReport m cmd argv 0
  else if isSkssn + 3 = argv.length then do
    let s ← element argv 2
    if strncmp s strDev 3 ≠ 0 then pure unrun else serialDeviceReport m cmd argv (charDevNo s)
  else if cmd ≠ cmdSkscan then pure unrun
  else serialDeviceReport m cmd argv devNo

def bulkcmdReport (m : Machine) (rom : AmlUsbRomRW) (cmd : Bytes) : HostProgram Outcome := do
  let buf := blit (List.replicate 128 0) 0 (cmd.take 66)
  let (ret, _) ← usb (amlUsbBulkCmd m.turns (commandRom rom buf))
  pure ⟨some (isZero ret), if ret ≠ 0 then -1368 else 0⟩

def downDeviceReport (m : Machine) (argv : List Bytes) (device : Device) (devNo : ℤ) :
    HostProgram Outcome := do
  let (ret, found) ← updateScan true devNo false
  if ret ≤ 0 then pure unrun
  else if found.getD device ≠ .null then do
    let downFile ← element argv (if argv.length = 4 then 3 else 2)
    dropped isZero
      (usb (writeMediaFile m.files m.junk m.turns ⟨found.getD device, 0, [], 0, 0⟩ downFile))
  else pure unrun

def downCommandReport (m : Machine) (argv : List Bytes) (device : Device) : HostProgram Outcome :=
  if argv.length = 4 then do
    let s ← element argv 2
    if s.length ≠ 4 ∨ strncmp s strDev 3 ≠ 0 then pure unrun
    else downDeviceReport m argv device (charDevNo s)
  else if argv.length ≠ 3 then pure unrun
  else downDeviceReport m argv device 0

/-- A routine has 0 for a success; `chipinfo` anything that is not negative, as `burn` does, and
the routines for serials a length. -/
def dispatchReport (m : Machine) (cmd : Bytes) (argv : List Bytes) (device : Device) (devNo : ℤ)
    (cmdArgv : Argv) (cmdArgc : ℤ) : HostProgram Outcome :=
  let rom : AmlUsbRomRW := ⟨device, 0, [], 0, 0⟩
  if cmd = cmdRun ∨ cmd = cmdRreg then
    kept isZero (updateSubCmdRunAndRreg m.files m.junk rom cmd cmdArgv cmdArgc)
  else if cmd = cmdPassword then
    kept isZero (updateSubCmdSetPassword m.files m.junk rom cmdArgv)
  else if cmd = cmdChipinfo then
    if cmdArgc ≤ 0 then pure unrun
    else kept (fun ret => decide (0 ≤ ret)) (updateSubCmdGetChipinfo m.junk rom cmdArgv cmdArgc)
  else if cmd = cmdChipid then
    kept isZero (do
      let (ret, _) ← usb (updateSubCmdGetChipid m.junk rom)
      pure ret)
  else if cmd = cmdWrite ∨ cmd = cmdRead ∨ cmd = cmdWreg ∨ cmd = cmdDump ∨ cmd = cmdBoot ∨
      cmd = cmdCwr ∨ cmd = cmdWrite2 then
    kept isZero (updateSubCmdReadWrite m.files m.junk m.seqNum rom cmd cmdArgv cmdArgc)
  else if cmd = cmdMsdev ∨ cmd = cmdMsget ∨ cmd = cmdMsset then
    silent (massStorageCommand cmd argv)
  else if cmd = cmdIdentify then do
    let idLen ← (if cmdArgc ≠ 0 then do
      let s ← cmdArgv 0
      pure (atoi s) else pure 4)
    dropped (fun r => isZero r.1) (usb (updateSubCmdIdentifyHost m.junk rom idLen none))
  else if cmd = cmdReset then dropped isZero (usb (amlResetDev rom))
  else if cmd = cmdTplcmd then do
    let s ← element argv (argv.length - 1)
    dropped isZero (usb (updateSubCmdTplcmd rom s))
  else if cmd = cmdBurn then
    dropped (fun ret => decide (0 ≤ ret)) (usb (Burn.amlUsbburn m.files m.junk m.seqNum device
      strUBoot 0x49000000 strNand 0x12345678 0x2000 0))
  else if cmd = cmdTplstat then
    dropped (fun r => isZero r.1)
      (usb (amlUsbReadStatus { rom with buffer := List.replicate 64 0, bufferLen := 64 }))
  else if cmd = cmdSkscan ∨ cmd = cmdSkgsn ∨ cmd = cmdSkssn then
    serialCommandReport m cmd argv devNo
  else if cmd = cmdMwrite then
    if argv.length ≤ 5 then pure unrun
    else kept isZero (doCmdMwrtie m.files m.junk m.turns cmdArgv cmdArgc rom)
  else if cmd = cmdPartition then
    if argv.length ≤ 3 then pure unrun
    else kept isZero (partition m.files m.junk m.turns rom cmdArgv cmdArgc)
  else if cmd = cmdBulkcmd then do
    let s ← element argv (argv.length - 1)
    bulkcmdReport m rom s
  else if cmd = cmdDown then downCommandReport m argv device
  else if cmd = cmdMread then
    kept isZero (updateSubCmdMread m.junk m.turns m.uploads rom cmdArgc cmdArgv)
  else if cmd = cmdBl2Test then
    kept isZero (bl2Test m.files (malloc m.junk 0x10000) device 5000 cmdArgc cmdArgv)
  else if cmd = cmdBl2Boot then
    kept isZero (bl2Boot m.files (malloc m.junk 0x20000) m.turns device cmdArgc cmdArgv)
  else pure unrun

def runOnReport (m : Machine) (cmd : Bytes) (argv : List Bytes) (device : Device) (devNo : ℤ)
    (base : ℕ) (cmdArgc : ℤ) : HostProgram Outcome := do
  let (ret, found) ← (if device = .null then updateScan true devNo false else pure (0, none))
  if ret ≠ 0 then pure unrun
  else if found.getD device = .null then pure unrun
  else dispatchReport m cmd argv (found.getD device) devNo (elements argv base) cmdArgc

def mainReport (m : Machine) (argv : List Bytes) : HostProgram Outcome :=
  if argv.length = 1 then pure ⟨none, 0⟩
  else do
    let cmd ← element argv 1
    if cmd = cmdHelp then pure ⟨none, 0⟩
    else if cmd = cmdScan then silent (scanCommand argv)
    else if argv.length ≤ 2 then runOnReport m cmd argv .null 0 3 0
    else do
      let strArgDev ← element argv 2
      match deviceArg strArgDev with
      | .err => pure unrun
      | .number devNo => runOnReport m cmd argv .null devNo 3 (argv.length - 3)
      | .path devPath => do
        let device ← getDeviceHandle worldCup devPath
        runOnReport m cmd argv device (-2) 3 (argv.length - 3)
      | .ordinary => runOnReport m cmd argv .null 0 2 (argv.length - 2)

/-! ### The reports change nothing -/

/-- What is returned, without the report. -/
def statusOf (p : HostProgram Outcome) : HostProgram ℤ := p >>= fun o => .ret o.status

section Status

variable {α : Type} (p : HostProgram ℤ)

@[simp] lemma statusOf_ret (o : Outcome) : statusOf (.ret o) = .ret o.status := rfl

@[simp] lemma statusOf_bind (q : HostProgram α) (f : α → HostProgram Outcome) :
    statusOf (q >>= f) = q >>= fun a => statusOf (f a) := Prog.assoc _ _ _

@[simp] lemma statusOf_ite {c : Prop} [Decidable c] (q q' : HostProgram Outcome) :
    statusOf (if c then q else q') = if c then statusOf q else statusOf q' := apply_ite _ _ _ _

@[simp] lemma statusOf_kept (success : ℤ → Bool) : statusOf (kept success p) = p := by
  rw [kept, statusOf_bind]
  exact Prog.bind_ret p

@[simp] lemma statusOf_silent : statusOf (silent p) = p := by
  rw [silent, statusOf_bind]
  exact Prog.bind_ret p

@[simp] lemma statusOf_dropped (success : α → Bool) (q : HostProgram α) :
    statusOf (dropped success q) = q >>= fun _ => .ret noResult := by
  rw [dropped, statusOf_bind]
  rfl

end Status

section Main

variable {m : Machine} {cmd : Bytes} {argv : List Bytes}

lemma serialDevice_report (devNo : ℤ) :
    statusOf (serialDeviceReport m cmd argv devNo) = serialDevice m cmd argv devNo := by
  rw [serialDeviceReport, statusOf_bind]
  refine congrArg (scanX3Devices worldCup 8 >>= ·) (funext fun r => ?_)
  simp only [statusOf_ite, statusOf_bind, statusOf_dropped]
  rfl

lemma serialCommand_report (devNo : ℤ) :
    statusOf (serialCommandReport m cmd argv devNo) = serialCommand m cmd argv devNo := by
  simp only [serialCommandReport, statusOf_ite, statusOf_bind, serialDevice_report]
  rfl

lemma downDevice_report (device : Device) (devNo : ℤ) :
    statusOf (downDeviceReport m argv device devNo) = downDevice m argv device devNo := by
  rw [downDeviceReport, statusOf_bind]
  refine congrArg (updateScan true devNo false >>= ·) (funext fun r => ?_)
  simp only [statusOf_ite, statusOf_bind, statusOf_dropped]
  rfl

lemma downCommand_report (device : Device) :
    statusOf (downCommandReport m argv device) = downCommand m argv device := by
  simp only [downCommandReport, statusOf_ite, statusOf_bind, downDevice_report]
  rfl

lemma bulkcmd_report (rom : AmlUsbRomRW) (s : Bytes) :
    statusOf (bulkcmdReport m rom s) = usb (bulkcmd m.turns rom s) := by
  have hleft : usb (bulkcmd m.turns rom s) =
      usb (amlUsbBulkCmd m.turns (commandRom rom (blit (List.replicate 128 0) 0 (s.take 66)))) >>=
        fun r => .ret (if r.1 ≠ 0 then -1368 else 0) := left_bind _ _
  rw [bulkcmdReport, statusOf_bind, hleft]
  rfl

lemma dispatch_report (device : Device) (devNo : ℤ) (cmdArgv : Argv) (cmdArgc : ℤ) :
    statusOf (dispatchReport m cmd argv device devNo cmdArgv cmdArgc) =
      dispatch m cmd argv device devNo cmdArgv cmdArgc := by
  simp only [dispatchReport, statusOf_ite, statusOf_bind, statusOf_kept, statusOf_dropped,
    statusOf_silent, serialCommand_report, downCommand_report, bulkcmd_report]
  rfl

lemma runOn_report (device : Device) (devNo : ℤ) (base : ℕ) (cmdArgc : ℤ) :
    statusOf (runOnReport m cmd argv device devNo base cmdArgc) =
      runOn m cmd argv device devNo base cmdArgc := by
  rw [runOnReport, statusOf_bind]
  refine congrArg (_ >>= ·) (funext fun r => ?_)
  simp only [statusOf_ite, dispatch_report]
  rfl

/-- **The reports stand beside the status**, which is that of `main`. -/
theorem main_report (m : Machine) (argv : List Bytes) :
    statusOf (mainReport m argv) = main m argv := by
  unfold mainReport main
  rw [statusOf_ite, statusOf_bind]
  refine if_congr Iff.rfl rfl (congrArg (_ >>= ·) (funext fun cmd => ?_))
  rw [statusOf_ite, statusOf_ite, statusOf_ite, statusOf_silent, runOn_report, statusOf_bind]
  refine if_congr Iff.rfl rfl (if_congr Iff.rfl rfl (if_congr Iff.rfl rfl
    (congrArg (_ >>= ·) (funext fun s => ?_))))
  cases deviceArg s with
  | err => rfl
  | number devNo => exact runOn_report _ _ _ _
  | path devPath =>
    rw [statusOf_bind]
    exact congrArg (_ >>= ·) (funext fun device => runOn_report _ _ _ _)
  | ordinary => exact runOn_report _ _ _ _

end Main

end AmlogicUpdate.ExitStatus

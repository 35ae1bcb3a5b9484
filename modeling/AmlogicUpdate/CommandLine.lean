import AmlogicUpdate.Burn
import AmlogicUpdate.ChipCommands
import AmlogicUpdate.Serial

/-!
`main`: the second argument says which device, the first which command, and the command gets
what is left.

A device argument takes one place, so without one the command's arguments begin one earlier.
Where a command counts, it counts what is left for it or all of `argv`; the elements it reads
are there in all cases but three.
-/

namespace AmlogicUpdate.CommandLine

open Interaction CData Usb UsbRomDrv Scan Host Serial Arguments ChipCommands
open Update hiding updateSubCmdRunAndRreg updateSubCmdReadWrite mwriteData doCmdMwrtie
open TextCommands hiding mwriteArgv partition updateSubCmdMread

/-! ### Names -/

def cmdHelp : Bytes := ascii ['h', 'e', 'l', 'p']
def cmdScan : Bytes := ascii ['s', 'c', 'a', 'n']
def cmdPassword : Bytes := ascii ['p', 'a', 's', 's', 'w', 'o', 'r', 'd']
def cmdChipinfo : Bytes := ascii ['c', 'h', 'i', 'p', 'i', 'n', 'f', 'o']
def cmdChipid : Bytes := ascii ['c', 'h', 'i', 'p', 'i', 'd']
def cmdBoot : Bytes := ascii ['b', 'o', 'o', 't']
def cmdWrite2 : Bytes := ascii ['w', 'r', 'i', 't', 'e', '2']
def cmdMsdev : Bytes := ascii ['m', 's', 'd', 'e', 'v']
def cmdMsget : Bytes := ascii ['m', 's', 'g', 'e', 't']
def cmdMsset : Bytes := ascii ['m', 's', 's', 'e', 't']
def cmdIdentify : Bytes := ascii ['i', 'd', 'e', 'n', 't', 'i', 'f', 'y']
def cmdReset : Bytes := ascii ['r', 'e', 's', 'e', 't']
def cmdTplcmd : Bytes := ascii ['t', 'p', 'l', 'c', 'm', 'd']
def cmdBurn : Bytes := ascii ['b', 'u', 'r', 'n']
def cmdTplstat : Bytes := ascii ['t', 'p', 'l', 's', 't', 'a', 't']
def cmdSkscan : Bytes := ascii ['s', 'k', 's', 'c', 'a', 'n']
def cmdSkgsn : Bytes := ascii ['s', 'k', 'g', 's', 'n']
def cmdSkssn : Bytes := ascii ['s', 'k', 's', 's', 'n']
def cmdMwrite : Bytes := ascii ['m', 'w', 'r', 'i', 't', 'e']
def cmdPartition : Bytes := ascii ['p', 'a', 'r', 't', 'i', 't', 'i', 'o', 'n']
def cmdBulkcmd : Bytes := ascii ['b', 'u', 'l', 'k', 'c', 'm', 'd']
def cmdDown : Bytes := ascii ['d', 'o', 'w', 'n']
def cmdMread : Bytes := ascii ['m', 'r', 'e', 'a', 'd']
def cmdBl2Test : Bytes := ascii ['b', 'l', '2', '_', 't', 'e', 's', 't']
def cmdBl2Boot : Bytes := ascii ['b', 'l', '2', '_', 'b', 'o', 'o', 't']

def strDev : Bytes := ascii ['d', 'e', 'v']
def strPath : Bytes := ascii ['p', 'a', 't', 'h']
def strMptool : Bytes := ascii ['m', 'p', 't', 'o', 'o', 'l']
def strUBoot : Bytes := ascii ['d', ':', '/', 'u', '-', 'b', 'o', 'o', 't', '.', 'b', 'i', 'n']
def strNand : Bytes := ascii ['n', 'a', 'n', 'd']

def massStorage : Bytes :=
  ascii ['U', 'S', 'B', ' ', 'M', 'a', 's', 's', ' ', 'S', 't', 'o', 'r', 'a', 'g', 'e', ' ', 'D',
    'e', 'v', 'i', 'c', 'e']

/-! ### `update_scan` -/

/-- An entry of the 16 candidates. -/
def candidate (candidates : Candidates) (devNo : ℤ) : HostProgram Bytes :=
  if 0 ≤ devNo ∧ devNo < 16 then pure (candidates devNo.toNat) else overrun

/-- The result, and what `*result` is set to. -/
def updateScan (result : Bool) (devNo : ℤ) (scanMassStorage : Bool) :
    HostProgram (ℤ × Option Device) := do
  let vendorName := if scanMassStorage then massStorage else worldCup
  let (nDevices, candidates) ← scanX3Devices vendorName 16
  if nDevices ≤ 0 then pure (-182, none)
  else if devNo ≠ -2 then
    if nDevices < devNo + 1 then pure (-191, none)
    else if !scanMassStorage then
      if !result then pure (-203, none)
      else do
        let targetDevice ← candidate candidates devNo
        let device ← getDeviceHandle vendorName targetDevice
        pure (0, some device)
    else do
      -- `AmlGetMsNumber` does nothing
      let _ ← candidate candidates devNo
      pure (0, none)
  else pure (0, none)

/-! ### The commands that scan for themselves -/

/-- The result `main` begins with. -/
def noResult : ℤ := -1020

/-- A device number of one character. -/
def charDevNo (s : Bytes) : ℤ := charVal (s.getD 3 0) - 48

/-- `scan` -/
def scanCommand (argv : List Bytes) : HostProgram ℤ :=
  if argv.length ≠ 2 ∧ argv.length ≠ 3 then pure 0
  else do
    if argv.length = 3 then
      let s ← element argv 2
      if strncmp s strMptool 7 ≠ 0 ∧ strncmp s cmdMsdev 6 = 0 then
        let _ ← updateScan false (-2) true
    let _ ← updateScan false (-2) false
    pure 0

/-- `msdev`, `msget` and `msset` once the number of the device is known. No device of that kind is
ever found. -/
def massStorageDevice (cmd : Bytes) (argv : List Bytes) (devNo : ℤ) : HostProgram ℤ := do
  let (ret, _) ← updateScan false devNo true
  if ret ≤ 0 then pure noResult
  else if cmd = cmdMsset then do
    let _ ← element argv (argv.length - 1)
    pure noResult
  else pure noResult

/-- `scanf("%c")`. -/
def scanfChar : HostProgram UInt8 := .call (.inr .scanf) .ret

/-- `msdev`, `msget` and `msset`. -/
def massStorageCommand (cmd : Bytes) (argv : List Bytes) : HostProgram ℤ :=
  if cmd = cmdMsset then
    if argv.length = 4 then do
      let s ← element argv 2
      if s.length ≠ 4 ∨ strncmp s strDev 3 ≠ 0 then pure noResult
      else massStorageDevice cmd argv (charDevNo s)
    else if argv.length ≠ 3 then pure noResult
    else do
      let s₁ ← element argv (argv.length - 1)
      if strncmp s₁ strDev 3 = 0 then do
        let yesno ← scanfChar
        if yesno ≠ 121 ∧ yesno ≠ 89 then pure noResult else massStorageDevice cmd argv 0
      else massStorageDevice cmd argv 0
  else if argv.length = 2 then massStorageDevice cmd argv 0
  else if argv.length ≠ 3 then pure 0
  else do
    let s ← element argv 2
    if s.length ≠ 4 ∨ strncmp s strDev 3 ≠ 0 then pure noResult
    else massStorageDevice cmd argv (charDevNo s)

/-- What a command depends on besides the command line: files, memory that was not written to,
the turns of loops that wait, and the sequence number. -/
structure Machine where
  files : Files
  junk : ℕ → UInt8
  turns : ℕ
  uploads : ℕ
  seqNum : ℕ

/-- `skscan`, `skgsn` and `skssn` once the number of the device is known. -/
def serialDevice (m : Machine) (cmd : Bytes) (argv : List Bytes) (devNo : ℤ) : HostProgram ℤ := do
  let (_, candidates) ← scanX3Devices worldCup 8
  if devNo < 0 ∨ 8 ≤ devNo ∨ candidates devNo.toNat = [] then pure noResult
  else if cmd = cmdSkgsn then do
    let _ ← amlGetSn (candidates devNo.toNat) (List.replicate 512 0)
    pure noResult
  else if cmd = cmdSkssn then do
    let usid ← element argv (argv.length - 1)
    let _ ← amlSetSn (malloc m.junk 256) (candidates devNo.toNat) usid
    pure noResult
  else pure noResult

/-- `skscan`, `skgsn` and `skssn`; `devNo` is the number the other commands go by. -/
def serialCommand (m : Machine) (cmd : Bytes) (argv : List Bytes) (devNo : ℤ) : HostProgram ℤ :=
  let isSkssn := if cmd = cmdSkssn then 1 else 0
  if isSkssn + 2 = argv.length then serialDevice m cmd argv 0
  else if isSkssn + 3 = argv.length then do
    let s ← element argv 2
    if strncmp s strDev 3 ≠ 0 then pure noResult else serialDevice m cmd argv (charDevNo s)
  else if cmd ≠ cmdSkscan then pure noResult
  else serialDevice m cmd argv devNo

/-- `down` once the number of the device is known. The result of the scan is never positive. -/
def downDevice (m : Machine) (argv : List Bytes) (device : Device) (devNo : ℤ) :
    HostProgram ℤ := do
  let (ret, found) ← updateScan true devNo false
  if ret ≤ 0 then pure noResult
  else if found.getD device ≠ .null then do
    let downFile ← element argv (if argv.length = 4 then 3 else 2)
    let _ ← usb (writeMediaFile m.files m.junk m.turns ⟨found.getD device, 0, [], 0, 0⟩ downFile)
    pure noResult
  else pure noResult

def downCommand (m : Machine) (argv : List Bytes) (device : Device) : HostProgram ℤ :=
  if argv.length = 4 then do
    let s ← element argv 2
    if s.length ≠ 4 ∨ strncmp s strDev 3 ≠ 0 then pure noResult
    else downDevice m argv device (charDevNo s)
  else if argv.length ≠ 3 then pure noResult
  else downDevice m argv device 0

/-! ### `main` -/

/-- The command on a device; `cmdArgv` and `cmdArgc` are the arguments left for it. -/
def dispatch (m : Machine) (cmd : Bytes) (argv : List Bytes) (device : Device) (devNo : ℤ)
    (cmdArgv : Argv) (cmdArgc : ℤ) : HostProgram ℤ :=
  let rom : AmlUsbRomRW := ⟨device, 0, [], 0, 0⟩
  if cmd = cmdRun ∨ cmd = cmdRreg then
    updateSubCmdRunAndRreg m.files m.junk rom cmd cmdArgv cmdArgc
  else if cmd = cmdPassword then updateSubCmdSetPassword m.files m.junk rom cmdArgv
  else if cmd = cmdChipinfo then
    if cmdArgc ≤ 0 then pure noResult else updateSubCmdGetChipinfo m.junk rom cmdArgv cmdArgc
  else if cmd = cmdChipid then do
    let (ret, _) ← usb (updateSubCmdGetChipid m.junk rom)
    pure ret
  else if cmd = cmdWrite ∨ cmd = cmdRead ∨ cmd = cmdWreg ∨ cmd = cmdDump ∨ cmd = cmdBoot ∨
      cmd = cmdCwr ∨ cmd = cmdWrite2 then
    updateSubCmdReadWrite m.files m.junk m.seqNum rom cmd cmdArgv cmdArgc
  else if cmd = cmdMsdev ∨ cmd = cmdMsget ∨ cmd = cmdMsset then massStorageCommand cmd argv
  else if cmd = cmdIdentify then do
    let idLen ← (if cmdArgc ≠ 0 then do
      let s ← cmdArgv 0
      pure (atoi s) else pure 4)
    let _ ← usb (updateSubCmdIdentifyHost m.junk rom idLen none)
    pure noResult
  else if cmd = cmdReset then do
    let _ ← usb (amlResetDev rom)
    pure noResult
  else if cmd = cmdTplcmd then do
    let s ← element argv (argv.length - 1)
    let _ ← usb (updateSubCmdTplcmd rom s)
    pure noResult
  else if cmd = cmdBurn then do
    let _ ← usb (Burn.amlUsbburn m.files m.junk m.seqNum device strUBoot 0x49000000 strNand
      0x12345678 0x2000 0)
    pure noResult
  else if cmd = cmdTplstat then do
    let _ ← usb (amlUsbReadStatus { rom with buffer := List.replicate 64 0, bufferLen := 64 })
    pure noResult
  else if cmd = cmdSkscan ∨ cmd = cmdSkgsn ∨ cmd = cmdSkssn then serialCommand m cmd argv devNo
  else if cmd = cmdMwrite then
    if argv.length ≤ 5 then pure noResult
    else doCmdMwrtie m.files m.junk m.turns cmdArgv cmdArgc rom
  else if cmd = cmdPartition then
    if argv.length ≤ 3 then pure noResult
    else partition m.files m.junk m.turns rom cmdArgv cmdArgc
  else if cmd = cmdBulkcmd then do
    let s ← element argv (argv.length - 1)
    usb (bulkcmd m.turns rom s)
  else if cmd = cmdDown then downCommand m argv device
  else if cmd = cmdMread then updateSubCmdMread m.junk m.turns m.uploads rom cmdArgc cmdArgv
  else if cmd = cmdBl2Test then bl2Test m.files (malloc m.junk 0x10000) device 5000 cmdArgc cmdArgv
  else if cmd = cmdBl2Boot then bl2Boot m.files
    (malloc m.junk 0x20000) m.turns device cmdArgc cmdArgv
  else pure noResult

/-- How the argument after the command is taken. -/
inductive DeviceArg
  | err
  | number (devNo : ℤ)
  | path (devPath : Bytes)
  | ordinary
  deriving DecidableEq

def deviceArg (s : Bytes) : DeviceArg :=
  if 3 ≤ s.length ∧ s.take 3 = strDev then
    if 5 < s.length then .err
    else
      let devNo := atoi (s.drop 3)
      if devNo < 0 ∨ 16 < devNo then .err else .number devNo
  -- four of the five characters are compared
  else if 5 ≤ s.length ∧ s.take 4 = strPath then .path (s.drop 5)
  else .ordinary

/-- The device found by its path, or else by its number, and the command on it. The arguments of
the command begin at `base`. -/
def runOn (m : Machine) (cmd : Bytes) (argv : List Bytes) (device : Device) (devNo : ℤ) (base : ℕ)
    (cmdArgc : ℤ) : HostProgram ℤ := do
  let (ret, found) ← (if device = .null then updateScan true devNo false else pure (0, none))
  if ret ≠ 0 then pure noResult
  else if found.getD device = .null then pure noResult
  else dispatch m cmd argv (found.getD device) devNo (elements argv base) cmdArgc

def main (m : Machine) (argv : List Bytes) : HostProgram ℤ :=
  if argv.length = 1 then pure 0
  else do
    let cmd ← element argv 1
    if cmd = cmdHelp then pure 0
    else if cmd = cmdScan then scanCommand argv
    else if argv.length ≤ 2 then runOn m cmd argv .null 0 3 0
    else do
      let strArgDev ← element argv 2
      match deviceArg strArgDev with
      | .err => pure noResult
      | .number devNo => runOn m cmd argv .null devNo 3 (argv.length - 3)
      | .path devPath => do
        let device ← getDeviceHandle worldCup devPath
        runOn m cmd argv device (-2) 3 (argv.length - 3)
      | .ordinary => runOn m cmd argv .null 0 2 (argv.length - 2)

/-! ### The elements that are read -/

/-- Every element of `argv` that is read as a string is one of those there are. -/
def InBounds (m : Machine) (argv : List Bytes) : Prop :=
  ∀ t i, Issues (main m argv) t (.inr (.argv i)) → i < argv.length

/-- The argument takes the place of the device, and there can be such a device. -/
def TakesDevice : DeviceArg → Prop
  | .number devNo => devNo < 16
  | .path devPath => ∃ location devnum, devPath = deviceName location devnum
  | _ => False

/-- One argument less than the command reads: `password` and nothing after it or after the device,
`partition` with a device and a name, `mwrite` with a device and three arguments, of which the
first names a file that is not empty. -/
def Missing (files : Files) (argv : List Bytes) : Prop :=
  (argv.length = 2 ∧ argv.getD 1 [] = cmdPassword) ∨
    (TakesDevice (deviceArg (argv.getD 2 [])) ∧
      ((argv.length = 3 ∧ argv.getD 1 [] = cmdPassword) ∨
        (argv.length = 4 ∧ argv.getD 1 [] = cmdPartition) ∨
        (argv.length = 6 ∧ argv.getD 1 [] = cmdMwrite ∧ files (argv.getD 3 []) ≠ [])))

/-- No element from the `n`th on. -/
def Within (n : ℕ) : HostOp → Prop
  | .inr (.argv i) => i < n
  | _ => True

section Within

variable {n : ℕ}

lemma element_within {argv : List Bytes} {i : ℕ} (h : i < n) : Calls (Within n) (element argv i) :=
  element_calls h

lemma usb_within {α : Type} (p : Program α) : Calls (Within n) (usb p) :=
  calls_left_all (fun _ => trivial) p

lemma overrun_within {α : Type} : Calls (Within n) (overrun : HostProgram α) :=
  ⟨trivial, fun e => e.elim⟩

lemma scanX3Devices_within (vendorName : Bytes) (maxDevices : ℤ) :
    Calls (Within n) (scanX3Devices vendorName maxDevices) := ⟨trivial, fun _ => trivial⟩

lemma getDeviceHandle_within (vendorName target : Bytes) :
    Calls (Within n) (getDeviceHandle vendorName target) := ⟨trivial, fun _ => trivial⟩

/-- A scan makes no calls but these two. -/
lemma updateScan_calls {G : HostOp → Prop} (hscan : G (.inr .scan)) (hover : G (.inr .overrun))
    (result : Bool) (devNo : ℤ) (mass : Bool) : Calls G (updateScan result devNo mass) := by
  have hcandidate : ∀ c, Calls G (candidate c devNo) := fun c =>
    calls_ite (fun _ => trivial) fun _ => ⟨hover, fun e => e.elim⟩
  refine calls_bind ⟨hscan, fun _ => trivial⟩ fun r => calls_ite (fun _ => trivial) fun _ =>
    calls_ite (fun _ => ?_) fun _ => trivial
  refine calls_ite (fun _ => trivial) fun _ => calls_ite (fun _ => ?_) fun _ => ?_
  · refine calls_ite (fun _ => trivial) fun _ => calls_bind (hcandidate _) fun target => ?_
    exact calls_bind ⟨hscan, fun _ => trivial⟩ fun _ => trivial
  · exact calls_bind (hcandidate _) fun _ => trivial

lemma updateScan_within (result : Bool) (devNo : ℤ) (mass : Bool) :
    Calls (Within n) (updateScan result devNo mass) := updateScan_calls trivial trivial _ _ _

/-! ### Serial numbers -/

section Serial

variable {G : HostOp → Prop} (hG : ∀ o, G (.inl o))
include hG

lemma sendCommand_calls (dev : Device) (cmd : Bytes) (retry : ℤ) (reply : Bytes) :
    Calls G (amlSendCommand dev cmd retry reply) := by
  refine calls_ite (fun _ => trivial) fun hfits => calls_ite (fun hlong => by omega) fun _ => ?_
  refine calls_bind (usb_calls hG _) fun r => calls_ite (fun _ => usb_calls hG _) fun _ => trivial

variable (hscan : G (.inr .scan))
include hscan

lemma lookup_calls (target : Bytes) : Calls G (commandDevice target) := by
  refine calls_bind ⟨hscan, fun _ => trivial⟩ fun dev => calls_ite (fun _ => trivial) fun _ => ?_
  refine calls_bind (usb_calls hG _) fun r => calls_ite (fun _ => trivial) fun _ => ?_
  exact calls_ite (fun _ => trivial) fun _ => trivial

lemma getSn_calls (target usid : Bytes) : Calls G (amlGetSn target usid) := by
  refine calls_bind (lookup_calls hG hscan _) fun dev => calls_ite (fun _ => trivial) fun _ => ?_
  refine calls_bind (sendCommand_calls hG _ _ _ _) fun r => ?_
  refine calls_bind (sendCommand_calls hG _ _ _ _) fun r' => calls_ite (fun _ => trivial)
    fun _ => ?_
  exact calls_ite (fun _ => trivial) fun _ => trivial

end Serial

lemma any_within (o : Op) : Within n (.inl o) := trivial

lemma amlSetSn_within (src target usid : Bytes) : Calls (Within n) (amlSetSn src target usid) := by
  refine calls_bind (lookup_calls any_within trivial _) fun dev => calls_ite (fun _ => trivial)
    fun _ => ?_
  refine calls_ite (fun _ => overrun_within) fun _ => ?_
  refine calls_bind (sendCommand_calls any_within _ _ _ _) fun r => ?_
  refine calls_bind (sendCommand_calls any_within _ _ _ _) fun r' => calls_ite (fun _ => trivial)
    fun _ => ?_
  exact calls_ite (fun _ => trivial) fun _ => trivial

end Within

/-! ### The commands that look at all of `argv` -/

section Commands

variable {m : Machine} {cmd : Bytes} {argv : List Bytes}

lemma scanCommand_within : Calls (Within argv.length) (scanCommand argv) := by
  refine calls_ite (fun _ => trivial) fun hlen => ?_
  have hlist : Calls (Within argv.length) (updateScan false (-2) false >>= fun _ =>
      (pure 0 : HostProgram ℤ)) :=
    calls_bind (updateScan_within _ _ _) fun _ => trivial
  by_cases hthree : argv.length = 3
  · simp only [if_pos hthree]
    refine calls_bind (element_within (by omega)) fun s => calls_ite (fun _ => ?_) fun _ => hlist
    exact calls_bind (updateScan_within _ _ _) fun _ => hlist
  · simp only [if_neg hthree]
    exact hlist

variable (htwo : 2 ≤ argv.length)
include htwo

lemma massStorageDevice_within (devNo : ℤ) :
    Calls (Within argv.length) (massStorageDevice cmd argv devNo) := by
  refine calls_bind (updateScan_within _ _ _) fun r => calls_ite (fun _ => trivial) fun _ => ?_
  refine calls_ite (fun _ => ?_) fun _ => trivial
  exact calls_bind (element_within (by omega)) fun _ => trivial

lemma massStorageCommand_within : Calls (Within argv.length) (massStorageCommand cmd argv) := by
  have hchar : 3 ≤ argv.length → Calls (Within argv.length) (element argv 2 >>= fun s =>
      if s.length ≠ 4 ∨ strncmp s strDev 3 ≠ 0 then pure noResult
      else massStorageDevice cmd argv (charDevNo s)) := fun hlen =>
    calls_bind (element_within (by omega)) fun s => calls_ite (fun _ => trivial)
      fun _ => massStorageDevice_within htwo _
  refine calls_ite (fun _ => calls_ite (fun hfour => hchar (by omega)) fun _ => ?_) fun _ => ?_
  · refine calls_ite (fun _ => trivial) fun _ => calls_bind (element_within (by omega)) fun s₁ => ?_
    refine calls_ite (fun _ => ?_) fun _ => massStorageDevice_within htwo _
    refine ⟨trivial, fun yesno => calls_ite (fun _ => trivial) fun _ => ?_⟩
    exact massStorageDevice_within htwo _
  · refine calls_ite (fun _ => massStorageDevice_within htwo _) fun _ =>
      calls_ite (fun _ => trivial) fun hthree => hchar (by omega)

lemma serialDevice_within (devNo : ℤ) :
    Calls (Within argv.length) (serialDevice m cmd argv devNo) := by
  refine calls_bind (scanX3Devices_within _ _) fun r => calls_ite (fun _ => trivial) fun _ => ?_
  refine calls_ite (fun _ => ?_) fun _ => calls_ite (fun _ => ?_) fun _ => trivial
  · exact calls_bind (getSn_calls any_within trivial _ _) fun _ => trivial
  · refine calls_bind (element_within (by omega)) fun usid => ?_
    exact calls_bind (amlSetSn_within _ _ _) fun _ => trivial

lemma serialCommand_within (devNo : ℤ) :
    Calls (Within argv.length) (serialCommand m cmd argv devNo) := by
  refine calls_ite (fun _ => serialDevice_within htwo _) fun _ => calls_ite (fun hlen => ?_)
    fun _ => calls_ite (fun _ => trivial) fun _ => serialDevice_within htwo _
  refine calls_bind (element_within (by omega)) fun s => calls_ite (fun _ => trivial) fun _ => ?_
  exact serialDevice_within htwo _

omit htwo in
lemma downDevice_within {device : Device} (devNo : ℤ) (hthree : 3 ≤ argv.length) :
    Calls (Within argv.length) (downDevice m argv device devNo) := by
  have hfile : (if argv.length = 4 then 3 else 2) < argv.length := by
    split_ifs
    · omega
    · omega
  refine calls_bind (updateScan_within _ _ _) fun r => calls_ite (fun _ => trivial) fun _ => ?_
  refine calls_ite (fun _ => ?_) fun _ => trivial
  exact calls_bind (element_within hfile) fun _ => calls_bind (usb_within _) fun _ => trivial

omit htwo in
lemma downCommand_within {device : Device} :
    Calls (Within argv.length) (downCommand m argv device) := by
  refine calls_ite (fun hfour => ?_) fun _ => calls_ite (fun _ => trivial) fun hthree => ?_
  · refine calls_bind (element_within (by omega)) fun s => calls_ite (fun _ => trivial) fun _ => ?_
    exact downDevice_within _ (by omega)
  · exact downDevice_within _ (by omega)

end Commands

/-! ### Every command -/

section Dispatch

variable {m : Machine} {cmd : Bytes} {argv : List Bytes} {base : ℕ} {cmdArgc : ℤ}

/-- What `main` hands to a command is enough for it. -/
structure Enough (files : Files) (cmd : Bytes) (argv : List Bytes) (base : ℕ) (cmdArgc : ℤ) :
    Prop where
  nonneg : 0 ≤ cmdArgc
  left : ∀ j : ℕ, j < cmdArgc → base + j < argv.length
  password : cmd = cmdPassword → 0 < cmdArgc
  partition : cmd = cmdPartition → 4 ≤ argv.length → 2 ≤ cmdArgc
  mwrite : cmd = cmdMwrite → 6 ≤ argv.length →
    0 < cmdArgc ∧ (files (argv.getD base []) ≠ [] → 4 ≤ cmdArgc)

lemma dispatch_within (h : Enough m.files cmd argv base cmdArgc) (htwo : 2 ≤ argv.length)
    (device : Device) (devNo : ℤ) :
    Calls (Within argv.length) (dispatch m cmd argv device devNo (elements argv base) cmdArgc) := by
  have hG : ∀ o, Within argv.length (.inl o) := fun _ => trivial
  have hguard : Guarded (Within argv.length) (elements argv base) cmdArgc :=
    fun j hj => element_within (h.left j hj)
  have hlast : Calls (Within argv.length) (element argv (argv.length - 1)) :=
    element_within (by omega)
  unfold dispatch
  refine calls_ite (fun _ => runAndRreg_calls hG hguard) fun _ => ?_
  refine calls_ite (fun hcmd => setPassword_calls hG (hguard 0 (h.password hcmd))) fun _ => ?_
  refine calls_ite (fun _ => calls_ite (fun _ => trivial) fun hargc =>
    getChipinfo_calls hG trivial hguard (by omega)) fun _ => ?_
  refine calls_ite (fun _ => calls_bind (usb_within _) fun _ => trivial) fun _ => ?_
  refine calls_ite (fun _ => readWrite_calls hG hguard) fun _ => ?_
  refine calls_ite (fun _ => massStorageCommand_within htwo) fun _ => ?_
  refine calls_ite (fun _ => ?_) fun _ => ?_
  · have hnonneg := h.nonneg
    refine calls_bind (calls_ite (fun hargc => ?_) fun _ => trivial) fun idLen =>
      calls_bind (usb_within _) fun _ => trivial
    exact calls_bind (hguard 0 (by omega)) fun _ => trivial
  refine calls_ite (fun _ => calls_bind (usb_within _) fun _ => trivial) fun _ => ?_
  refine calls_ite (fun _ => calls_bind hlast fun s => calls_bind (usb_within _) fun _ => trivial)
    fun _ => ?_
  refine calls_ite (fun _ => calls_bind (usb_within _) fun _ => trivial) fun _ => ?_
  refine calls_ite (fun _ => calls_bind (usb_within _) fun _ => trivial) fun _ => ?_
  refine calls_ite (fun _ => serialCommand_within htwo devNo) fun _ => ?_
  refine calls_ite (fun hcmd => calls_ite (fun _ => trivial) fun hlen => ?_) fun _ => ?_
  · obtain ⟨hzero, hfour⟩ := h.mwrite hcmd (by omega)
    refine mwrite_calls hG hguard (hguard 0 hzero) fun t path hpath hfile j hj => hguard j ?_
    rw [List.getD_eq_getElem?_getD, ← Nat.add_zero base, element_runs hpath] at hfour
    have := hfour hfile
    omega
  refine calls_ite (fun hcmd => calls_ite (fun _ => trivial) fun hlen => ?_) fun _ => ?_
  · have htwo := h.partition hcmd (by omega)
    exact partition_calls hG hguard (hguard 0 (by omega)) (hguard 1 (by omega))
  refine calls_ite (fun _ => calls_bind hlast fun s => usb_within _) fun _ => ?_
  refine calls_ite (fun _ => downCommand_within) fun _ => ?_
  refine calls_ite (fun _ => mread_calls hG hguard) fun _ => ?_
  refine calls_ite (fun _ => calls_bind (imagePath_calls hguard) fun _ => usb_within _) fun _ => ?_
  exact calls_ite (fun _ => calls_bind (imagePath_calls hguard) fun _ => usb_within _)
    fun _ => trivial

lemma runOn_within {device : Device} {devNo : ℤ}
    (h : ∀ device, Calls (Within argv.length)
      (dispatch m cmd argv device devNo (elements argv base) cmdArgc)) :
    Calls (Within argv.length) (runOn m cmd argv device devNo base cmdArgc) := by
  refine calls_bind (calls_ite (fun _ => updateScan_within _ _ _) fun _ => trivial) fun r => ?_
  exact calls_ite (fun _ => trivial) fun _ => calls_ite (fun _ => trivial) fun _ => h _

/-- The scan for a device to work on. -/
lemma updateScan_device (devNo : ℤ) :
    updateScan true devNo false = scanX3Devices worldCup 16 >>= fun r =>
      if r.1 ≤ 0 then .ret (-182, none)
      else if devNo ≠ -2 then
        if r.1 < devNo + 1 then .ret (-191, none)
        else candidate r.2 devNo >>= fun target =>
          getDeviceHandle worldCup target >>= fun device => .ret (0, some device)
      else .ret (0, none) := rfl

lemma scanX3Devices_count (maxDevices : ℕ) {t : HostTrace} {r : ℤ × Candidates}
    (hr : Runs (scanX3Devices worldCup maxDevices) t r) : r.1 ≤ maxDevices := by
  obtain ⟨busses, t', -, hr⟩ := runs_call.mp hr
  rw [(runs_ret.mp hr).2, amlScanUsbX3Devices_eq]
  dsimp only
  omega

/-- A scan that names no device, or one past the last entry, finds none. -/
lemma updateScan_finds_none {devNo : ℤ} (h : devNo = -2 ∨ 16 ≤ devNo) {t : HostTrace}
    {r : ℤ × Option Device} (hr : Runs (updateScan true devNo false) t r) : r.2 = none := by
  rw [updateScan_device] at hr
  obtain ⟨⟨nDevices, candidates⟩, t₁, t₂, -, hscan, hr⟩ := runs_bind.mp hr
  have hcount : nDevices ≤ 16 := scanX3Devices_count 16 hscan
  dsimp only at hr
  by_cases hnone : nDevices ≤ 0
  · rw [if_pos hnone] at hr
    rw [(runs_ret.mp hr).2]
  rw [if_neg hnone] at hr
  by_cases hno : devNo = -2
  · rw [if_neg (not_not.mpr hno)] at hr
    rw [(runs_ret.mp hr).2]
  · rw [if_pos hno, if_pos (by omega)] at hr
    rw [(runs_ret.mp hr).2]

lemma runOn_nowhere {n : ℕ} {devNo : ℤ} (h : devNo = -2 ∨ 16 ≤ devNo) :
    Calls (Within n) (runOn m cmd argv .null devNo base cmdArgc) := by
  unfold runOn
  rw [if_pos rfl]
  refine calls_bind_of_runs (updateScan_within _ _ _) fun t ⟨ret, found⟩ hr => ?_
  obtain rfl : found = none := updateScan_finds_none h hr
  exact calls_ite (fun _ => trivial) fun _ => calls_ite (fun _ => trivial)
    fun hne => absurd rfl hne

end Dispatch

section Main

variable {m : Machine} {argv : List Bytes}

lemma getD_of_runs {i : ℕ} {t : HostTrace} {s : Bytes} (hr : Runs (element argv i) t s) :
    argv.getD i [] = s := by
  rw [List.getD_eq_getElem?_getD, element_runs hr]
  rfl

/-- A text that names no device finds none. -/
lemma getDeviceHandle_null {devPath : Bytes}
    (h : ∀ location devnum, devPath ≠ deviceName location devnum) {t : HostTrace} {dev : Device}
    (hr : Runs (getDeviceHandle worldCup devPath) t dev) : dev = .null := by
  obtain ⟨busses, t', -, hr⟩ := runs_call.mp hr
  have hnone : (matching busses).find? (nameOf · = devPath) = none :=
    List.find?_eq_none.mpr fun x _ hx => h x.1 x.2.devnum (of_decide_eq_true hx).symm
  rw [(runs_ret.mp hr).2, amlGetDeviceHandle_eq, hnone]

/-- Where the arguments of a command come after a device. -/
lemma enough_of_device (hlen : 3 ≤ argv.length) (hmissing : ¬ Missing m.files argv)
    (htakes : TakesDevice (deviceArg (argv.getD 2 []))) :
    Enough m.files (argv.getD 1 []) argv 3 (argv.length - 3) where
  nonneg := by omega
  left := fun j hj => by omega
  password := fun hcmd => by
    have hne : argv.length ≠ 3 := fun he => hmissing (.inr ⟨htakes, .inl ⟨he, hcmd⟩⟩)
    omega
  partition := fun hcmd hfour => by
    have hne : argv.length ≠ 4 := fun he => hmissing (.inr ⟨htakes, .inr (.inl ⟨he, hcmd⟩)⟩)
    omega
  mwrite := fun hcmd hsix => by
    refine ⟨by omega, fun hfile => ?_⟩
    have hne : argv.length ≠ 6 := fun he =>
      hmissing (.inr ⟨htakes, .inr (.inr ⟨he, hcmd, hfile⟩)⟩)
    omega

lemma main_within (hlen : 1 ≤ argv.length) (hmissing : ¬ Missing m.files argv) :
    Calls (Within argv.length) (main m argv) := by
  refine calls_ite (fun _ => trivial) fun hone => ?_
  refine calls_bind_of_runs (element_within (by omega)) fun t cmd hcmd => ?_
  obtain rfl := getD_of_runs hcmd
  refine calls_ite (fun _ => trivial) fun _ => calls_ite (fun _ => scanCommand_within) fun _ => ?_
  refine calls_ite (fun htwo => ?_) fun hthree => ?_
  · have hpassword : argv.getD 1 [] ≠ cmdPassword := fun he => hmissing (.inl ⟨by omega, he⟩)
    exact runOn_within (dispatch_within ⟨le_rfl, fun j hj => by omega,
      fun he => absurd he hpassword,
      fun _ _ => by omega, fun _ _ => by omega⟩ (by omega) · 0)
  refine calls_bind_of_runs (element_within (by omega)) fun t s hs => ?_
  obtain rfl := getD_of_runs hs
  have henough := enough_of_device (m := m) (by omega : 3 ≤ argv.length) hmissing
  cases hdev : deviceArg (argv.getD 2 []) with
  | err => trivial
  | number devNo =>
    by_cases hno : devNo < 16
    · rw [hdev] at henough
      exact runOn_within (dispatch_within (henough hno) (by omega) · devNo)
    · exact runOn_nowhere (.inr (by omega))
  | path devPath =>
    rw [hdev] at henough
    refine calls_bind_of_runs (getDeviceHandle_within _ _) fun t device hr => ?_
    by_cases hname : ∃ location devnum, devPath = deviceName location devnum
    · exact runOn_within (dispatch_within (henough hname) (by omega) · (-2))
    · rw [getDeviceHandle_null (fun l d he => hname ⟨l, d, he⟩) hr]
      exact runOn_nowhere (.inl rfl)
  | ordinary =>
    refine runOn_within (dispatch_within ⟨by omega, fun j hj => by omega, fun _ => by omega,
      fun _ _ => by omega, fun _ _ => ⟨by omega, fun _ => by omega⟩⟩ (by omega) · 0)

/-! ### The elements that are not there -/

/-- Sixteen boards on a bus. -/
def boards : List UsbBus :=
  [⟨1, (List.range 16).map fun k => ⟨k, amlIdVendor, amlIdProduce, k.toUInt8⟩⟩]

/-- The first sixteen devices can be found by their number. -/
lemma updateScan_finds {devNo : ℤ} (h₀ : 0 ≤ devNo) (h : devNo < 16) :
    Can (fun r => r.1 = 0 ∧ ∃ n, r.2 = some (.dev n)) (updateScan true devNo false) := by
  obtain ⟨hcount, -, hentry, -⟩ := scan_selects (by decide : (places boards).Nodup) (fun _ => [])
    16 (Prod.mk.eta (p := amlScanUsbX3Devices worldCup (fun _ => []) 16 boards)).symm
  have hsixteen : (amlScanUsbX3Devices worldCup (fun _ => []) 16 boards).1 = 16 := hcount
  obtain ⟨x, -, hx⟩ := hentry devNo.toNat (by omega)
  rw [updateScan_device]
  refine can_bind (can_call boards (can_ret ?_))
  rw [hsixteen, if_neg (by decide), if_pos (by omega), if_neg (by omega), candidate,
    if_pos ⟨h₀, h⟩]
  refine can_call boards (can_ret ⟨rfl, x.2.ptr, ?_⟩)
  rw [hx]

lemma runOn_finds (m : Machine) (cmd : Bytes) (argv : List Bytes) (base : ℕ) (cmdArgc : ℤ)
    {devNo : ℤ} (h₀ : 0 ≤ devNo) (h : devNo < 16) :
    ∃ t device, ∀ u q, Steps (dispatch m cmd argv device devNo (elements argv base) cmdArgc) u q →
      Steps (runOn m cmd argv .null devNo base cmdArgc) (t ++ u) q := by
  obtain ⟨t, ⟨ret, found⟩, hr, rfl, n, rfl⟩ := updateScan_finds h₀ h
  refine ⟨t, .dev n, fun u q hs => ?_⟩
  unfold runOn
  rw [if_pos rfl]
  exact hr.steps_bind hs

lemma runOn_given {cmd : Bytes} {base : ℕ} {cmdArgc devNo : ℤ} {k : ℕ} {u : HostTrace}
    {q : HostProgram ℤ}
    (hs : Steps (dispatch m cmd argv (.dev k) devNo (elements argv base) cmdArgc) u q) :
    Steps (runOn m cmd argv (.dev k) devNo base cmdArgc) u q := by
  unfold runOn
  rw [if_neg (dev_ne_null k)]
  exact hs

lemma deviceArg_nonneg {s : Bytes} {devNo : ℤ} (h : deviceArg s = .number devNo) : 0 ≤ devNo := by
  unfold deviceArg at h
  dsimp only at h
  split_ifs at h with _ _ hno
  injection h with he
  omega

/-- A board in the place of that name. -/
def boardAt (location : UInt32) (devnum : UInt8) : List UsbBus :=
  [⟨location, [⟨0, amlIdVendor, amlIdProduce, devnum⟩]⟩]

lemma getDeviceHandle_finds (location : UInt32) (devnum : UInt8) :
    ∃ t, Runs (getDeviceHandle worldCup (deviceName location devnum)) t (.dev 0) := by
  have hmatch : matching (boardAt location devnum) =
      [(location, ⟨0, amlIdVendor, amlIdProduce, devnum⟩)] := rfl
  have hfind : (matching (boardAt location devnum)).find? (nameOf · = deviceName location devnum) =
      some (location, ⟨0, amlIdVendor, amlIdProduce, devnum⟩) := by
    rw [hmatch]
    exact List.find?_cons_of_pos (decide_eq_true rfl)
  have hhandle : amlGetDeviceHandle worldCup (deviceName location devnum)
      (boardAt location devnum) = .dev 0 := by
    rw [amlGetDeviceHandle_eq, hfind]
  exact ⟨_, runs_call.mpr ⟨boardAt location devnum, [], rfl, runs_ret.mpr ⟨rfl, hhandle.symm⟩⟩⟩

lemma element_run {i : ℕ} (h : i < argv.length) :
    Runs (element argv i) [⟨.inr (.argv i), ()⟩] (argv.getD i []) := by
  refine runs_call.mpr ⟨(), [], rfl, ?_⟩
  rw [List.getD_eq_getElem?_getD, List.getElem?_eq_getElem h]
  exact .ret _

/-- A command with a device comes to be run on it. -/
lemma main_device (hlen : 3 ≤ argv.length) (hhelp : argv.getD 1 [] ≠ cmdHelp)
    (hscan : argv.getD 1 [] ≠ cmdScan) (htakes : TakesDevice (deviceArg (argv.getD 2 []))) :
    ∃ t device devNo, ∀ u q, Steps (dispatch m (argv.getD 1 []) argv device devNo
      (elements argv 3) (argv.length - 3)) u q → Steps (main m argv) (t ++ u) q := by
  have hmain : ∀ u q, Steps (match deviceArg (argv.getD 2 []) with
      | .err => pure noResult
      | .number devNo => runOn m (argv.getD 1 []) argv .null devNo 3 (argv.length - 3)
      | .path devPath => do
        let device ← getDeviceHandle worldCup devPath
        runOn m (argv.getD 1 []) argv device (-2) 3 (argv.length - 3)
      | .ordinary => runOn m (argv.getD 1 []) argv .null 0 2 (argv.length - 2)) u q →
      Steps (main m argv) ([⟨.inr (.argv 1), ()⟩] ++ ([⟨.inr (.argv 2), ()⟩] ++ u)) q := by
    intro u q hs
    unfold main
    rw [if_neg (by omega)]
    refine (element_run (by omega)).steps_bind ?_
    rw [if_neg hhelp, if_neg hscan, if_neg (by omega)]
    exact (element_run (by omega)).steps_bind hs
  cases hdev : deviceArg (argv.getD 2 []) with
  | err =>
    rw [hdev] at htakes
    exact htakes.elim
  | number devNo =>
    rw [hdev] at hmain htakes
    obtain ⟨t, device, hrun⟩ := runOn_finds m (argv.getD 1 []) argv 3 (argv.length - 3)
      (deviceArg_nonneg hdev) htakes
    refine ⟨[⟨.inr (.argv 1), ()⟩] ++ ([⟨.inr (.argv 2), ()⟩] ++ t), device, devNo,
      fun u q hs => ?_⟩
    have := hmain _ _ (hrun u q hs)
    simpa only [List.append_assoc] using this
  | path devPath =>
    rw [hdev] at hmain htakes
    obtain ⟨location, devnum, rfl⟩ := htakes
    obtain ⟨t, hr⟩ := getDeviceHandle_finds location devnum
    refine ⟨[⟨.inr (.argv 1), ()⟩] ++ ([⟨.inr (.argv 2), ()⟩] ++ t), .dev 0, -2, fun u q hs => ?_⟩
    have := hmain _ _ (hr.steps_bind (runOn_given hs))
    simpa only [List.append_assoc] using this
  | ordinary =>
    rw [hdev] at htakes
    exact htakes.elim

lemma element_issues {α : Type} (argv : List Bytes) (i : ℕ) (f : Bytes → HostProgram α) :
    Issues (element argv i >>= f) [] (.inr (.argv i)) := issues_call.mpr (.inl ⟨rfl, rfl⟩)

section Missing

variable {device : Device} {devNo : ℤ} {cmdArgc : ℤ}

lemma password_reads (base : ℕ) :
    Issues (dispatch m cmdPassword argv device devNo (elements argv base) cmdArgc) []
      (.inr (.argv base)) := by
  unfold dispatch
  rw [if_neg (by decide), if_pos rfl]
  exact element_issues argv base _

lemma partition_reads (hlen : 4 ≤ argv.length) (hargc : cmdArgc ≤ 2) (base : ℕ) :
    Issues (dispatch m cmdPartition argv device devNo (elements argv base) cmdArgc) []
      (.inr (.argv (base + 1))) := by
  have hdispatch : dispatch m cmdPartition argv device devNo (elements argv base) cmdArgc =
      if argv.length ≤ 3 then pure noResult
      else partition m.files m.junk m.turns ⟨device, 0, [], 0, 0⟩
        (elements argv base) cmdArgc := rfl
  rw [hdispatch, if_neg (by omega)]
  unfold partition
  rw [if_neg (by omega)]
  exact ((element_issues argv (base + 1) _).bind _)

lemma mwrite_reads (hlen : argv.length = 6) (hfile : m.files (argv.getD 3 []) ≠ []) :
    Issues (dispatch m cmdMwrite argv device devNo (elements argv 3) cmdArgc)
      ([⟨.inr (.argv 3), ()⟩] ++ (⟨.inl (.fopen (argv.getD 3 []) false), true⟩ ::
        ([⟨.inr (.argv 4), ()⟩] ++ ([⟨.inr (.argv 5), ()⟩] ++ [])))) (.inr (.argv 6)) := by
  have hdispatch : dispatch m cmdMwrite argv device devNo (elements argv 3) cmdArgc =
      if argv.length ≤ 5 then pure noResult
      else doCmdMwrtie m.files m.junk m.turns (elements argv 3) cmdArgc ⟨device, 0, [], 0, 0⟩ := rfl
  rw [hdispatch, if_neg (by omega)]
  refine (element_run (by omega)).issues_bind (issues_call.mpr (.inr ⟨true, _, rfl, ?_⟩))
  change Issues (if (m.files (argv.getD 3 [])).length = 0 then _ else _) _ _
  rw [if_neg (by rwa [List.length_eq_zero_iff])]
  exact (element_run (i := 4) (by omega)).issues_bind
    ((element_run (i := 5) (by omega)).issues_bind (element_issues argv 6 _))

end Missing

/-- `password` alone works on the first device. -/
lemma main_password (hlen : argv.length = 2) (hcmd : argv.getD 1 [] = cmdPassword) :
    ∃ t, Issues (main m argv) t (.inr (.argv 3)) := by
  obtain ⟨t, device, hrun⟩ := runOn_finds m (argv.getD 1 []) argv 3 0 (le_refl (0 : ℤ)) (by decide)
  refine ⟨[⟨.inr (.argv 1), ()⟩] ++ (t ++ []), ?_⟩
  unfold main
  rw [if_neg (by omega)]
  refine (element_run (by omega)).issues_bind ?_
  rw [if_neg (by rw [hcmd]; decide), if_neg (by rw [hcmd]; decide), if_pos (by omega)]
  rw [hcmd] at hrun ⊢
  exact (password_reads 3).imp fun k hk => hrun _ _ hk

/-- An element that is not there is come to. -/
lemma missing_read (h : Missing m.files argv) :
    ∃ t i, argv.length ≤ i ∧ Issues (main m argv) t (.inr (.argv i)) := by
  rcases h with ⟨hlen, hcmd⟩ | ⟨htakes, hcases⟩
  · obtain ⟨t, hi⟩ := main_password (m := m) hlen hcmd
    exact ⟨t, 3, by omega, hi⟩
  have hmain : 3 ≤ argv.length → argv.getD 1 [] ≠ cmdHelp → argv.getD 1 [] ≠ cmdScan →
      ∃ t device devNo, ∀ u q, Steps (dispatch m (argv.getD 1 []) argv device devNo
        (elements argv 3) (argv.length - 3)) u q → Steps (main m argv) (t ++ u) q :=
    fun hlen hhelp hscan => main_device hlen hhelp hscan htakes
  rcases hcases with ⟨hlen, hcmd⟩ | ⟨hlen, hcmd⟩ | ⟨hlen, hcmd, hfile⟩
  · rw [hcmd] at hmain
    obtain ⟨t, device, devNo, hrun⟩ := hmain (by omega) (by decide) (by decide)
    exact ⟨_, 3, by omega, (password_reads 3).imp fun k hk => hrun _ _ hk⟩
  · rw [hcmd] at hmain
    obtain ⟨t, device, devNo, hrun⟩ := hmain (by omega) (by decide) (by decide)
    exact ⟨_, 4, by omega, (partition_reads (by omega) (by omega) 3).imp fun k hk => hrun _ _ hk⟩
  · rw [hcmd] at hmain
    obtain ⟨t, device, devNo, hrun⟩ := hmain (by omega) (by decide) (by decide)
    exact ⟨_, 6, by omega, (mwrite_reads hlen hfile).imp fun k hk => hrun _ _ hk⟩

end Main

/-- **A missing argument is rejected before it is used exactly where it is counted**: not by
`password`, and neither by `partition` nor by `mwrite` when a device takes the place of the
argument. -/
theorem argv_inBounds_iff (m : Machine) (argv : List Bytes) (hargc : 1 ≤ argv.length) :
    InBounds m argv ↔ ¬ Missing m.files argv := by
  constructor
  · intro h hmissing
    obtain ⟨t, i, hi, hissues⟩ := missing_read hmissing
    have hlt := h t i hissues
    omega
  · intro hmissing t i hissues
    exact (main_within hargc hmissing).issues hissues

def noMachine : Machine := ⟨fun _ => [], fun _ => 0, 0, 0, 0⟩

/-- `update password` -/
def passwordLine : List Bytes := [ascii ['u', 'p', 'd', 'a', 't', 'e'], cmdPassword]

/-- `update partition dev0 boot` -/
def partitionLine : List Bytes :=
  [ascii ['u', 'p', 'd', 'a', 't', 'e'], cmdPartition, ascii ['d', 'e', 'v', '0'], cmdBoot]

/-- `update partition boot boot`, with an image of that name, has all its arguments. -/
theorem argv_inBounds_iff_partition :
    InBounds noMachine (partitionLine.take 2 ++ [cmdBoot, cmdBoot]) := by
  refine (argv_inBounds_iff noMachine _ (by decide)).mpr ?_
  rintro (⟨h, -⟩ | ⟨h, -⟩)
  · exact absurd h (by decide)
  · exact h

/-- The element after the last is `NULL`, the one after that is in the environment. -/
theorem argv_not_inBounds :
    (∃ t, Issues (main noMachine passwordLine) t (.inr (.argv 3))) ∧
      (∃ t, Issues (main noMachine partitionLine) t (.inr (.argv 4))) ∧
      ¬ ∀ m argv, 1 ≤ argv.length → InBounds m argv := by
  have hpassword : ∃ t, Issues (main noMachine passwordLine) t (.inr (.argv 3)) :=
    main_password rfl rfl
  have hpartition : ∃ t, Issues (main noMachine partitionLine) t (.inr (.argv 4)) := by
    have hdev : deviceArg (partitionLine.getD 2 []) = .number 0 := by decide
    have htakes : TakesDevice (deviceArg (partitionLine.getD 2 [])) := by
      rw [hdev]
      exact (by decide : (0 : ℤ) < 16)
    obtain ⟨t, device, devNo, hrun⟩ := @main_device noMachine partitionLine (by decide)
      (by decide) (by decide) htakes
    exact ⟨_, (partition_reads (by decide) (by decide) 3).imp fun k hk => hrun _ _ hk⟩
  refine ⟨hpassword, hpartition, fun h => ?_⟩
  obtain ⟨t, hi⟩ := hpassword
  exact absurd (h noMachine passwordLine (by decide) t 3 hi) (by decide)

end AmlogicUpdate.CommandLine

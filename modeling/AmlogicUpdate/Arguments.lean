import AmlogicUpdate.Bl2
import AmlogicUpdate.Host
import AmlogicUpdate.TextCommands

/-!
The commands with their arguments where they are on the command line.

A command is handed a place in `argv` and the number of elements left there, and reads an
element as a string when it comes to it. With every element in place this is the command on a
list of arguments.
-/

namespace AmlogicUpdate.Arguments

open Interaction CData Usb AmlLibusb UsbRomDrv Update TextCommands Host

/-! ### Argument arrays -/

/-- An argument array: how an element of it is read as a string. -/
abbrev Argv : Type := ℕ → HostProgram Bytes

/-- An element of `argv`. What a missing one is read as is not known. -/
def element (argv : List Bytes) (i : ℕ) : HostProgram Bytes :=
  .call (.inr (.argv i)) fun _ => match argv[i]? with
    | some s => .ret s
    | none => .stop

/-- `argv + base`. -/
def elements (argv : List Bytes) (base : ℕ) : Argv := fun j => element argv (base + j)

/-- `argc <= i ? NULL : argv[i]`. -/
def optional (argv : Argv) (argc : ℤ) (i : ℕ) : HostProgram (Option Bytes) :=
  if argc ≤ i then pure none else do
    let s ← argv i
    pure (some s)

/-- A file for what is read, if one is named. -/
def openSave : Option Bytes → Program Bool
  | none => pure false
  | some path => fopenWrite path

/-! ### `run` and `rreg` -/

def updateSubCmdRunAndRreg (files : Files) (junk : ℕ → UInt8) (rom : AmlUsbRomRW) (cmd : Bytes)
    (argv : Argv) (argc : ℤ) : HostProgram ℤ :=
  if argc ≤ 0 then pure (-382)
  else if cmd ≠ cmdRun ∧ argc ≤ 1 then pure (-382)
  else do
    let address ← argv 0
    let rom := { rom with address := u32 (strtoul address 0) }
    if cmd = cmdRun then usb (amlUsbRunBinCode { rom with buffer := le32 rom.address })
    else do
      let s ← argv 1
      let addr := u32 (strtoul s 0)
      let saveFile ← optional argv argc 2
      let save ← usb (openSave saveFile)
      let buf := malloc junk 0x100000
      if cmd = cmdRreg then
        usb (iterate (rregTurn rom.device true save rom.address) (rom.address + 1)
          ⟨0, addr, 0, buf, none⟩)
      else do
        let readFile ← argv 0
        let readStream ← usb (fopenRead files readFile)
        match readStream with
        | none => usb segfault
        | some f =>
          let transferSize := u32 f.content.length
          usb (iterate (rregTurn rom.device false save transferSize) (transferSize + 1)
            ⟨0, addr, 0, buf, some f⟩)

/-! ### `read`, `dump`, `write`, `cwr`, `wreg` -/

def updateSubCmdReadWrite (files : Files) (junk : ℕ → UInt8) (seqNum : ℕ) (rom : AmlUsbRomRW)
    (cmd : Bytes) (argv : Argv) (argc : ℤ) : HostProgram ℤ :=
  if argc ≤ 1 then pure 583
  else do
    let addr ← argv 1
    let rom := { rom with address := u32 (strtoul addr 0) }
    if cmd = cmdWreg then do
      let val ← argv 0
      let (ret, _) ← usb (amlLibusbCtrlRdWr rom.device rom.address
        (le32 (u32 (simpleStrtoul val 16))) 4 false 5000)
      pure ret
    else if cmd = cmdRead ∨ cmd = cmdDump then do
      let dumpFilename ← optional argv argc 2
      let save ← usb (openSave dumpFilename)
      let size ← argv 0
      let transferSize := u32 (strtoul size 0)
      let (ok, ret) ← usb (iterate (dumpTurn (cmd = cmdDump) save) (transferSize + 1)
        ⟨transferSize, { rom with buffer := malloc junk 0x20000 }, seqNum, .new transferSize⟩)
      pure (if ok then 0 else ret)
    else if cmd = cmdWrite ∨ cmd = cmdCwr then do
      let path ← argv 0
      let stream ← usb (fopenRead files path)
      match stream with
      | none => pure (-689)
      | some f => do
        let sizeArg ← optional argv argc 2
        let skipArg ← optional argv argc 3
        let size := (sizeArg.map fun s => u32 (simpleStrtoul s 0)).getD 0
        let skip := (skipArg.map fun s => u32 (simpleStrtoul s 0)).getD 0
        let transferSize := if size = 0 then u32 ((f.content.length : ℤ) - skip) else size
        usb (iterate (writeTurn (cmd ≠ cmdWrite)) (transferSize + 1)
          ⟨transferSize, rom, malloc junk 0x10008, fseekSet f skip, seqNum⟩)
    else pure 0

/-! ### `mwrite` and `partition` -/

/-- From the accepted `download` command on. -/
def mwriteData (files : Files) (junk : ℕ → UInt8) (turns : ℕ) (readFile : Bytes) (argv : Argv)
    (argc : ℤ) (rom : AmlUsbRomRW) : HostProgram ℤ := do
  let (ret, rom) ← usb (amlUsbReadStatus
    { rom with buffer := List.replicate 128 0, bufferLen := 64 })
  if ret ≠ 0 then pure (-300)
  else if strncmp rom.buffer strSuccess 7 ≠ 0 then pure (-307)
  else do
    let ret ← usb (writeMediaFile files junk turns rom readFile)
    if ret ≠ 0 then pure (-314)
    else do
      let (ret, _) ← usb (amlUsbBulkCmd turns (commandRom rom (strcpy rom.buffer strGetStatus)))
      if ret ≠ 0 then pure (-328)
      else if argc ≤ 4 then pure 0
      else do
        let verifyFile ← argv 4
        usb (mwriteVerify files turns rom verifyFile)

def doCmdMwrtie (files : Files) (junk : ℕ → UInt8) (turns : ℕ) (argv : Argv) (argc : ℤ)
    (rom : AmlUsbRomRW) : HostProgram ℤ := do
  let readFile ← argv 0
  let stream ← usb (fopenRead files readFile)
  match stream with
  | none => pure (-236)
  | some f => do
    let fileSize := f.content.length
    if fileSize = 0 then pure (-103)
    else do
      -- the number of arguments is not looked at
      let place ← argv 1
      let name ← argv 2
      let fmt ← argv 3
      let (ret, rom) ← usb (amlUsbTplCmd
        (commandRom rom (snprintf128 (downloadText [readFile, place, name, fmt] fileSize))))
      if ret ≠ 0 then pure 0
      else mwriteData files junk turns readFile argv argc rom

/-- The arguments of `mwrite`; `fmt` is the format if none is given. -/
def mwriteArgv (cmdArgv : Argv) (cmdArgc : ℤ) (fmt : Bytes) : Argv
  | 0 => cmdArgv 1
  | 1 => pure strStore
  | 2 => cmdArgv 0
  | 3 => if 2 < cmdArgc then cmdArgv 2 else pure fmt
  | _ => cmdArgv 3

/-- The part of `main` for `partition`. -/
def partition (files : Files) (junk : ℕ → UInt8) (turns : ℕ) (rom : AmlUsbRomRW) (cmdArgv : Argv)
    (cmdArgc : ℤ) : HostProgram ℤ := do
  let fmt ← (if 2 < cmdArgc then pure [] else do
    let path ← cmdArgv 1
    let sparse ← usb (isFileFormatSparse files path)
    pure (if sparse then strSparse else strNormal))
  doCmdMwrtie files junk turns (mwriteArgv cmdArgv cmdArgc fmt) (if 3 < cmdArgc then 5 else 4) rom

/-! ### `mread` -/

def updateSubCmdMread (junk : ℕ → UInt8) (turns uploads : ℕ) (rom : AmlUsbRomRW) (argc : ℤ)
    (argv : Argv) : HostProgram ℤ :=
  if argc ≤ 3 then pure 964
  else do
    let size ← argv 3
    let readSize := strtoll size 0
    let fileType ← argv 2
    if fileType ≠ strNormal ∨ readSize = 0 then pure 977
    else do
      let place ← argv 0
      let name ← argv 1
      let buf := blit (List.replicate 128 0) 0
        ((uploadText [place, name, fileType] readSize).take 66)
      let (ret, rom) ← usb (amlUsbBulkCmd turns (commandRom rom buf))
      if ret ≠ 0 then pure 988
      else do
        let filename ← optional argv argc 4
        let ret ← usb (readMediaFile junk uploads rom filename readSize)
        pure (if ret ≠ 0 then 995 else 0)

/-! ### `bl2_boot` and `bl2_test` -/

/-- The path is there to be read exactly when the command goes on to open the file. -/
def imagePath (argv : Argv) (argc : ℤ) : HostProgram (List Bytes) :=
  if argc ≤ 0 then pure [] else do
    let path ← argv 0
    pure [path]

/-- The path is read here before the device is opened, and not after. -/
def bl2Boot (files : Files) (buf : Bytes) (turns : ℕ) (dev : Device) (argc : ℤ) (argv : Argv) :
    HostProgram ℤ := do
  let image ← imagePath argv argc
  usb (Bl2.amlLibusbBl2Boot files buf turns dev argc image)

def bl2Test (files : Files) (buf : Bytes) (dev : Device) (timeout argc : ℤ) (argv : Argv) :
    HostProgram ℤ := do
  let image ← imagePath argv argc
  usb (Bl2.amlLibusbBl2Test files buf dev timeout argc image)

/-! ### The commands on a list of arguments -/

/-- The elements of `argv` are there, and nothing else is asked for. -/
def present : (q : Query) → Option (Answer q)
  | .argv _ => some ()
  | _ => none

/-- The first `n` elements are read as the arguments of the list. -/
def Holds (argv : Argv) (args : List Bytes) (n : ℤ) : Prop :=
  ∀ j : ℕ, j < n → answered present (argv j) = .ret (args.getD j [])

lemma elements_holds (argv : List Bytes) (base : ℕ) :
    Holds (elements argv base) (argv.drop base) (argv.length - base) := by
  intro j hj
  have hlt : base + j < argv.length := by omega
  have hget : argv[base + j]? = some ((argv.drop base).getD j []) := by
    rw [List.getD_eq_getElem?_getD, List.getElem?_drop, List.getElem?_eq_getElem hlt]
    rfl
  rw [elements, element, answered_right rfl, hget]
  rfl

section Lists

variable {files : Files} {junk : ℕ → UInt8} {seqNum turns uploads : ℕ} {rom : AmlUsbRomRW}
  {cmd : Bytes} {argv : Argv} {args : List Bytes} {argc n : ℤ}

lemma Holds.element (h : Holds argv args n) (j : ℕ) (hj : (j : ℤ) < n) :
    answered present (argv j) = .ret (args.getD j []) := h j hj

lemma optional_answered (h : Holds argv args argc) (i : ℕ) :
    answered present (optional argv argc i) =
      .ret (if argc ≤ i then none else some (args.getD i [])) := by
  unfold optional
  rw [answered_ite]
  split_ifs with hi
  · rfl
  · rw [answered_bind, h i (by omega)]
    rfl

/-- A default for an argument that is not there. -/
lemma optional_getD {α : Type} (c : Prop) [Decidable c] (s : Bytes) (f : Bytes → α) (d : α) :
    ((if c then none else some s).map f).getD d = if c then d else f s := by
  split_ifs
  · rfl
  · rfl

lemma openSave_optional (c : Prop) [Decidable c] (path : Bytes) :
    openSave (if c then none else some path) = if c then pure false else fopenWrite path := by
  split_ifs
  · rfl
  · rfl

theorem runAndRreg_answered (h : Holds argv args argc) :
    answered present (updateSubCmdRunAndRreg files junk rom cmd argv argc) =
      Update.updateSubCmdRunAndRreg files junk rom cmd args argc := by
  unfold updateSubCmdRunAndRreg Update.updateSubCmdRunAndRreg
  by_cases hargc : argc ≤ 0
  · rw [if_pos hargc, if_pos hargc]
    rfl
  by_cases hrreg : cmd ≠ cmdRun ∧ argc ≤ 1
  · rw [if_neg hargc, if_neg hargc, if_pos hrreg, if_pos hrreg]
    rfl
  simp only [if_neg hargc, if_neg hrreg, answered_ite, answered_bind, answered_lift,
    h 0 (by omega), Prog.ret_bind]
  by_cases hrun : cmd = cmdRun
  · rw [if_pos hrun, if_pos hrun]
  have hone : ¬ argc ≤ 1 := fun hle => hrreg ⟨hrun, hle⟩
  simp only [if_neg hrun, optional_answered h, h 1 (by omega), Prog.ret_bind, Nat.cast_ofNat,
    openSave_optional]
  congr 1
  funext save
  congr 2
  funext readStream
  cases readStream with
  | none => exact answered_lift _
  | some f => exact answered_lift _

theorem readWrite_answered (h : Holds argv args argc) :
    answered present (updateSubCmdReadWrite files junk seqNum rom cmd argv argc) =
      Update.updateSubCmdReadWrite files junk seqNum rom cmd args argc := by
  unfold updateSubCmdReadWrite Update.updateSubCmdReadWrite
  by_cases hargc : argc ≤ 1
  · rw [if_pos hargc, if_pos hargc]
    rfl
  simp only [if_neg hargc, answered_ite, answered_bind, answered_lift, Prog.pure_eq_ret,
    answered_ret, Prog.ret_bind, optional_answered h, openSave_optional, Nat.cast_ofNat,
    h 0 (by omega), h 1 (by omega)]
  congr 3
  congr 1
  funext stream
  cases stream with
  | none => rfl
  | some f =>
    simp only [answered_bind, answered_lift, optional_answered h, optional_getD,
      Nat.cast_ofNat, Prog.ret_bind]

lemma mwriteData_answered (h : Holds argv args n) (hargc : argc ≤ n) :
    answered present (mwriteData files junk turns (args.getD 0 []) argv argc rom) =
      Update.mwriteData files junk turns args argc rom := by
  unfold mwriteData Update.mwriteData
  simp only [answered_ite, answered_bind, answered_lift, Prog.pure_eq_ret, answered_ret]
  by_cases hfour : argc ≤ 4
  · simp only [if_pos hfour]
  · simp only [if_neg hfour, h 4 (by omega), Prog.ret_bind]

/-- The arguments of `mwrite` up to the format have to be there. -/
theorem mwrite_answered (h : Holds argv args n) (hn : 4 ≤ n) (hargc : argc ≤ n) :
    answered present (doCmdMwrtie files junk turns argv argc rom) =
      Update.doCmdMwrtie files junk turns args argc rom := by
  unfold doCmdMwrtie Update.doCmdMwrtie
  simp only [answered_bind, answered_lift, h 0 (by omega), Prog.ret_bind]
  congr 1
  funext stream
  cases stream with
  | none => rfl
  | some f =>
    simp only [answered_ite, answered_bind, answered_lift, h 1 (by omega), h 2 (by omega),
      h 3 (by omega), Prog.ret_bind, mwriteData_answered h hargc]
    rfl

lemma mwriteArgv_holds (h : Holds argv args argc) (hargc : 2 ≤ argc) (fmt : Bytes) :
    Holds (mwriteArgv argv argc fmt)
      (TextCommands.mwriteArgv args argc (if 2 < argc then args.getD 2 [] else fmt))
      (if 3 < argc then 5 else 4) := by
  intro j hj
  match j with
  | 0 => exact h 1 (by omega)
  | 1 => rfl
  | 2 => exact h 0 (by omega)
  | 3 =>
    change answered present (if 2 < argc then argv 2 else pure fmt) =
      .ret (if 2 < argc then args.getD 2 [] else fmt)
    by_cases htwo : 2 < argc
    · rw [if_pos htwo, if_pos htwo, h 2 (by omega)]
    · rw [if_neg htwo, if_neg htwo]
      rfl
  | j + 4 =>
    have hthree : 3 < argc := by
      by_contra hle
      rw [if_neg hle] at hj
      omega
    rw [if_pos hthree] at hj
    obtain rfl : j = 0 := by omega
    rw [TextCommands.mwriteArgv, if_pos hthree]
    exact h 3 (by omega)

theorem partition_answered (h : Holds argv args argc) (hargc : 2 ≤ argc) :
    answered present (partition files junk turns rom argv argc) =
      TextCommands.partition files junk turns rom args argc := by
  have hmwrite : ∀ fmt, answered present (doCmdMwrtie files junk turns (mwriteArgv argv argc fmt)
      (if 3 < argc then 5 else 4) rom) = Update.doCmdMwrtie files junk turns
        (TextCommands.mwriteArgv args argc (if 2 < argc then args.getD 2 [] else fmt))
        (if 3 < argc then 5 else 4) rom := by
    intro fmt
    refine mwrite_answered (mwriteArgv_holds h hargc fmt) ?_ le_rfl
    split_ifs
    · decide
    · decide
  unfold partition TextCommands.partition
  rw [answered_bind]
  simp only [hmwrite]
  by_cases htwo : 2 < argc
  · simp only [if_pos htwo]
    rfl
  · simp only [if_neg htwo, answered_bind, answered_lift, h 1 (by omega), Prog.ret_bind]
    rfl

theorem mread_answered (h : Holds argv args argc) :
    answered present (updateSubCmdMread junk turns uploads rom argc argv) =
      TextCommands.updateSubCmdMread junk turns uploads rom argc args := by
  unfold updateSubCmdMread TextCommands.updateSubCmdMread
  by_cases hargc : argc ≤ 3
  · rw [if_pos hargc, if_pos hargc]
    rfl
  simp only [if_neg hargc, answered_ite, answered_bind, answered_lift, optional_answered h,
    h 0 (by omega), h 1 (by omega), h 2 (by omega), h 3 (by omega), Prog.ret_bind,
    Prog.pure_eq_ret, answered_ret, Nat.cast_ofNat]
  rfl

theorem bl2Boot_answered (h : Holds argv args argc) (buf : Bytes) (dev : Device) :
    answered present (bl2Boot files buf turns dev argc argv) =
      Bl2.amlLibusbBl2Boot files buf turns dev argc args := by
  unfold bl2Boot imagePath Bl2.amlLibusbBl2Boot
  by_cases hargc : argc ≤ 0
  · simp only [if_pos hargc]
    exact answered_lift _
  · simp only [if_neg hargc, answered_bind, answered_lift, h 0 (by omega)]
    rfl

theorem bl2Test_answered (h : Holds argv args argc) (buf : Bytes) (dev : Device) (timeout : ℤ) :
    answered present (bl2Test files buf dev timeout argc argv) =
      Bl2.amlLibusbBl2Test files buf dev timeout argc args := by
  unfold bl2Test imagePath Bl2.amlLibusbBl2Test
  by_cases hargc : argc ≤ 0
  · simp only [if_pos hargc]
    exact answered_lift _
  · simp only [if_neg hargc, answered_bind, answered_lift, h 0 (by omega)]
    rfl

end Lists

/-! ### The elements a command reads -/

section Calls

variable {G : HostOp → Prop} {files : Files} {junk : ℕ → UInt8} {seqNum turns uploads : ℕ}
  {rom : AmlUsbRomRW} {cmd : Bytes} {argv : Argv} {argc : ℤ}

lemma element_runs {argv : List Bytes} {i : ℕ} {t : HostTrace} {s : Bytes}
    (hr : Runs (element argv i) t s) : argv[i]? = some s := by
  obtain ⟨r, t', -, hr⟩ := runs_call.mp hr
  cases hget : argv[i]? with
  | none =>
    rw [hget] at hr
    cases hr
  | some x =>
    rw [hget] at hr
    rw [(runs_ret.mp hr).2]

lemma element_calls {argv : List Bytes} {i : ℕ} (h : G (.inr (.argv i))) :
    Calls G (element argv i) := by
  refine ⟨h, fun _ => ?_⟩
  cases argv[i]? with
  | none => trivial
  | some s => trivial

/-- Of an array in which the first `argc` elements may be read. -/
abbrev Guarded (G : HostOp → Prop) (argv : Argv) (argc : ℤ) : Prop :=
  ∀ j : ℕ, j < argc → Calls G (argv j)

lemma optional_calls (h : Guarded G argv argc) (i : ℕ) : Calls G (optional argv argc i) := by
  refine calls_ite (fun _ => trivial) fun hi => ?_
  exact calls_bind (h i (by omega)) fun _ => trivial

lemma imagePath_calls (h : Guarded G argv argc) : Calls G (imagePath argv argc) := by
  refine calls_ite (fun _ => trivial) fun hargc => ?_
  exact calls_bind (h 0 (by omega)) fun _ => trivial

variable (hG : ∀ o, G (.inl o))
include hG

lemma usb_calls {α : Type} (p : Program α) : Calls G (usb p) := calls_left_all hG p

lemma runAndRreg_calls (h : Guarded G argv argc) :
    Calls G (updateSubCmdRunAndRreg files junk rom cmd argv argc) := by
  refine calls_ite (fun _ => trivial) fun hargc => calls_ite (fun _ => trivial) fun hrreg => ?_
  refine calls_bind (h 0 (by omega)) fun address => calls_ite (fun _ => usb_calls hG _)
    fun hrun => ?_
  have hone : ¬ argc ≤ 1 := fun hle => hrreg ⟨hrun, hle⟩
  refine calls_bind (h 1 (by omega)) fun s => calls_bind (optional_calls h 2) fun saveFile =>
    calls_bind (usb_calls hG _) fun save => calls_ite (fun _ => usb_calls hG _) fun _ => ?_
  refine calls_bind (h 0 (by omega)) fun readFile => calls_bind (usb_calls hG _)
    fun readStream => ?_
  cases readStream with
  | none => exact usb_calls hG _
  | some f => exact usb_calls hG _

lemma readWrite_calls (h : Guarded G argv argc) :
    Calls G (updateSubCmdReadWrite files junk seqNum rom cmd argv argc) := by
  refine calls_ite (fun _ => trivial) fun hargc => calls_bind (h 1 (by omega)) fun addr =>
    calls_ite (fun _ => ?_) fun _ => calls_ite (fun _ => ?_) fun _ => calls_ite (fun _ => ?_)
      fun _ => trivial
  · exact calls_bind (h 0 (by omega)) fun val => calls_bind (usb_calls hG _) fun _ => trivial
  · refine calls_bind (optional_calls h 2) fun dumpFilename => calls_bind (usb_calls hG _)
      fun save => calls_bind (h 0 (by omega)) fun size => ?_
    exact calls_bind (usb_calls hG _) fun _ => trivial
  · refine calls_bind (h 0 (by omega)) fun path => calls_bind (usb_calls hG _) fun stream => ?_
    cases stream with
    | none => trivial
    | some f => exact calls_bind (optional_calls h 2) fun sizeArg =>
        calls_bind (optional_calls h 3) fun skipArg => usb_calls hG _

/-- The place, the name and the format are read if there is an image to announce. -/
lemma mwrite_calls (h : Guarded G argv argc) (hzero : Calls G (argv 0))
    (hnamed : ∀ t path, Runs (argv 0) t path → files path ≠ [] → Guarded G argv 4) :
    Calls G (doCmdMwrtie files junk turns argv argc rom) := by
  refine calls_bind_of_runs hzero fun t path hpath => ⟨hG _, fun ok : Bool => ?_⟩
  cases ok with
  | false => trivial
  | true =>
    change Calls G (if (files path).length = 0 then _ else _)
    refine calls_ite (fun _ => trivial) fun hempty => ?_
    have hfour := hnamed t path hpath fun he => hempty (by rw [he]; rfl)
    refine calls_bind (hfour 1 (by decide)) fun place => calls_bind (hfour 2 (by decide))
      fun name => calls_bind (hfour 3 (by decide)) fun fmt => calls_bind (usb_calls hG _)
        fun r => calls_ite (fun _ => trivial) fun _ => ?_
    refine calls_bind (usb_calls hG _) fun r => calls_ite (fun _ => trivial) fun _ =>
      calls_ite (fun _ => trivial) fun _ => calls_bind (usb_calls hG _) fun ret =>
        calls_ite (fun _ => trivial) fun _ => calls_bind (usb_calls hG _) fun r => ?_
    refine calls_ite (fun _ => trivial) fun _ => calls_ite (fun _ => trivial) fun hargc => ?_
    exact calls_bind (h 4 (by omega)) fun verifyFile => usb_calls hG _

lemma partition_calls (h : Guarded G argv argc) (hzero : Calls G (argv 0))
    (hone : Calls G (argv 1)) :
    Calls G (partition files junk turns rom argv argc) := by
  have hguard : ∀ fmt, ∀ j : ℕ, (j < 4 ∨ 3 < argc) → Calls G (mwriteArgv argv argc fmt j) := by
    intro fmt j hj
    match j with
    | 0 => exact hone
    | 1 => trivial
    | 2 => exact hzero
    | 3 => exact calls_ite (fun htwo => h 2 (by omega)) fun _ => trivial
    | j + 4 => exact h 3 (by omega)
  refine calls_bind (calls_ite (fun _ => trivial) fun _ => ?_) fun fmt => ?_
  · exact calls_bind hone fun path => calls_bind (usb_calls hG _) fun _ => trivial
  · refine mwrite_calls hG (fun j hj => hguard fmt j ?_) (hguard fmt 0 (by omega))
      fun _ _ _ _ j hj => hguard fmt j (by omega)
    by_cases hthree : 3 < argc
    · exact .inr hthree
    · rw [if_neg hthree] at hj
      omega

lemma mread_calls (h : Guarded G argv argc) :
    Calls G (updateSubCmdMread junk turns uploads rom argc argv) := by
  refine calls_ite (fun _ => trivial) fun hargc => calls_bind (h 3 (by omega)) fun size =>
    calls_bind (h 2 (by omega)) fun fileType => calls_ite (fun _ => trivial) fun _ => ?_
  refine calls_bind (h 0 (by omega)) fun place => calls_bind (h 1 (by omega)) fun name =>
    calls_bind (usb_calls hG _) fun r => calls_ite (fun _ => trivial) fun _ => ?_
  exact calls_bind (optional_calls h 4) fun filename => calls_bind (usb_calls hG _)
    fun _ => trivial

end Calls

end AmlogicUpdate.Arguments

import AmlogicUpdate.ChipPage
import AmlogicUpdate.ExitStatus
import AmlogicUpdate.SerialLeak

/-!
The command lines whose success is not returned by `main`.

There are eight commands of this kind. On some command lines their routine cannot succeed, or is
not run, and then the failure that `main` begins with is right.
-/

namespace AmlogicUpdate.LostSuccess

open Interaction CData Usb AmlLibusb UsbRomDrv Wire Scan Host Serial SerialReply SerialLeak
  Arguments
  ChipCommands ChipPage CommandLine ScanCallers ExitStatus
open Update (malloc writeMediaFile)
open TextCommands (updateSubCmdTplcmd tplcmdTurn)

/-! ### The command lines -/

/-- The command can come to be run, with the arguments `args` left for it. -/
inductive Selects (argv : List Bytes) : List Bytes → Prop
  | alone (h : argv.length = 2) : Selects argv (argv.drop 3)
  | device (h : 3 ≤ argv.length) (htakes : TakesDevice (deviceArg (argv.getD 2 []))) :
    Selects argv (argv.drop 3)
  | first (h : 3 ≤ argv.length) (hdev : deviceArg (argv.getD 2 []) = .ordinary) :
    Selects argv (argv.drop 2)

/-- The number of bytes to ask for in `identify`. -/
def idLen (args : List Bytes) : ℤ := (args[0]?.map atoi).getD 4

/-- A device by a number below the eight that are scanned for a serial. -/
def NamesDevice (s : Bytes) : Prop := strncmp s strDev 3 = 0 ∧ 0 ≤ charDevNo s ∧ charDevNo s < 8

/-- A part of the page that ends in it by whole words, and no file to save it in. -/
structure Shown (args : List Bytes) : Prop where
  page : args ≠ []
  screen : args[1]?.getD strDash = strDash
  length : 0 ≤ (args[2]?.map atoi).getD 64
  offset : 0 ≤ (args[3]?.map atoi).getD 0
  fits : (args[3]?.map atoi).getD 0 + 4 * (((args[2]?.map atoi).getD 64 + 3) / 4) ≤ 64

/-- The command can succeed with these arguments, and `main` does not return 0 then. -/
inductive Lost (files : Files) (argv args : List Bytes) : Bytes → Prop
  | chipinfo (h : Shown args) : Lost files argv args cmdChipinfo
  | identify (h₀ : 4 ≤ idLen args) (h : idLen args ≤ 8) : Lost files argv args cmdIdentify
  | reset : Lost files argv args cmdReset
  | tplcmd : Lost files argv args cmdTplcmd
  | burn (h : files strUBoot = []) : Lost files argv args cmdBurn
  | tplstat : Lost files argv args cmdTplstat
  | skgsn (h : argv.length = 2 ∨ (argv.length = 3 ∧ NamesDevice (argv.getD 2 []))) :
    Lost files argv args cmdSkgsn
  | skssn (h : argv.length = 3 ∨ (argv.length = 4 ∧ NamesDevice (argv.getD 2 [])))
      (hlen : (argv.getD (argv.length - 1) []).length ≤ 108) : Lost files argv args cmdSkssn

/-! ### What agrees -/

section Agrees

variable {α : Type}

lemma unrun_agrees : unrun.Agrees := fun _ h => by cases h

lemma kept_agrees (p : HostProgram ℤ) : Always Outcome.Agrees (kept isZero p) := by
  refine always_then fun ret => always_ret fun ok hok => ?_
  obtain rfl : isZero ret = ok := Option.some.inj hok
  exact decide_eq_true_iff

lemma silent_agrees (p : HostProgram ℤ) : Always Outcome.Agrees (silent p) :=
  always_then fun _ => always_ret fun _ h => by cases h

/-- A failure is as `main` has it. -/
lemma dropped_agrees {success : α → Bool} {p : HostProgram α}
    (h : Always (fun a => success a = false) p) : Always Outcome.Agrees (dropped success p) := by
  refine always_bind (h.mono fun a ha => always_ret fun ok hok => ?_)
  obtain rfl : success a = ok := Option.some.inj hok
  rw [ha]
  exact iff_of_false Bool.false_ne_true (by decide)

end Agrees

/-! ### The routines that cannot succeed -/

section Routines

variable {m : Machine} {cmd : Bytes} {argv : List Bytes} {base : ℕ} {cmdArgc : ℤ} {n : ℕ}
    {devNo : ℤ}

lemma always_overrun {α : Type} {Q : α → Prop} : Always Q (overrun : HostProgram α) :=
  always_call fun e => e.elim

/-- More than eight bytes are not asked for. -/
lemma identifyHost_long {rom : AmlUsbRomRW} (hlen : 8 < rom.bufferLen) :
    Always (fun r => r.1 ≠ 0) (amlUsbIdentifyHost rom) := by
  have hzero : ∀ drv, Always (fun r => r.1 = 0) (usbDeviceIoControl drv .identifyHost none 0
      (some rom.buffer) rom.bufferLen rom.dataSize) := fun drv =>
    always_ite (fun _ => always_ret rfl) fun _ => always_ite (fun _ => always_ret rfl)
      fun hshort => absurd hlen hshort
  refine always_then fun opened => always_ite (fun _ => ?_) fun _ => ?_
  · exact always_ret (by decide : (-1 : ℤ) ≠ 0)
  · refine always_bind ((hzero opened.2).mono fun r hr => always_then fun _ => ?_)
    rw [hr]
    exact always_ret (by decide : (-2 : ℤ) ≠ 0)

lemma identify_refused {junk : ℕ → UInt8} {rom : AmlUsbRomRW} {len : ℤ} (hlt : len < 2 ^ 31)
    (hlen : ¬ (4 ≤ len ∧ len ≤ 8)) (id : Option Bytes) :
    Always (fun r => isZero r.1 = false) (updateSubCmdIdentifyHost junk rom len id) := by
  refine always_ite (fun _ => always_ret rfl) fun hlow => always_bind ?_
  have hlong : 8 < u32 len := by
    unfold u32
    omega
  refine (@identifyHost_long { rom with
    buffer := id.getD (malloc junk 16), bufferLen := u32 len, dataSize := 0 } hlong).mono
      fun r hr => ?_
  dsimp only
  rw [if_pos hr]
  exact always_ret rfl

/-- A serial that is too long is not sent. -/
lemma setSn_refused {src target usid : Bytes} (hlen : 108 < usid.length) :
    Always (fun len => decide (0 < len) = false) (amlSetSn src target usid) := by
  refine always_then fun dev => always_ite (fun _ => always_ret (by decide)) fun _ =>
    always_ite (fun _ => always_overrun) fun _ => always_then fun r => ?_
  have hrefused : amlSendCommand dev (strWriteUsid ++ usid) 50 r.2 = .ret (-1, r.2) := by
    rw [amlSendCommand, if_pos (by rw [serial_length]; omega)]
    rfl
  dsimp only
  rw [hrefused]
  exact always_ret (by decide)

/-- A file that is not empty is not burned. -/
lemma burn_refused {files : Files} {dev : Device} {junk : ℕ → UInt8} {seqNum : ℕ}
    (hfile : files strUBoot ≠ []) :
    Always (fun ret => decide (0 ≤ ret) = false) (Burn.amlUsbburn files junk seqNum dev strUBoot
      0x49000000 strNand 0x12345678 0x2000 0) := by
  intro t ret hr
  have hneg := (Burn.amlUsbburn_runs hfile (by decide) hr).1
  exact decide_eq_false (by omega)

/-- Nothing positive comes of a page that is not shown. -/
lemma chipinfoPage_nonpos {junk : ℕ → UInt8} {rom : AmlUsbRomRW} {pageIndex nBytes startOffset : ℤ}
    {saveFile : Bytes} (hlt : startOffset < 2 ^ 31)
    (h : saveFile = strDash → 0 ≤ nBytes → 0 ≤ startOffset →
      64 < startOffset + 4 * ((nBytes + 3) / 4)) :
    Always (· ≤ 0) (chipinfoPage junk rom pageIndex saveFile nBytes startOffset) := by
  refine always_ite (fun _ => always_ret (by decide)) fun hchecks => always_ite
    (fun _ => always_ret (by decide)) fun hmax => always_then fun page => always_ite
      (fun _ => always_ret (by decide)) fun _ => always_ite (fun hdash => ?_) fun _ => ?_
  · refine always_ite (fun _ => always_overrun) fun hin => ?_
    obtain ⟨hn, hmore⟩ := not_or.mp hchecks
    obtain ⟨hs, hsum⟩ := not_or.mp hmore
    have hend := h hdash (by omega) (by omega)
    exfalso
    by_cases hzero : nBytes = 0
    · unfold i32 at hsum
      omega
    -- the last byte of the last word
    refine hin ⟨4 * ((nBytes.toNat + 3) / 4) - 1, mem_viewed.mpr (by omega), by omega⟩
  · refine always_then fun opened => always_ite (fun _ => always_ret (by decide)) fun _ =>
      always_ite (fun _ => always_overrun) fun _ => always_then fun n => ?_
    refine always_ret ?_
    split_ifs
    · decide
    · exact le_rfl

lemma atoi_lt (s : Bytes) : atoi s < 2 ^ 31 := by
  unfold atoi i32
  omega

/-- The arguments left are counted as they are. -/
lemma argc_drop {argv : List Bytes} (base : ℕ) (h : base ≤ argv.length) :
    (argv.length : ℤ) - base = (argv.drop base).length := by
  rw [List.length_drop]
  omega

lemma always_element {argv : List Bytes} (i : ℕ) :
    Always (fun s => argv[i]? = some s) (element argv i) := fun _ _ hr => element_runs hr

lemma always_optional {argv : List Bytes} {base : ℕ} {cmdArgc : ℤ}
    (hargc : cmdArgc = (argv.drop base).length) (i : ℕ) :
    Always (fun o => o = (argv.drop base)[i]?) (optional (elements argv base) cmdArgc i) := by
  refine always_ite (fun hle => always_ret ?_) fun _ => ?_
  · exact (List.getElem?_eq_none (by omega)).symm
  · refine always_bind ((always_element (base + i)).mono fun s hs => always_ret ?_)
    rw [List.getElem?_drop, hs]

lemma chipinfo_nonpos {junk : ℕ → UInt8} {rom : AmlUsbRomRW}
    (hargc : cmdArgc = (argv.drop base).length) (hpos : 0 < cmdArgc)
    (h : ¬ Shown (argv.drop base)) :
    Always (· ≤ 0) (updateSubCmdGetChipinfo junk rom (elements argv base) cmdArgc) := by
  refine always_then fun pageIndex => ?_
  refine always_bind ((always_optional hargc 1).mono fun saveFile hsave => ?_)
  refine always_bind ((always_optional hargc 2).mono fun nBytes hn => ?_)
  refine always_bind ((always_optional hargc 3).mono fun startOffset hs => ?_)
  subst hsave hn hs
  refine chipinfoPage_nonpos ?_ fun hdash hlen hoff => ?_
  · cases (argv.drop base)[3]? with
    | none => decide
    | some s => exact atoi_lt s
  · by_contra hfits
    refine h ⟨fun hnil => ?_, hdash, hlen, hoff, by omega⟩
    rw [hnil] at hargc
    exact absurd hpos (by rw [hargc]; decide)

end Routines

/-! ### Every other run agrees -/

section Runs

variable {m : Machine} {cmd : Bytes} {argv : List Bytes} {base : ℕ} {cmdArgc devNo : ℤ}

lemma always_argument (i : ℕ) : Always (fun s => s = argv.getD i []) (element argv i) := by
  refine (always_element i).mono fun s hs => ?_
  rw [List.getD_eq_getElem?_getD, hs]
  rfl

lemma serialDevice_agrees (h : 0 ≤ devNo → devNo < 8 → cmd ≠ cmdSkgsn ∧
    (cmd = cmdSkssn → 108 < (argv.getD (argv.length - 1) []).length)) :
    Always Outcome.Agrees (serialDeviceReport m cmd argv devNo) := by
  refine always_then fun r => always_ite (fun _ => always_ret unrun_agrees) fun hno => ?_
  obtain ⟨hlow, hmore⟩ := not_or.mp hno
  obtain ⟨hhigh, -⟩ := not_or.mp hmore
  obtain ⟨hget, hset⟩ := h (by omega) (by omega)
  refine always_ite (fun hcmd => absurd hcmd hget) fun _ => always_ite (fun hcmd => ?_)
    fun _ => always_ret unrun_agrees
  refine always_bind ((always_argument _).mono fun usid hu => dropped_agrees (setSn_refused ?_))
  rw [hu]
  exact hset hcmd

lemma serialCommand_agrees {args : List Bytes} (hlost : ¬ Lost m.files argv args cmd) :
    Always Outcome.Agrees (serialCommandReport m cmd argv devNo) := by
  -- a command that is not lost, though its device is one of the eight
  have hcases : (cmd = cmdSkgsn → ¬ (argv.length = 2 ∨
        (argv.length = 3 ∧ NamesDevice (argv.getD 2 [])))) ∧
      (cmd = cmdSkssn → (argv.length = 3 ∨ (argv.length = 4 ∧ NamesDevice (argv.getD 2 []))) →
        108 < (argv.getD (argv.length - 1) []).length) := by
    refine ⟨fun hcmd h => hlost (hcmd ▸ .skgsn h), fun hcmd h => ?_⟩
    by_contra hlen
    exact hlost (hcmd ▸ .skssn h (by omega))
  obtain ⟨hget, hset⟩ := hcases
  have hne : cmdSkgsn ≠ cmdSkssn := by decide
  refine always_ite (fun hlen => serialDevice_agrees fun _ _ => ?_) fun _ =>
    always_ite (fun hlen => ?_) fun _ => always_ite (fun _ => always_ret unrun_agrees) fun hscan =>
      serialDevice_agrees fun _ _ => ?_
  · refine ⟨fun hcmd => hget hcmd (.inl ?_), fun hcmd => hset hcmd (.inl ?_)⟩
    · rw [hcmd, if_neg hne] at hlen
      omega
    · rw [if_pos hcmd] at hlen
      omega
  · refine always_bind ((always_argument 2).mono fun s hs => ?_)
    refine always_ite (fun _ => always_ret unrun_agrees) fun hdev => serialDevice_agrees
      fun hlow hhigh => ?_
    subst hs
    have hnames : NamesDevice (argv.getD 2 []) := ⟨not_not.mp hdev, hlow, hhigh⟩
    refine ⟨fun hcmd => hget hcmd (.inr ⟨?_, hnames⟩), fun hcmd => hset hcmd (.inr ⟨?_, hnames⟩)⟩
    · rw [hcmd, if_neg hne] at hlen
      omega
    · rw [if_pos hcmd] at hlen
      omega
  · rw [not_not.mp hscan]
    exact ⟨by decide, fun hcmd => absurd hcmd (by decide)⟩

lemma bulkcmd_agrees (rom : AmlUsbRomRW) (s : Bytes) :
    Always Outcome.Agrees (bulkcmdReport m rom s) := by
  refine always_then fun r => always_ret fun ok hok => ?_
  obtain rfl : isZero r.1 = ok := Option.some.inj hok
  by_cases hret : r.1 = 0
  · simp [isZero, hret]
  · simp [isZero, hret]

lemma downDevice_agrees (device : Device) (devNo : ℤ) :
    Always Outcome.Agrees (downDeviceReport m argv device devNo) := by
  have hscan : Always (fun r => r.1 ≤ 0) (updateScan true devNo false) :=
    fun t r hr => (updateScan_found hr).1
  refine always_bind (hscan.mono fun r hr => ?_)
  dsimp only
  rw [if_pos hr]
  exact always_ret unrun_agrees

lemma downCommand_agrees (device : Device) :
    Always Outcome.Agrees (downCommandReport m argv device) := by
  refine always_ite (fun _ => always_then fun s => ?_) fun _ => ?_
  · exact always_ite (fun _ => always_ret unrun_agrees) fun _ => downDevice_agrees _ _
  · exact always_ite (fun _ => always_ret unrun_agrees) fun _ => downDevice_agrees _ _

/-- The commands whose result is returned agree, and the others if they are not lost. -/
lemma dispatch_agrees (hargc : cmdArgc = (argv.drop base).length)
    (hlost : ¬ Lost m.files argv (argv.drop base) cmd) (device : Device) :
    Always Outcome.Agrees
      (dispatchReport m cmd argv device devNo (elements argv base) cmdArgc) := by
  unfold dispatchReport
  refine always_ite (fun _ => kept_agrees _) fun _ => always_ite (fun _ => kept_agrees _)
    fun _ => ?_
  refine always_ite (fun hcmd => always_ite (fun _ => always_ret unrun_agrees) fun hpos => ?_)
    fun _ => ?_
  · have hshown : ¬ Shown (argv.drop base) := fun h => hlost (hcmd ▸ .chipinfo h)
    refine always_bind ((chipinfo_nonpos hargc (by omega) hshown).mono fun ret hret =>
      always_ret fun ok hok => ?_)
    obtain rfl : decide (0 ≤ ret) = ok := Option.some.inj hok
    have hiff : 0 ≤ ret ↔ ret = 0 := ⟨fun h => le_antisymm hret h, fun h => le_of_eq h.symm⟩
    exact decide_eq_true_iff.trans hiff
  refine always_ite (fun _ => kept_agrees _) fun _ => always_ite (fun _ => kept_agrees _)
    fun _ => ?_
  refine always_ite (fun _ => silent_agrees _) fun _ => always_ite (fun hcmd => ?_) fun _ => ?_
  · have hlen : Always (fun len => len = idLen (argv.drop base)) (if cmdArgc ≠ 0 then do
        let s ← elements argv base 0
        pure (atoi s) else (pure 4 : HostProgram ℤ)) := by
      refine always_ite (fun _ => ?_) fun hzero => always_ret ?_
      · refine always_bind ((always_element (base + 0)).mono fun s hs => always_ret ?_)
        rw [idLen, List.getElem?_drop, hs]
        rfl
      · rw [idLen, List.getElem?_eq_none (by omega)]
        rfl
    refine always_bind (hlen.mono fun len hl => dropped_agrees
      (always_left (identify_refused ?_ ?_ _)))
    · rw [hl, idLen]
      cases (argv.drop base)[0]? with
      | none => decide
      | some s => exact atoi_lt s
    · rw [hl]
      exact fun h => hlost (hcmd ▸ .identify h.1 h.2)
  refine always_ite (fun hcmd => absurd (hcmd ▸ .reset) hlost) fun _ =>
    always_ite (fun hcmd => absurd (hcmd ▸ .tplcmd) hlost) fun _ => ?_
  refine always_ite (fun hcmd => dropped_agrees (always_left (burn_refused fun hfile =>
    hlost (hcmd ▸ .burn hfile)))) fun _ => ?_
  refine always_ite (fun hcmd => absurd (hcmd ▸ .tplstat) hlost) fun _ =>
    always_ite (fun _ => serialCommand_agrees hlost) fun _ => ?_
  refine always_ite (fun _ => always_ite (fun _ => always_ret unrun_agrees) fun _ => kept_agrees _)
    fun _ => ?_
  refine always_ite (fun _ => always_ite (fun _ => always_ret unrun_agrees) fun _ => kept_agrees _)
    fun _ => ?_
  refine always_ite (fun _ => always_then fun s => bulkcmd_agrees _ _) fun _ =>
    always_ite (fun _ => downCommand_agrees _) fun _ => always_ite (fun _ => kept_agrees _)
      fun _ => ?_
  exact always_ite (fun _ => kept_agrees _) fun _ => always_ite (fun _ => kept_agrees _)
    fun _ => always_ret unrun_agrees

/-- The command comes to be run on a device or not at all. -/
lemma runOn_agrees (device : Device) (h : ∀ device, Always Outcome.Agrees
      (dispatchReport m cmd argv device devNo (elements argv base) cmdArgc)) :
    Always Outcome.Agrees (runOnReport m cmd argv device devNo base cmdArgc) :=
  always_then fun _ => always_ite (fun _ => always_ret unrun_agrees) fun _ =>
    always_ite (fun _ => always_ret unrun_agrees) fun _ => h _

/-- Without a device there is no report. -/
lemma runOn_unrun (h : devNo = -2 ∨ 16 ≤ devNo) :
    Always Outcome.Agrees (runOnReport m cmd argv .null devNo base cmdArgc) := by
  unfold runOnReport
  rw [if_pos rfl]
  have hnone : Always (fun r => r.2 = none) (updateScan true devNo false) :=
    fun t r hr => updateScan_finds_none h hr
  refine always_bind (hnone.mono fun r hr => always_ite (fun _ => always_ret unrun_agrees)
    fun _ => always_ite (fun _ => always_ret unrun_agrees) fun hne => absurd ?_ hne)
  rw [hr]
  rfl

lemma main_agrees (h : ∀ args, Selects argv args → ¬ Lost m.files argv args (argv.getD 1 [])) :
    Always Outcome.Agrees (mainReport m argv) := by
  refine always_ite (fun _ => always_ret fun _ hok => by cases hok) fun hone => ?_
  refine always_bind fun t cmd hcmd => ?_
  have hlen : 1 < argv.length := (List.getElem?_eq_some_iff.mp (element_runs hcmd)).1
  obtain rfl := getD_of_runs hcmd
  refine always_ite (fun _ => always_ret fun _ hok => by cases hok) fun _ =>
    always_ite (fun _ => silent_agrees _) fun _ => always_ite (fun htwo => ?_) fun hthree => ?_
  · refine runOn_agrees _ (dispatch_agrees ?_ (h _ (.alone (by omega))))
    rw [List.length_drop]
    omega
  refine always_bind ((always_argument 2).mono fun s hs => ?_)
  subst hs
  cases hdev : deviceArg (argv.getD 2 []) with
  | err => exact always_ret unrun_agrees
  | number devNo =>
    by_cases hno : devNo < 16
    · refine runOn_agrees _ (dispatch_agrees (argc_drop 3 (by omega)) (h _ (.device (by omega) ?_)))
      rw [hdev]
      exact hno
    · exact runOn_unrun (.inr (by omega))
  | path devPath =>
    refine always_bind fun t device hr => ?_
    by_cases hname : ∃ location devnum, devPath = deviceName location devnum
    · refine runOn_agrees _ (dispatch_agrees (argc_drop 3 (by omega)) (h _ (.device (by omega) ?_)))
      rw [hdev]
      exact hname
    · rw [getDeviceHandle_null (fun l d he => hname ⟨l, d, he⟩) hr]
      exact runOn_unrun (.inl rfl)
  | ordinary =>
    exact runOn_agrees _ (dispatch_agrees (argc_drop 2 (by omega)) (h _ (.first (by omega) hdev)))

end Runs

end AmlogicUpdate.LostSuccess

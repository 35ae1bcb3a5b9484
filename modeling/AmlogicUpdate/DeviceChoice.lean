import AmlogicUpdate.CommandLine

/-!
Which device `update_scan` takes, and from how many.

The list is no longer than the array it is in, and a number past its end is refused. That the
number is not negative is left to whoever read it off the command line.
-/

namespace AmlogicUpdate.DeviceChoice

open Interaction CData Usb UsbRomDrv Wire Scan Host Serial Arguments ChipCommands CommandLine

/-- The number of devices `updateScan` takes one from, or what it returns without taking one. -/
def chosenAmong (result : Bool) (devNo : ℤ) (scanMassStorage : Bool) (busses : List UsbBus) :
    Except ℤ ℤ :=
  let vendorName := if scanMassStorage then massStorage else worldCup
  let nDevices := (amlScanUsbX3Devices vendorName (fun _ => []) 16 busses).1
  if nDevices ≤ 0 then .error (-182)
  else if devNo = -2 then .error 0
  else if nDevices < devNo + 1 then .error (-191)
  else if !scanMassStorage && !result then .error (-203)
  else .ok nDevices

/-- A run of `main` comes to take the device `devNo` of `nDevices`. -/
def Chooses (m : Machine) (argv : List Bytes) (devNo nDevices : ℤ) : Prop :=
  ∃ t result mass busses, ∃ K : ℤ × Option Device → HostProgram ℤ,
    Steps (main m argv) t (updateScan result devNo mass >>= K) ∧
      chosenAmong result devNo mass busses = .ok nDevices

/-- `down` with a device and a file, the character of the device coming before `'0'`; only `'.'`
is read as no device at all. -/
def BeforeZero (argv : List Bytes) : Prop :=
  argv.length = 4 ∧ argv.getD 1 [] = cmdDown ∧ (argv.getD 2 []).length = 4 ∧
    strncmp (argv.getD 2 []) strDev 3 = 0 ∧ charDevNo (argv.getD 2 []) < 0 ∧
      charDevNo (argv.getD 2 []) ≠ -2

/-! ### The choice -/

section Choice

variable {result : Bool} {devNo : ℤ} {mass : Bool} {busses : List UsbBus}

/-- The definition above says what `updateScan` does with a scan. -/
lemma updateScan_eq : updateScan result devNo mass = .call (.inr .scan) fun busses : List UsbBus =>
    match chosenAmong result devNo mass busses with
    | .error ret => .ret (ret, none)
    | .ok _ =>
      let vendorName := if mass then massStorage else worldCup
      candidate (amlScanUsbX3Devices vendorName (fun _ => []) 16 busses).2 devNo >>= fun target =>
        if mass then .ret (0, none)
        else getDeviceHandle vendorName target >>= fun device => .ret (0, some device) := by
  change Prog.call _ _ = Prog.call _ _
  congr 1
  funext busses
  simp only [Prog.bind, Prog.pure_eq_ret, chosenAmong]
  by_cases hnone : (amlScanUsbX3Devices (if mass then massStorage else worldCup) (fun _ => []) 16
      busses).1 ≤ 0
  · simp only [if_pos hnone]
  by_cases hno : devNo = -2
  · simp only [if_neg hnone, hno, ne_eq, not_true_eq_false, if_true, if_false]
  by_cases hpast : (amlScanUsbX3Devices (if mass then massStorage else worldCup) (fun _ => []) 16
      busses).1 < devNo + 1
  · simp only [if_neg hnone, hno, ne_eq, not_false_eq_true, if_true, if_false, if_pos hpast]
  · simp only [if_neg hnone, hno, ne_eq, not_false_eq_true, if_true, if_false, if_neg hpast]
    cases mass <;> cases result <;> rfl

lemma chosenAmong_mass : chosenAmong result devNo true busses = .error (-182) := by
  have hcount : (amlScanUsbX3Devices massStorage (fun _ => []) 16 busses).1 = -1 := by
    rw [amlScanUsbX3Devices, if_pos (by decide)]
  unfold chosenAmong
  dsimp only
  rw [if_pos rfl, hcount, if_pos (by decide)]

lemma chosen_bounds {n : ℤ} (h : chosenAmong result devNo mass busses = .ok n) :
    devNo < n ∧ n ≤ 16 ∧ devNo ≠ -2 := by
  cases mass with
  | true =>
    rw [chosenAmong_mass] at h
    cases h
  | false =>
    have hcount : (amlScanUsbX3Devices worldCup (fun _ => []) 16 busses).1 ≤ 16 := by
      rw [amlScanUsbX3Devices_eq]
      dsimp only
      omega
    unfold chosenAmong at h
    dsimp only at h
    rw [if_neg Bool.false_ne_true] at h
    split_ifs at h with hnone hno hpast
    injection h with h
    omega

lemma scan_inside : (.inr .scan : HostOp) ≠ .inr .overrun := fun h => by cases h

/-- A number that is not negative, or none at all. -/
lemma updateScan_inside (h : 0 ≤ devNo ∨ devNo = -2) :
    Calls (· ≠ .inr .overrun) (updateScan result devNo mass) := by
  rw [updateScan_eq]
  refine ⟨scan_inside, fun busses => ?_⟩
  dsimp only
  cases hchosen : chosenAmong result devNo mass busses with
  | error ret => trivial
  | ok n =>
    obtain ⟨hlt, hle, hne⟩ := chosen_bounds hchosen
    rw [candidate, if_pos (by omega)]
    refine calls_ite (fun _ => trivial) fun _ => ⟨scan_inside, fun _ => trivial⟩

lemma updateScan_mass : Calls (· ≠ .inr .overrun) (updateScan result devNo true) := by
  rw [updateScan_eq]
  refine ⟨scan_inside, fun busses => ?_⟩
  dsimp only
  rw [chosenAmong_mass]
  trivial

/-- A negative number is taken for the place of an entry. -/
lemma updateScan_outside {n : ℤ} (h : chosenAmong result devNo mass busses = .ok n)
    (hlow : devNo < 0) {K : ℤ × Option Device → HostProgram ℤ} :
    Issues (updateScan result devNo mass >>= K) [⟨.inr .scan, busses⟩] (.inr .overrun) := by
  rw [updateScan_eq]
  refine issues_call.mpr (.inr ⟨busses, [], rfl, ?_⟩)
  dsimp only
  rw [h, candidate]
  dsimp only
  rw [if_neg (by omega)]
  exact issues_call.mpr (.inl ⟨rfl, rfl⟩)

end Choice

/-! ### Nothing else goes wrong right after a scan -/

def AfterScan (h : HostTrace) : Prop := ∃ t, ∃ busses : List UsbBus, h = t ++ [⟨.inr .scan, busses⟩]

/-- Whatever is outside an array, the place was not taken from a scan just made. -/
def NotChosen (h : HostTrace) (o : HostOp) : Prop := o = .inr .overrun → ¬ AfterScan h

section Parts

variable {h : HostTrace} {α : Type}

lemma not_afterScan {o : HostOp} (r : HostResp o) (ho : o ≠ .inr .scan) :
    ¬ AfterScan (h ++ [⟨o, r⟩]) := by
  rintro ⟨t, busses, he⟩
  obtain ⟨-, hlast⟩ := List.append_inj' he rfl
  injection hlast with hev
  injection hev with hop
  exact ho hop

lemma inside_sat {p : HostProgram α} (hp : Calls (· ≠ .inr .overrun) p) :
    Sat NotChosen (fun _ _ => True) h p := by
  induction p generalizing h with
  | ret a => trivial
  | call o k ih => exact ⟨fun ho => absurd ho hp.1, fun r => ih r (hp.2 r)⟩
  | stop => trivial

/-- Without scans, it stays as it was. -/
lemma unscanned_sat {p : HostProgram α} (hp : Calls (· ≠ .inr .scan) p) (hh : ¬ AfterScan h) :
    Sat NotChosen (fun h' _ => ¬ AfterScan h') h p := by
  induction p generalizing h with
  | ret a => exact hh
  | call o k ih => exact ⟨fun _ => hh, fun r => ih r (hp.2 r) (not_afterScan r hp.1)⟩
  | stop => trivial

/-- The first call leaves the scan behind. -/
lemma call_sat {o : HostOp} {k : HostResp o → HostProgram α} (ho : o ≠ .inr .overrun)
    (hp : Calls (· ≠ .inr .scan) (.call o k)) :
    Sat NotChosen (fun h' _ => ¬ AfterScan h') h (.call o k) :=
  ⟨fun he => absurd he ho, fun r => unscanned_sat (hp.2 r) (not_afterScan r hp.1)⟩

lemma element_inside (argv : List Bytes) (i : ℕ) : Calls (· ≠ .inr .overrun) (element argv i) :=
  element_calls fun h => by cases h

lemma element_unscanned (argv : List Bytes) (i : ℕ) : Calls (· ≠ .inr .scan) (element argv i) :=
  element_calls fun h => by cases h

lemma element_sat (argv : List Bytes) (i : ℕ) :
    Sat NotChosen (fun h' s => ¬ AfterScan h' ∧ argv.getD i [] = s) h (element argv i) := by
  refine keeps_iff.mpr ⟨fun t o hi he => ?_, fun t s hr => ⟨?_, getD_of_runs hr⟩,
    fun _ _ => trivial⟩
  · exact absurd he ((element_inside argv i).issues hi)
  · exact (call_sat (h := h) (fun he => by cases he) (element_unscanned argv i)).runs hr

lemma scanf_inside : (.inr .scanf : HostOp) ≠ .inr .overrun := fun h => by cases h

lemma usb_inside (o : Op) : (.inl o : HostOp) ≠ .inr .overrun := fun h => by cases h

lemma argv_inside {i : ℕ} : (.inr (.argv i) : HostOp) ≠ .inr .overrun := fun h => by cases h

lemma overrun_unscanned : (.inr .overrun : HostOp) ≠ .inr .scan := fun h => by cases h

lemma usb_unscanned (o : Op) : (.inl o : HostOp) ≠ .inr .scan := fun h => by cases h

end Parts

/-! ### The commands -/

section Commands

variable {m : Machine} {cmd : Bytes} {argv : List Bytes} {h : HostTrace}

lemma massStorageDevice_inside (devNo : ℤ) :
    Calls (· ≠ .inr .overrun) (massStorageDevice cmd argv devNo) := by
  refine calls_bind updateScan_mass fun r => calls_ite (fun _ => trivial) fun _ => ?_
  exact calls_ite (fun _ => calls_bind (element_inside _ _) fun _ => trivial) fun _ => trivial

/-- Every character is a device here, but no such device is ever found. -/
lemma massStorageCommand_inside : Calls (· ≠ .inr .overrun) (massStorageCommand cmd argv) := by
  have hchar : Calls (· ≠ .inr .overrun) (element argv 2 >>= fun s =>
      if s.length ≠ 4 ∨ strncmp s strDev 3 ≠ 0 then pure noResult
      else massStorageDevice cmd argv (charDevNo s)) :=
    calls_bind (element_inside _ _) fun s => calls_ite (fun _ => trivial)
      fun _ => massStorageDevice_inside _
  refine calls_ite (fun _ => calls_ite (fun _ => hchar) fun _ => ?_) fun _ => ?_
  · refine calls_ite (fun _ => trivial) fun _ => calls_bind (element_inside _ _) fun s₁ => ?_
    refine calls_ite (fun _ => ?_) fun _ => massStorageDevice_inside _
    refine ⟨scanf_inside, fun yesno => calls_ite (fun _ => trivial) fun _ => ?_⟩
    exact massStorageDevice_inside _
  · exact calls_ite (fun _ => massStorageDevice_inside _) fun _ => calls_ite (fun _ => trivial)
      fun _ => hchar

lemma scanCommand_inside : Calls (· ≠ .inr .overrun) (scanCommand argv) := by
  have hlist : Calls (· ≠ .inr .overrun) (updateScan false (-2) false >>= fun _ =>
      (pure 0 : HostProgram ℤ)) :=
    calls_bind (updateScan_inside (.inr rfl)) fun _ => trivial
  refine calls_ite (fun _ => trivial) fun _ => ?_
  by_cases hthree : argv.length = 3
  · simp only [if_pos hthree]
    refine calls_bind (element_inside _ _) fun s => calls_ite (fun _ => ?_) fun _ => hlist
    exact calls_bind updateScan_mass fun _ => hlist
  · simp only [if_neg hthree]
    exact hlist

/-- The device that was looked for has been asked who it is. -/
lemma commandDevice_sat (target : Bytes) :
    Sat NotChosen (fun h' dev => dev ≠ .null → ¬ AfterScan h') h (commandDevice target) := by
  refine keeps_bind.mpr ⟨fun he => absurd he scan_inside, fun busses => ?_⟩
  refine keeps_ite (fun hnull hne => absurd rfl hne) fun hnull => keeps_bind.mpr ?_
  have hcalls : Calls (· ≠ .inr .scan) (usb (amlUsbIdentifyHost
      ⟨amlGetDeviceHandle worldCup target busses, 4, List.replicate 4 0, 0, 0⟩)) :=
    usb_calls usb_unscanned _
  unfold amlUsbIdentifyHost at hcalls ⊢
  rw [openUsbDevice_eq hnull] at hcalls ⊢
  refine (call_sat (usb_inside _) hcalls).mono fun h' r hh' => ?_
  exact keeps_ite (fun _ _ => hh') fun _ => keeps_ite (fun _ _ => hh') fun _ _ => hh'

lemma amlSetSn_sat (src target usid : Bytes) :
    Sat NotChosen (fun _ _ => True) h (amlSetSn src target usid) := by
  refine keeps_bind.mpr ((commandDevice_sat target).mono fun h' dev hdev => ?_)
  refine keeps_ite (fun _ => trivial) fun hnull => keeps_ite (fun _ => ?_) fun _ => inside_sat ?_
  · exact ⟨fun _ => hdev hnull, fun e => e.elim⟩
  refine calls_bind (sendCommand_calls usb_inside _ _ _ _) fun r => ?_
  refine calls_bind (sendCommand_calls usb_inside _ _ _ _) fun r' => calls_ite (fun _ => trivial)
    fun _ => ?_
  exact calls_ite (fun _ => trivial) fun _ => trivial

lemma serialDevice_sat (devNo : ℤ) :
    Sat NotChosen (fun _ _ => True) h (serialDevice m cmd argv devNo) := by
  refine keeps_bind.mpr ⟨fun he => absurd he scan_inside, fun busses => ?_⟩
  refine keeps_ite (fun _ => trivial) fun _ => keeps_ite (fun _ => ?_) fun _ =>
    keeps_ite (fun _ => ?_) fun _ => trivial
  · exact inside_sat (calls_bind (getSn_calls usb_inside scan_inside _ _) fun _ => trivial)
  · refine keeps_bind.mpr ((element_sat argv _).mono fun h' usid _ => ?_)
    exact keeps_bind.mpr ((amlSetSn_sat _ _ _).mono fun _ _ _ => trivial)

lemma serialCommand_sat (devNo : ℤ) :
    Sat NotChosen (fun _ _ => True) h (serialCommand m cmd argv devNo) := by
  refine keeps_ite (fun _ => serialDevice_sat _) fun _ => keeps_ite (fun _ => ?_) fun _ =>
    keeps_ite (fun _ => trivial) fun _ => serialDevice_sat _
  refine keeps_bind.mpr ((element_sat argv _).mono fun h' s _ => ?_)
  exact keeps_ite (fun _ => trivial) fun _ => serialDevice_sat _

lemma downDevice_inside {device : Device} {devNo : ℤ} (hno : 0 ≤ devNo ∨ devNo = -2) :
    Calls (· ≠ .inr .overrun) (downDevice m argv device devNo) := by
  refine calls_bind (updateScan_inside hno) fun r => calls_ite (fun _ => trivial) fun _ => ?_
  refine calls_ite (fun _ => ?_) fun _ => trivial
  exact calls_bind (element_inside _ _) fun _ => calls_bind (usb_calls usb_inside _)
    fun _ => trivial

lemma downCommand_inside {device : Device} (hcmd : argv.getD 1 [] = cmdDown)
    (hzero : ¬ BeforeZero argv) : Calls (· ≠ .inr .overrun) (downCommand m argv device) := by
  refine calls_ite (fun hfour => ?_) fun _ => calls_ite (fun _ => trivial)
    fun _ => downDevice_inside (.inl le_rfl)
  refine calls_bind_of_runs (element_inside _ _) fun t s hr => calls_ite (fun _ => trivial)
    fun hdev => downDevice_inside ?_
  obtain rfl := getD_of_runs hr
  obtain ⟨hlen, hname⟩ := not_or.mp hdev
  by_contra hno
  obtain ⟨hlow, hnone⟩ := not_or.mp hno
  exact hzero ⟨hfour, hcmd, not_not.mp hlen, not_not.mp hname, not_le.mp hlow, hnone⟩

lemma dispatch_sat {device : Device} {devNo : ℤ} {base : ℕ} {cmdArgc : ℤ}
    (hcmd : argv.getD 1 [] = cmd) (hzero : ¬ BeforeZero argv) :
    Sat NotChosen (fun _ _ => True) h
      (dispatch m cmd argv device devNo (elements argv base) cmdArgc) := by
  have hguard : ∀ argc, Guarded (· ≠ .inr .overrun) (elements argv base) argc :=
    fun argc j _ => element_inside _ _
  have husb : ∀ {α : Type} (p : Program α), Calls (· ≠ .inr .overrun) (usb p) :=
    fun p => usb_calls usb_inside p
  have hlast := element_inside argv (argv.length - 1)
  unfold dispatch
  refine keeps_ite (fun _ => inside_sat (runAndRreg_calls usb_inside (hguard _))) fun _ => ?_
  refine keeps_ite (fun _ => inside_sat (setPassword_calls usb_inside (element_inside _ _)))
    fun _ => ?_
  refine keeps_ite (fun _ => keeps_ite (fun _ => trivial) fun hargc => ?_) fun _ => ?_
  · -- the page is looked at after an argument has been
    have hcalls : Calls (· ≠ .inr .scan) (updateSubCmdGetChipinfo m.junk ⟨device, 0, [], 0, 0⟩
        (elements argv base) cmdArgc) :=
      getChipinfo_calls usb_unscanned overrun_unscanned
        (fun j _ => element_unscanned argv (base + j)) (not_le.mp hargc)
    exact (call_sat argv_inside hcalls).mono fun _ _ _ => trivial
  refine keeps_ite (fun _ => inside_sat (calls_bind (husb _) fun _ => trivial)) fun _ => ?_
  refine keeps_ite (fun _ => inside_sat (readWrite_calls usb_inside (hguard _))) fun _ => ?_
  refine keeps_ite (fun _ => inside_sat massStorageCommand_inside) fun _ => ?_
  refine keeps_ite (fun _ => inside_sat ?_) fun _ => ?_
  · refine calls_bind (calls_ite (fun _ => ?_) fun _ => trivial) fun idLen =>
      calls_bind (husb _) fun _ => trivial
    exact calls_bind (element_inside _ _) fun _ => trivial
  refine keeps_ite (fun _ => inside_sat (calls_bind (husb _) fun _ => trivial)) fun _ => ?_
  refine keeps_ite (fun _ => inside_sat (calls_bind hlast fun s => calls_bind (husb _)
    fun _ => trivial)) fun _ => ?_
  refine keeps_ite (fun _ => inside_sat (calls_bind (husb _) fun _ => trivial)) fun _ => ?_
  refine keeps_ite (fun _ => inside_sat (calls_bind (husb _) fun _ => trivial)) fun _ => ?_
  refine keeps_ite (fun _ => serialCommand_sat devNo) fun _ => ?_
  refine keeps_ite (fun _ => keeps_ite (fun _ => trivial) fun _ => inside_sat ?_) fun _ => ?_
  · exact mwrite_calls usb_inside (hguard _) (element_inside _ _)
      fun t path hpath hfile j hj => element_inside _ _
  refine keeps_ite (fun _ => keeps_ite (fun _ => trivial) fun _ => inside_sat ?_) fun _ => ?_
  · exact partition_calls usb_inside (hguard _) (element_inside _ _) (element_inside _ _)
  refine keeps_ite (fun _ => inside_sat (calls_bind hlast fun s => husb _)) fun _ => ?_
  refine keeps_ite (fun hdown => inside_sat (downCommand_inside (hcmd.trans hdown) hzero))
    fun _ => ?_
  refine keeps_ite (fun _ => inside_sat (mread_calls usb_inside (hguard _))) fun _ => ?_
  refine keeps_ite (fun _ => inside_sat (calls_bind (imagePath_calls (hguard _)) fun _ => husb _))
    fun _ => ?_
  exact keeps_ite (fun _ => inside_sat (calls_bind (imagePath_calls (hguard _)) fun _ => husb _))
    fun _ => trivial

lemma runOn_sat {device : Device} {devNo : ℤ} {base : ℕ} {cmdArgc : ℤ}
    (hcmd : argv.getD 1 [] = cmd) (hzero : ¬ BeforeZero argv) (hno : 0 ≤ devNo ∨ devNo = -2) :
    Sat NotChosen (fun _ _ => True) h (runOn m cmd argv device devNo base cmdArgc) := by
  have hfound : Calls (· ≠ .inr .overrun) (if device = .null then updateScan true devNo false
      else pure (0, none)) :=
    calls_ite (fun _ => updateScan_inside hno) fun _ => trivial
  refine keeps_bind.mpr ((inside_sat hfound).mono fun h' r _ => ?_)
  exact keeps_ite (fun _ => trivial) fun _ => keeps_ite (fun _ => trivial)
    fun _ => dispatch_sat hcmd hzero

lemma main_sat (hzero : ¬ BeforeZero argv) : Sat NotChosen (fun _ _ => True) h (main m argv) := by
  refine keeps_ite (fun _ => trivial) fun _ => keeps_bind.mpr ((element_sat argv 1).mono
    fun h₁ cmd hcmd => ?_)
  refine keeps_ite (fun _ => trivial) fun _ => keeps_ite (fun _ => inside_sat scanCommand_inside)
    fun _ => keeps_ite (fun _ => runOn_sat hcmd.2 hzero (.inl le_rfl)) fun _ => ?_
  refine keeps_bind.mpr ((element_sat argv 2).mono fun h₂ s _ => ?_)
  cases hdev : deviceArg s with
  | err => trivial
  | number devNo => exact runOn_sat hcmd.2 hzero (.inl (deviceArg_nonneg hdev))
  | path devPath =>
    refine keeps_bind.mpr ⟨fun he => absurd he scan_inside, fun busses => ?_⟩
    exact runOn_sat hcmd.2 hzero (.inr rfl)
  | ordinary => exact runOn_sat hcmd.2 hzero (.inl le_rfl)

end Commands

/-! ### The device before the first -/

/-- A character before `'0'` is no digit. -/
lemma digit_char {c : UInt8} (h : charVal c < 48) : Update.digit c = none := by
  have hc := c.toNat_lt
  have hout : c.toNat < 48 ∨ 128 ≤ c.toNat := by
    unfold charVal at h
    split_ifs at h
    · omega
    · omega
  simp only [Update.digit, UInt8.le_iff_toNat_le, UInt8.reduceToNat]
  rw [if_neg (by omega), if_neg (by omega), if_neg (by omega)]

lemma strtoll_char {c : UInt8} (h : charVal c < 48) : TextCommands.strtoll [c] 10 = 0 := by
  have hdigits : ∀ base, Update.digits base [c] 0 = 0 := fun base => by
    rw [Update.digits, digit_char h]
  have hzero : c ≠ 48 := fun he => absurd h (by rw [he]; decide)
  unfold TextCommands.strtoll
  cases hspace : Update.isSpace c with
  | true => simp [hspace, Update.numberPrefix, Update.digits]
  | false =>
    by_cases hsign : c = 45 ∨ c = 43
    · rcases hsign with rfl | rfl
      · decide
      · decide
    · simp_all [Update.numberPrefix]

lemma deviceArg_beforeZero {argv : List Bytes} (h : BeforeZero argv) :
    deviceArg (argv.getD 2 []) = .number 0 := by
  obtain ⟨-, -, hlen, hname, hlow, -⟩ := h
  revert hlen hname hlow
  generalize argv.getD 2 [] = s
  intro hlen hname hlow
  obtain ⟨l, rfl⟩ := (strncmp_eq_zero (by decide : (0 : UInt8) ∉ strDev) s).mp hname
  obtain ⟨c, rfl⟩ : ∃ c, l = [c] := List.length_eq_one_iff.mp (by
    have : strDev.length = 3 := rfl
    rw [List.length_append] at hlen
    omega)
  have hchar : charVal c < 48 := by
    have hdev : charDevNo (strDev ++ [c]) = charVal c - 48 := rfl
    omega
  have hatoi : atoi ((strDev ++ [c]).drop 3) = 0 := by
    change i32 (TextCommands.strtoll [c] 10) = 0
    rw [strtoll_char hchar]
    rfl
  unfold deviceArg
  rw [if_pos ⟨by rw [hlen]; decide, rfl⟩, if_neg (by rw [hlen]; decide)]
  dsimp only
  rw [hatoi, if_neg (by decide)]

lemma boards_count : (amlScanUsbX3Devices worldCup (fun _ => []) 16 boards).1 = 16 := by
  rw [amlScanUsbX3Devices_eq]
  rfl

lemma beforeZero_chooses {argv : List Bytes} (m : Machine) (h : BeforeZero argv) :
    Chooses m argv (charDevNo (argv.getD 2 [])) 16 := by
  have htakes : TakesDevice (deviceArg (argv.getD 2 [])) := by
    rw [deviceArg_beforeZero h]
    exact (by decide : (0 : ℤ) < 16)
  obtain ⟨hfour, hcmd, hlen, hname, hlow, hne⟩ := h
  obtain ⟨t, device, devNo, hmain⟩ := @main_device m argv (by omega) (by rw [hcmd]; decide)
    (by rw [hcmd]; decide) htakes
  rw [hcmd] at hmain
  have hdown : Steps (downCommand m argv device) ([⟨.inr (.argv 2), ()⟩] ++ [])
      (downDevice m argv device (charDevNo (argv.getD 2 []))) := by
    rw [downCommand, if_pos hfour]
    refine (element_run (by omega)).steps_bind ?_
    rw [if_neg (not_or.mpr ⟨not_not.mpr hlen, not_not.mpr hname⟩)]
    exact .refl _
  refine ⟨_, true, false, boards, _, hmain _ _ hdown, ?_⟩
  unfold chosenAmong
  dsimp only
  rw [if_neg Bool.false_ne_true, boards_count, if_neg (by decide), if_neg hne, if_neg (by omega)]
  rfl

/-- **The device taken is one of the list exactly if** it was not named to `down` by a character
before `'0'`. The other parsers refuse such a number, or their scan finds no list. -/
theorem choice_inBounds_iff (m : Machine) (argv : List Bytes) :
    (∀ devNo nDevices, Chooses m argv devNo nDevices →
      0 ≤ devNo ∧ devNo < nDevices ∧ nDevices ≤ 16) ↔ ¬ BeforeZero argv := by
  constructor
  · intro h hzero
    have hnonneg := (h _ _ (beforeZero_chooses m hzero)).1
    have hlow := hzero.2.2.2.2.1
    omega
  · rintro hzero devNo nDevices ⟨t, result, mass, busses, K, hsteps, hchosen⟩
    obtain ⟨hlt, hle, -⟩ := chosen_bounds hchosen
    refine ⟨?_, hlt, hle⟩
    by_contra hlow
    obtain ⟨k, hk⟩ := updateScan_outside hchosen (not_le.mp hlow) (K := K)
    have hover : Issues (main m argv) (t ++ [⟨.inr .scan, busses⟩]) (.inr .overrun) :=
      ⟨k, hsteps.trans hk⟩
    exact (main_sat (h := []) hzero).issues hover rfl ⟨t, busses, rfl⟩

/-- `update down dev/ file` -/
def downLine : List Bytes :=
  [ascii ['u', 'p', 'd', 'a', 't', 'e'], cmdDown, ascii ['d', 'e', 'v', '/'],
    ascii ['f', 'i', 'l', 'e']]

/-- The character before `'0'` stands for the entry before the first. -/
theorem choice_not_inBounds :
    Chooses noMachine downLine (-1) 16 ∧
      ¬ ∀ m argv devNo nDevices, Chooses m argv devNo nDevices →
        0 ≤ devNo ∧ devNo < nDevices ∧ nDevices ≤ 16 := by
  have hzero : BeforeZero downLine := by unfold BeforeZero; decide
  have hchooses : Chooses noMachine downLine (-1) 16 := beforeZero_chooses noMachine hzero
  exact ⟨hchooses, fun h => absurd (h _ _ _ _ hchooses).1 (by decide)⟩

end AmlogicUpdate.DeviceChoice

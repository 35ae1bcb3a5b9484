import AmlogicUpdate.DeviceChoice

/-!
What the callers of `update_scan` make of its result.

A scan returns 0 or a negative number. Two callers take 0 for success and two take only a
positive number for it; of these two, one asks for devices that are never found anyway, and the
other is `down`.
-/

namespace AmlogicUpdate.ScanCallers

open Interaction CData Usb UsbRomDrv Scan Host Arguments CommandLine DeviceChoice

/-- The callers that look at the result: `scan` for mass storage, the search for the device of a
command, `msdev` with `msget` and `msset`, and `down`. -/
inductive Caller
  | scan
  | lookup
  | massStorage
  | down
  deriving DecidableEq

/-- How each calls `updateScan`. -/
def Caller.scans : Caller → ℤ → HostProgram (ℤ × Option Device)
  | .scan, _ => updateScan false (-2) true
  | .lookup, devNo => updateScan true devNo false
  | .massStorage, devNo => updateScan false devNo true
  | .down, devNo => updateScan true devNo false

/-- Whether it goes on as with a device found; `device` is the one `down` was given. -/
def Caller.takes (device : Device) : Caller → ℤ × Option Device → Bool
  | .scan, r => !(r.1 ≠ 0)
  | .lookup, r => !(r.1 ≠ 0) && r.2.getD .null ≠ .null
  | .massStorage, r => !(r.1 ≤ 0)
  | .down, r => !(r.1 ≤ 0) && r.2.getD device ≠ .null

/-- The devices a scan lists; none of those for mass storage. -/
def listed (scanMassStorage : Bool) (busses : List UsbBus) : List (UInt32 × UsbDevice) :=
  if scanMassStorage then [] else (matching busses).take 16

/-- The device of that number is attached, and is there when it is looked for by its name. -/
def FoundNumber (scanMassStorage : Bool) (devNo : ℤ) (t : HostTrace) : Prop :=
  0 ≤ devNo ∧ ∃ busses busses' x, (listed scanMassStorage busses)[devNo.toNat]? = some x ∧
    t = [⟨.inr .scan, busses⟩, ⟨.inr .scan, busses'⟩] ∧ ∃ y ∈ matching busses', nameOf y = nameOf x

/-- The scan found what was asked for: any device at all, or the one of that number. -/
def Caller.Found : Caller → ℤ → HostTrace → Prop
  | .scan, _, t => ∃ busses, t = [⟨.inr .scan, busses⟩] ∧ listed true busses ≠ []
  | .lookup, devNo, t => FoundNumber false devNo t
  | .massStorage, devNo, t => FoundNumber true devNo t
  | .down, devNo, t => FoundNumber false devNo t

/-! ### The code of the callers -/

section Code

variable {m : Machine} {cmd : Bytes} {argv : List Bytes} {device : Device} {devNo : ℤ}

lemma lookup_code (base : ℕ) (cmdArgc : ℤ) :
    runOn m cmd argv .null devNo base cmdArgc = Caller.lookup.scans devNo >>= fun r =>
      if Caller.lookup.takes device r then
        dispatch m cmd argv (r.2.getD .null) devNo (elements argv base) cmdArgc
      else pure noResult := by
  unfold runOn
  rw [if_pos rfl]
  refine congrArg (updateScan true devNo false >>= ·) (funext fun r => ?_)
  by_cases hret : r.1 = 0
  · by_cases hnull : r.2.getD .null = .null
    · simp [Caller.takes, hret, hnull]
    · simp [Caller.takes, hret, hnull]
  · simp [Caller.takes, hret]

lemma massStorage_code :
    massStorageDevice cmd argv devNo = Caller.massStorage.scans devNo >>= fun r =>
      if Caller.massStorage.takes device r then
        if cmd = cmdMsset then do
          let _ ← element argv (argv.length - 1)
          pure noResult
        else pure noResult
      else pure noResult := by
  refine congrArg (updateScan false devNo true >>= ·) (funext fun r => ?_)
  by_cases hret : r.1 ≤ 0
  · simp [Caller.takes, hret]
  · simp [Caller.takes, hret]

lemma down_code :
    downDevice m argv device devNo = Caller.down.scans devNo >>= fun r =>
      if Caller.down.takes device r then do
        let downFile ← element argv (if argv.length = 4 then 3 else 2)
        let _ ← usb (Update.writeMediaFile m.files m.junk m.turns ⟨r.2.getD device, 0, [], 0, 0⟩
          downFile)
        pure noResult
      else pure noResult := by
  refine congrArg (updateScan true devNo false >>= ·) (funext fun r => ?_)
  by_cases hret : r.1 ≤ 0
  · simp [Caller.takes, hret]
  · by_cases hnull : r.2.getD device = .null
    · simp [Caller.takes, hret, hnull]
    · simp [Caller.takes, hret, hnull]

end Code

/-! ### The results of a scan -/

section Results

variable {devNo : ℤ} {t : HostTrace} {r : ℤ × Option Device}

lemma listed_length (busses : List UsbBus) :
    ((listed false busses).length : ℤ) =
      (amlScanUsbX3Devices worldCup (fun _ => []) 16 busses).1 := by
  rw [amlScanUsbX3Devices_eq]
  simp [listed]

lemma listed_entry {busses : List UsbBus} {i : ℕ} {x : UInt32 × UsbDevice}
    (hx : (listed false busses)[i]? = some x) :
    (amlScanUsbX3Devices worldCup (fun _ => []) 16 busses).2 i = nameOf x := by
  obtain ⟨hi, rfl⟩ := List.getElem?_eq_some_iff.mp hx
  have hlen : i < (((matching busses).map nameOf).take 16).length := by
    simpa [listed] using hi
  have hinside := fill_inside (fun _ => []) 0 _ hlen
  rw [Nat.zero_add] at hinside
  rw [amlScanUsbX3Devices_eq]
  refine hinside.trans ?_
  simp [listed]

lemma handle_ne_null_iff {target : Bytes} {busses : List UsbBus} :
    amlGetDeviceHandle worldCup target busses ≠ .null ↔
      ∃ y ∈ matching busses, nameOf y = target := by
  rw [amlGetDeviceHandle_eq]
  cases hfind : (matching busses).find? (nameOf · = target) with
  | none =>
    have hnone := List.find?_eq_none.mp hfind
    refine iff_of_false (fun h => h rfl) ?_
    rintro ⟨y, hy, hname⟩
    exact hnone y hy (decide_eq_true hname)
  | some y =>
    refine iff_of_true (dev_ne_null _) ⟨y, List.mem_of_find?_eq_some hfind, ?_⟩
    exact of_decide_eq_true (List.find?_some (p := (nameOf · = target)) hfind)

lemma chosen_count {busses : List UsbBus} {n : ℤ}
    (h : chosenAmong true devNo false busses = .ok n) : n = (listed false busses).length := by
  rw [listed_length]
  unfold chosenAmong at h
  dsimp only at h
  rw [if_neg Bool.false_ne_true] at h
  split_ifs at h
  injection h with h
  exact h.symm

lemma chosen_error {result mass : Bool} {busses : List UsbBus} {ret : ℤ}
    (h : chosenAmong result devNo mass busses = .error ret) : ret ≤ 0 := by
  unfold chosenAmong at h
  dsimp only at h
  split_ifs at h
  all_goals
    injection h with h
    omega

lemma scans_inj {a a' b b' : List UsbBus} (h : ([⟨.inr .scan, a⟩, ⟨.inr .scan, a'⟩] : HostTrace) =
    [⟨.inr .scan, b⟩, ⟨.inr .scan, b'⟩]) : a = b ∧ a' = b' := by
  obtain ⟨h₁, h₂⟩ := List.cons.inj h
  obtain ⟨h₂, -⟩ := List.cons.inj h₂
  injection h₁ with _ h₁
  injection h₂ with _ h₂
  exact ⟨h₁, h₂⟩

/-- A scan for a number looks for the device again, or has nothing to return. -/
lemma updateScan_runs (hr : Runs (updateScan true devNo false) t r) :
    (∃ busses, t = [⟨.inr .scan, busses⟩] ∧ r.1 ≤ 0 ∧ r.2 = none) ∨
      ∃ busses busses', 0 ≤ devNo ∧ devNo < (listed false busses).length ∧
        t = [⟨.inr .scan, busses⟩, ⟨.inr .scan, busses'⟩] ∧
        r = (0, some (amlGetDeviceHandle worldCup
          ((amlScanUsbX3Devices worldCup (fun _ => []) 16 busses).2 devNo.toNat) busses')) := by
  rw [updateScan_eq] at hr
  obtain ⟨busses, t', rfl, hrest⟩ := runs_call.mp hr
  dsimp only at hrest
  cases hchosen : chosenAmong true devNo false busses with
  | error ret =>
    rw [hchosen] at hrest
    obtain ⟨rfl, rfl⟩ := runs_ret.mp hrest
    exact .inl ⟨busses, rfl, chosen_error hchosen, rfl⟩
  | ok n =>
    rw [hchosen] at hrest
    dsimp only at hrest
    rw [if_neg Bool.false_ne_true, candidate] at hrest
    by_cases hno : 0 ≤ devNo ∧ devNo < 16
    · rw [if_pos hno] at hrest
      obtain ⟨busses', t₁, rfl, hret⟩ := runs_call.mp hrest
      obtain ⟨rfl, rfl⟩ := runs_ret.mp hret
      have hlt := (chosen_bounds hchosen).1
      rw [chosen_count hchosen] at hlt
      exact .inr ⟨busses, busses', hno.1, hlt, rfl, rfl⟩
    · rw [if_neg hno] at hrest
      obtain ⟨e, -⟩ := runs_call.mp hrest
      exact e.elim

/-- What the result of a scan for a number says, read as 0 and a device. -/
lemma updateScan_found (hr : Runs (updateScan true devNo false) t r) :
    r.1 ≤ 0 ∧ (r.1 = 0 ∧ r.2.getD .null ≠ .null ↔ FoundNumber false devNo t) := by
  rcases updateScan_runs hr with ⟨busses, rfl, hle, hnone⟩ | ⟨busses, busses', hlow, hlt, rfl, rfl⟩
  · refine ⟨hle, iff_of_false (fun h => h.2 ?_) ?_⟩
    · rw [hnone]
      rfl
    · rintro ⟨-, b, b', x, -, ht, -⟩
      simp at ht
  · refine ⟨le_rfl, ?_⟩
    obtain ⟨x, hx⟩ : ∃ x, (listed false busses)[devNo.toNat]? = some x :=
      ⟨_, List.getElem?_eq_getElem (by omega)⟩
    simp only [Option.getD_some, true_and, listed_entry hx, handle_ne_null_iff]
    constructor
    · exact fun h => ⟨hlow, busses, busses', x, hx, rfl, h⟩
    · rintro ⟨-, b, b', x', hx', ht, y, hy, hname⟩
      obtain ⟨rfl, rfl⟩ := scans_inj ht
      rw [hx] at hx'
      exact ⟨y, hy, hname.trans (congrArg nameOf (Option.some.inj hx').symm)⟩

end Results

/-! ### The callers -/

section Callers

variable {device : Device} {devNo : ℤ} {t : HostTrace} {r : ℤ × Option Device}

/-- A scan for mass storage lists nothing. -/
lemma updateScan_mass_runs {result : Bool} (hr : Runs (updateScan result devNo true) t r) :
    r.1 = -182 := by
  rw [updateScan_eq] at hr
  obtain ⟨busses, t', rfl, hrest⟩ := runs_call.mp hr
  dsimp only at hrest
  rw [chosenAmong_mass] at hrest
  rw [(runs_ret.mp hrest).2]

lemma not_foundNumber_mass : ¬ FoundNumber true devNo t := by
  rintro ⟨-, busses, busses', x, hx, -⟩
  simp [listed] at hx

lemma scan_agrees (hr : Runs (Caller.scan.scans devNo) t r) :
    Caller.scan.takes device r = true ↔ Caller.scan.Found devNo t := by
  refine iff_of_false ?_ ?_
  · rw [Caller.takes, updateScan_mass_runs hr]
    decide
  · rintro ⟨busses, -, hlisted⟩
    exact hlisted rfl

lemma massStorage_agrees (hr : Runs (Caller.massStorage.scans devNo) t r) :
    Caller.massStorage.takes device r = true ↔ Caller.massStorage.Found devNo t := by
  refine iff_of_false ?_ not_foundNumber_mass
  rw [Caller.takes, updateScan_mass_runs hr]
  decide

lemma lookup_agrees (hr : Runs (Caller.lookup.scans devNo) t r) :
    Caller.lookup.takes device r = true ↔ Caller.lookup.Found devNo t := by
  rw [Caller.Found, ← (updateScan_found hr).2]
  simp [Caller.takes]

/-- The result is never positive. -/
lemma down_takes (hr : Runs (Caller.down.scans devNo) t r) :
    Caller.down.takes device r = false := by
  have hle := (updateScan_found hr).1
  simp [Caller.takes, hle]

end Callers

/-- **A caller goes on as with a device found exactly if the scan found it**, but for `down`,
which never does. -/
theorem callers_agree_iff (c : Caller) (device : Device) (devNo : ℤ) {t : HostTrace}
    {r : ℤ × Option Device} (hr : Runs (c.scans devNo) t r) :
    (c.takes device r = true ↔ c.Found devNo t) ↔ ¬ (c = .down ∧ c.Found devNo t) := by
  cases c with
  | scan => exact iff_of_true (scan_agrees hr) fun h => absurd h.1 (by decide)
  | lookup => exact iff_of_true (lookup_agrees hr) fun h => absurd h.1 (by decide)
  | massStorage => exact iff_of_true (massStorage_agrees hr) fun h => absurd h.1 (by decide)
  | down =>
    rw [down_takes hr]
    simp

/-- A command finds the first of the boards. -/
theorem callers_agree_iff_lookup : ∃ t r, Runs (Caller.lookup.scans 0) t r ∧
    Caller.lookup.takes .null r = true ∧ Caller.lookup.Found 0 t := by
  obtain ⟨t, r, hr, hzero, n, hdev⟩ := updateScan_finds le_rfl (by decide : (0 : ℤ) < 16)
  have htakes : Caller.lookup.takes .null r = true := by
    simp [Caller.takes, hzero, hdev]
  have hagree := (callers_agree_iff .lookup .null 0 hr).mpr fun h => absurd h.1 (by decide)
  exact ⟨t, r, hr, htakes, hagree.mp htakes⟩

/-- `down` opens no file, whatever device it was given and whatever is attached. -/
lemma down_writes_nothing (m : Machine) (argv : List Bytes) (device : Device) :
    Calls (fun o => ∀ q, o ≠ .inl q) (downCommand m argv device) := by
  have hquery : ∀ x : Query, ∀ q : Op, (.inr x : HostOp) ≠ .inl q := fun _ _ h => by cases h
  have hdown : ∀ devNo, Calls (fun o => ∀ q, o ≠ .inl q) (downDevice m argv device devNo) := by
    intro devNo
    rw [down_code]
    refine calls_bind_of_runs (updateScan_calls (hquery _) (hquery _) _ _ _) fun t r hr => ?_
    rw [down_takes hr]
    trivial
  refine calls_ite (fun _ => ?_) fun _ => calls_ite (fun _ => trivial) fun _ => hdown 0
  exact calls_bind (element_calls (hquery _)) fun s => calls_ite (fun _ => trivial)
    fun _ => hdown _

theorem down_not_agrees :
    (∃ t r, Runs (Caller.down.scans 0) t r ∧ Caller.down.Found 0 t ∧
      ∀ device, Caller.down.takes device r = false) ∧
    (∀ t o, ¬ Issues (downCommand noMachine downLine (.dev 0)) t (.inl o)) ∧
    ¬ ∀ (c : Caller) device devNo t r, Runs (c.scans devNo) t r →
      (c.takes device r = true ↔ c.Found devNo t) := by
  obtain ⟨t, r, hr, hzero, n, hdev⟩ := updateScan_finds le_rfl (by decide : (0 : ℤ) < 16)
  have hfound : Caller.down.Found 0 t :=
    (updateScan_found hr).2.mp ⟨hzero, by rw [hdev]; exact dev_ne_null n⟩
  refine ⟨⟨t, r, hr, hfound, fun device => down_takes hr⟩, fun t o hi => ?_, fun h => ?_⟩
  · exact (down_writes_nothing _ _ _).issues hi o rfl
  · have htakes := (h .down .null 0 t r hr).mpr hfound
    rw [down_takes hr] at htakes
    cases htakes

end AmlogicUpdate.ScanCallers

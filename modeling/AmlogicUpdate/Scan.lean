import Mathlib.Data.List.Flatten
import AmlogicUpdate.Usb

/-!
`AmlUsbScanX3.cpp`: finding the devices of the right kind, and finding one again by the text
printed for it.

Both directions walk the same nested lists and print the same text. The text is injective in
the bus and the device number, which is what makes a printed entry name one device.
-/

namespace AmlogicUpdate.Scan

open CData Usb

/-! ### `%d` -/

/-- `printf` of an `int` in decimal, padded with zeros to a width. -/
def printD (width : ℕ) (z : ℤ) : List Char :=
  if z < 0 then
    let digits := Nat.toDigits 10 z.natAbs
    '-' :: (List.replicate (width - 1 - digits.length) '0' ++ digits)
  else
    let digits := Nat.toDigits 10 z.natAbs
    List.replicate (width - digits.length) '0' ++ digits

example : printD 3 7 = ['0', '0', '7'] := by decide

lemma isDigit_of_mem_digits {n k : ℕ} {c : Char}
    (h : c ∈ List.replicate k '0' ++ Nat.toDigits 10 n) : c.isDigit := by
  rcases List.mem_append.mp h with h | h
  · rw [List.eq_of_mem_replicate h]; decide
  · exact Nat.isDigit_of_mem_toDigits (by decide) (by decide) h

/-- The padding does not change the number. -/
lemma ofDigitChars_digits (k n : ℕ) :
    Nat.ofDigitChars 10 (List.replicate k '0' ++ Nat.toDigits 10 n) 0 = n := by
  rw [Nat.ofDigitChars_append, Nat.ofDigitChars_replicate_zero, Nat.mul_zero,
    Nat.ofDigitChars_ten_toDigits]

/-- A sign or a digit. -/
lemma printD_chars {width : ℕ} {z : ℤ} {c : Char} (h : c ∈ printD width z) :
    c = '-' ∨ c.isDigit := by
  unfold printD at h
  split_ifs at h
  · rcases List.mem_cons.mp h with h | h
    · exact .inl h
    · exact .inr (isDigit_of_mem_digits h)
  · exact .inr (isDigit_of_mem_digits h)

lemma printD_not_mem (width : ℕ) (z : ℤ) {c : Char} (hsign : c ≠ '-') (hc : ¬ c.isDigit) :
    c ∉ printD width z :=
  fun h => (printD_chars h).elim hsign hc

lemma not_isDigit_sign : ¬ '-'.isDigit := by decide

lemma printD_injective (width : ℕ) : Function.Injective (printD width) := by
  intro z w h
  have hcons : ∀ {k l n m : ℕ}, '-' :: (List.replicate k '0' ++ Nat.toDigits 10 n) ≠
      List.replicate l '0' ++ Nat.toDigits 10 m := by
    intro k l n m he
    exact not_isDigit_sign (isDigit_of_mem_digits (he ▸ List.mem_cons_self))
  unfold printD at h
  split_ifs at h with hz hw hw
  · have habs := congrArg (fun l => Nat.ofDigitChars 10 l 0) (List.cons.inj h).2
    simp only [ofDigitChars_digits] at habs
    omega
  · exact absurd h hcons
  · exact absurd h.symm hcons
  · have habs := congrArg (fun l => Nat.ofDigitChars 10 l 0) h
    simp only [ofDigitChars_digits] at habs
    omega

lemma printD_length {width : ℕ} (hwidth : width ≤ 10) {z : ℤ} (hz : z.natAbs < 10 ^ 10) :
    (printD width z).length ≤ 11 := by
  have hdigits : (Nat.toDigits 10 z.natAbs).length ≤ 10 :=
    (Nat.length_toDigits_le_iff (by decide) (by decide)).mpr hz
  unfold printD
  split_ifs <;> simp only [List.length_cons, List.length_append, List.length_replicate] <;> omega

/-! ### The name of a device -/

def strBus : List Char := ['B', 'u', 's', ' ']
def strDevice : List Char := ['D', 'e', 'v', 'i', 'c', 'e', ' ']
def strId : List Char := [' ', 'I', 'D', ' ', '1', 'b', '8', 'e', ':', 'c', '0', '0', '3']

/-- What `"Bus %03d Device %03d: ID %04x:%04x"` comes to; the location is printed as an `int`. -/
def deviceText (location : UInt32) (devnum : UInt8) : List Char :=
  strBus ++ printD 3 (i32 location.toNat) ++ ' ' :: (strDevice ++ printD 3 devnum.toNat ++
    ':' :: strId)

/-- The text in a buffer of 128 bytes. -/
def deviceName (location : UInt32) (devnum : UInt8) : Bytes :=
  (ascii (deviceText location devnum)).take 127

example : deviceName 1 7 = ascii (['B', 'u', 's', ' ', '0', '0', '1', ' ', 'D', 'e', 'v', 'i',
    'c', 'e', ' ', '0', '0', '7'] ++ ':' :: strId) := by decide

lemma deviceText_length (location : UInt32) (devnum : UInt8) :
    (deviceText location devnum).length ≤ 127 := by
  have hloc := location.toNat_lt
  have hnum := devnum.toNat_lt
  have h₁ := printD_length (by decide : 3 ≤ 10) (z := i32 location.toNat)
    (by unfold i32; omega)
  have h₂ := printD_length (by decide : 3 ≤ 10) (z := devnum.toNat) (by omega)
  simp only [deviceText, strBus, strDevice, strId, List.length_append, List.length_cons,
    List.length_nil]
  omega

/-- The whole text fits. -/
lemma deviceName_eq (location : UInt32) (devnum : UInt8) :
    deviceName location devnum = ascii (deviceText location devnum) :=
  List.take_of_length_le (by
    rw [ascii, List.length_map]
    exact deviceText_length location devnum)

lemma ascii_injective {a b : List Char} (ha : ∀ c ∈ a, c.toNat < 2 ^ 8)
    (hb : ∀ c ∈ b, c.toNat < 2 ^ 8) (h : ascii a = ascii b) : a = b := by
  induction a generalizing b with
  | nil => exact (List.map_eq_nil_iff.mp h.symm).symm
  | cons c a ih =>
    cases b with
    | nil => exact nomatch h
    | cons d b =>
      obtain ⟨hcd, hrest⟩ := List.cons.inj h
      have hc := ha c List.mem_cons_self
      have hd := hb d List.mem_cons_self
      have hnat := congrArg UInt8.toNat hcd
      simp only [Nat.toUInt8, UInt8.toNat_ofNat', Nat.mod_eq_of_lt hc, Nat.mod_eq_of_lt hd] at hnat
      rw [Char.toNat_inj.mp hnat, ih (fun x hx => ha x (List.mem_cons_of_mem _ hx))
        (fun x hx => hb x (List.mem_cons_of_mem _ hx)) hrest]

lemma isDigit_toNat_lt {c : Char} (h : c.isDigit) : c.toNat < 2 ^ 8 := by
  simp only [Char.isDigit, Bool.and_eq_true, decide_eq_true_eq] at h
  have := UInt32.le_iff_toNat_le.mp h.2
  exact lt_of_le_of_lt this (by decide)

lemma printD_toNat_lt {width : ℕ} {z : ℤ} {c : Char} (h : c ∈ printD width z) :
    c.toNat < 2 ^ 8 := by
  rcases printD_chars h with rfl | h
  · decide
  · exact isDigit_toNat_lt h

lemma deviceText_toNat_lt {location : UInt32} {devnum : UInt8} {c : Char}
    (h : c ∈ deviceText location devnum) : c.toNat < 2 ^ 8 := by
  have hall : (strBus ++ strDevice ++ strId ++ [' ', ':']).all (·.toNat < 2 ^ 8) := by decide
  have hconst : ∀ d ∈ strBus ++ strDevice ++ strId ++ [' ', ':'], d.toNat < 2 ^ 8 := fun d hd =>
    of_decide_eq_true (List.all_eq_true.mp hall d hd)
  simp only [deviceText, List.mem_append, List.mem_cons] at h
  simp only [List.mem_append, List.mem_cons] at hconst
  rcases h with (h | h) | h | (h | h) | h | h
  · exact hconst c (by simp [h])
  · exact printD_toNat_lt h
  · exact hconst c (by simp [h])
  · exact hconst c (by simp [h])
  · exact printD_toNat_lt h
  · exact hconst c (by simp [h])
  · exact hconst c (by simp [h])

/-- Texts split at the first occurrence of a character. -/
lemma split_at {α : Type} {a b x y : List α} {c : α} (ha : c ∉ a) (hb : c ∉ b)
    (h : a ++ c :: x = b ++ c :: y) : a = b ∧ x = y := by
  induction a generalizing b with
  | nil =>
    cases b with
    | nil => exact ⟨rfl, (List.cons.inj h).2⟩
    | cons d b => exact absurd (List.cons.inj h).1 fun hcd => hb (hcd ▸ List.mem_cons_self)
  | cons d a ih =>
    cases b with
    | nil => exact absurd (List.cons.inj h).1 fun hdc => ha (hdc ▸ List.mem_cons_self)
    | cons e b =>
      obtain ⟨rfl, hrest⟩ := List.cons.inj h
      obtain ⟨rfl, hxy⟩ := ih (fun hc => ha (List.mem_cons_of_mem _ hc))
        (fun hc => hb (List.mem_cons_of_mem _ hc)) hrest
      exact ⟨rfl, hxy⟩

/-- The name determines the bus and the device number. -/
theorem deviceName_injective {l l' : UInt32} {n n' : UInt8}
    (h : deviceName l n = deviceName l' n') : l = l' ∧ n = n' := by
  rw [deviceName_eq, deviceName_eq] at h
  have htext := ascii_injective (fun _ => deviceText_toNat_lt) (fun _ => deviceText_toNat_lt) h
  simp only [deviceText, List.append_assoc, List.append_cancel_left_eq] at htext
  have hspace : ∀ z, ' ' ∉ printD 3 z := fun z => printD_not_mem 3 z (by decide) (by decide)
  have hcolon : ∀ z, ':' ∉ printD 3 z := fun z => printD_not_mem 3 z (by decide) (by decide)
  obtain ⟨hloc, hrest⟩ := split_at (hspace _) (hspace _) htext
  rw [List.append_cancel_left_eq] at hrest
  obtain ⟨hnum, -⟩ := split_at (hcolon _) (hcolon _) hrest
  have hl := congrArg u32 (printD_injective 3 hloc)
  rw [u32_i32 l.toNat_lt, u32_i32 l'.toNat_lt] at hl
  have hn := printD_injective 3 hnum
  exact ⟨UInt32.toNat_inj.mp hl, UInt8.toNat_inj.mp (Int.ofNat_inj.mp hn)⟩

/-! ### The two scans -/

def amlIdVendor : UInt16 := 0x1B8E
def amlIdProduce : UInt16 := 0xC003

/-- An attached device; `ptr` is its address in memory. -/
structure UsbDevice where
  ptr : ℕ
  idVendor : UInt16
  idProduct : UInt16
  devnum : UInt8

/-- A bus with its devices, in the order of the list. -/
structure UsbBus where
  location : UInt32
  devices : List UsbDevice

/-- The entries of `candidateDevices`, as far as the caller allocated them. -/
abbrev Candidates : Type := ℕ → Bytes

/-- The loop variables of `scanDevices`. -/
structure Walk where
  i : ℕ
  candidates : Candidates

/-- What is looked for: all devices, up to a limit, or the one of that name. -/
structure Target where
  target : Option Bytes
  maxDevices : ℤ

def isAmlogic (dev : UsbDevice) : Bool :=
  dev.idVendor = amlIdVendor && dev.idProduct = amlIdProduce

/-- The devices of one bus; `inr` is the device found. -/
def walkDevices (scan : Target) (location : UInt32) : List UsbDevice → Walk → Walk ⊕ Device
  | [], s => .inl s
  | dev :: devs, s =>
    if !isAmlogic dev then walkDevices scan location devs s
    else
      let buf := deviceName location dev.devnum
      match scan.target with
      | none =>
        -- over the limit the device is not counted either
        if scan.maxDevices ≤ s.i then walkDevices scan location devs s
        else walkDevices scan location devs ⟨s.i + 1, Function.update s.candidates s.i buf⟩
      | some target =>
        if buf = target then .inr (.dev dev.ptr)
        else walkDevices scan location devs { s with i := s.i + 1 }

def walkBusses (scan : Target) : List UsbBus → Walk → Walk ⊕ Device
  | [], s => .inl s
  | bus :: busses, s =>
    match walkDevices scan bus.location bus.devices s with
    | .inl s => walkBusses scan busses s
    | .inr dev => .inr dev

def worldCup : Bytes :=
  ascii ['W', 'o', 'r', 'l', 'd', 'C', 'u', 'p', ' ', 'D', 'e', 'v', 'i', 'c', 'e']

/-- The number of devices, or -1, and the entries. -/
def amlScanUsbX3Devices (vendorName : Bytes) (candidateDevices : Candidates) (maxDevices : ℤ)
    (busses : List UsbBus) : ℤ × Candidates :=
  if vendorName ≠ worldCup then (-1, candidateDevices)
  else match walkBusses ⟨none, maxDevices⟩ busses ⟨0, candidateDevices⟩ with
    | .inl s => (s.i, s.candidates)
    | .inr _ => (0, candidateDevices)

def amlGetDeviceHandle (vendorName targetDevice : Bytes) (busses : List UsbBus) : Device :=
  if vendorName ≠ worldCup then .null
  else match walkBusses ⟨some targetDevice, 8⟩ busses ⟨0, fun _ => []⟩ with
    | .inl _ => .null
    | .inr dev => dev

/-! ### What a walk comes to -/

/-- The devices of the right kind, in the order of enumeration. -/
def matching (busses : List UsbBus) : List (UInt32 × UsbDevice) :=
  busses.flatMap fun bus => (bus.devices.filter isAmlogic).map fun dev => (bus.location, dev)

def nameOf (x : UInt32 × UsbDevice) : Bytes := deviceName x.1 x.2.devnum

/-- Entries from `i` on filled in with names. -/
def fill (c : Candidates) (i : ℕ) : List Bytes → Candidates
  | [] => c
  | name :: names => fill (Function.update c i name) (i + 1) names

lemma fill_append (c : Candidates) (i : ℕ) (a b : List Bytes) :
    fill c i (a ++ b) = fill (fill c i a) (i + a.length) b := by
  induction a generalizing c i with
  | nil => rfl
  | cons name a ih =>
    rw [List.cons_append, fill, fill, ih, List.length_cons, Nat.add_assoc, Nat.add_comm 1]

lemma fill_outside (c : Candidates) {i j : ℕ} {names : List Bytes}
    (h : j < i ∨ i + names.length ≤ j) : fill c i names j = c j := by
  induction names generalizing c i with
  | nil => rfl
  | cons name names ih =>
    rw [List.length_cons] at h
    rw [fill, ih _ (by omega), Function.update_of_ne (by omega)]

lemma fill_inside (c : Candidates) (i : ℕ) {k : ℕ} (names : List Bytes) (hk : k < names.length) :
    fill c i names (i + k) = names[k] := by
  induction names generalizing c i k with
  | nil => exact absurd hk (Nat.not_lt_zero k)
  | cons name names ih =>
    rw [fill]
    cases k with
    | zero => rw [fill_outside _ (by omega), Nat.add_zero, Function.update_self]; rfl
    | succ k =>
      rw [show i + (k + 1) = i + 1 + k by omega, ih _ _ (Nat.lt_of_succ_lt_succ hk)]
      rfl

/-- The walk after more devices, with the entries the limit leaves room for. -/
def Walk.add (s : Walk) (maxDevices : ℤ) (names : List Bytes) : Walk :=
  ⟨s.i + (names.take (maxDevices.toNat - s.i)).length,
    fill s.candidates s.i (names.take (maxDevices.toNat - s.i))⟩

@[simp] lemma Walk.add_nil (s : Walk) (maxDevices : ℤ) : s.add maxDevices [] = s := by
  simp [Walk.add, fill]

lemma Walk.add_full {s : Walk} {maxDevices : ℤ} (h : maxDevices ≤ s.i) (names : List Bytes) :
    s.add maxDevices names = s := by
  rw [Walk.add, show maxDevices.toNat - s.i = 0 by omega]
  rfl

lemma Walk.add_append (s : Walk) (maxDevices : ℤ) (a b : List Bytes) :
    (s.add maxDevices a).add maxDevices b = s.add maxDevices (a ++ b) := by
  have hlen : maxDevices.toNat - (s.i + (a.take (maxDevices.toNat - s.i)).length) =
      maxDevices.toNat - s.i - a.length := by
    rw [List.length_take]; omega
  unfold Walk.add
  rw [hlen, List.take_append, fill_append, List.length_append, Nat.add_assoc]

lemma walkDevices_list (maxDevices : ℤ) (location : UInt32) (devs : List UsbDevice) (s : Walk) :
    walkDevices ⟨none, maxDevices⟩ location devs s =
      .inl (s.add maxDevices ((devs.filter isAmlogic).map fun d => nameOf (location, d))) := by
  induction devs generalizing s with
  | nil => rw [walkDevices, List.filter_nil, List.map_nil, Walk.add_nil]
  | cons dev devs ih =>
    rw [walkDevices]
    cases hdev : isAmlogic dev with
    | false =>
      rw [List.filter_cons_of_neg (by simp [hdev])]
      exact ih s
    | true =>
      rw [List.filter_cons_of_pos hdev, List.map_cons, ← List.singleton_append, ← Walk.add_append]
      simp only [Bool.not_true, Bool.false_eq_true, if_false]
      split_ifs with hmax
      · rw [ih, Walk.add_full hmax [nameOf (location, dev)]]
      · rw [ih]
        congr 2
        rw [Walk.add, List.take_of_length_le (by rw [List.length_singleton]; omega)]
        rfl

/-- A listing walk counts and names the matching devices up to the limit. -/
lemma walkBusses_list (maxDevices : ℤ) (busses : List UsbBus) (s : Walk) :
    walkBusses ⟨none, maxDevices⟩ busses s =
      .inl (s.add maxDevices ((matching busses).map nameOf)) := by
  induction busses generalizing s with
  | nil => simp [walkBusses, matching]
  | cons bus busses ih =>
    have hnames : (matching (bus :: busses)).map nameOf =
        ((bus.devices.filter isAmlogic).map fun d => nameOf (bus.location, d)) ++
          (matching busses).map nameOf := by
      simp [matching, Function.comp_def]
    rw [walkBusses, walkDevices_list, hnames, ← Walk.add_append]
    exact ih _

lemma walkDevices_find (target : Bytes) (maxDevices : ℤ) (location : UInt32)
    (devs : List UsbDevice) (s : Walk) :
    walkDevices ⟨some target, maxDevices⟩ location devs s =
      match ((devs.filter isAmlogic).map fun d => (location, d)).find? (nameOf · = target) with
      | some x => .inr (.dev x.2.ptr)
      | none => .inl { s with i := s.i + (devs.filter isAmlogic).length } := by
  induction devs generalizing s with
  | nil => rfl
  | cons dev devs ih =>
    rw [walkDevices]
    cases hdev : isAmlogic dev with
    | false =>
      rw [List.filter_cons_of_neg (by simp [hdev])]
      exact ih s
    | true =>
      rw [List.filter_cons_of_pos hdev, List.map_cons, List.find?_cons]
      by_cases hname : deviceName location dev.devnum = target
      · have : decide (nameOf (location, dev) = target) = true := decide_eq_true hname
        simp [hname, this]
      · have : decide (nameOf (location, dev) = target) = false := decide_eq_false hname
        simp only [Bool.not_true, Bool.false_eq_true, if_false, hname, ih, this]
        cases ((devs.filter isAmlogic).map fun d => (location, d)).find? (nameOf · = target) with
        | some x => rfl
        | none => rw [List.length_cons, Nat.add_assoc, Nat.add_comm 1]

/-- A walk for a name finds the first matching device that has it. -/
lemma walkBusses_find (target : Bytes) (maxDevices : ℤ) (busses : List UsbBus) (s : Walk) :
    walkBusses ⟨some target, maxDevices⟩ busses s =
      match (matching busses).find? (nameOf · = target) with
      | some x => .inr (.dev x.2.ptr)
      | none => .inl { s with i := s.i + (matching busses).length } := by
  induction busses generalizing s with
  | nil => rfl
  | cons bus busses ih =>
    have hcons : matching (bus :: busses) =
        ((bus.devices.filter isAmlogic).map fun d => (bus.location, d)) ++ matching busses := by
      simp [matching]
    rw [walkBusses, walkDevices_find, hcons, List.find?_append]
    cases ((bus.devices.filter isAmlogic).map fun d => (bus.location, d)).find?
        (nameOf · = target) with
    | some x => rfl
    | none =>
      simp only [Option.none_or, ih, List.length_append, List.length_map, Nat.add_assoc]

lemma amlGetDeviceHandle_eq (target : Bytes) (busses : List UsbBus) :
    amlGetDeviceHandle worldCup target busses =
      match (matching busses).find? (nameOf · = target) with
      | some x => .dev x.2.ptr
      | none => .null := by
  rw [amlGetDeviceHandle, if_neg (not_not.mpr rfl), walkBusses_find]
  cases (matching busses).find? (nameOf · = target) <;> rfl

/-- A device, or none. -/
lemma amlGetDeviceHandle_cases (target : Bytes) (busses : List UsbBus) :
    amlGetDeviceHandle worldCup target busses = .null ∨
      ∃ n, amlGetDeviceHandle worldCup target busses = .dev n := by
  rw [amlGetDeviceHandle_eq]
  cases (matching busses).find? (nameOf · = target) with
  | none => exact .inl rfl
  | some x => exact .inr ⟨_, rfl⟩

lemma amlScanUsbX3Devices_eq (candidates : Candidates) (maxDevices : ℤ) (busses : List UsbBus) :
    amlScanUsbX3Devices worldCup candidates maxDevices busses =
      (((min maxDevices.toNat (matching busses).length : ℕ) : ℤ),
        fill candidates 0 (((matching busses).map nameOf).take maxDevices.toNat)) := by
  rw [amlScanUsbX3Devices, if_neg (not_not.mpr rfl), walkBusses_list]
  simp [Walk.add]

/-- Among keys that differ, an element is found by its key. -/
lemma find_by_key {α β : Type} [DecidableEq β] {key : α → β} {l : List α} (h : (l.map key).Nodup)
    {x : α} (hx : x ∈ l) : l.find? (key · = key x) = some x := by
  induction l with
  | nil => exact absurd hx List.not_mem_nil
  | cons y l ih =>
    rw [List.map_cons, List.nodup_cons] at h
    rw [List.find?_cons]
    rcases List.mem_cons.mp hx with rfl | hx'
    · simp
    · have hne : key y ≠ key x := fun he => h.1 (he ▸ List.mem_map_of_mem hx')
      simp only [hne, decide_false]
      exact ih h.2 hx'

/-- Where a device is plugged in: its bus and its number there. -/
def places (busses : List UsbBus) : List (UInt32 × UInt8) :=
  busses.flatMap fun bus => bus.devices.map fun dev => (bus.location, dev.devnum)

/-- Matching devices in different places have different names. -/
lemma names_nodup {busses : List UsbBus} (h : (places busses).Nodup) :
    ((matching busses).map nameOf).Nodup := by
  have hplaces : List.Sublist ((matching busses).map fun x => (x.1, x.2.devnum))
      (places busses) := by
    simp only [matching, places, List.map_flatMap, List.map_map]
    exact List.Sublist.flatMap_right _ fun bus _ => List.filter_sublist.map _
  have hinj := h.sublist hplaces
  rw [List.Nodup, List.pairwise_map] at hinj ⊢
  refine hinj.imp fun {x y} hne hname => hne ?_
  obtain ⟨h₁, h₂⟩ := deviceName_injective hname
  exact Prod.ext h₁ h₂

/-- **A printed entry selects its device.** The listing has one entry for each matching device,
up to the limit and never past it; an entry given back finds its device, and a text that names
no matching device finds none. -/
theorem scan_selects {busses : List UsbBus} (hplaces : (places busses).Nodup)
    (candidates : Candidates) (maxDevices : ℤ) {nDevices : ℤ} {entries : Candidates}
    (hscan : amlScanUsbX3Devices worldCup candidates maxDevices busses = (nDevices, entries)) :
    nDevices = (min maxDevices.toNat (matching busses).length : ℕ) ∧
      (∀ j : ℕ, maxDevices ≤ j → entries j = candidates j) ∧
      (∀ i : ℕ, i < nDevices → ∃ x, (matching busses)[i]? = some x ∧
        amlGetDeviceHandle worldCup (entries i) busses = .dev x.2.ptr) ∧
      ∀ target, (∀ x ∈ matching busses, nameOf x ≠ target) →
        amlGetDeviceHandle worldCup target busses = .null := by
  rw [amlScanUsbX3Devices_eq] at hscan
  obtain ⟨rfl, rfl⟩ := Prod.mk.inj hscan
  refine ⟨rfl, fun j hj => ?_, fun i hi => ?_, fun target htarget => ?_⟩
  · refine fill_outside _ (.inr ?_)
    rw [List.length_take]
    omega
  · have hlt : i < (matching busses).length := by omega
    have hentry : fill candidates 0 (((matching busses).map nameOf).take maxDevices.toNat) i =
        nameOf (matching busses)[i] := by
      have hinside := fill_inside candidates 0 (k := i)
        (((matching busses).map nameOf).take maxDevices.toNat)
        (by rw [List.length_take, List.length_map]; omega)
      rw [Nat.zero_add] at hinside
      rw [hinside, List.getElem_take, List.getElem_map]
    refine ⟨(matching busses)[i], List.getElem?_eq_getElem hlt, ?_⟩
    rw [hentry, amlGetDeviceHandle_eq,
      find_by_key (names_nodup hplaces) (List.getElem_mem hlt)]
  · have hnone : (matching busses).find? (nameOf · = target) = none :=
      List.find?_eq_none.mpr fun x hx => by simpa using htarget x hx
    rw [amlGetDeviceHandle_eq, hnone]

/-- Two boards with the same number on different buses, and a stranger. -/
def twoBoards : List UsbBus :=
  [⟨1, [⟨10, amlIdVendor, amlIdProduce, 5⟩, ⟨11, 0x1D6B, 2, 1⟩]⟩,
    ⟨2, [⟨12, amlIdVendor, amlIdProduce, 5⟩]⟩]

theorem scan_selects_second :
    (amlScanUsbX3Devices worldCup (fun _ => []) 16 twoBoards).1 = 2 ∧
      amlGetDeviceHandle worldCup
        ((amlScanUsbX3Devices worldCup (fun _ => []) 16 twoBoards).2 1) twoBoards = .dev 12 := by
  obtain ⟨hcount, -, hentry, -⟩ := scan_selects (by decide : (places twoBoards).Nodup)
    (fun _ => []) 16
    (Prod.mk.eta (p := amlScanUsbX3Devices worldCup (fun _ => []) 16 twoBoards)).symm
  have htwo : (amlScanUsbX3Devices worldCup (fun _ => []) 16 twoBoards).1 = 2 := hcount
  obtain ⟨x, hx, hdev⟩ := hentry 1 (by rw [htwo]; decide)
  refine ⟨htwo, hdev.trans ?_⟩
  obtain rfl : (2, ⟨12, amlIdVendor, amlIdProduce, 5⟩) = x := Option.some.inj hx
  rfl

end AmlogicUpdate.Scan

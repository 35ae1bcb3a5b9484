import AmlogicUpdate.ChipCommands
import AmlogicUpdate.Horner

/-!
`simple_strtoul` as it was written out by hand, and the `strtoul` that replaced it.

Both read the digits behind a prefix from the left, and stop at the same place. But the first
steps over `0x` and the digit behind it, which it has only looked at.
-/

namespace AmlogicUpdate.StrtoulLoop

open CData Horner ChipCommands
open Update (isSpace digit digits isHexDigit numberPrefix strtoul simpleStrtoul)

/-! ### `simple_strtoul` without `BUGFIX` -/

def isXdigit (c : UInt8) : Bool :=
  (48 ≤ c && c ≤ 57) || (65 ≤ c && c ≤ 70) || (97 ≤ c && c ≤ 102)

def isLower (c : UInt8) : Bool := 97 ≤ c && c ≤ 122

def toUpper (c : UInt8) : UInt8 := if isLower c then c - 32 else c

/-- The value of a digit, in either case. -/
def xdigitVal (c : UInt8) : ℕ :=
  if 9 < charVal c - 48 then u32 (charVal (if isLower c then toUpper c else c) - 55)
  else u32 (charVal c - 48)

/-- The result of the loop, and where it ends. -/
def strtoulLoop (base : ℕ) : Bytes → ℕ → ℕ × Bytes
  | [], result => (result, [])
  | c :: cp, result =>
    if isXdigit c then
      let d := xdigitVal c
      if base ≤ d then (result, c :: cp) else strtoulLoop base cp ((base * result + d) % 2 ^ 64)
    else (result, c :: cp)

/-- The result, and what `endp` is set to. -/
def simpleStrtoulOriginal (cp : Bytes) (base : ℕ) : ℕ × Bytes :=
  let (base, cp) :=
    if cp.getD 0 0 = 48 then
      let cp := cp.drop 1
      let (base, cp) :=
        if cp.getD 0 0 = 120 ∧ isXdigit (cp.getD 1 0) then (16, cp.drop 2) else (base, cp)
      (if base = 0 then 8 else base, cp)
    else (base, cp)
  strtoulLoop (if base = 0 then 10 else base) cp 0

example : simpleStrtoulOriginal (ascii ['0', '1', '7', '8']) 0 = (15, [56]) := by decide

/-! ### Digits -/

section Digits

variable {c : UInt8} {d base n : ℕ} {s : Bytes}

lemma isXdigit_iff : isXdigit c = true ↔ (48 ≤ c.toNat ∧ c.toNat ≤ 57) ∨
    (65 ≤ c.toNat ∧ c.toNat ≤ 70) ∨ (97 ≤ c.toNat ∧ c.toNat ≤ 102) := by
  simp [isXdigit, UInt8.le_iff_toNat_le, or_assoc]

lemma digit_toNat : digit c = if 48 ≤ c.toNat ∧ c.toNat ≤ 57 then some (c.toNat - 48)
    else if 97 ≤ c.toNat ∧ c.toNat ≤ 122 then some (c.toNat - 87)
    else if 65 ≤ c.toNat ∧ c.toNat ≤ 90 then some (c.toNat - 55)
    else none := by
  simp [digit, UInt8.le_iff_toNat_le]

lemma charVal_ascii (h : c.toNat < 2 ^ 7) : charVal c = c.toNat := if_pos h

lemma u32_sub {n k : ℕ} (hle : k ≤ n) (hn : n < 2 ^ 7) : u32 ((n : ℤ) - k) = n - k := by
  unfold u32
  omega

lemma isLower_iff : isLower c = true ↔ 97 ≤ c.toNat ∧ c.toNat ≤ 122 := by
  simp [isLower, UInt8.le_iff_toNat_le]

lemma toUpper_toNat (h : isLower c = true) : (toUpper c).toNat = c.toNat - 32 := by
  have hlow := isLower_iff.mp h
  have hle : (32 : UInt8) ≤ c := UInt8.le_iff_toNat_le.mpr (le_trans (by decide) hlow.1)
  rw [toUpper, if_pos h, UInt8.toNat_sub_of_le _ _ hle]
  rfl

lemma xdigitVal_digit (h : 48 ≤ c.toNat) (h' : c.toNat ≤ 57) : xdigitVal c = c.toNat - 48 := by
  rw [xdigitVal, charVal_ascii (by omega), if_neg (by omega)]
  exact u32_sub h (by omega)

/-- A letter is looked at as a capital one. -/
lemma xdigitVal_letter {u : UInt8} (hc : 57 < c.toNat) (hc' : c.toNat < 2 ^ 7)
    (hu : (if isLower c then toUpper c else c) = u) (h : 55 ≤ u.toNat) (h' : u.toNat < 2 ^ 7) :
    xdigitVal c = u.toNat - 55 := by
  rw [xdigitVal, hu, charVal_ascii hc', charVal_ascii h', if_pos (by omega)]
  exact u32_sub h h'

lemma xdigitVal_eq (h : isXdigit c = true) : digit c = some (xdigitVal c) := by
  rw [digit_toNat]
  rcases isXdigit_iff.mp h with ⟨hlow, hhigh⟩ | ⟨hlow, hhigh⟩ | ⟨hlow, hhigh⟩
  · rw [if_pos ⟨hlow, hhigh⟩, xdigitVal_digit hlow hhigh]
  · have hcapital : ¬ isLower c = true := fun hl => by
      have := isLower_iff.mp hl
      omega
    rw [if_neg (by omega), if_neg (by omega), if_pos (by omega),
      xdigitVal_letter (by omega) (by omega) (if_neg hcapital) (by omega) (by omega)]
  · have hlower : isLower c = true := isLower_iff.mpr (by omega)
    have hupper := toUpper_toNat hlower
    rw [if_neg (by omega), if_pos (by omega),
      xdigitVal_letter (by omega) (by omega) (if_pos hlower) (by omega) (by omega), hupper,
      Nat.sub_sub]

/-- Other letters stand for digits of larger bases only. -/
lemma digit_lt_iff (hd : digit c = some d) : d < 16 ↔ isXdigit c = true := by
  rw [isXdigit_iff]
  rw [digit_toNat] at hd
  split_ifs at hd
  all_goals
    injection hd with hd
    omega

lemma xdigitVal_eq_zero_iff (h : isXdigit c = true) : xdigitVal c = 0 ↔ c = 48 := by
  have hval := xdigitVal_eq h
  have hc := isXdigit_iff.mp h
  rw [digit_toNat] at hval
  rw [← UInt8.toNat_inj]
  change _ ↔ c.toNat = 48
  split_ifs at hval
  all_goals
    injection hval with hval
    omega

/-- The loop takes the digits that `strtoul` takes, in the bases up to 16. -/
lemma strtoulLoop_eq (hbase : base ≤ 16) {r : ℕ} (hr : r < 2 ^ 64) :
    strtoulLoop base s r = ((number base (front digit base s) +
      base ^ (front digit base s).length * r) % 2 ^ 64, behind digit base s) := by
  rw [← foldl_number_mod _ hr]
  induction s generalizing r with
  | nil => rfl
  | cons c s ih =>
    rw [strtoulLoop]
    by_cases hc : isXdigit c = true
    · have hval := xdigitVal_eq hc
      rw [if_pos hc]
      dsimp only
      by_cases hd : base ≤ xdigitVal c
      · have hstop : ∀ d, digit c = some d → base ≤ d := by
          intro d he
          rw [hval] at he
          exact Option.some.inj he ▸ hd
        rw [if_pos hd, front_stop hstop, behind_stop hstop]
        rfl
      · rw [if_neg hd, front_digit hval (by omega), behind_digit hval (by omega),
          ih (Nat.mod_lt _ (by decide))]
        rfl
    · have hstop : ∀ d, digit c = some d → base ≤ d := fun d he =>
        hbase.trans (Nat.not_lt.mp fun hlt => hc ((digit_lt_iff he).mp hlt))
      rw [if_neg hc, front_stop hstop, behind_stop hstop]
      rfl

lemma digits_eq : digits base s n = number base (front digit base s) +
    base ^ (front digit base s).length * n := by
  rw [← foldl_number]
  induction s generalizing n with
  | nil => rfl
  | cons c s ih =>
    rw [digits]
    cases hc : digit c with
    | none =>
      rw [front_stop (fun d he => by rw [hc] at he; cases he)]
      rfl
    | some d =>
      dsimp only
      by_cases hd : d < base
      · rw [if_pos hd, front_digit hc hd, ih]
        rfl
      · rw [if_neg hd, front_stop (fun e he => by rw [hc] at he; cases he; omega)]
        rfl

lemma isHexDigit_eq (c : UInt8) : isHexDigit c = isXdigit c := by
  rw [isHexDigit, Bool.eq_iff_iff]
  cases hd : digit c with
  | none =>
    refine iff_of_false (by simp) fun hc => ?_
    rw [xdigitVal_eq hc] at hd
    cases hd
  | some d => simp [digit_lt_iff hd]

end Digits

/-! ### Prefixes -/

/-- The value of the numeral at the front of a text. -/
def numeral (s : Bytes) (base : ℕ) : ℕ :=
  let p := numberPrefix s base
  number p.1 (front digit p.1 p.2)

/-- The text behind it. -/
def numeralEnd (s : Bytes) (base : ℕ) : Bytes :=
  let p := numberPrefix s base
  behind digit p.1 p.2

/-- Neither white space nor a sign in front. -/
def Bare (s : Bytes) : Prop := ∀ c ∈ s.head?, isSpace c = false ∧ c ≠ 45 ∧ c ≠ 43

/-- `0x` and a digit that is not a zero. -/
def SkipsDigit (s : Bytes) : Prop :=
  ∃ c rest, s = 48 :: 120 :: c :: rest ∧ isXdigit c = true ∧ c ≠ 48

/-- A text begins with `0x` and a digit, or with a zero, or neither. -/
inductive Form : Bytes → Prop
  | hex (c : UInt8) (s : Bytes) (hc : isXdigit c = true) : Form (48 :: 120 :: c :: s)
  | zero (s : Bytes) (h : ¬ (s.getD 0 0 = 120 ∧ isXdigit (s.getD 1 0) = true)) : Form (48 :: s)
  | other (s : Bytes) (h : s.getD 0 0 ≠ 48) : Form s

section Prefixes

variable {c : UInt8} {s : Bytes} {base : ℕ}

lemma form (s : Bytes) : Form s := by
  by_cases hzero : s.getD 0 0 = 48
  swap
  · exact .other s hzero
  obtain ⟨s, rfl⟩ : ∃ t, s = 48 :: t := by
    cases s with
    | nil => exact absurd hzero (by decide)
    | cons c s => exact ⟨s, congrArg (· :: s) hzero⟩
  by_cases hx : s.getD 0 0 = 120 ∧ isXdigit (s.getD 1 0) = true
  swap
  · exact .zero s hx
  obtain ⟨c, s, rfl⟩ : ∃ c t, s = 120 :: c :: t := by
    obtain ⟨hfirst, hsecond⟩ := hx
    rcases s with _ | ⟨x, _ | ⟨c, s⟩⟩
    · exact absurd hfirst (by decide)
    · have hend : isXdigit 0 = true := hsecond
      exact absurd hend (by decide)
    · exact ⟨c, s, congrArg (· :: c :: s) hfirst⟩
  exact .hex c s hx.2

/-- The first digit has been stepped over. -/
lemma original_hex (hc : isXdigit c = true) :
    simpleStrtoulOriginal (48 :: 120 :: c :: s) base =
      (number 16 (front digit 16 s) % 2 ^ 64, behind digit 16 s) := by
  have hcode : simpleStrtoulOriginal (48 :: 120 :: c :: s) base = strtoulLoop 16 s 0 := by
    simp [simpleStrtoulOriginal, hc]
  rw [hcode, strtoulLoop_eq le_rfl (by decide), Nat.mul_zero, Nat.add_zero]

lemma numberPrefix_hex (hbase : base = 0 ∨ base = 16) (hc : isXdigit c = true) :
    numberPrefix (48 :: 120 :: c :: s) base = (16, c :: s) := by
  simp [numberPrefix, isHexDigit_eq, hc, hbase]

lemma numberPrefix_zero (hx : 88 ∉ s) (h : ¬ (s.getD 0 0 = 120 ∧ isXdigit (s.getD 1 0) = true)) :
    numberPrefix (48 :: s) base = (if base = 0 then 8 else base, 48 :: s) := by
  rcases s with _ | ⟨x, _ | ⟨c, s⟩⟩
  · rfl
  · rfl
  · have hne : x ≠ 88 := fun he => hx (he ▸ List.mem_cons_self)
    have hno : ¬ ((x = 120 ∨ x = 88) ∧ isHexDigit c = true ∧ (base = 0 ∨ base = 16)) := by
      rintro ⟨hxs, hc, -⟩
      rw [isHexDigit_eq] at hc
      exact h ⟨hxs.resolve_right hne, hc⟩
    simp only [numberPrefix, if_neg hno]

lemma numberPrefix_other (h : s.getD 0 0 ≠ 48) :
    numberPrefix s base = (if base = 0 then 10 else base, s) := by
  cases s with
  | nil => rfl
  | cons c s =>
    have hc : c ≠ 48 := h
    unfold numberPrefix
    split
    · simp_all
    · simp_all
    · rfl

lemma original_zero (hbase : base = 0 ∨ base = 16) (hx : 88 ∉ s)
    (h : ¬ (s.getD 0 0 = 120 ∧ isXdigit (s.getD 1 0) = true)) :
    simpleStrtoulOriginal (48 :: s) base =
      (numeral (48 :: s) base % 2 ^ 64, numeralEnd (48 :: s) base) := by
  have hzero : digit 48 = some 0 := by decide
  have hpos : 0 < (if base = 0 then 8 else base) ∧ (if base = 0 then 8 else base) ≤ 16 := by
    split_ifs
    all_goals omega
  have hcode : simpleStrtoulOriginal (48 :: s) base =
      strtoulLoop (if base = 0 then 8 else base) s 0 := by
    have hne : (if base = 0 then 8 else base) ≠ 0 := by omega
    unfold simpleStrtoulOriginal
    simp only [List.getD_cons_zero, if_true, List.drop_one, List.tail_cons, if_neg h, if_neg hne]
  rw [hcode, strtoulLoop_eq hpos.2 (by decide), numeral, numeralEnd, numberPrefix_zero hx h]
  dsimp only
  rw [front_digit hzero hpos.1, behind_digit hzero hpos.1, number_zero_cons, Nat.mul_zero,
    Nat.add_zero]

lemma original_other (hbase : base = 0 ∨ base = 16) (h : s.getD 0 0 ≠ 48) :
    simpleStrtoulOriginal s base = (numeral s base % 2 ^ 64, numeralEnd s base) := by
  have hle : (if base = 0 then 10 else base) ≤ 16 := by
    split_ifs
    all_goals omega
  have hcode : simpleStrtoulOriginal s base = strtoulLoop (if base = 0 then 10 else base) s 0 := by
    unfold simpleStrtoulOriginal
    simp only [if_neg h]
  rw [hcode, strtoulLoop_eq hle (by decide), numeral, numeralEnd, numberPrefix_other h,
    Nat.mul_zero, Nat.add_zero]

lemma numeral_hex (hbase : base = 0 ∨ base = 16) (hc : isXdigit c = true) :
    numeral (48 :: 120 :: c :: s) base = number 16 (xdigitVal c :: front digit 16 s) ∧
      numeralEnd (48 :: 120 :: c :: s) base = behind digit 16 s := by
  have hval := xdigitVal_eq hc
  have hlt := (digit_lt_iff hval).mpr hc
  rw [numeral, numeralEnd, numberPrefix_hex hbase hc]
  dsimp only
  rw [front_digit hval hlt, behind_digit hval hlt]
  exact ⟨rfl, rfl⟩

end Prefixes

section Numerals

variable {s : Bytes} {base : ℕ}

lemma strtoul_bare (hbare : Bare s) :
    strtoul s base = if 2 ^ 64 ≤ numeral s base then 2 ^ 64 - 1 else numeral s base := by
  have hspace : s.dropWhile isSpace = s := by
    cases s with
    | nil => rfl
    | cons c s => exact List.dropWhile_cons_of_neg (by rw [(hbare c rfl).1]; decide)
  have hminus : s.head? ≠ some 45 := fun h => (hbare 45 h).2.1 rfl
  have hplus : s.head? ≠ some 43 := fun h => (hbare 43 h).2.2 rfl
  have hsign : ¬ (s.head? = some 45 ∨ s.head? = some 43) := not_or.mpr ⟨hminus, hplus⟩
  unfold strtoul numeral
  dsimp only
  rw [hspace, if_neg hsign, digits_eq, Nat.mul_zero, Nat.add_zero]
  simp only [hminus, if_false]

/-- `strtoul` and the loop end at the same place. -/
theorem simpleStrtoul_end (hbase : base = 0 ∨ base = 16) (hx : 88 ∉ s) :
    (simpleStrtoulOriginal s base).2 = numeralEnd s base := by
  cases form s with
  | hex c s hc => rw [original_hex hc, (numeral_hex hbase hc).2]
  | zero s h => rw [original_zero hbase (fun hm => hx (List.mem_cons_of_mem _ hm)) h]
  | other s h => rw [original_other hbase h]

/-- It is the value of the numeral if no digit is stepped over that counts. -/
lemma original_value_iff (hbase : base = 0 ∨ base = 16) (hx : 88 ∉ s)
    (hvalue : numeral s base < 2 ^ 64) :
    (simpleStrtoulOriginal s base).1 = numeral s base ↔ ¬ SkipsDigit s := by
  cases form s with
  | hex c s hc =>
    have hval := xdigitVal_eq hc
    have hnumeral := (numeral_hex hbase hc (s := s)).1
    have hsmall : number 16 (front digit 16 s) < 2 ^ 64 := by
      rw [hnumeral, number_cons] at hvalue
      omega
    have hskips : SkipsDigit (48 :: 120 :: c :: s) ↔ xdigitVal c ≠ 0 := by
      rw [ne_eq, xdigitVal_eq_zero_iff hc]
      constructor
      · rintro ⟨d, rest, he, -, hne⟩
        simp only [List.cons.injEq, true_and] at he
        rw [he.1]
        exact hne
      · exact fun hne => ⟨c, s, rfl, hc, hne⟩
    rw [original_hex hc, Nat.mod_eq_of_lt hsmall, hnumeral, number_cons_eq_iff _ (by decide),
      hskips, not_not]
  | zero s h =>
    have hno : ¬ SkipsDigit (48 :: s) := by
      rintro ⟨c, rest, he, hc, -⟩
      obtain rfl := (List.cons.inj he).2
      exact h ⟨rfl, hc⟩
    rw [original_zero hbase (fun hm => hx (List.mem_cons_of_mem _ hm)) h,
      Nat.mod_eq_of_lt hvalue]
    exact iff_of_true rfl hno
  | other s h =>
    have hno : ¬ SkipsDigit s := by
      rintro ⟨c, rest, rfl, -⟩
      exact h rfl
    rw [original_other hbase h, Nat.mod_eq_of_lt hvalue]
    exact iff_of_true rfl hno

/-- **The loop returns what `strtoul` returns exactly if** it does not step over a digit that
counts, the one behind `0x`. -/
theorem simpleStrtoul_agrees_iff (hbase : base = 0 ∨ base = 16) (hbare : Bare s) (hx : 88 ∉ s)
    (hvalue : numeral s base < 2 ^ 64) :
    (simpleStrtoulOriginal s base).1 = simpleStrtoul s base ↔ ¬ SkipsDigit s := by
  rw [simpleStrtoul, strtoul_bare hbare, if_neg (by omega)]
  exact original_value_iff hbase hx hvalue

end Numerals

/-- `0x0ff` -/
def paddedHex : Bytes := ascii ['0', 'x', '0', 'f', 'f']

theorem simpleStrtoul_agrees_iff_padded :
    numeral paddedHex 0 = 0xFF ∧
      (simpleStrtoulOriginal paddedHex 0).1 = simpleStrtoul paddedHex 0 := by
  have hvalue : numeral paddedHex 0 = 0xFF := by decide
  have hbare : Bare paddedHex := by
    intro c hc
    obtain rfl := Option.some.inj hc
    decide
  refine ⟨hvalue, (simpleStrtoul_agrees_iff (.inl rfl) hbare (by decide) ?_).mpr ?_⟩
  · rw [hvalue]
    decide
  · rintro ⟨c, rest, he, -, hc⟩
    simp only [paddedHex, ascii, List.map_cons, List.cons.injEq] at he
    exact hc he.2.2.1.symm

/-- `0x10` -/
def sixteen : Bytes := ascii ['0', 'x', '1', '0']

/-- Of sixteen the loop leaves 0. -/
theorem simpleStrtoul_not_agrees :
    (simpleStrtoulOriginal sixteen 0).1 = 0 ∧ simpleStrtoul sixteen 0 = 16 ∧
      (simpleStrtoulOriginal sixteen 16).1 = 0 ∧ simpleStrtoul sixteen 16 = 16 ∧
      ¬ ∀ s base, (base = 0 ∨ base = 16) → Bare s → 88 ∉ s → numeral s base < 2 ^ 64 →
        (simpleStrtoulOriginal s base).1 = simpleStrtoul s base := by
  have hloop : (simpleStrtoulOriginal sixteen 0).1 = 0 := by decide
  have hstrtoul : simpleStrtoul sixteen 0 = 16 := by decide
  have hbare : Bare sixteen := by
    intro c hc
    obtain rfl := Option.some.inj hc
    decide
  refine ⟨hloop, hstrtoul, by decide, by decide, fun h => ?_⟩
  have hsame := h sixteen 0 (.inl rfl) hbare (by decide) (by decide)
  rw [hloop, hstrtoul] at hsame
  cases hsame

/-! ### In lower case -/

def toLower (c : UInt8) : UInt8 := if 65 ≤ c ∧ c ≤ 90 then c + 32 else c

/-- What most callers make of an argument before it is read. -/
def strToLower (src : Bytes) : Bytes := src.map toLower

section Lower

variable {c k : UInt8} {s : Bytes} {base : ℕ}

lemma toLower_toNat (c : UInt8) :
    (toLower c).toNat = if 65 ≤ c.toNat ∧ c.toNat ≤ 90 then c.toNat + 32 else c.toNat := by
  have hiff : (65 ≤ c ∧ c ≤ 90) ↔ (65 ≤ c.toNat ∧ c.toNat ≤ 90) := by
    simp [UInt8.le_iff_toNat_le]
  unfold toLower
  simp only [hiff]
  split_ifs with h
  · rw [UInt8.toNat_add, Nat.mod_eq_of_lt]
    · rfl
    · change c.toNat + 32 < 2 ^ 8
      omega
  · rfl

@[simp] lemma digit_toLower (c : UInt8) : digit (toLower c) = digit c := by
  rw [digit_toNat, digit_toNat, toLower_toNat]
  by_cases hcapital : 65 ≤ c.toNat ∧ c.toNat ≤ 90
  · have hval : c.toNat + 32 - 87 = c.toNat - 55 := by omega
    rw [if_pos hcapital, if_neg (by omega), if_pos (by omega), if_neg (by omega),
      if_neg (by omega), if_pos hcapital, hval]
  · rw [if_neg hcapital]

/-- No other character becomes one that is not a letter. -/
lemma toLower_eq_iff (hk : k.toNat < 65) : toLower c = k ↔ c = k := by
  rw [← UInt8.toNat_inj, ← UInt8.toNat_inj, toLower_toNat]
  split_ifs
  all_goals omega

lemma toLower_ne_capital : toLower c ≠ 88 := by
  intro h
  have hnat := congrArg UInt8.toNat h
  rw [toLower_toNat] at hnat
  change _ = 88 at hnat
  split_ifs at hnat
  all_goals omega

lemma toLower_eq_x : toLower c = 120 ↔ c = 120 ∨ c = 88 := by
  rw [← UInt8.toNat_inj, ← UInt8.toNat_inj, ← UInt8.toNat_inj, toLower_toNat]
  change _ = 120 ↔ _ = 120 ∨ _ = 88
  split_ifs
  all_goals omega

@[simp] lemma isHexDigit_toLower (c : UInt8) : isHexDigit (toLower c) = isHexDigit c := by
  rw [isHexDigit, digit_toLower, isHexDigit]

lemma capital_not_mem_lower (s : Bytes) : 88 ∉ strToLower s := by
  intro h
  obtain ⟨c, -, hc⟩ := List.mem_map.mp h
  exact toLower_ne_capital hc

lemma numberPrefix_lower (s : Bytes) (base : ℕ) : numberPrefix (strToLower s) base =
    ((numberPrefix s base).1, strToLower (numberPrefix s base).2) := by
  by_cases hzero : s.getD 0 0 = 48
  · rcases s with _ | ⟨c, _ | ⟨x, _ | ⟨d, s⟩⟩⟩
    · rfl
    · obtain rfl : c = 48 := hzero
      rfl
    · obtain rfl : c = 48 := hzero
      rfl
    · obtain rfl : c = 48 := hzero
      have hx : (toLower x = 120 ∨ toLower x = 88) ↔ (x = 120 ∨ x = 88) := by
        rw [or_iff_left toLower_ne_capital, toLower_eq_x]
      change numberPrefix (48 :: toLower x :: toLower d :: strToLower s) base = _
      simp only [numberPrefix, hx, isHexDigit_toLower]
      split_ifs
      all_goals rfl
  · have hlower : (strToLower s).getD 0 0 ≠ 48 := by
      cases s with
      | nil => exact hzero
      | cons c s => exact fun h => hzero ((toLower_eq_iff (by decide)).mp h)
    rw [numberPrefix_other hzero, numberPrefix_other hlower]

/-- The case of the digits does not change the numeral, and `0X` is a prefix as well as `0x`. -/
lemma numeral_lower (s : Bytes) (base : ℕ) : numeral (strToLower s) base = numeral s base := by
  rw [numeral, numberPrefix_lower]
  exact congrArg (number _) (front_map digit_toLower _)

/-- The callers that read the argument itself with `strtoul` made it lower case before. -/
theorem lowered_agrees_iff (hbase : base = 0 ∨ base = 16) (hbare : Bare s)
    (hvalue : numeral s base < 2 ^ 64) :
    (simpleStrtoulOriginal (strToLower s) base).1 = strtoul s base ↔
      ¬ SkipsDigit (strToLower s) := by
  have hlowered : numeral (strToLower s) base < 2 ^ 64 := by
    rw [numeral_lower]
    exact hvalue
  have hiff := original_value_iff hbase (capital_not_mem_lower s) hlowered
  rw [numeral_lower] at hiff
  rw [strtoul_bare hbare, if_neg (by omega)]
  exact hiff

end Lower

end AmlogicUpdate.StrtoulLoop

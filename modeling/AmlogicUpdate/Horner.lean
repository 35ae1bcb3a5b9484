import Mathlib.Data.Nat.Digits.Defs
import Mathlib.Data.Nat.ModEq

/-!
Numerals with the highest digit first, read from the left.

A text is read as long as its characters stand for digits of the base. The digits that were read
are those of positional notation in reverse, and a reader that reduces at every step comes to
the same number reduced once.
-/

namespace AmlogicUpdate.Horner

/-! ### The digits at the front of a text -/

section Front

variable {α : Type} (value : α → Option ℕ) (base : ℕ)

/-- The digits up to the first character that is none. -/
def front : List α → List ℕ
  | [] => []
  | c :: s => match value c with
    | some d => if d < base then d :: front s else []
    | none => []

/-- The text behind them. -/
def behind : List α → List α
  | [] => []
  | c :: s => match value c with
    | some d => if d < base then behind s else c :: s
    | none => c :: s

variable {value base} {c : α} {s : List α} {d : ℕ}

lemma front_digit (hc : value c = some d) (hd : d < base) :
    front value base (c :: s) = d :: front value base s := by
  simp [front, hc, hd]

lemma behind_digit (hc : value c = some d) (hd : d < base) :
    behind value base (c :: s) = behind value base s := by
  simp [behind, hc, hd]

lemma front_stop (h : ∀ d, value c = some d → base ≤ d) : front value base (c :: s) = [] := by
  cases hc : value c with
  | none => simp [front, hc]
  | some d => simp [front, hc, Nat.not_lt.mpr (h d hc)]

lemma behind_stop (h : ∀ d, value c = some d → base ≤ d) :
    behind value base (c :: s) = c :: s := by
  cases hc : value c with
  | none => simp [behind, hc]
  | some d => simp [behind, hc, Nat.not_lt.mpr (h d hc)]

/-- A text of other characters with the same values. -/
lemma front_map {f : α → α} (hf : ∀ c, value (f c) = value c) (s : List α) :
    front value base (s.map f) = front value base s := by
  induction s with
  | nil => rfl
  | cons c s ih => simp only [List.map_cons, front, hf, ih]

end Front

/-! ### The number they stand for -/

/-- Positional notation, the highest digit first. -/
def number (base : ℕ) (ds : List ℕ) : ℕ := Nat.ofDigits base ds.reverse

section Number

variable {base : ℕ} (ds : List ℕ)

@[simp] lemma number_nil (base : ℕ) : number base [] = 0 := rfl

lemma number_cons (d : ℕ) :
    number base (d :: ds) = number base ds + base ^ ds.length * d :=
  Nat.ofDigits_reverse_cons ds d

@[simp] lemma number_zero_cons : number base (0 :: ds) = number base ds :=
  Nat.ofDigits_reverse_zero_cons ds

/-- The first digit can be left out only if it is 0. -/
lemma number_cons_eq_iff (hbase : 0 < base) (d : ℕ) :
    number base ds = number base (d :: ds) ↔ d = 0 := by
  have hpos : base ^ ds.length ≠ 0 := (Nat.pow_pos hbase).ne'
  rw [number_cons, left_eq_add, Nat.mul_eq_zero, or_iff_right hpos]

/-- Each digit moves the ones before it up by one place. -/
lemma foldl_number (r : ℕ) :
    ds.foldl (fun n d => base * n + d) r = number base ds + base ^ ds.length * r := by
  induction ds generalizing r with
  | nil => simp
  | cons d ds ih =>
    rw [List.foldl_cons, ih, number_cons, List.length_cons, Nat.pow_succ]
    ring

lemma foldl_number_mod {M r : ℕ} (hr : r < M) :
    ds.foldl (fun n d => (base * n + d) % M) r =
      (number base ds + base ^ ds.length * r) % M := by
  induction ds generalizing r with
  | nil => simp [Nat.mod_eq_of_lt hr]
  | cons d ds ih =>
    have hstep : ds.foldl (fun n d => (base * n + d) % M) ((base * r + d) % M) =
        (number base ds + base ^ ds.length * ((base * r + d) % M)) % M :=
      ih (Nat.mod_lt _ (by omega))
    calc
      (d :: ds).foldl (fun n d => (base * n + d) % M) r
          = (number base ds + base ^ ds.length * ((base * r + d) % M)) % M := hstep
      _ = (number base ds + base ^ ds.length * (base * r + d)) % M :=
          ((Nat.mod_modEq _ M).mul_left _).add_left _
      _ = (number base (d :: ds) + base ^ (d :: ds).length * r) % M := by
          rw [number_cons, List.length_cons, Nat.pow_succ]
          ring_nf

end Number

end AmlogicUpdate.Horner

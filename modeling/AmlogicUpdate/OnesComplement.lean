import Mathlib.Algebra.BigOperators.Group.List.Basic
import Mathlib.Data.List.Induction
import Mathlib.Data.Nat.ModEq
import Mathlib.Tactic.Common
import Mathlib.Tactic.Ring

/-!
Sums with the carry added back in, for numbers up to `m`.

Such a sum is the exact sum modulo `m`, with `m` rather than 0 for what is not zero. A sum
taken in a wider type is brought down by folding what is past `m` onto the rest; how often
this has to be done depends on how large the exact sum is.
-/

namespace AmlogicUpdate.OnesComplement

variable {m a b x : ℕ} {l : List ℕ}

/-- Addition of two numbers up to `m`. -/
def add (m a b : ℕ) : ℕ := if a + b ≤ m then a + b else a + b - m

def sum (m : ℕ) (l : List ℕ) : ℕ := l.foldl (add m) 0

@[simp] lemma sum_nil : sum m [] = 0 := rfl
@[simp] lemma sum_snoc (l : List ℕ) (a : ℕ) : sum m (l ++ [a]) = add m (sum m l) a := by
  rw [sum, List.foldl_append]
  rfl

lemma add_le (ha : a ≤ m) (hb : b ≤ m) : add m a b ≤ m := by unfold add; split_ifs <;> omega

lemma add_modEq (m a b : ℕ) : add m a b ≡ a + b [MOD m] := by
  unfold add
  split_ifs with h
  · rfl
  · have hback : a + b - m + m ≡ a + b [MOD m] := by rw [Nat.sub_add_cancel (by omega)]
    exact (Nat.add_modEq_right (n := m)).symm.trans hback

lemma add_eq_zero : add m a b = 0 ↔ a = 0 ∧ b = 0 := by unfold add; split_ifs <;> omega

/-- A number and what it lacks to `m`. -/
lemma add_complement (h : a ≤ m) : add m a (m - a) = m := by unfold add; split_ifs <;> omega

lemma sum_le (h : ∀ a ∈ l, a ≤ m) : sum m l ≤ m := by
  induction l using List.reverseRecOn with
  | nil => exact Nat.zero_le m
  | append_singleton l a ih =>
    rw [sum_snoc]
    exact add_le (ih fun b hb => h b (by simp [hb])) (h a (by simp))

lemma sum_modEq (m : ℕ) (l : List ℕ) : sum m l ≡ l.sum [MOD m] := by
  induction l using List.reverseRecOn with
  | nil => rfl
  | append_singleton l a ih =>
    rw [sum_snoc, List.sum_append, List.sum_singleton]
    exact (add_modEq m _ a).trans (ih.add_right a)

lemma sum_eq_zero : sum m l = 0 ↔ l.sum = 0 := by
  induction l using List.reverseRecOn with
  | nil => simp
  | append_singleton l a ih =>
    rw [sum_snoc, add_eq_zero, ih, List.sum_append, List.sum_singleton, Nat.add_eq_zero_iff]

/-- Up to `m` there is one number of each residue, and 0 beside `m`. -/
lemma eq_of_modEq (ha : a ≤ m) (hb : b ≤ m) (h : a ≡ b [MOD m]) (hzero : a = 0 ↔ b = 0) :
    a = b := by
  rcases Nat.eq_zero_or_pos a with rfl | hpos
  · exact (hzero.mp rfl).symm
  have hpos' : 0 < b := Nat.pos_of_ne_zero fun hb => by omega
  -- one less of each is below `m`
  have hpred : a - 1 ≡ b - 1 [MOD m] := by
    refine Nat.ModEq.add_right_cancel' 1 ?_
    rwa [Nat.sub_add_cancel hpos, Nat.sub_add_cancel hpos']
  have heq := Nat.ModEq.eq_of_lt_of_lt hpred (by omega) (by omega)
  omega

/-! ### Folding -/

/-- What is past `m` is added to the rest. -/
def fold (m x : ℕ) : ℕ := x / (m + 1) + x % (m + 1)

lemma fold_modEq (m x : ℕ) : fold m x ≡ x [MOD m] := by
  have hx : x = m * (x / (m + 1)) + fold m x := by
    have hdiv := Nat.div_add_mod x (m + 1)
    rw [fold]
    nth_rewrite 1 [← hdiv]
    ring
  calc fold m x ≡ m * (x / (m + 1)) + fold m x [MOD m] := by
        rw [Nat.ModEq, Nat.mul_add_mod]
    _ = x := hx.symm

lemma fold_eq_zero : fold m x = 0 ↔ x = 0 := by
  refine ⟨fun h => ?_, fun h => by rw [h, fold, Nat.zero_div, Nat.zero_mod]⟩
  obtain ⟨hdiv, hmod⟩ := Nat.add_eq_zero_iff.mp h
  rw [← Nat.div_add_mod x (m + 1), hdiv, hmod, Nat.mul_zero]

lemma fold_le (h : x ≤ 2 * m) : fold m x ≤ m := by
  rw [fold]
  rcases Nat.lt_or_ge x (m + 1) with hlt | hge
  · rw [Nat.div_eq_of_lt hlt, Nat.mod_eq_of_lt hlt]
    omega
  · rw [Nat.mod_eq_sub_mod hge, Nat.mod_eq_of_lt (by omega), Nat.div_eq_sub_div (by omega) hge,
      Nat.div_eq_of_lt (by omega)]
    omega

/-- Two foldings are enough up to `m + 3` numbers. -/
lemma fold_fold_le (h : x ≤ (m + 3) * m) : fold m (fold m x) ≤ m := by
  refine fold_le ?_
  have hdiv := Nat.div_add_mod x (m + 1)
  have hmod : x % (m + 1) ≤ m := by have := Nat.mod_lt x (by omega : 0 < m + 1); omega
  rw [fold]
  generalize x / (m + 1) = q at hdiv ⊢
  generalize x % (m + 1) = r at hdiv hmod ⊢
  have hbound : (m + 1) * q + r + 2 ≤ (m + 1) * (m + 1) + (m + 1) := by
    rw [hdiv]
    calc x + 2 ≤ (m + 3) * m + 2 := by omega
      _ = (m + 1) * (m + 1) + (m + 1) := by ring
  rcases Nat.lt_trichotomy q (m + 1) with hlt | rfl | hgt
  · omega
  · -- the remainder is not `m`
    omega
  · have hmul := Nat.mul_le_mul_left (m + 1) hgt
    have hexpand : (m + 1) * (m + 1 + 1) = (m + 1) * (m + 1) + (m + 1) := by ring
    rw [Nat.succ_eq_add_one] at hmul
    omega

/-- One more, and the carry of the second folding is lost. -/
example : fold 3 (fold 3 18) = 3 ∧ fold 3 (fold 3 19) = 4 := by decide

/-- A sum folded twice is the sum with the carries added back in. -/
theorem fold_fold_sum (hl : ∀ a ∈ l, a ≤ m) (h : l.sum ≤ (m + 3) * m) :
    fold m (fold m l.sum) = sum m l := by
  refine eq_of_modEq (fold_fold_le h) (sum_le hl) ?_ ?_
  · exact ((fold_modEq m _).trans (fold_modEq m _)).trans (sum_modEq m l).symm
  · rw [fold_eq_zero, fold_eq_zero, sum_eq_zero]

/-- With what a sum lacks to `m` added, the exact sum is no larger than the bound either. -/
lemma sum_complement_le (hl : ∀ a ∈ l, a ≤ m) (h : l.sum ≤ (m + 3) * m) :
    l.sum + (m - sum m l) ≤ (m + 3) * m := by
  rcases Nat.eq_zero_or_pos (sum m l) with hzero | hpos
  · rw [sum_eq_zero.mp hzero, hzero]
    exact (Nat.le_of_eq (by omega)).trans (Nat.le_mul_of_pos_left m (by omega))
  have hle := sum_le hl
  have hdvd : m ∣ l.sum + (m - sum m l) := by
    have hmod : l.sum + (m - sum m l) ≡ sum m l + (m - sum m l) [MOD m] :=
      (sum_modEq m l).symm.add_right _
    rw [Nat.add_sub_cancel' hle] at hmod
    exact (Nat.modEq_zero_iff_dvd.mp (hmod.trans (Nat.modEq_zero_iff_dvd.mpr dvd_rfl)))
  obtain ⟨k, hk⟩ := hdvd
  have hlt : m * k < m * (m + 4) := by
    rw [← hk, show m * (m + 4) = (m + 3) * m + m by ring]
    omega
  have hkle : k ≤ m + 3 := by have := Nat.lt_of_mul_lt_mul_left hlt; omega
  rw [hk, Nat.mul_comm]
  exact Nat.mul_le_mul_right m hkle

/-- Data with its complement sums up to all ones. -/
theorem fold_fold_complement (hl : ∀ a ∈ l, a ≤ m) (h : l.sum ≤ (m + 3) * m) :
    fold m (fold m (l ++ [m - sum m l]).sum) = m := by
  have hle := sum_le hl
  rw [fold_fold_sum, sum_snoc, add_complement hle]
  · intro a ha
    rcases List.mem_append.mp ha with ha | ha
    · exact hl a ha
    · rw [List.mem_singleton.mp ha]
      omega
  · rw [List.sum_append, List.sum_singleton]
    exact sum_complement_le hl h

end AmlogicUpdate.OnesComplement

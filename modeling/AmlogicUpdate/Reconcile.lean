import Mathlib.Tactic.Common
import Mathlib.Data.List.Nodup

/-!
Bringing a list of what is known in line with what is there.

Every known entry takes one entry with its key out of the second list, and goes if it finds
none. What is left of the second list is new.
-/

namespace AmlogicUpdate.Reconcile

variable {α β κ : Type}

/-- The known entries that stay, and what is left of the others. -/
def reconcile (same : α → β → Bool) : List α → List β → List α × List β
  | [], new => ([], new)
  | x :: old, new =>
    if new.any (same x) then
      let r := reconcile same old (new.eraseP (same x))
      (x :: r.1, r.2)
    else reconcile same old new

section Reconcile

variable {same : α → β → Bool} {old : List α} {new : List β}

lemma reconcile_sublist (old : List α) (new : List β) :
    (reconcile same old new).1.Sublist old ∧ (reconcile same old new).2.Sublist new := by
  induction old generalizing new with
  | nil => exact ⟨List.Sublist.refl _, List.Sublist.refl _⟩
  | cons x old ih =>
    rw [reconcile]
    split_ifs
    · obtain ⟨hold, hnew⟩ := ih (new.eraseP (same x))
      exact ⟨hold.cons_cons x, hnew.trans List.eraseP_sublist⟩
    · obtain ⟨hold, hnew⟩ := ih new
      exact ⟨hold.cons x, hnew⟩

end Reconcile

/-! ### By keys -/

section Keys

variable [DecidableEq κ] {key : α → κ} {key' : β → κ} {old : List α} {new : List β}

/-- Entries with the same key. -/
abbrev sameKey (key : α → κ) (key' : β → κ) (x : α) (y : β) : Bool := key x = key' y

lemma any_sameKey {x : α} : new.any (sameKey key key' x) = true ↔ key x ∈ new.map key' := by
  rw [List.any_eq_true, List.mem_map]
  constructor
  · rintro ⟨y, hy, he⟩
    exact ⟨y, hy, (of_decide_eq_true he).symm⟩
  · rintro ⟨y, hy, he⟩
    exact ⟨y, hy, decide_eq_true he.symm⟩

/-- Among keys that differ, taking out one entry takes out all with its key. -/
lemma eraseP_sameKey (h : (new.map key').Nodup) (x : α) :
    new.eraseP (sameKey key key' x) = new.filter fun y => key' y ≠ key x := by
  induction new with
  | nil => rfl
  | cons y new ih =>
    rw [List.map_cons, List.nodup_cons] at h
    by_cases hxy : key x = key' y
    · have hall : ∀ z ∈ new, key' z ≠ key x := fun z hz he =>
        h.1 (List.mem_map.mpr ⟨z, hz, he.trans hxy⟩)
      rw [List.eraseP_cons_of_pos (by simpa using hxy), List.filter_cons_of_neg (by simp [hxy]),
        List.filter_eq_self.mpr (by simpa using hall)]
    · rw [List.eraseP_cons_of_neg (by simpa using hxy),
        List.filter_cons_of_pos (by simpa using Ne.symm hxy), ih h.2]

/-- Among keys that differ, what stays and what is new is told by the keys alone. -/
theorem reconcile_sameKey (hold : (old.map key).Nodup) (hnew : (new.map key').Nodup) :
    reconcile (sameKey key key') old new =
      (old.filter fun x => key x ∈ new.map key', new.filter fun y => key' y ∉ old.map key) := by
  induction old generalizing new with
  | nil => simp [reconcile]
  | cons x old ih =>
    rw [List.map_cons, List.nodup_cons] at hold
    rw [reconcile]
    by_cases hx : key x ∈ new.map key'
    · have hnew' : ((new.filter fun y => key' y ≠ key x).map key').Nodup :=
        hnew.sublist (List.filter_sublist.map _)
      have hstay : ∀ z ∈ old, key z ∈ (new.filter fun y => key' y ≠ key x).map key' ↔
          key z ∈ new.map key' := by
        intro z hz
        have hne : key z ≠ key x := fun he => hold.1 (List.mem_map.mpr ⟨z, hz, he⟩)
        simp only [List.mem_map, List.mem_filter, decide_eq_true_eq]
        constructor
        · rintro ⟨y, ⟨hy, -⟩, he⟩
          exact ⟨y, hy, he⟩
        · rintro ⟨y, hy, he⟩
          exact ⟨y, ⟨hy, he ▸ hne⟩, he⟩
      rw [if_pos (any_sameKey.mpr hx), eraseP_sameKey hnew, ih hold.2 hnew',
        List.filter_cons_of_pos (by simpa using hx), List.filter_filter]
      refine Prod.ext (congrArg (x :: ·) (List.filter_congr fun z hz => ?_))
        (List.filter_congr fun y _ => ?_)
      · rw [decide_eq_decide]
        exact hstay z hz
      · rw [List.map_cons, Bool.and_comm, ← Bool.decide_and, decide_eq_decide, List.mem_cons,
          not_or]
    · have hno : ∀ y ∈ new, key' y ≠ key x := fun y hy he => hx (List.mem_map.mpr ⟨y, hy, he⟩)
      rw [if_neg (mt any_sameKey.mp hx), ih hold.2 hnew, List.filter_cons_of_neg
        (by simpa using hx)]
      refine Prod.ext rfl (List.filter_congr fun y hy => ?_)
      simp [hno y hy]

end Keys

end AmlogicUpdate.Reconcile

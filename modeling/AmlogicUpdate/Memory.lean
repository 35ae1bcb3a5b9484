import Mathlib.Tactic.Common
import Mathlib.Data.List.GetD

/-!
A memory as a function of addresses: storing a run of cells, and loading one.
-/

namespace AmlogicUpdate.Memory

variable {α : Type}

def store (mem : ℕ → α) (addr : ℕ) (data : List α) : ℕ → α := fun x =>
  if addr ≤ x then data.getD (x - addr) (mem x) else mem x

def load (mem : ℕ → α) (addr n : ℕ) : List α := (List.range n).map fun i => mem (addr + i)

section Memory

variable (mem : ℕ → α) (addr : ℕ)

@[simp] lemma store_nil : store mem addr [] = mem := by
  funext x
  simp [store]

/-- What is not stored to is as it was. -/
lemma store_outside {data : List α} {x : ℕ} (h : x < addr ∨ addr + data.length ≤ x) :
    store mem addr data x = mem x := by
  unfold store
  split_ifs with hx
  · exact List.getD_eq_default _ _ (by omega)
  · rfl

/-- Stores that meet make one. -/
lemma store_store (a b : List α) {next : ℕ} (h : next = addr + a.length) :
    store (store mem addr a) next b = store mem addr (a ++ b) := by
  subst h
  funext x
  unfold store
  by_cases h₁ : addr + a.length ≤ x
  · have h₂ : addr ≤ x := by omega
    have hx : x - addr - a.length = x - (addr + a.length) := by omega
    rw [if_pos h₁, if_pos h₂, if_pos h₂, List.getD_append_right _ _ _ _ (by omega), hx,
      List.getD_eq_default a _ (by omega)]
  · rw [if_neg h₁]
    by_cases h₂ : addr ≤ x
    · rw [if_pos h₂, if_pos h₂, List.getD_append _ _ _ _ (by omega)]
    · rw [if_neg h₂, if_neg h₂]

@[simp] lemma load_length (n : ℕ) : (load mem addr n).length = n := by simp [load]

@[simp] lemma load_zero : load mem addr 0 = [] := rfl

/-- Loads that meet make one. -/
lemma load_append (n m : ℕ) :
    load mem addr n ++ load mem (addr + n) m = load mem addr (n + m) := by
  simp [load, List.range_add, Function.comp_def, Nat.add_assoc]

/-- What was stored is loaded. -/
lemma load_store (data : List α) : load (store mem addr data) addr data.length = data := by
  apply List.ext_getElem
  · rw [load_length]
  · intro i h₁ h₂
    have hle : addr ≤ addr + i := by omega
    have hi : addr + i - addr = i := by omega
    simp only [load, List.getElem_map, List.getElem_range, store]
    rw [if_pos hle, hi, List.getD_eq_getElem _ _ h₂]

end Memory

end AmlogicUpdate.Memory

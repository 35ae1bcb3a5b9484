import Mathlib.Data.Finset.Basic
import Mathlib.Data.Finset.Lattice.Fold
import Mathlib.Order.Lattice.Nat
import Mathlib.Logic.Function.Basic

/-!
Programs over a heap.

A program reads and writes cells that are allocated and frees them; whatever touches another
address has no outcome. `Yields` says that a program has an outcome, and what it is.
-/

namespace AmlogicUpdate.Heap

/-! ### Programs that may have no outcome -/

/-- A program over the states `σ`. -/
abbrev Cmd (σ α : Type) : Type := StateT σ Option α

variable {σ τ α β : Type}

/-- From the state `s` the program has an outcome, and it is as `Q` asks for. -/
def Yields (p : Cmd σ α) (s : σ) (Q : α → σ → Prop) : Prop :=
  ∃ a s', p.run s = some (a, s') ∧ Q a s'

section Yields

variable {s : σ} {Q Q' : α → σ → Prop}

/-- A program whose outcome is known. -/
lemma yields_of_run {p : Cmd σ α} {a : α} {s' : σ} (hp : p.run s = some (a, s')) :
    Yields p s Q ↔ Q a s' := by
  constructor
  · rintro ⟨b, s₂, he, hQ⟩
    rw [hp] at he
    obtain ⟨rfl, rfl⟩ := Prod.mk.inj (Option.some.inj he)
    exact hQ
  · intro hQ
    exact ⟨a, s', hp, hQ⟩

lemma yields_congr {p p' : Cmd σ α} {s' : σ} (h : p.run s = p'.run s') :
    Yields p s Q ↔ Yields p' s' Q := by
  rw [Yields, Yields, h]

@[simp] lemma yields_pure {a : α} : Yields (pure a : Cmd σ α) s Q ↔ Q a s := yields_of_run rfl

lemma yields_bind {p : Cmd σ α} {f : α → Cmd σ β} {Q : β → σ → Prop} :
    Yields (p >>= f) s Q ↔ Yields p s fun a s' => Yields (f a) s' Q := by
  simp only [Yields, StateT.run_bind]
  constructor
  · rintro ⟨b, s₂, he, hQ⟩
    obtain ⟨⟨a, s₁⟩, ha, hb⟩ := Option.bind_eq_some_iff.mp he
    exact ⟨a, s₁, ha, b, s₂, hb, hQ⟩
  · rintro ⟨a, s₁, ha, b, s₂, hb, hQ⟩
    exact ⟨b, s₂, Option.bind_eq_some_iff.mpr ⟨(a, s₁), ha, hb⟩, hQ⟩

lemma Yields.mono {p : Cmd σ α} (hp : Yields p s Q) (hQ : ∀ a s', Q a s' → Q' a s') :
    Yields p s Q' := by
  obtain ⟨a, s', he, h⟩ := hp
  exact ⟨a, s', he, hQ _ _ h⟩

lemma Yields.and {p : Cmd σ α} (h : Yields p s Q) (h' : Yields p s Q') :
    Yields p s fun a s' => Q a s' ∧ Q' a s' := by
  obtain ⟨a, s', he, hQ⟩ := h
  exact ⟨a, s', he, hQ, (yields_of_run he).mp h'⟩

end Yields

/-- The program touches what is not allocated. -/
def Stuck (p : Cmd σ α) (s : σ) : Prop := p.run s = none

section Stuck

variable {s : σ} {p : Cmd σ α} {f : α → Cmd σ β}

lemma Stuck.bind (h : Stuck p s) : Stuck (p >>= f) s := by
  rw [Stuck, StateT.run_bind]
  exact (congrArg (· >>= fun r : α × σ => (f r.1).run r.2) h)

lemma Yields.stuck_bind (h : Yields p s fun a s' => Stuck (f a) s') : Stuck (p >>= f) s := by
  obtain ⟨a, s', he, hf⟩ := h
  rw [Stuck, StateT.run_bind, he]
  exact hf

end Stuck

/-! ### Programs over a part of the state -/

def onPart (get : τ → σ) (set : σ → τ → τ) (p : Cmd σ α) : Cmd τ α := fun t =>
  (p.run (get t)).map fun r => (r.1, set r.2 t)

lemma yields_onPart {get : τ → σ} {set : σ → τ → τ} {p : Cmd σ α} {t : τ} {Q : α → τ → Prop} :
    Yields (onPart get set p) t Q ↔ Yields p (get t) fun a s => Q a (set s t) := by
  have hrun : (onPart get set p).run t = (p.run (get t)).map fun r => (r.1, set r.2 t) := rfl
  constructor
  · rintro ⟨a, t', he, hQ⟩
    rw [hrun] at he
    obtain ⟨⟨b, s⟩, hp, hb⟩ := Option.map_eq_some_iff.mp he
    obtain ⟨rfl, rfl⟩ := Prod.mk.inj hb
    exact ⟨b, s, hp, hQ⟩
  · rintro ⟨a, s, hp, hQ⟩
    refine ⟨a, _, ?_, hQ⟩
    rw [hrun, hp]
    rfl

/-! ### Cells -/

variable {C : Type}

/-- The cells that are allocated, and how often one has been asked for. -/
structure Mem (C : Type) where
  cells : ℕ → Option C
  used : Finset ℕ
  mem_used : ∀ a, (cells a).isSome → a ∈ used
  asked : ℕ

/-- `malloc`: which requests it refuses, and where it finds room for the others. What is
allocated holds anything. -/
structure Allocator (C : Type) where
  fails : ℕ → Bool
  place : ℕ → Finset ℕ → ℕ
  fresh : ∀ n used, place n used ∉ used
  junk : ℕ → C

/-- An allocator that never refuses and finds its room above all that has been used. -/
def Allocator.above (junk : C) : Allocator C where
  fails _ := false
  place _ used := used.sup id + 1
  fresh _ _ h := absurd (Finset.le_sup (f := id) h) (Nat.not_succ_le_self _)
  junk _ := junk

namespace Mem

def empty (C : Type) : Mem C := ⟨fun _ => none, ∅, fun _ h => absurd h Bool.false_ne_true, 0⟩

def set (m : Mem C) (a : ℕ) (c : C) : Mem C where
  cells := Function.update m.cells a (some c)
  used := insert a m.used
  mem_used x hx := by
    rcases eq_or_ne x a with rfl | h
    · exact Finset.mem_insert_self x _
    · rw [Function.update_of_ne h] at hx
      exact Finset.mem_insert_of_mem (m.mem_used x hx)
  asked := m.asked

def erase (m : Mem C) (a : ℕ) : Mem C where
  cells := Function.update m.cells a none
  used := m.used.erase a
  mem_used x hx := by
    rcases eq_or_ne x a with rfl | h
    · rw [Function.update_self] at hx
      exact absurd hx Bool.false_ne_true
    · rw [Function.update_of_ne h] at hx
      exact Finset.mem_erase.mpr ⟨h, m.mem_used x hx⟩
  asked := m.asked

variable (m : Mem C) {a x : ℕ}

@[simp] lemma set_same (a : ℕ) (c : C) : (m.set a c).cells a = some c := Function.update_self ..

@[simp] lemma set_of_ne (c : C) (h : x ≠ a) : (m.set a c).cells x = m.cells x :=
  Function.update_of_ne h ..

@[simp] lemma erase_same (a : ℕ) : (m.erase a).cells a = none := Function.update_self ..

@[simp] lemma erase_of_ne (h : x ≠ a) : (m.erase a).cells x = m.cells x :=
  Function.update_of_ne h ..

@[simp] lemma set_asked (a : ℕ) (c : C) : (m.set a c).asked = m.asked := rfl

@[simp] lemma erase_asked (a : ℕ) : (m.erase a).asked = m.asked := rfl

end Mem

def load (a : ℕ) : Cmd (Mem C) C := fun m => (m.cells a).map fun c => (c, m)

def store (a : ℕ) (c : C) : Cmd (Mem C) Unit := fun m => (m.cells a).map fun _ => ((), m.set a c)

def malloc (A : Allocator C) : Cmd (Mem C) (Option ℕ) := fun m =>
  let m' := { m with asked := m.asked + 1 }
  if A.fails m.asked then some (none, m')
  else
    let a := A.place m.asked m.used
    some (some a, m'.set a (A.junk m.asked))

def free (a : ℕ) : Cmd (Mem C) Unit := fun m => (m.cells a).map fun _ => ((), m.erase a)

section Cells

variable {m : Mem C} {a : ℕ} {c : C}

lemma run_load (h : m.cells a = some c) : (load a).run m = some (c, m) := by
  change (m.cells a).map _ = _
  rw [h]
  rfl

lemma run_store (h : m.cells a = some c) (c' : C) :
    (store a c').run m = some ((), m.set a c') := by
  change (m.cells a).map _ = _
  rw [h]
  rfl

lemma run_free (h : m.cells a = some c) : (free a).run m = some ((), m.erase a) := by
  change (m.cells a).map _ = _
  rw [h]
  rfl

lemma yields_load {Q : C → Mem C → Prop} (h : m.cells a = some c) :
    Yields (load a) m Q ↔ Q c m := yields_of_run (run_load h)

lemma stuck_load (h : m.cells a = none) : Stuck (load a) m := by
  change (m.cells a).map _ = _
  rw [h]
  rfl

lemma stuck_free (h : m.cells a = none) : Stuck (free a) m := by
  change (m.cells a).map _ = _
  rw [h]
  rfl

variable {Q : Unit → Mem C → Prop}

lemma yields_store (h : m.cells a = some c) (c' : C) :
    Yields (store a c') m Q ↔ Q () (m.set a c') := yields_of_run (run_store h c')

lemma yields_free (h : m.cells a = some c) : Yields (free a) m Q ↔ Q () (m.erase a) :=
  yields_of_run (run_free h)

/-- What is allocated has been free, and is the only address that has changed. -/
lemma yields_malloc (A : Allocator C) (m : Mem C) :
    Yields (malloc A) m fun r m' => m'.asked = m.asked + 1 ∧ match r with
      | some a => A.fails m.asked = false ∧ m.cells a = none ∧ (m'.cells a).isSome ∧
        ∀ x, x ≠ a → m'.cells x = m.cells x
      | none => A.fails m.asked = true ∧ m'.cells = m.cells := by
  have hrun : (malloc A).run m = if A.fails m.asked then
      some (none, { m with asked := m.asked + 1 })
    else some (some (A.place m.asked m.used),
      { m with asked := m.asked + 1 }.set (A.place m.asked m.used) (A.junk m.asked)) := rfl
  cases hfails : A.fails m.asked with
  | true =>
    rw [hfails, if_pos rfl] at hrun
    exact ⟨_, _, hrun, rfl, rfl, rfl⟩
  | false =>
    rw [hfails, if_neg Bool.false_ne_true] at hrun
    refine ⟨_, _, hrun, rfl, rfl, ?_, ?_, fun x hx => Mem.set_of_ne _ _ hx⟩
    · by_contra hsome
      exact A.fresh _ _ (m.mem_used _ (Option.isSome_iff_ne_none.mpr hsome))
    · exact congrArg Option.isSome (Mem.set_same _ _ _)

end Cells

/-! ### What is left of some cells -/

/-- The cells outside `s` are as they were. -/
def Apart (s : List ℕ) (m m' : Mem C) : Prop := ∀ x, x ∉ s → m'.cells x = m.cells x

section Apart

variable {s s' l l' : List ℕ} {m m' m₁ m₂ m₃ : Mem C} {a : ℕ}

lemma Apart.refl (s : List ℕ) (m : Mem C) : Apart s m m := fun _ _ => rfl

lemma Apart.trans (h : Apart s m₁ m₂) (h' : Apart s m₂ m₃) : Apart s m₁ m₃ :=
  fun x hx => (h' x hx).trans (h x hx)

lemma Apart.mono (h : Apart s m m') (hs : s ⊆ s') : Apart s' m m' :=
  fun x hx => h x fun hm => hx (hs hm)

lemma Apart.set (h : Apart s m m') (ha : a ∈ s) (c : C) : Apart s m (m'.set a c) := fun x hx =>
  (m'.set_of_ne c (ne_of_mem_of_not_mem ha hx).symm).trans (h x hx)

lemma Apart.erase (h : Apart s m m') (ha : a ∈ s) : Apart s m (m'.erase a) := fun x hx =>
  (m'.erase_of_ne (ne_of_mem_of_not_mem ha hx).symm).trans (h x hx)

/-- Nothing outside `s` has changed, and of `s` only `l` is still allocated. -/
structure Leaves (s l : List ℕ) (m m' : Mem C) : Prop where
  apart : Apart s m m'
  freed : ∀ x ∈ s, x ∉ l → m'.cells x = none

namespace Leaves

lemma of_apart (h : Apart s m m₁) (hs : s ⊆ l) : Leaves s l m m₁ :=
  ⟨h, fun _ hx hxl => absurd (hs hx) hxl⟩

lemma trans (h : Leaves s l m m₁) (h' : Leaves l l' m₁ m₂) (hl : l ⊆ s) : Leaves s l' m m₂ := by
  refine ⟨h.apart.trans (h'.apart.mono hl), fun x hx hxl' => ?_⟩
  by_cases hxl : x ∈ l
  · exact h'.freed x hxl hxl'
  · exact (h'.apart x hxl).trans (h.freed x hx hxl)

/-- Cells that take no part stay. -/
lemma widen (h : Leaves s l m m₁) (hs : s ⊆ s') (hl : ∀ x ∈ s', x ∉ l' → x ∈ s ∧ x ∉ l) :
    Leaves s' l' m m₁ :=
  ⟨h.apart.mono hs, fun x hx hxl => h.freed x (hl x hx hxl).1 (hl x hx hxl).2⟩

end Leaves

end Apart

end AmlogicUpdate.Heap

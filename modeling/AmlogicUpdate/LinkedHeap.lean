import AmlogicUpdate.Heap
import Mathlib.Data.List.Nodup
import Mathlib.Tactic.Common

/-!
Doubly linked lists in a heap: adding a link in front, and taking one out wherever it is.
-/

namespace AmlogicUpdate.LinkedHeap

open Heap

variable {V : Type}

/-! ### Links -/

/-- A cell that can be a link of a list. -/
structure Cell (V : Type) where
  next : Option ℕ
  prev : Option ℕ
  val : V

def setNext (a : ℕ) (next : Option ℕ) : Cmd (Mem (Cell V)) Unit := do
  let c ← load a
  store a { c with next := next }

def setPrev (a : ℕ) (prev : Option ℕ) : Cmd (Mem (Cell V)) Unit := do
  let c ← load a
  store a { c with prev := prev }

section Links

variable {m : Mem (Cell V)} {a : ℕ} {c : Cell V} {Q : Unit → Mem (Cell V) → Prop}

lemma yields_setNext (h : m.cells a = some c) (next : Option ℕ) :
    Yields (setNext a next) m Q ↔ Q () (m.set a { c with next := next }) := by
  rw [setNext, yields_bind, yields_load h, yields_store h]

lemma yields_setPrev (h : m.cells a = some c) (prev : Option ℕ) :
    Yields (setPrev a prev) m Q ↔ Q () (m.set a { c with prev := prev }) := by
  rw [setPrev, yields_bind, yields_load h, yields_store h]

end Links

/-! ### Lists -/

/-- The links of a list, with their addresses. -/
abbrev Links (V : Type) : Type := List (ℕ × V)

/-- The addresses of a list. -/
abbrev addrs (l : Links V) : List ℕ := l.map Prod.fst

/-- Where a list begins. -/
def begins (l : Links V) : Option ℕ := l.head?.map Prod.fst

/-- A part of a list that is entered at `b` from `p`, and left from `q` for `c`. -/
def Seg (h : ℕ → Option (Cell V)) : Option ℕ → Option ℕ → Links V → Option ℕ → Option ℕ → Prop
  | p, b, [], q, c => p = q ∧ b = c
  | p, b, (a, v) :: l, q, c =>
    b = some a ∧ ∃ next, h a = some ⟨next, p, v⟩ ∧ Seg h (some a) next l q c

/-- The links of the list that begins at `b`. -/
structure IsList (h : ℕ → Option (Cell V)) (b : Option ℕ) (l : Links V) : Prop where
  seg : ∃ q, Seg h none b l q none
  nodup : (addrs l).Nodup

section Seg

variable {h h' : ℕ → Option (Cell V)} {p b q c : Option ℕ} {l l' : Links V} {a : ℕ} {v : V}

lemma seg_append : Seg h p b (l ++ l') q c ↔ ∃ q' c', Seg h p b l q' c' ∧ Seg h q' c' l' q c := by
  induction l generalizing p b with
  | nil =>
    constructor
    · exact fun hs => ⟨p, b, ⟨rfl, rfl⟩, hs⟩
    · rintro ⟨_, _, ⟨rfl, rfl⟩, hs⟩
      exact hs
  | cons x l ih =>
    simp only [List.cons_append, Seg, ih]
    constructor
    · rintro ⟨hb, next, hx, q', c', hs, hs'⟩
      exact ⟨q', c', ⟨hb, next, hx, hs⟩, hs'⟩
    · rintro ⟨q', c', ⟨hb, next, hx, hs⟩, hs'⟩
      exact ⟨hb, next, hx, q', c', hs, hs'⟩

/-- What does not touch a list leaves it as it is. -/
lemma Seg.frame (hs : Seg h p b l q c) (hh : ∀ x ∈ addrs l, h' x = h x) : Seg h' p b l q c := by
  induction l generalizing p b with
  | nil => exact hs
  | cons x l ih =>
    obtain ⟨hb, next, hx, hs⟩ := hs
    have hrest : ∀ y ∈ addrs l, h' y = h y := fun y hy => hh y (List.mem_cons_of_mem _ hy)
    exact ⟨hb, next, (hh x.1 List.mem_cons_self).trans hx, ih hs hrest⟩

lemma Seg.begins (hs : Seg h p b l q none) : b = begins l := by
  cases l with
  | nil => exact hs.2
  | cons x l => exact hs.1

lemma Seg.allocated (hs : Seg h p b l q c) {x : ℕ} (hx : x ∈ addrs l) : (h x).isSome := by
  induction l generalizing p b with
  | nil => exact absurd hx List.not_mem_nil
  | cons y l ih =>
    obtain ⟨-, next, hy, hs⟩ := hs
    rcases List.mem_cons.mp hx with rfl | hx
    · rw [hy]
      rfl
    · exact ih hs hx

end Seg

namespace IsList

variable {h h' : ℕ → Option (Cell V)} {b : Option ℕ} {l l' : Links V} {a : ℕ} {v : V}

lemma nil (h : ℕ → Option (Cell V)) : IsList h none [] := ⟨⟨none, rfl, rfl⟩, List.nodup_nil⟩

lemma frame (hl : IsList h b l) (hh : ∀ x ∈ addrs l, h' x = h x) : IsList h' b l :=
  ⟨hl.seg.imp fun _ hs => hs.frame hh, hl.nodup⟩

lemma begins (hl : IsList h b l) : b = begins l := by
  obtain ⟨q, hs⟩ := hl.seg
  exact hs.begins

lemma allocated (hl : IsList h b l) {x : ℕ} (hx : x ∈ addrs l) : (h x).isSome := by
  obtain ⟨q, hs⟩ := hl.seg
  exact hs.allocated hx

/-- A link, and where it leads. -/
lemma link (hl : IsList h b (l ++ (a, v) :: l')) :
    ∃ prev, h a = some ⟨LinkedHeap.begins l', prev, v⟩ := by
  obtain ⟨q, hs⟩ := hl.seg
  obtain ⟨q', c', -, -, next, ha, hs'⟩ := seg_append.mp hs
  exact ⟨q', by rw [ha, hs'.begins]⟩

/-- A link holds its value. -/
lemma val_of_mem (hl : IsList h b l) (hx : (a, v) ∈ l) : ∃ c, h a = some c ∧ c.val = v := by
  obtain ⟨l₁, l₂, rfl⟩ := List.append_of_mem hx
  obtain ⟨prev, ha⟩ := hl.link
  exact ⟨_, ha, rfl⟩

end IsList

/-! ### Adding to a list and taking from it -/

/-- `LIST_ADD`; the new beginning. -/
def listAdd (begin : Option ℕ) (ent : ℕ) : Cmd (Mem (Cell V)) (Option ℕ) := do
  match begin with
  | some first =>
    setNext ent begin
    setPrev first (some ent)
  | none => setNext ent none
  setPrev ent none
  pure (some ent)

/-- The link before an entry, or the beginning, is made to lead to `next`. -/
def relinkNext (begin prev next : Option ℕ) : Cmd (Mem (Cell V)) (Option ℕ) :=
  match prev with
  | some p => do
    setNext p next
    pure begin
  | none => pure next

/-- The link behind an entry is made to lead back to `prev`. -/
def relinkPrev (next prev : Option ℕ) : Cmd (Mem (Cell V)) Unit :=
  match next with
  | some n => setPrev n prev
  | none => pure ()

/-- `LIST_DEL`; the new beginning. -/
def listDel (begin : Option ℕ) (ent : ℕ) : Cmd (Mem (Cell V)) (Option ℕ) := do
  let e ← load ent
  let begin ← relinkNext begin e.prev e.next
  let e ← load ent
  relinkPrev e.next e.prev
  setPrev ent none
  setNext ent none
  pure begin

section Lists

variable {m : Mem (Cell V)} {b : Option ℕ} {l l' : Links V} {a : ℕ} {c : Cell V} {v : V}

/-- A list that is nowhere near what has changed. -/
lemma IsList.apart {s : List ℕ} {m' : Mem (Cell V)} (hl : IsList m.cells b l) (h : Apart s m m')
    (hs : ∀ x ∈ addrs l, x ∉ s) : IsList m'.cells b l :=
  hl.frame fun x hx => h x (hs x hx)

lemma listAdd_spec (hl : IsList m.cells b l) (ha : m.cells a = some c) (hnew : a ∉ addrs l) :
    Yields (listAdd b a) m fun b' m' =>
      IsList m'.cells b' ((a, c.val) :: l) ∧ Apart (a :: addrs l) m m' := by
  obtain ⟨q, hs⟩ := hl.seg
  have hnodup : (addrs ((a, c.val) :: l)).Nodup := List.nodup_cons.mpr ⟨hnew, hl.nodup⟩
  cases l with
  | nil =>
    obtain rfl : b = none := hs.2
    simp only [listAdd, yields_bind, yields_setNext ha, yields_setPrev (m.set_same a _),
      yields_pure]
    refine ⟨⟨⟨some a, rfl, none, Mem.set_same _ _ _, rfl, rfl⟩, hnodup⟩, ?_⟩
    exact ((Apart.refl _ m).set List.mem_cons_self _).set List.mem_cons_self _
  | cons y l =>
    obtain ⟨f, w⟩ := y
    obtain ⟨rfl, next, hf, hs⟩ := hs
    have hfa : f ≠ a := fun he => hnew (he ▸ List.mem_cons_self)
    have hfl : f ∉ addrs l := (List.nodup_cons.mp hl.nodup).1
    have hal : a ∉ addrs l := fun hx => hnew (List.mem_cons_of_mem _ hx)
    have hf₁ : (m.set a { c with next := some f }).cells f = some ⟨next, none, w⟩ :=
      (m.set_of_ne _ hfa).trans hf
    have ha₂ : ((m.set a { c with next := some f }).set f ⟨next, some a, w⟩).cells a =
        some { c with next := some f } := (Mem.set_of_ne _ _ hfa.symm).trans (m.set_same a _)
    simp only [listAdd, yields_bind, yields_setNext ha, yields_setPrev hf₁, yields_setPrev ha₂,
      yields_pure]
    refine ⟨⟨⟨q, rfl, some f, Mem.set_same _ _ _, rfl, next, ?_, hs.frame fun x hx => ?_⟩, hnodup⟩,
      ?_⟩
    · rw [Mem.set_of_ne _ _ hfa, Mem.set_same]
    · have hxa : x ≠ a := fun he => hal (he ▸ hx)
      have hxf : x ≠ f := fun he => hfl (he ▸ hx)
      rw [Mem.set_of_ne _ _ hxa, Mem.set_of_ne _ _ hxf, Mem.set_of_ne _ _ hxa]
    · have hmem : f ∈ a :: addrs ((f, w) :: l) := List.mem_cons_of_mem _ List.mem_cons_self
      exact (((Apart.refl _ m).set List.mem_cons_self _).set hmem _).set List.mem_cons_self _

/-- The part before an entry, led past it. -/
lemma relinkNext_spec {q next : Option ℕ} (hs : Seg m.cells none b l q (some a))
    (hnodup : (addrs l).Nodup) :
    Yields (relinkNext b q next) m fun b' m' =>
      Seg m'.cells none b' l q next ∧ Apart (addrs l) m m' := by
  rcases List.eq_nil_or_concat l with rfl | ⟨l, x, rfl⟩
  · obtain ⟨rfl, -⟩ := hs
    exact yields_pure.mpr ⟨⟨rfl, rfl⟩, Apart.refl _ m⟩
  obtain ⟨x, w⟩ := x
  obtain ⟨q', c', hs', rfl, n, hx, rfl, rfl⟩ := seg_append.mp (List.concat_eq_append ▸ hs)
  rw [List.concat_eq_append] at hnodup ⊢
  have hxl : x ∉ addrs l := by
    rw [addrs, List.map_append] at hnodup
    exact fun hm => List.disjoint_of_nodup_append hnodup hm List.mem_cons_self
  have hmem : x ∈ addrs (l ++ [(x, w)]) := by simp
  simp only [relinkNext, yields_bind, yields_setNext hx, yields_pure]
  refine ⟨seg_append.mpr ⟨q', some x, hs'.frame fun y hy => ?_, rfl, next, m.set_same x _,
    rfl, rfl⟩,
    (Apart.refl _ m).set hmem _⟩
  exact m.set_of_ne _ fun he => hxl (he ▸ hy)

/-- The part behind an entry, led back past it. -/
lemma relinkPrev_spec {q q' prev next : Option ℕ} (hs : Seg m.cells q next l q' none)
    (hnodup : (addrs l).Nodup) :
    Yields (relinkPrev next prev) m fun _ m' =>
      (∃ q'', Seg m'.cells prev next l q'' none) ∧ Apart (addrs l) m m' := by
  cases l with
  | nil =>
    obtain ⟨-, rfl⟩ := hs
    exact yields_pure.mpr ⟨⟨prev, rfl, rfl⟩, Apart.refl _ m⟩
  | cons x l =>
    obtain ⟨x, w⟩ := x
    obtain ⟨rfl, n, hx, hs⟩ := hs
    have hxl : x ∉ addrs l := (List.nodup_cons.mp hnodup).1
    simp only [relinkPrev, yields_setPrev hx]
    refine ⟨⟨q', rfl, n, m.set_same x _, hs.frame fun y hy => ?_⟩,
      (Apart.refl _ m).set List.mem_cons_self _⟩
    exact m.set_of_ne _ fun he => hxl (he ▸ hy)

/-- An entry is taken out wherever it is, and stays allocated. -/
lemma listDel_spec (hl : IsList m.cells b (l ++ (a, v) :: l')) :
    Yields (listDel b a) m fun b' m' => IsList m'.cells b' (l ++ l') ∧
      m'.cells a = some ⟨none, none, v⟩ ∧ Apart (addrs (l ++ (a, v) :: l')) m m' := by
  obtain ⟨q', hs⟩ := hl.seg
  obtain ⟨q, c', hs₁, rfl, next, ha, hs₂⟩ := seg_append.mp hs
  have hnodup := hl.nodup
  rw [addrs, List.map_append, List.map_cons] at hnodup
  obtain ⟨hn₁, hn₂, hdisj⟩ := List.nodup_append'.mp hnodup
  obtain ⟨ha₂, hn₂⟩ := List.nodup_cons.mp hn₂
  have ha₁ : a ∉ addrs l := fun hx => hdisj hx List.mem_cons_self
  have hdisj' : ∀ x ∈ addrs l', x ∉ addrs l := fun x hx hx' =>
    hdisj hx' (List.mem_cons_of_mem _ hx)
  have hsub₁ : addrs l ⊆ addrs (l ++ (a, v) :: l') := by simp
  have hsub₂ : addrs l' ⊆ addrs (l ++ (a, v) :: l') := fun x hx => by
    simp only [addrs, List.map_append, List.map_cons, List.mem_append, List.mem_cons]
    exact .inr (.inr hx)
  have hmem : a ∈ addrs (l ++ (a, v) :: l') := by simp
  unfold listDel
  rw [yields_bind, yields_load ha, yields_bind]
  refine (relinkNext_spec hs₁ hn₁).mono ?_
  rintro b' m₁ ⟨hseg₁, hap₁⟩
  have ham₁ : m₁.cells a = some ⟨next, q, v⟩ := (hap₁ a ha₁).trans ha
  have hs₂' : Seg m₁.cells (some a) next l' q' none := hs₂.frame fun x hx => hap₁ x (hdisj' x hx)
  rw [yields_bind, yields_load ham₁, yields_bind]
  refine (relinkPrev_spec hs₂' hn₂).mono ?_
  rintro _ m₂ ⟨⟨q'', hseg₂⟩, hap₂⟩
  have ham₂ : m₂.cells a = some ⟨next, q, v⟩ := (hap₂ a ha₂).trans ham₁
  have hseg₁' : Seg m₂.cells none b' l q next := hseg₁.frame fun x hx =>
    hap₂ x fun hx' => hdisj' x hx' hx
  have hwhole : Seg m₂.cells none b' (l ++ l') q'' none := seg_append.mpr ⟨q, next, hseg₁', hseg₂⟩
  simp only [yields_bind, yields_setPrev ham₂, yields_setNext (m₂.set_same a _), yields_pure]
  refine ⟨⟨⟨q'', hwhole.frame fun x hx => ?_⟩, ?_⟩, Mem.set_same _ _ _, ?_⟩
  · have hxa : x ≠ a := by
      rintro rfl
      rw [addrs, List.map_append] at hx
      rcases List.mem_append.mp hx with hx | hx
      · exact ha₁ hx
      · exact ha₂ hx
    rw [Mem.set_of_ne _ _ hxa, Mem.set_of_ne _ _ hxa]
  · rw [addrs, List.map_append]
    exact List.nodup_append'.mpr ⟨hn₁, hn₂, fun x hx hx' => hdisj' x hx' hx⟩
  · exact (((hap₁.mono hsub₁).trans (hap₂.mono hsub₂)).set hmem _).set hmem _

end Lists

end AmlogicUpdate.LinkedHeap

import Mathlib.Data.Int.Notation
import AmlogicUpdate.LinkedHeap
import AmlogicUpdate.Reconcile

/-!
Walks along linked lists: looking for a link, giving a list back, and bringing a list that is
kept in line with one that has just been made.

The links that are kept can have a share in the rest of the state. It is taken when a link is
adopted and given back when it goes.
-/

namespace AmlogicUpdate.LinkedHeap

open Heap Reconcile

variable {V σ α : Type}

/-! ### The cells and the rest of the state -/

/-- The cells, next to the rest of the state. -/
def onMem (p : Cmd (Mem (Cell V)) α) : Cmd (Mem (Cell V) × σ) α :=
  onPart Prod.fst (fun m t => (m, t.2)) p

/-- The rest of the state. -/
def onRest (p : Cmd σ α) : Cmd (Mem (Cell V) × σ) α := onPart Prod.snd (fun s t => (t.1, s)) p

@[simp] lemma yields_onMem {p : Cmd (Mem (Cell V)) α} {m : Mem (Cell V)} {s : σ}
    {Q : α → Mem (Cell V) × σ → Prop} :
    Yields (onMem p) (m, s) Q ↔ Yields p m fun a m' => Q a (m', s) := yields_onPart

@[simp] lemma yields_onRest {p : Cmd σ α} {m : Mem (Cell V)} {s : σ}
    {Q : α → Mem (Cell V) × σ → Prop} :
    Yields (onRest p) (m, s) Q ↔ Yields p s fun a s' => Q a (m, s') := yields_onPart

/-! ### Walks -/

/-- The cells from a cursor on are given back. -/
def freeAll : ℕ → Option ℕ → Cmd (Mem (Cell V)) Unit
  | _, none => pure ()
  | 0, some _ => failure
  | turns + 1, some a => do
    let c ← load a
    free a
    freeAll turns c.next

/-- Whether a cell from a cursor on passes. -/
def search (test : V → Bool) : ℕ → Option ℕ → Cmd (Mem (Cell V)) Bool
  | _, none => pure false
  | 0, some _ => failure
  | turns + 1, some a => do
    let c ← load a
    if test c.val then pure true else search test turns c.next

/-- The first cell from a cursor on that passes is taken out and given back; whether there is
one, and the beginning. -/
def takeOut (test : V → Bool) : ℕ → Option ℕ → Option ℕ → Cmd (Mem (Cell V)) (Bool × Option ℕ)
  | _, none, begin => pure (false, begin)
  | 0, some _, _ => failure
  | turns + 1, some a, begin => do
    let c ← load a
    if test c.val then
      let begin ← listDel begin a
      free a
      pure (true, begin)
    else takeOut test turns c.next begin

section Walks

variable {m : Mem (Cell V)} {b : Option ℕ} {l : Links V} {turns : ℕ} (test : V → Bool)
  (pre : Links V)

lemma freeAll_seg {p q : Option ℕ} (hs : Seg m.cells p b l q none) (hnodup : (addrs l).Nodup)
    (hturns : l.length ≤ turns) :
    Yields (freeAll turns b) m fun _ m' => Leaves (addrs l) [] m m' := by
  induction l generalizing m b p turns with
  | nil =>
    obtain rfl : b = none := hs.2
    rw [freeAll, yields_pure]
    exact .of_apart (Apart.refl _ m) (List.nil_subset _)
  | cons x l ih =>
    obtain ⟨a, v⟩ := x
    obtain ⟨rfl, next, ha, hs⟩ := hs
    obtain ⟨hal, hnodup⟩ := List.nodup_cons.mp hnodup
    obtain ⟨n, rfl⟩ : ∃ n, turns = n + 1 :=
      ⟨turns - 1, (Nat.sub_add_cancel (Nat.le_trans (Nat.succ_pos _) hturns)).symm⟩
    have hn : l.length ≤ n := Nat.le_of_succ_le_succ hturns
    have hs' : Seg (m.erase a).cells (some a) next l q none := hs.frame fun x hx =>
      m.erase_of_ne (ne_of_mem_of_not_mem hx hal)
    rw [freeAll, yields_bind, yields_load ha, yields_bind, yields_free ha]
    refine (ih hs' hnodup hn).mono fun _ m' hm' => ?_
    have hfirst : Leaves (addrs ((a, v) :: l)) (addrs l) m (m.erase a) := by
      refine ⟨(Apart.refl _ m).erase List.mem_cons_self, fun x hx hxl => ?_⟩
      obtain rfl := (List.mem_cons.mp hx).resolve_right hxl
      exact m.erase_same x
    exact hfirst.trans hm' (List.subset_cons_self _ _)

lemma freeAll_spec (hl : IsList m.cells b l) (hturns : l.length ≤ turns) :
    Yields (freeAll turns b) m fun _ m' => Leaves (addrs l) [] m m' := by
  obtain ⟨q, hs⟩ := hl.seg
  exact freeAll_seg hs hl.nodup hturns

lemma search_spec (hl : IsList m.cells b (pre ++ l)) (hturns : l.length ≤ turns) :
    Yields (search test turns (begins l)) m fun r m' =>
      r = l.any (fun x => test x.2) ∧ m' = m := by
  induction l generalizing pre turns with
  | nil =>
    rw [begins, List.head?_nil, Option.map_none, search, yields_pure]
    exact ⟨rfl, rfl⟩
  | cons x l ih =>
    obtain ⟨a, v⟩ := x
    obtain ⟨n, rfl⟩ : ∃ n, turns = n + 1 :=
      ⟨turns - 1, (Nat.sub_add_cancel (Nat.le_trans (Nat.succ_pos _) hturns)).symm⟩
    have hn : l.length ≤ n := Nat.le_of_succ_le_succ hturns
    obtain ⟨prev, ha⟩ := hl.link
    rw [begins, List.head?_cons, Option.map_some, search, yields_bind, yields_load ha]
    cases htest : test v with
    | true =>
      simp only [htest, if_true, yields_pure, List.any_cons, Bool.true_or, and_self]
    | false =>
      simp only [htest, Bool.false_eq_true, if_false, List.any_cons, Bool.false_or]
      exact ih (pre ++ [(a, v)]) (by rwa [List.append_assoc]) hn

lemma takeOut_spec (hl : IsList m.cells b (pre ++ l)) (hturns : l.length ≤ turns) :
    Yields (takeOut test turns (begins l) b) m fun r m' =>
      r.1 = l.any (fun x => test x.2) ∧
        IsList m'.cells r.2 (pre ++ l.eraseP fun x => test x.2) ∧
        Leaves (addrs (pre ++ l)) (addrs (pre ++ l.eraseP fun x => test x.2)) m m' := by
  induction l generalizing pre turns with
  | nil =>
    rw [begins, List.head?_nil, Option.map_none, takeOut, yields_pure]
    exact ⟨rfl, hl, .of_apart (Apart.refl _ m) (List.Subset.refl _)⟩
  | cons x l ih =>
    obtain ⟨a, v⟩ := x
    obtain ⟨n, rfl⟩ : ∃ n, turns = n + 1 :=
      ⟨turns - 1, (Nat.sub_add_cancel (Nat.le_trans (Nat.succ_pos _) hturns)).symm⟩
    have hn : l.length ≤ n := Nat.le_of_succ_le_succ hturns
    obtain ⟨prev, ha⟩ := hl.link
    rw [begins, List.head?_cons, Option.map_some, takeOut, yields_bind, yields_load ha]
    cases htest : test v with
    | true =>
      have hout : a ∉ addrs (pre ++ l) := by
        have hnodup := hl.nodup
        rw [addrs, List.map_append, List.map_cons] at hnodup
        have := (List.nodup_cons.mp (List.nodup_middle.mp hnodup)).1
        rwa [addrs, List.map_append]
      simp only [htest, if_true, yields_bind, List.any_cons, Bool.true_or,
        List.eraseP_cons_of_pos (p := fun x : ℕ × V => test x.2) (a := (a, v)) (l := l) htest]
      refine (listDel_spec hl).mono ?_
      rintro b' m₁ ⟨hlist, hfree, hapart⟩
      rw [yields_free hfree, yields_pure]
      refine ⟨rfl, hlist.frame fun x hx => m₁.erase_of_ne (ne_of_mem_of_not_mem hx hout),
        hapart.erase (by simp), fun x hx hxl => ?_⟩
      have hxa : x = a := by
        simp only [addrs, List.map_append, List.map_cons, List.mem_append, List.mem_cons] at hx hxl
        tauto
      rw [hxa]
      exact m₁.erase_same a
    | false =>
      have herase : ((a, v) :: l).eraseP (fun x => test x.2) =
          (a, v) :: l.eraseP fun x => test x.2 :=
        List.eraseP_cons_of_neg (by simp [htest])
      simp only [htest, Bool.false_eq_true, if_false, List.any_cons, Bool.false_or, herase]
      have := ih (pre ++ [(a, v)]) (by rwa [List.append_assoc]) hn
      simpa only [List.append_assoc, List.singleton_append] using this

end Walks

/-! ### Building a list -/

/-- The list `acc` has grown by `new`, in cells that had been free. -/
structure Prepends (acc new : Links V) (m : Mem (Cell V)) (b : Option ℕ) (m' : Mem (Cell V)) :
    Prop where
  list : IsList m'.cells b (new ++ acc)
  fresh : ∀ x ∈ addrs new, m.cells x = none
  apart : Apart (addrs (new ++ acc)) m m'

section Building

variable {m m₁ m₂ : Mem (Cell V)} {b b₁ b₂ : Option ℕ} {acc new : Links V} {a : ℕ} {v : V}

lemma Prepends.refl (hacc : IsList m.cells b acc) : Prepends acc [] m b m :=
  ⟨hacc, fun _ hx => absurd hx List.not_mem_nil, Apart.refl _ m⟩

/-- A new cell in front. -/
lemma listAdd_new (hacc : IsList m.cells b acc) (hnone : m.cells a = none)
    (hrest : ∀ x, x ≠ a → m₁.cells x = m.cells x) (c : Cell V) :
    Yields (listAdd b a) (m₁.set a c) fun b' m' => Prepends acc [(a, c.val)] m b' m' := by
  have hout : a ∉ addrs acc := fun hx => by
    have hsome := hacc.allocated hx
    rw [hnone] at hsome
    exact absurd hsome Bool.false_ne_true
  have hsame : ∀ x, x ≠ a → (m₁.set a c).cells x = m.cells x := fun x hx =>
    (m₁.set_of_ne c hx).trans (hrest x hx)
  have hacc' : IsList (m₁.set a c).cells b acc := hacc.frame fun x hx =>
    hsame x (ne_of_mem_of_not_mem hx hout)
  refine (listAdd_spec hacc' (m₁.set_same a c) hout).mono ?_
  rintro b' m' ⟨hlist, hapart⟩
  refine ⟨hlist, fun x hx => List.mem_singleton.mp hx ▸ hnone, fun x hx => ?_⟩
  exact (hapart x hx).trans (hsame x fun he => hx (he ▸ List.mem_cons_self))

lemma Prepends.trans (h : Prepends acc [(a, v)] m b₁ m₁)
    (h' : Prepends ((a, v) :: acc) new m₁ b₂ m₂) : Prepends acc (new ++ [(a, v)]) m b₂ m₂ := by
  have happ : new ++ [(a, v)] ++ acc = new ++ (a, v) :: acc := by simp
  have hdisj : ∀ x ∈ addrs new, x ∉ addrs ((a, v) :: acc) := fun x hx hx' => by
    have hnodup := h'.list.nodup
    rw [addrs, List.map_append] at hnodup
    exact List.disjoint_of_nodup_append hnodup hx hx'
  refine ⟨happ ▸ h'.list, fun x hx => ?_, ?_⟩
  · rw [addrs, List.map_append] at hx
    rcases List.mem_append.mp hx with hx | hx
    · rw [← h.apart x (hdisj x hx)]
      exact h'.fresh x hx
    · exact h.fresh x hx
  · rw [happ]
    refine Apart.trans (h.apart.mono fun x hx => ?_) h'.apart
    rw [addrs, List.map_append]
    exact List.mem_append_right _ hx

/-- A list that has grown and is given back. -/
lemma Prepends.leaves (h : Prepends acc [(a, v)] m b₁ m₁)
    (h' : Leaves (addrs ((a, v) :: acc)) [] m₁ m₂) : Leaves (addrs acc) [] m m₂ := by
  refine ⟨fun x hx => ?_, fun x hx hnil => h'.freed x (List.mem_cons_of_mem _ hx) hnil⟩
  by_cases hxa : x = a
  · subst hxa
    rw [h'.freed x List.mem_cons_self List.not_mem_nil]
    exact (h.fresh x List.mem_cons_self).symm
  · have hout : x ∉ addrs ((a, v) :: acc) := fun hm => (List.mem_cons.mp hm).elim hxa hx
    rw [h'.apart x hout, h.apart x hout]

end Building

/-! ### A list that is kept -/

/-- The variables of the walks: where the two lists begin, and what has changed. -/
structure Lists where
  known : Option ℕ
  new : Option ℕ
  changes : ℤ

/-- Known entries take their like out of the new list, and go if there is none. -/
def dropGone (same : V → V → Bool) (release : V → Cmd σ Unit) (turns : ℕ) :
    ℕ → Option ℕ → Lists → Cmd (Mem (Cell V) × σ) Lists
  | _, none, l => pure l
  | 0, some _, _ => failure
  | n + 1, some a, l => do
    let c ← onMem (load a)
    let (found, new) ← onMem (takeOut (same c.val) turns l.new l.new)
    if found then dropGone same release turns n c.next { l with new := new }
    else
      let known ← onMem (listDel l.known a)
      onRest (release c.val)
      onMem (free a)
      dropGone same release turns n c.next ⟨known, new, l.changes + 1⟩

def setVal (a : ℕ) (v : V) : Cmd (Mem (Cell V)) Unit := do
  let c ← load a
  store a { c with val := v }

/-- What is left of the new list is initialized and joins the known one, or is given back. -/
def adoptNew (init : V → Cmd σ (Option V)) : ℕ → Option ℕ → Lists → Cmd (Mem (Cell V) × σ) Lists
  | _, none, l => pure l
  | 0, some _, _ => failure
  | n + 1, some a, l => do
    let c ← onMem (load a)
    match ← onRest (init c.val) with
    | none =>
      let new ← onMem (listDel l.new a)
      onMem (free a)
      adoptNew init n c.next { l with new := new }
    | some v =>
      onMem (setVal a v)
      let new ← onMem (listDel l.new a)
      let known ← onMem (listAdd l.known a)
      adoptNew init n c.next ⟨known, new, l.changes + 1⟩

/-- The known list in line with the new one, which is used up. -/
def rescan (same : V → V → Bool) (release : V → Cmd σ Unit) (init : V → Cmd σ (Option V))
    (turns : ℕ) (known new : Option ℕ) : Cmd (Mem (Cell V) × σ) Lists := do
  let l ← dropGone same release turns turns known ⟨known, new, 0⟩
  adoptNew init turns l.new l

/-- The share of the known entries in the rest of the state comes and goes with them. -/
structure Accounts (inv : σ → List V → Prop) (out : V → Option V → Prop)
    (release : V → Cmd σ Unit) (init : V → Cmd σ (Option V)) : Prop where
  release : ∀ {s L₁ v L₂}, inv s (L₁ ++ v :: L₂) →
    Yields (release v) s fun _ s' => inv s' (L₁ ++ L₂)
  init : ∀ {s v L}, inv s L → Yields (init v) s fun r s' => out v r ∧ match r with
    | some v' => inv s' (v' :: L)
    | none => inv s' L

/-- What becomes of new entries: those that can be initialized stay. -/
inductive Adopts (out : V → Option V → Prop) : Links V → Links V → Prop
  | nil : Adopts out [] []
  | fails {a v l l'} : out v none → Adopts out l l' → Adopts out ((a, v) :: l) l'
  | works {a v v' l l'} : out v (some v') → Adopts out l l' →
    Adopts out ((a, v) :: l) ((a, v') :: l')

/-- Links with values that go together. -/
abbrev sameVal (same : V → V → Bool) (x y : ℕ × V) : Bool := same x.2 y.2

section Rescan

variable {same : V → V → Bool} {release : V → Cmd σ Unit} {init : V → Cmd σ (Option V)}
variable {inv : σ → List V → Prop} {out : V → Option V → Prop} {m : Mem (Cell V)} {s : σ}
variable {known new old fresh : Links V} {turns : ℕ} (kept : Links V)

abbrev vals (l : Links V) : List V := l.map Prod.snd

lemma yields_setVal {a : ℕ} {c : Cell V} {Q : Unit → Mem (Cell V) → Prop} (h : m.cells a = some c)
    (v : V) : Yields (setVal a v) m Q ↔ Q () (m.set a { c with val := v }) := by
  rw [setVal, yields_bind, yields_load h, yields_store h]

/-- A link whose value is replaced. -/
lemma IsList.setVal {b : Option ℕ} {l l' : Links V} {a : ℕ} {v : V} {c : Cell V}
    (v' : V) (hl : IsList m.cells b (l ++ (a, v) :: l')) (hc : m.cells a = some c) :
    IsList (m.set a { c with val := v' }).cells b (l ++ (a, v') :: l') := by
  obtain ⟨q, hs⟩ := hl.seg
  obtain ⟨q', c', hs₁, rfl, next, ha, hs₂⟩ := seg_append.mp hs
  obtain rfl := Option.some.inj (hc.symm.trans ha)
  have hnodup := hl.nodup
  simp only [addrs, List.map_append, List.map_cons] at hnodup
  have hout := (List.nodup_cons.mp (List.nodup_middle.mp hnodup)).1
  rw [List.mem_append, not_or] at hout
  refine ⟨⟨q, seg_append.mpr ⟨q', some a, hs₁.frame fun x hx => m.set_of_ne _ ?_, rfl, next,
    m.set_same a _, hs₂.frame fun x hx => m.set_of_ne _ ?_⟩⟩, ?_⟩
  · exact ne_of_mem_of_not_mem hx hout.1
  · exact ne_of_mem_of_not_mem hx hout.2
  · simpa only [addrs, List.map_append, List.map_cons] using hnodup

/-- Two lists, known and new, have become two others. -/
structure Settles (inv : σ → List V → Prop) (m : Mem (Cell V)) (before after : Links V × Links V)
    (r : Lists) (t : Mem (Cell V) × σ) : Prop where
  known : IsList t.1.cells r.known after.1
  new : IsList t.1.cells r.new after.2
  disjoint : ∀ x ∈ addrs after.1, x ∉ addrs after.2
  share : inv t.2 (vals after.1)
  leaves : Leaves (addrs before.1 ++ addrs before.2) (addrs after.1 ++ addrs after.2) m t.1
  fewer : addrs after.1 ++ addrs after.2 ⊆ addrs before.1 ++ addrs before.2

lemma Settles.trans {m₁ m₂ : Mem (Cell V)} {s₁ : σ} {x y z : Links V × Links V} {l r : Lists}
    {t : Mem (Cell V) × σ} (h : Settles inv m₁ x y l (m₂, s₁)) (h' : Settles inv m₂ y z r t) :
    Settles inv m₁ x z r t :=
  ⟨h'.known, h'.new, h'.disjoint, h'.share, h.leaves.trans h'.leaves h.fewer,
    List.Subset.trans h'.fewer h.fewer⟩

lemma Settles.refl {l : Lists} (hknown : IsList m.cells l.known known)
    (hnew : IsList m.cells l.new new) (hdisj : ∀ x ∈ addrs known, x ∉ addrs new)
    (hinv : inv s (vals known)) : Settles inv m (known, new) (known, new) l (m, s) :=
  ⟨hknown, hnew, hdisj, hinv, .of_apart (Apart.refl _ m) (List.Subset.refl _),
    List.Subset.refl _⟩

/-- The lists as they are now. -/
lemma Settles.again {m₁ : Mem (Cell V)} {x : Links V × Links V} {l : Lists}
    (h : Settles inv m x (known, new) l (m₁, s)) :
    Settles inv m₁ (known, new) (known, new) l (m₁, s) := .refl h.known h.new h.disjoint h.share

/-- A new entry has been taken out. -/
lemma Settles.takeOut {l : Lists} {b : Option ℕ} {m' : Mem (Cell V)} (test : ℕ × V → Bool)
    (h : Settles inv m (known, new) (known, new) l (m, s))
    (hlist : IsList m'.cells b (new.eraseP test))
    (hleaves : Leaves (addrs new) (addrs (new.eraseP test)) m m') :
    Settles inv m (known, new) (known, new.eraseP test) { l with new := b } (m', s) := by
  have hsub : addrs (new.eraseP test) ⊆ addrs new := (List.eraseP_sublist.map _).subset
  refine ⟨h.known.apart hleaves.apart h.disjoint, hlist, fun x hx hx' => h.disjoint x hx (hsub hx'),
    h.share, hleaves.widen (List.subset_append_right _ _) ?_, ?_⟩
  · intro x hx hxl
    rw [List.mem_append, not_or] at hxl
    exact ⟨(List.mem_append.mp hx).resolve_left hxl.1, hxl.2⟩
  · exact List.append_subset.mpr ⟨List.subset_append_left _ _,
      List.Subset.trans hsub (List.subset_append_right _ _)⟩

/-- A known entry has been taken out and given back. -/
lemma Settles.drop {l : Lists} {b : Option ℕ} {m₁ : Mem (Cell V)} {s' : σ} {a : ℕ} {v : V}
    (changes : ℤ)
    (h : Settles inv m (kept ++ (a, v) :: old, new) (kept ++ (a, v) :: old, new) l (m, s))
    (hlist : IsList m₁.cells b (kept ++ old))
    (hapart : Apart (addrs (kept ++ (a, v) :: old)) m m₁) (hinv : inv s' (vals (kept ++ old))) :
    Settles inv m (kept ++ (a, v) :: old, new) (kept ++ old, new) ⟨b, l.new, changes⟩
      (m₁.erase a, s') := by
  have hmem : ∀ x, x ∈ addrs (kept ++ (a, v) :: old) ↔ x = a ∨ x ∈ addrs (kept ++ old) := by
    intro x
    simp only [addrs, List.map_append, List.map_cons, List.mem_append, List.mem_cons]
    tauto
  have hout : a ∉ addrs (kept ++ old) := by
    have hnodup := h.known.nodup
    simp only [addrs, List.map_append, List.map_cons] at hnodup ⊢
    exact (List.nodup_cons.mp (List.nodup_middle.mp hnodup)).1
  have hgone : Apart (addrs (kept ++ (a, v) :: old)) m (m₁.erase a) :=
    hapart.erase ((hmem a).mpr (.inl rfl))
  have hsub : addrs (kept ++ old) ⊆ addrs (kept ++ (a, v) :: old) := fun x hx =>
    (hmem x).mpr (.inr hx)
  refine ⟨hlist.frame fun x hx => m₁.erase_of_ne (ne_of_mem_of_not_mem hx hout),
    h.new.apart hgone fun x hx hx' => h.disjoint x hx' hx, fun x hx => h.disjoint x (hsub hx), hinv,
    ⟨hgone.mono (List.subset_append_left _ _), fun x hx hxl => ?_⟩, ?_⟩
  · rw [List.mem_append, not_or] at hxl
    have hx' := (List.mem_append.mp hx).resolve_right hxl.2
    obtain rfl := ((hmem x).mp hx').resolve_right hxl.1
    exact m₁.erase_same x
  · exact List.append_subset.mpr ⟨List.Subset.trans hsub (List.subset_append_left _ _),
      List.subset_append_right _ _⟩

lemma dropGone_spec (hacc : Accounts inv out release init) {l : Lists} {n : ℕ}
    (h : Settles inv m (kept ++ old, fresh) (kept ++ old, fresh) l (m, s))
    (hn : old.length ≤ n) (hturns : fresh.length ≤ turns) :
    Yields (dropGone same release turns n (begins old) l) (m, s) fun r t =>
      Settles inv m (kept ++ old, fresh)
        (kept ++ (reconcile (sameVal same) old fresh).1, (reconcile (sameVal same) old fresh).2)
        r t ∧
      r.changes + (reconcile (sameVal same) old fresh).1.length = l.changes + old.length := by
  induction old generalizing m s kept fresh l n with
  | nil =>
    rw [begins, List.head?_nil, Option.map_none, dropGone, yields_pure]
    exact ⟨h, rfl⟩
  | cons x old ih =>
    obtain ⟨a, v⟩ := x
    obtain ⟨n, rfl⟩ : ∃ k, n = k + 1 :=
      ⟨n - 1, (Nat.sub_add_cancel (Nat.le_trans (Nat.succ_pos _) hn)).symm⟩
    have hn' : old.length ≤ n := Nat.le_of_succ_le_succ hn
    obtain ⟨prev, ha⟩ := h.known.link
    have hbegin : begins ((a, v) :: old) = some a := rfl
    have hnew := h.new
    have hnewbegin : l.new = begins fresh := hnew.begins
    rw [hbegin, dropGone, yields_bind, yields_onMem, yields_load ha, yields_bind, yields_onMem]
    rw [hnewbegin] at hnew ⊢
    refine (takeOut_spec (same v) [] hnew hturns).mono ?_
    rintro ⟨found, b⟩ m₁ ⟨hfound, hlist, hleaves⟩
    simp only [List.nil_append] at hlist hleaves
    have hfound : found = fresh.any (sameVal same (a, v)) := hfound
    have hstep := h.takeOut (sameVal same (a, v)) hlist hleaves
    rw [reconcile, ← hfound]
    cases found with
    | true =>
      have hkept : kept ++ (a, v) :: old = kept ++ [(a, v)] ++ old := by simp
      rw [hkept] at hstep ⊢
      have hlen : (fresh.eraseP (sameVal same (a, v))).length ≤ turns :=
        Nat.le_trans List.eraseP_sublist.length_le hturns
      refine (ih _ hstep.again hn' hlen).mono ?_
      rintro r t ⟨hr, hchanges⟩
      simp only [List.append_assoc, List.singleton_append] at hr hstep ⊢
      refine ⟨hstep.trans hr, ?_⟩
      simp only [if_true, List.length_cons] at hchanges ⊢
      omega
    | false =>
      have hnone : fresh.eraseP (sameVal same (a, v)) = fresh :=
        List.eraseP_of_forall_not (List.any_eq_false.mp hfound.symm)
      rw [hnone] at hstep
      simp only [Bool.false_eq_true, if_false, yields_bind, yields_onMem]
      refine (listDel_spec hstep.known).mono ?_
      rintro b' m₂ ⟨hlist₂, hfree, hapart⟩
      rw [yields_onRest]
      have hshare : inv s (vals kept ++ v :: vals old) := by
        simpa only [vals, List.map_append, List.map_cons] using hstep.share
      refine (hacc.release hshare).mono fun _ s' hinv => ?_
      rw [yields_onMem, yields_free hfree]
      have hdrop := hstep.again.drop _ (l.changes + 1) hlist₂ hapart
        (by simpa only [vals, List.map_append] using hinv)
      refine (ih _ hdrop.again hn' hturns).mono ?_
      rintro r t ⟨hr, hchanges⟩
      refine ⟨hstep.trans (hdrop.trans hr), ?_⟩
      dsimp only [List.length_cons] at hchanges ⊢
      omega

/-- A new entry that cannot be initialized has been given back. -/
lemma Settles.fails {l : Lists} {b : Option ℕ} {m₁ : Mem (Cell V)} {s' : σ} {a : ℕ} {v : V}
    (h : Settles inv m (known, (a, v) :: new) (known, (a, v) :: new) l (m, s))
    (hlist : IsList m₁.cells b new) (hapart : Apart (addrs ((a, v) :: new)) m m₁)
    (hinv : inv s' (vals known)) :
    Settles inv m (known, (a, v) :: new) (known, new) { l with new := b } (m₁.erase a, s') := by
  have hout : a ∉ addrs new := (List.nodup_cons.mp h.new.nodup).1
  have hgone : Apart (addrs ((a, v) :: new)) m (m₁.erase a) := hapart.erase List.mem_cons_self
  refine ⟨h.known.apart hgone h.disjoint,
    hlist.frame fun x hx => m₁.erase_of_ne (ne_of_mem_of_not_mem hx hout),
    fun x hx hx' => h.disjoint x hx (List.mem_cons_of_mem _ hx'), hinv,
    ⟨hgone.mono (List.subset_append_right _ _), fun x hx hxl => ?_⟩, ?_⟩
  · rw [List.mem_append, not_or] at hxl
    have hx' := (List.mem_append.mp hx).resolve_left hxl.1
    obtain rfl := (List.mem_cons.mp hx').resolve_right hxl.2
    exact m₁.erase_same x
  · exact List.append_subset.mpr ⟨List.subset_append_left _ _,
      List.Subset.trans (List.subset_cons_self _ _) (List.subset_append_right _ _)⟩

/-- A new entry has joined the known ones. -/
lemma Settles.works {l : Lists} {b : Option ℕ} {m' : Mem (Cell V)} {s' : σ} {a : ℕ} {v v' : V}
    {first : Option ℕ} (changes : ℤ)
    (h : Settles inv m (known, (a, v) :: new) (known, (a, v) :: new) l (m, s))
    (hknown : IsList m'.cells first ((a, v') :: known)) (hnew : IsList m'.cells b new)
    (hapart : Apart (addrs known ++ addrs ((a, v) :: new)) m m')
    (hinv : inv s' (v' :: vals known)) :
    Settles inv m (known, (a, v) :: new) ((a, v') :: known, new) ⟨first, b, changes⟩ (m', s') := by
  have hmem : ∀ x, x ∈ addrs known ++ addrs ((a, v) :: new) ↔
      x ∈ addrs ((a, v') :: known) ++ addrs new := by
    intro x
    simp only [addrs, List.map_cons, List.mem_append, List.mem_cons]
    tauto
  refine ⟨hknown, hnew, fun x hx hx' => ?_, hinv,
    .of_apart hapart fun x hx => (hmem x).mp hx, fun x hx => (hmem x).mpr hx⟩
  rcases List.mem_cons.mp hx with rfl | hx
  · exact (List.nodup_cons.mp h.new.nodup).1 hx'
  · exact h.disjoint x hx (List.mem_cons_of_mem _ hx')

lemma adoptNew_spec (hacc : Accounts inv out release init) {l : Lists} {n : ℕ}
    (h : Settles inv m (known, new) (known, new) l (m, s)) (hn : new.length ≤ n) :
    Yields (adoptNew init n (begins new) l) (m, s) fun r t => ∃ adopted, Adopts out new adopted ∧
      Settles inv m (known, new) (adopted.reverse ++ known, []) r t ∧
      r.changes = l.changes + adopted.length := by
  induction new generalizing m s known l n with
  | nil =>
    rw [begins, List.head?_nil, Option.map_none, adoptNew, yields_pure]
    exact ⟨[], .nil, h, (Int.add_zero _).symm⟩
  | cons x new ih =>
    obtain ⟨a, v⟩ := x
    obtain ⟨n, rfl⟩ : ∃ k, n = k + 1 :=
      ⟨n - 1, (Nat.sub_add_cancel (Nat.le_trans (Nat.succ_pos _) hn)).symm⟩
    have hn' : new.length ≤ n := Nat.le_of_succ_le_succ hn
    obtain ⟨prev, ha⟩ := IsList.link (l := []) h.new
    have hbegin : begins ((a, v) :: new) = some a := rfl
    rw [hbegin, adoptNew, yields_bind, yields_onMem, yields_load ha, yields_bind, yields_onRest]
    refine (hacc.init h.share).mono ?_
    rintro r s' ⟨hout, hinv⟩
    cases r with
    | none =>
      simp only [yields_bind, yields_onMem]
      refine (listDel_spec (l := []) h.new).mono ?_
      rintro b m₁ ⟨hlist, hfree, hapart⟩
      rw [yields_free hfree]
      have hstep := h.fails hlist hapart hinv
      refine (ih hstep.again hn').mono ?_
      rintro r t ⟨adopted, hadopts, hr, hchanges⟩
      exact ⟨adopted, .fails hout hadopts, hstep.trans hr, hchanges⟩
    | some v' =>
      simp only [yields_bind, yields_onMem]
      rw [yields_setVal ha]
      have hset := IsList.setVal (l := []) v' h.new ha
      refine (listDel_spec (l := []) hset).mono ?_
      rintro b m₁ ⟨hlist, hfree, hapart⟩
      simp only [List.nil_append] at hlist hapart
      have hapart₁ : Apart (addrs ((a, v) :: new)) m m₁ :=
        ((Apart.refl _ m).set List.mem_cons_self _).trans hapart
      have hknown : IsList m₁.cells l.known known := h.known.apart hapart₁ h.disjoint
      have haknown : a ∉ addrs known := fun hx => h.disjoint a hx List.mem_cons_self
      refine (listAdd_spec hknown hfree haknown).mono ?_
      rintro first m₂ ⟨hlist₂, hapart₂⟩
      have hnew₂ : IsList m₂.cells b new := hlist.apart hapart₂ fun x hx hx' => by
        rcases List.mem_cons.mp hx' with rfl | hx'
        · exact (List.nodup_cons.mp h.new.nodup).1 hx
        · exact h.disjoint x hx' (List.mem_cons_of_mem _ hx)
      have hall : Apart (addrs known ++ addrs ((a, v) :: new)) m m₂ := by
        refine (hapart₁.mono (List.subset_append_right _ _)).trans (hapart₂.mono ?_)
        refine List.cons_subset.mpr ⟨?_, List.subset_append_left _ _⟩
        exact List.mem_append_right _ List.mem_cons_self
      have hstep := h.works (l.changes + 1) hlist₂ hnew₂ hall hinv
      refine (ih hstep.again hn').mono ?_
      rintro r t ⟨adopted, hadopts, hr, hchanges⟩
      refine ⟨(a, v') :: adopted, .works hout hadopts, ?_, ?_⟩
      · rw [List.reverse_cons, List.append_assoc]
        exact hstep.trans hr
      · dsimp only [List.length_cons] at hchanges ⊢
        omega

/-- **A rescan brings the known list in line with the new one**: what is known and found stays,
what is not found is given back, and what is new stands in front, the last first. -/
theorem rescan_spec (hacc : Accounts inv out release init) {first b : Option ℕ}
    (hknown : IsList m.cells first old) (hnew : IsList m.cells b fresh)
    (hdisj : ∀ x ∈ addrs old, x ∉ addrs fresh) (hinv : inv s (vals old))
    (hold : old.length ≤ turns) (hfresh : fresh.length ≤ turns) :
    Yields (rescan same release init turns first b) (m, s) fun r t => ∃ adopted,
      Adopts out (reconcile (sameVal same) old fresh).2 adopted ∧
      Settles inv m (old, fresh)
        (adopted.reverse ++ (reconcile (sameVal same) old fresh).1, []) r t ∧
      r.changes + (reconcile (sameVal same) old fresh).1.length =
        old.length + adopted.length := by
  have hstart : Settles inv m (old, fresh) (old, fresh) ⟨first, b, 0⟩ (m, s) :=
    .refl hknown hnew hdisj hinv
  have hfirst : first = begins old := hknown.begins
  rw [rescan, yields_bind, hfirst]
  rw [hfirst] at hstart
  refine (dropGone_spec [] hacc hstart hold hfresh).mono ?_
  rintro l ⟨m₁, s₁⟩ ⟨hdrop, hchanges⟩
  have hsub : (reconcile (sameVal same) old fresh).2.length ≤ turns :=
    Nat.le_trans (reconcile_sublist old fresh).2.length_le hfresh
  rw [hdrop.new.begins]
  refine (adoptNew_spec hacc hdrop.again hsub).mono ?_
  rintro r t ⟨adopted, hadopts, hr, hsum⟩
  refine ⟨adopted, hadopts, hdrop.trans hr, ?_⟩
  dsimp only at hchanges
  omega

end Rescan

end AmlogicUpdate.LinkedHeap

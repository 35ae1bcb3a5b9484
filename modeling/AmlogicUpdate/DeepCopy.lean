import AmlogicUpdate.Heap
import Mathlib.Data.List.Basic
import Mathlib.Data.Int.Notation
import Mathlib.Tactic.Common

/-!
Copying records that own memory, and clearing them.

A record can own an array of records, which own memory in turn, and some bytes. A copy that runs
out of memory clears what it has made, but leaves its pointers as they are; whoever clears the
record again touches what is no longer allocated. `Grade` says how bad that is, and `bump` what it
is one level further out.
-/

namespace AmlogicUpdate.DeepCopy

open Heap

variable {B E S K P T : Type}

/-! ### Arrays in blocks -/

/-- Arrays of `E` in the blocks of a heap. -/
class Packs (B E : Type) where
  pack : List E → B
  unpack : B → Option (List E)
  unpack_pack : ∀ l, unpack (pack l) = some l
  zero : E

export Packs (pack zero)

section Arrays

variable [Packs B E]

def readArray (a : ℕ) : Cmd (Mem B) (List E) := do
  let b ← load a
  match Packs.unpack b with
  | some l => pure l
  | none => failure

def readAt (a i : ℕ) : Cmd (Mem B) E := do
  let l ← readArray a
  match l[i]? with
  | some e => pure e
  | none => failure

def writeAt (a i : ℕ) (e : E) : Cmd (Mem B) Unit := do
  let l ← readArray a
  if i < l.length then store a (pack (l.set i e)) else failure

/-- `malloc`, and what is stored there first. -/
def mallocFor (A : Allocator B) (b : B) : Cmd (Mem B) (Option ℕ) := do
  match ← malloc A with
  | none => pure none
  | some a =>
    store a b
    pure (some a)

/-- An array of zeros. -/
def zeros (B : Type) [Packs B E] (n : ℕ) : List E := List.replicate n (zero B)

variable {m : Mem B} {a i : ℕ} {l : List E} {e : E}

lemma run_readArray (h : m.cells a = some (pack l)) : (readArray a).run m = some (l, m) := by
  rw [readArray, StateT.run_bind, run_load h]
  change (match Packs.unpack (E := E) (pack l : B) with
    | some l => pure l
    | none => failure : Cmd (Mem B) (List E)).run m = _
  rw [Packs.unpack_pack]
  rfl

lemma run_readAt (h : m.cells a = some (pack l)) (he : l[i]? = some e) :
    (readAt a i).run m = some (e, m) := by
  rw [readAt, StateT.run_bind, run_readArray h]
  change (match l[i]? with
    | some e => pure e
    | none => failure : Cmd (Mem B) E).run m = _
  rw [he]
  rfl

lemma run_writeAt (h : m.cells a = some (pack l)) (hi : i < l.length) :
    (writeAt a i e).run m = some ((), m.set a (pack (l.set i e))) := by
  rw [writeAt, StateT.run_bind, run_readArray h]
  change (if i < l.length then store a (pack (l.set i e)) else failure).run m = _
  rw [if_pos hi, run_store h]

lemma yields_readAt {Q : E → Mem B → Prop} (h : m.cells a = some (pack l))
    (he : l[i]? = some e) : Yields (readAt a i) m Q ↔ Q e m := yields_of_run (run_readAt h he)

lemma yields_writeAt {Q : Unit → Mem B → Prop} (h : m.cells a = some (pack l)) (hi : i < l.length) :
    Yields (writeAt a i e) m Q ↔ Q () (m.set a (pack (l.set i e))) :=
  yields_of_run (run_writeAt h hi)

lemma stuck_readAt (h : m.cells a = none) : Stuck (readAt a i : Cmd (Mem B) E) m :=
  (stuck_load h).bind.bind

end Arrays

/-! ### Requests for memory -/

/-- What a copy asks for: memory, of some kind, or something else that cannot be had. -/
inductive Ask (K : Type)
  | memory (k : K)
  | error (code : ℤ)

def enomem : ℤ := 12

/-- What the copy returns if it does not get it. -/
def Ask.code : Ask K → ℤ
  | .memory _ => -enomem
  | .error code => code

lemma memory_code_neg (k : K) : (Ask.memory k).code < 0 := by
  change -enomem < 0
  decide

/-- The first request that is not granted, when `n` have been made before. -/
def firstFail (A : Allocator B) : ℕ → List (Ask K) → Option (Ask K)
  | _, [] => none
  | n, .memory k :: asks => if A.fails n then some (.memory k) else firstFail A (n + 1) asks
  | _, .error code :: _ => some (.error code)

lemma firstFail_append (A : Allocator B) (n : ℕ) (x y : List (Ask K)) :
    firstFail A n (x ++ y) = match firstFail A n x with
      | some k => some k
      | none => firstFail A (n + x.length) y := by
  induction x generalizing n with
  | nil => rfl
  | cons k x ih =>
    cases k with
    | memory k =>
      rw [List.cons_append, firstFail, firstFail, List.length_cons]
      cases A.fails n with
      | true => rfl
      | false =>
        rw [if_neg Bool.false_ne_true, if_neg Bool.false_ne_true, ih,
          show n + 1 + x.length = n + (x.length + 1) by omega]
    | error code => rfl

lemma firstFail_mem {A : Allocator B} {n : ℕ} {asks : List (Ask K)} {k : Ask K}
    (h : firstFail A n asks = some k) : k ∈ asks := by
  induction asks generalizing n with
  | nil => exact absurd h (Option.some_ne_none k).symm
  | cons x asks ih =>
    cases x with
    | memory x =>
      rw [firstFail] at h
      split_ifs at h with hfails
      · exact List.mem_cons.mpr (.inl (Option.some.inj h).symm)
      · exact List.mem_cons_of_mem _ (ih h)
    | error code => exact List.mem_cons.mpr (.inl (Option.some.inj h).symm)

/-- Memory that has been gained: it had been free, and nothing else has changed. -/
abbrev Gains (l : List ℕ) (m m' : Mem B) : Prop := Leaves l [] m' m

lemma yields_mallocFor (A : Allocator B) (b : B) (m : Mem B) :
    Yields (mallocFor A b) m fun r m' => m'.asked = m.asked + 1 ∧ match r with
      | some a => A.fails m.asked = false ∧ Gains [a] m m' ∧ m'.cells a = some b
      | none => A.fails m.asked = true ∧ m'.cells = m.cells := by
  rw [mallocFor, yields_bind]
  refine (yields_malloc A m).mono ?_
  rintro (_ | a) m₁ ⟨hasked, h⟩
  · exact yields_pure.mpr ⟨hasked, h⟩
  · obtain ⟨hfails, hfree, hsome, hrest⟩ := h
    obtain ⟨c, hc⟩ := Option.isSome_iff_exists.mp hsome
    simp only [yields_bind, yields_store hc, yields_pure]
    refine ⟨hasked, hfails, ⟨fun x hx => ?_, fun x hx _ => ?_⟩, m₁.set_same a _⟩
    · have hxa : x ≠ a := fun he => hx (List.mem_singleton.mpr he)
      rw [Mem.set_of_ne _ _ hxa]
      exact (hrest x hxa).symm
    · obtain rfl := List.mem_singleton.mp hx
      exact hfree

/-! ### What a copy of one record does -/

/-- What is left behind by a copy that fails: nothing, pointers to memory that has been given
back, or no outcome at all. -/
inductive Grade
  | clean
  | dangling
  | stuck

/-- The same one level further out, where the record is cleared once more. -/
def Grade.bump : Grade → Grade
  | .clean => .dangling
  | .dangling => .stuck
  | .stuck => .stuck

/-- The grade at a level, when a failure is clean up to the level that `age` says. -/
def gradeAt (age : Ask K → ℕ) (level : ℕ) (k : Ask K) : Grade :=
  if level ≤ age k then .clean else if level = age k + 1 then .dangling else .stuck

lemma gradeAt_bump {age : Ask K → ℕ} {level : ℕ} {k : Ask K} (h : age k ≤ level) :
    gradeAt age (level + 1) k = (gradeAt age level k).bump := by
  unfold gradeAt
  split_ifs
  all_goals first | rfl | omega

lemma gradeAt_clean {age : Ask K → ℕ} {level : ℕ} {k : Ask K} (h : level ≤ age k) :
    gradeAt age level k = .clean := if_pos h

lemma gradeAt_dangling {age : Ask K → ℕ} {level : ℕ} {k : Ask K} (h : level = age k + 1) :
    gradeAt age level k = .dangling := by
  rw [gradeAt, if_neg (by omega), if_pos h]

/-- A record whose copy has failed. -/
def Spoilt (blank : E → Prop) (dangles : E → ℕ → Prop) (g : Grade) (e : E)
    (h : ℕ → Option B) : Prop :=
  match g with
  | .clean => blank e
  | .dangling => ∃ a, dangles e a ∧ h a = none
  | .stuck => False

/-- What can be said about copying records of one kind. `holds` says what a copy is and where
its memory is, `blank` that a record owns nothing, `dangles` that it points to `a` only. -/
structure Copies [Packs B E] (A : Allocator B) (copy : E → S → Cmd (Mem B) (ℤ × E))
    (clear : E → Cmd (Mem B) Unit) (asks : S → List (Ask K)) (grade : Ask K → Grade)
    (holds : (ℕ → Option B) → E → S → List ℕ → Prop) (blank : E → Prop)
    (dangles : E → ℕ → Prop) : Prop where
  frame : ∀ {h h' e s l}, holds h e s l → (∀ x ∈ l, h' x = h x) → holds h' e s l
  live : ∀ {h e s l}, holds h e s l → ∀ x ∈ l, (h x).isSome
  clear_holds : ∀ {m : Mem B} {e s l}, holds m.cells e s l → l.Nodup →
    Yields (clear e) m fun _ m' => Leaves l [] m m'
  clear_blank : ∀ {m e}, blank e → Yields (clear e) m fun _ m' => m' = m
  clear_dangles : ∀ {m : Mem B} {e a}, dangles e a → m.cells a = none → Stuck (clear e) m
  zero_blank : blank (zero B)
  code_neg : ∀ {s k}, k ∈ asks s → k.code < 0
  succeeds : ∀ {m : Mem B} {s}, firstFail A m.asked (asks s) = none →
    Yields (copy (zero B) s) m fun r m' => r.1 = 0 ∧ m'.asked = m.asked + (asks s).length ∧
      ∃ l, holds m'.cells r.2 s l ∧ l.Nodup ∧ Gains l m m'
  fails : ∀ {m : Mem B} {s k}, firstFail A m.asked (asks s) = some k → grade k ≠ .stuck →
    Yields (copy (zero B) s) m fun r m' => r.1 = k.code ∧ m'.cells = m.cells ∧
      Spoilt blank dangles (grade k) r.2 m.cells
  stuck : ∀ {m : Mem B} {s k}, firstFail A m.asked (asks s) = some k → grade k = .stuck →
    Stuck (copy (zero B) s) m

/-! ### Arrays of copies -/

/-- `copy` for each element of an array, until one fails. -/
def copyEach [Packs B E] (copy : E → S → Cmd (Mem B) (ℤ × E)) (a : ℕ) :
    List S → ℕ → Cmd (Mem B) ℤ
  | [], _ => pure 0
  | s :: ss, i => do
    let e ← readAt a i
    let (r, e) ← copy e s
    writeAt a i e
    if r < 0 then pure r else copyEach copy a ss (i + 1)

/-- `clear` for each of the `n` elements of an array from `i` on. -/
def clearEach [Packs B E] (clear : E → Cmd (Mem B) Unit) (a : ℕ) : ℕ → ℕ → Cmd (Mem B) Unit
  | 0, _ => pure ()
  | n + 1, i => do
    let e ← readAt a i
    clear e
    clearEach clear a n (i + 1)

/-- Records that are copies, one by one. -/
inductive HoldsEach (holds : (ℕ → Option B) → E → S → List ℕ → Prop) (h : ℕ → Option B) :
    List E → List S → List ℕ → Prop
  | nil : HoldsEach holds h [] [] []
  | cons {e s l es ss l'} : holds h e s l → HoldsEach holds h es ss l' →
    HoldsEach holds h (e :: es) (s :: ss) (l ++ l')

section Each

variable [Packs B E] {A : Allocator B} {copy : E → S → Cmd (Mem B) (ℤ × E)}
  {clear : E → Cmd (Mem B) Unit} {asks : S → List (Ask K)} {grade : Ask K → Grade}
  {holds : (ℕ → Option B) → E → S → List ℕ → Prop} {blank : E → Prop} {dangles : E → ℕ → Prop}
  {m : Mem B} {a : ℕ} {es : List E} {ss : List S} {l : List ℕ} (pre post : List E)

omit [Packs B E] in
lemma HoldsEach.length {h : ℕ → Option B} (hes : HoldsEach holds h es ss l) :
    es.length = ss.length := by
  induction hes with
  | nil => rfl
  | cons _ _ ih => rw [List.length_cons, List.length_cons, ih]

lemma HoldsEach.frame (hc : Copies A copy clear asks grade holds blank dangles)
    {h h' : ℕ → Option B} (hes : HoldsEach holds h es ss l) (hh : ∀ x ∈ l, h' x = h x) :
    HoldsEach holds h' es ss l := by
  induction hes with
  | nil => exact .nil
  | cons he _ ih =>
    exact .cons (hc.frame he fun x hx => hh x (List.mem_append_left _ hx))
      (ih fun x hx => hh x (List.mem_append_right _ hx))

lemma HoldsEach.live (hc : Copies A copy clear asks grade holds blank dangles)
    {h : ℕ → Option B} (hes : HoldsEach holds h es ss l) : ∀ x ∈ l, (h x).isSome := by
  induction hes with
  | nil => exact fun x hx => absurd hx List.not_mem_nil
  | cons he _ ih =>
    intro x hx
    rcases List.mem_append.mp hx with hx | hx
    · exact hc.live he x hx
    · exact ih x hx

lemma clearEach_add (clear : E → Cmd (Mem B) Unit) (a n k i : ℕ) :
    clearEach clear a (n + k) i = clearEach clear a n i >>= fun _ =>
      clearEach clear a k (i + n) := by
  induction n generalizing i with
  | zero =>
    rw [Nat.zero_add, clearEach, pure_bind]
    rfl
  | succ n ih =>
    rw [show n + 1 + k = n + k + 1 by omega, clearEach, clearEach]
    simp only [bind_assoc, ih]
    rw [show i + 1 + n = i + (n + 1) by omega]

/-- Elements that are copies are cleared and give back their memory. -/
lemma clearEach_holds (hc : Copies A copy clear asks grade holds blank dangles)
    (ha : m.cells a = some (pack (pre ++ es ++ post))) (hes : HoldsEach holds m.cells es ss l)
    (hnodup : (a :: l).Nodup) :
    Yields (clearEach clear a es.length pre.length) m fun _ m' => Leaves l [] m m' := by
  induction es generalizing m pre ss l with
  | nil =>
    cases hes
    exact yields_pure.mpr (.of_apart (Apart.refl _ m) (List.nil_subset _))
  | cons e es ih =>
    cases hes with
    | @cons _ s l₁ _ ss l₂ he hes =>
      have hget : (pre ++ e :: es ++ post)[pre.length]? = some e := by simp
      rw [List.length_cons, clearEach, yields_bind, yields_readAt ha hget, yields_bind]
      obtain ⟨hal, hl⟩ := List.nodup_cons.mp hnodup
      obtain ⟨hl₁, hl₂, hdisj⟩ := List.nodup_append'.mp hl
      rw [List.mem_append, not_or] at hal
      refine (hc.clear_holds he hl₁).mono fun _ m₁ h₁ => ?_
      have ha₁ : m₁.cells a = some (pack (pre ++ [e] ++ es ++ post)) := by
        rw [h₁.apart a hal.1, ha]
        simp
      have hes₁ : HoldsEach holds m₁.cells es ss l₂ :=
        hes.frame hc fun x hx => h₁.apart x fun hx' => hdisj hx' hx
      have hlen : pre.length + 1 = (pre ++ [e]).length := by simp
      rw [hlen]
      refine (ih (pre ++ [e]) ha₁ hes₁ (List.nodup_cons.mpr ⟨hal.2, hl₂⟩)).mono fun _ m' h' =>
        ⟨?_, ?_⟩
      · exact (h₁.apart.mono (List.subset_append_left _ _)).trans
          (h'.apart.mono (List.subset_append_right _ _))
      · intro x hx _
        by_cases hx₂ : x ∈ l₂
        · exact h'.freed x hx₂ List.not_mem_nil
        · have hx₁ := (List.mem_append.mp hx).resolve_right hx₂
          rw [h'.apart x hx₂]
          exact h₁.freed x hx₁ List.not_mem_nil

/-- Elements that own nothing are passed over. -/
lemma clearEach_blank (hc : Copies A copy clear asks grade holds blank dangles)
    (ha : m.cells a = some (pack (pre ++ es))) (hes : ∀ e ∈ es, blank e) :
    Yields (clearEach clear a es.length pre.length) m fun _ m' => m' = m := by
  induction es generalizing pre with
  | nil => exact yields_pure.mpr rfl
  | cons e es ih =>
    have hget : (pre ++ e :: es)[pre.length]? = some e := by simp
    rw [List.length_cons, clearEach, yields_bind, yields_readAt ha hget, yields_bind]
    refine (hc.clear_blank (hes e List.mem_cons_self)).mono fun _ m₁ hm₁ => ?_
    subst hm₁
    have hlen : pre.length + 1 = (pre ++ [e]).length := by simp
    rw [hlen]
    exact ih (pre ++ [e]) (by rwa [List.append_assoc]) fun x hx => hes x (List.mem_cons_of_mem _ hx)

/-- The cells `l` are new; of the others only `a` has changed. -/
structure Grown (a : ℕ) (l : List ℕ) (m m' : Mem B) : Prop where
  fresh : ∀ x ∈ l, m.cells x = none
  rest : ∀ x, x ≠ a → x ∉ l → m'.cells x = m.cells x

/-- One element has been copied, and the array goes on with the next. -/
lemma copyEach_step (hc : Copies A copy clear asks grade holds blank dangles) {s : S}
    (ha : m.cells a = some (pack (pre ++ zeros B (ss.length + 1))))
    (hnone : firstFail A m.asked (asks s) = none) : ∃ e l m', holds m'.cells e s l ∧
      (a :: l).Nodup ∧ Grown a l m m' ∧ m'.asked = m.asked + (asks s).length ∧
      m'.cells a = some (pack (pre ++ [e] ++ zeros B ss.length)) ∧
      (copyEach copy a (s :: ss) pre.length).run m =
        (copyEach copy a ss (pre ++ [e]).length).run m' := by
  have hget : (pre ++ (zeros B (ss.length + 1) : List E))[pre.length]? = some (zero B) := by
    simp [zeros]
  obtain ⟨⟨r, e⟩, m₁, hcopy, hr, hasked, l, he, hl, hgain⟩ := hc.succeeds hnone
  obtain rfl : r = 0 := hr
  have hal : a ∉ l := fun hx => by
    have hempty := hgain.freed a hx List.not_mem_nil
    rw [ha] at hempty
    exact absurd hempty (Option.some_ne_none _)
  have ha₁ : m₁.cells a = some (pack (pre ++ zeros B (ss.length + 1))) :=
    (hgain.apart a hal).symm.trans ha
  have hlen : pre.length < (pre ++ (zeros B (ss.length + 1) : List E)).length := by
    simp [zeros]
  have hset : (pre ++ (zeros B (ss.length + 1) : List E)).set pre.length e =
      pre ++ [e] ++ zeros B ss.length := by
    rw [List.set_append_right _ _ (le_refl _)]
    simp [zeros, List.replicate_succ]
  have hcells : ∀ x, x ≠ a → (m₁.set a (pack (pre ++ [e] ++ zeros B ss.length))).cells x =
      m₁.cells x := fun x hx => Mem.set_of_ne _ _ hx
  refine ⟨e, l, _, hc.frame he fun x hx => hcells x (ne_of_mem_of_not_mem hx hal),
    List.nodup_cons.mpr ⟨hal, hl⟩, ⟨fun x hx => hgain.freed x hx List.not_mem_nil,
      fun x hxa hxl => ?_⟩, hasked, Mem.set_same _ _ _, ?_⟩
  · rw [hcells x hxa, hgain.apart x hxl]
  · rw [copyEach, StateT.run_bind, run_readAt ha hget, Option.bind_eq_bind, Option.bind_some,
      StateT.run_bind, hcopy, Option.bind_eq_bind, Option.bind_some, StateT.run_bind,
      run_writeAt ha₁ hlen, hset, Option.bind_eq_bind, Option.bind_some, if_neg (by decide),
      List.length_append, List.length_singleton]

omit [Packs B E] in
lemma Grown.refl (a : ℕ) (m : Mem B) : Grown a [] m m :=
  ⟨fun _ hx => absurd hx List.not_mem_nil, fun _ _ _ => rfl⟩

omit [Packs B E] in
lemma Grown.trans {m₁ m₂ : Mem B} {l' : List ℕ} (h : Grown a l m m₁) (h' : Grown a l' m₁ m₂)
    (hlive : ∀ x ∈ a :: l, (m₁.cells x).isSome) :
    Grown a (l ++ l') m m₂ ∧ ∀ x ∈ l', x ∉ a :: l := by
  have hdisj : ∀ x ∈ l', x ∉ a :: l := fun x hx hxl => by
    have hsome := hlive x hxl
    rw [h'.fresh x hx] at hsome
    exact absurd hsome Bool.false_ne_true
  refine ⟨⟨fun x hx => ?_, fun x hxa hxl => ?_⟩, hdisj⟩
  · rcases List.mem_append.mp hx with hx | hx
    · exact h.fresh x hx
    · have hxl := hdisj x hx
      rw [List.mem_cons, not_or] at hxl
      rw [← h.rest x hxl.1 hxl.2]
      exact h'.fresh x hx
  · rw [List.mem_append, not_or] at hxl
    exact (h'.rest x hxa hxl.2).trans (h.rest x hxa hxl.1)

/-- The first element joins what the rest of the walk has made. -/
lemma HoldsEach.cons_grown (hc : Copies A copy clear asks grade holds blank dangles) {s : S}
    {e : E} {m₁ m₂ : Mem B} {l' : List ℕ} (he : holds m₁.cells e s l) (hl : (a :: l).Nodup)
    (h : Grown a l m m₁) (ha : (m₁.cells a).isSome) (hes : HoldsEach holds m₂.cells es ss l')
    (hl' : (a :: l').Nodup) (h' : Grown a l' m₁ m₂) :
    HoldsEach holds m₂.cells (e :: es) (s :: ss) (l ++ l') ∧ (a :: (l ++ l')).Nodup ∧
      Grown a (l ++ l') m m₂ := by
  have hlive : ∀ x ∈ a :: l, (m₁.cells x).isSome := fun x hx => by
    rcases List.mem_cons.mp hx with rfl | hx
    · exact ha
    · exact hc.live he x hx
  obtain ⟨hgrown, hdisj⟩ := h.trans h' hlive
  obtain ⟨hal, hl⟩ := List.nodup_cons.mp hl
  obtain ⟨hal', hl'⟩ := List.nodup_cons.mp hl'
  refine ⟨.cons (hc.frame he fun x hx => h'.rest x (ne_of_mem_of_not_mem hx hal) fun hx' =>
    hdisj x hx' (List.mem_cons_of_mem _ hx)) hes, List.nodup_cons.mpr ⟨?_, ?_⟩, hgrown⟩
  · rw [List.mem_append, not_or]
    exact ⟨hal, hal'⟩
  · exact List.nodup_append'.mpr ⟨hl, hl', fun x hx hx' =>
      hdisj x hx' (List.mem_cons_of_mem _ hx)⟩

lemma copyEach_succeeds (hc : Copies A copy clear asks grade holds blank dangles)
    (ha : m.cells a = some (pack (pre ++ zeros B ss.length)))
    (hnone : firstFail A m.asked (ss.flatMap asks) = none) :
    Yields (copyEach copy a ss pre.length) m fun r m' => r = 0 ∧
      m'.asked = m.asked + (ss.flatMap asks).length ∧ ∃ es l,
        m'.cells a = some (pack (pre ++ es)) ∧ HoldsEach holds m'.cells es ss l ∧
        (a :: l).Nodup ∧ Grown a l m m' := by
  induction ss generalizing m pre with
  | nil =>
    rw [copyEach, yields_pure]
    refine ⟨rfl, rfl, [], [], ha, .nil, List.nodup_singleton a, .refl a m⟩
  | cons s ss ih =>
    rw [List.flatMap_cons, firstFail_append] at hnone
    cases hfirst : firstFail A m.asked (asks s) with
    | some k =>
      rw [hfirst] at hnone
      exact absurd hnone (Option.some_ne_none k)
    | none =>
      rw [hfirst] at hnone
      obtain ⟨e, l, m₁, he, hl, hgrown, hasked, ha₁, hrun⟩ := copyEach_step pre hc ha hfirst
      rw [← hasked] at hnone
      rw [yields_congr hrun]
      refine (ih _ ha₁ hnone).mono ?_
      rintro r m' ⟨hr, hasked', es, l', ha', hes, hl', hgrown'⟩
      have hsome : (m₁.cells a).isSome := by rw [ha₁]; rfl
      obtain ⟨hall, hnodup, hgrown⟩ := HoldsEach.cons_grown hc he hl hgrown hsome hes hl' hgrown'
      refine ⟨hr, ?_, e :: es, l ++ l', ?_, hall, hnodup, hgrown⟩
      · rw [hasked', hasked, List.flatMap_cons, List.length_append, Nat.add_assoc]
      · rw [ha', List.append_assoc]
        rfl

/-- The walk ends with the element whose copy fails. -/
lemma copyEach_fails (hc : Copies A copy clear asks grade holds blank dangles) {k : Ask K}
    (ha : m.cells a = some (pack (pre ++ zeros B ss.length)))
    (hk : firstFail A m.asked (ss.flatMap asks) = some k) (hgrade : grade k ≠ .stuck) :
    Yields (copyEach copy a ss pre.length) m fun r m' => r = k.code ∧ ∃ es ss' e n l,
      es.length + (n + 1) = ss.length ∧
      m'.cells a = some (pack (pre ++ es ++ e :: zeros B n)) ∧
      HoldsEach holds m'.cells es ss' l ∧ (a :: l).Nodup ∧ Grown a l m m' ∧
      Spoilt blank dangles (grade k) e m'.cells := by
  induction ss generalizing m pre with
  | nil => exact absurd hk (Option.some_ne_none k).symm
  | cons s ss ih =>
    rw [List.flatMap_cons, firstFail_append] at hk
    cases hfirst : firstFail A m.asked (asks s) with
    | none =>
      rw [hfirst] at hk
      obtain ⟨e, l, m₁, he, hl, hgrown, hasked, ha₁, hrun⟩ := copyEach_step pre hc ha hfirst
      rw [← hasked] at hk
      rw [yields_congr hrun]
      refine (ih _ ha₁ hk).mono ?_
      rintro r m' ⟨hr, es, ss', f, n, l', hlen', ha', hes, hl', hgrown', hspoilt⟩
      have hsome : (m₁.cells a).isSome := by rw [ha₁]; rfl
      obtain ⟨hall, hnodup, hgrown⟩ := HoldsEach.cons_grown hc he hl hgrown hsome hes hl' hgrown'
      refine ⟨hr, e :: es, s :: ss', f, n, l ++ l', ?_, ?_, hall, hnodup, hgrown, hspoilt⟩
      · rw [List.length_cons, List.length_cons]
        omega
      · rw [ha']
        simp
    | some k' =>
      rw [hfirst] at hk
      obtain rfl := Option.some.inj hk
      have hget : (pre ++ (zeros B (ss.length + 1) : List E))[pre.length]? = some (zero B) := by
        simp [zeros]
      rw [copyEach, yields_bind, yields_readAt ha hget, yields_bind]
      refine (hc.fails hfirst hgrade).mono ?_
      rintro ⟨r, e⟩ m₁ ⟨hr, hcells, hspoilt⟩
      have hneg : r < 0 := lt_of_eq_of_lt hr (hc.code_neg (firstFail_mem hfirst))
      have ha₁ : m₁.cells a = some (pack (pre ++ zeros B (ss.length + 1))) := hcells ▸ ha
      have hlen : pre.length < (pre ++ (zeros B (ss.length + 1) : List E)).length := by
        simp [zeros]
      rw [yields_bind, yields_writeAt ha₁ hlen, if_pos hneg, yields_pure]
      have hne : ∀ x, x ≠ a → (m₁.set a
          (pack ((pre ++ (zeros B (ss.length + 1) : List E)).set pre.length e))).cells x =
            m.cells x := fun x hx => (Mem.set_of_ne _ _ hx).trans (congrFun hcells x)
      refine ⟨hr, [], [], e, ss.length, [], ?_, ?_, .nil, List.nodup_singleton a,
        ⟨fun _ hx => absurd hx List.not_mem_nil, fun x hx _ => hne x hx⟩, ?_⟩
      · rw [List.length_nil, Nat.zero_add, List.length_cons]
      · rw [Mem.set_same, List.set_append_right _ _ (le_refl _)]
        simp [zeros, List.replicate_succ]
      · cases hg : grade k' with
        | clean => rw [hg] at hspoilt; exact hspoilt
        | stuck => exact absurd hg hgrade
        | dangling =>
          rw [hg] at hspoilt
          obtain ⟨d, hd, hnone⟩ := hspoilt
          refine ⟨d, hd, (hne d ?_).trans hnone⟩
          rintro rfl
          exact absurd (ha.symm.trans hnone) (Option.some_ne_none _)

lemma copyEach_stuck (hc : Copies A copy clear asks grade holds blank dangles) {k : Ask K}
    (ha : m.cells a = some (pack (pre ++ zeros B ss.length)))
    (hk : firstFail A m.asked (ss.flatMap asks) = some k) (hgrade : grade k = .stuck) :
    Stuck (copyEach copy a ss pre.length) m := by
  induction ss generalizing m pre with
  | nil => exact absurd hk (Option.some_ne_none k).symm
  | cons s ss ih =>
    rw [List.flatMap_cons, firstFail_append] at hk
    cases hfirst : firstFail A m.asked (asks s) with
    | none =>
      rw [hfirst] at hk
      obtain ⟨e, l, m₁, -, -, -, hasked, ha₁, hrun⟩ := copyEach_step pre hc ha hfirst
      rw [← hasked] at hk
      exact hrun.trans (ih _ ha₁ hk)
    | some k' =>
      rw [hfirst] at hk
      obtain rfl := Option.some.inj hk
      have hget : (pre ++ (zeros B (ss.length + 1) : List E))[pre.length]? = some (zero B) := by
        simp [zeros]
      rw [copyEach]
      refine Yields.stuck_bind ((yields_readAt ha hget).mpr ?_)
      exact (hc.stuck hfirst hgrade).bind

end Each

/-! ### Records that own an array -/

/-- Where a record keeps its array and its extra bytes, and what it takes over from a source. -/
structure Shape (P T S : Type) where
  array : P → Option ℕ
  setArray : Option ℕ → P → P
  extra : P → Option ℕ
  setExtra : Option ℕ → P → P
  count : P → ℕ
  fill : T → P → P
  setLen : T → P → P
  items : T → List S
  bytes : T → List UInt8

/-- The parts of a record do not get in each other's way. -/
structure Shape.Lawful (sh : Shape P T S) : Prop where
  array_setArray : ∀ x p, sh.array (sh.setArray x p) = x
  extra_setArray : ∀ x p, sh.extra (sh.setArray x p) = sh.extra p
  count_setArray : ∀ x p, sh.count (sh.setArray x p) = sh.count p
  array_setExtra : ∀ x p, sh.array (sh.setExtra x p) = sh.array p
  extra_setExtra : ∀ x p t, sh.bytes t ≠ [] → sh.extra (sh.setExtra x p) = x
  count_setExtra : ∀ x p, sh.count (sh.setExtra x p) = sh.count p
  array_setLen : ∀ t p, sh.array (sh.setLen t p) = sh.array p
  extra_setLen : ∀ t p, sh.extra (sh.setLen t p) = sh.extra p
  count_setLen : ∀ t p, sh.count (sh.setLen t p) = sh.count p
  extra_fill : ∀ t p, sh.extra (sh.fill t p) = sh.extra p
  count_fill : ∀ t p, sh.count (sh.fill t p) = (sh.items t).length

section Owner

variable [Packs B E]

/-- The extra bytes are given back. -/
def clearExtra (sh : Shape P T S) (p : P) : Cmd (Mem B) Unit :=
  match sh.extra p with
  | some x => free x
  | none => pure ()

/-- The elements of the array are cleared, and the array is given back. -/
def clearArray (sh : Shape P T S) (clear : E → Cmd (Mem B) Unit) (p : P) : Cmd (Mem B) Unit :=
  match sh.array p with
  | some a => do
    clearEach clear a (sh.count p) 0
    free a
  | none => pure ()

def clearOwner (sh : Shape P T S) (clear : E → Cmd (Mem B) Unit) (p : P) : Cmd (Mem B) Unit := do
  clearExtra sh p
  clearArray sh clear p

variable {A : Allocator B} {copy : E → S → Cmd (Mem B) (ℤ × E)}
  {clear : E → Cmd (Mem B) Unit} {asks : S → List (Ask K)} {grade : Ask K → Grade}
  {holds : (ℕ → Option B) → E → S → List ℕ → Prop} {blank : E → Prop} {dangles : E → ℕ → Prop}
  {sh : Shape P T S} {m : Mem B} {a : ℕ} {es : List E} {ss : List S} {l : List ℕ} {p : P}

lemma clearArray_holds (hc : Copies A copy clear asks grade holds blank dangles)
    (ha : m.cells a = some (pack es)) (hes : HoldsEach holds m.cells es ss l)
    (hnodup : (a :: l).Nodup) (harray : sh.array p = some a) (hcount : sh.count p = es.length) :
    Yields (clearArray sh clear p) m fun _ m' => Leaves (a :: l) [] m m' := by
  have hal := (List.nodup_cons.mp hnodup).1
  rw [clearArray, harray]
  simp only [hcount, yields_bind]
  refine (clearEach_holds [] [] hc (by simpa using ha) hes hnodup).mono
    fun _ m₁ h₁ => ?_
  rw [yields_free ((h₁.apart a hal).trans ha)]
  refine ⟨(h₁.apart.mono (List.subset_cons_self _ _)).erase List.mem_cons_self, fun x hx _ => ?_⟩
  rcases eq_or_ne x a with rfl | hxa
  · exact m₁.erase_same x
  · rw [m₁.erase_of_ne hxa]
    exact h₁.freed x ((List.mem_cons.mp hx).resolve_left hxa) List.not_mem_nil

omit [Packs B E] in
lemma clearExtra_none (hextra : sh.extra p = none) :
    (clearExtra sh p : Cmd (Mem B) Unit) = pure () := by
  rw [clearExtra, hextra]

/-- An array whose elements have been copied up to one that owns nothing. -/
lemma clearArray_blank (hc : Copies A copy clear asks grade holds blank dangles) {e : E} {n : ℕ}
    (ha : m.cells a = some (pack (es ++ e :: zeros B n))) (hes : HoldsEach holds m.cells es ss l)
    (hnodup : (a :: l).Nodup) (he : blank e) (harray : sh.array p = some a)
    (hcount : sh.count p = es.length + (n + 1)) :
    Yields (clearArray sh clear p) m fun _ m' => Leaves (a :: l) [] m m' := by
  have hal := (List.nodup_cons.mp hnodup).1
  rw [clearArray, harray]
  dsimp only
  rw [hcount, clearEach_add, yields_bind, yields_bind]
  refine (clearEach_holds [] _ hc ha hes hnodup).mono fun _ m₁ h₁ => ?_
  have ha₁ : m₁.cells a = some (pack (es ++ e :: zeros B n)) := (h₁.apart a hal).trans ha
  have hblank : ∀ x ∈ e :: zeros B n, blank x := fun x hx => by
    rcases List.mem_cons.mp hx with rfl | hx
    · exact he
    · rw [List.eq_of_mem_replicate hx]
      exact hc.zero_blank
  have hlen : n + 1 = (e :: (zeros B n : List E)).length := by simp [zeros]
  rw [Nat.zero_add, hlen]
  refine (clearEach_blank _ hc ha₁ hblank).mono fun _ m₂ hm₂ => ?_
  subst hm₂
  rw [yields_free ha₁]
  refine ⟨(h₁.apart.mono (List.subset_cons_self _ _)).erase List.mem_cons_self, fun x hx _ => ?_⟩
  rcases eq_or_ne x a with rfl | hxa
  · exact Mem.erase_same _ x
  · rw [Mem.erase_of_ne _ hxa]
    exact h₁.freed x ((List.mem_cons.mp hx).resolve_left hxa) List.not_mem_nil

/-- An array whose elements have been copied up to one that points to what is gone. -/
lemma clearArray_dangles (hc : Copies A copy clear asks grade holds blank dangles) {e : E}
    {n d : ℕ} (ha : m.cells a = some (pack (es ++ e :: zeros B n)))
    (hes : HoldsEach holds m.cells es ss l) (hnodup : (a :: l).Nodup) (he : dangles e d)
    (hd : m.cells d = none) (harray : sh.array p = some a)
    (hcount : sh.count p = es.length + (n + 1)) : Stuck (clearArray sh clear p) m := by
  have hal := (List.nodup_cons.mp hnodup).1
  rw [clearArray, harray]
  dsimp only
  rw [hcount, clearEach_add]
  refine Stuck.bind ((clearEach_holds [] _ hc ha hes hnodup).mono fun _ m₁ h₁ => ?_).stuck_bind
  have ha₁ : m₁.cells a = some (pack (es ++ e :: zeros B n)) := (h₁.apart a hal).trans ha
  have hd₁ : m₁.cells d = none := by
    by_cases hdl : d ∈ l
    · exact h₁.freed d hdl List.not_mem_nil
    · rw [h₁.apart d hdl, hd]
  have hget : (es ++ e :: zeros B n)[0 + es.length]? = some e := by simp
  rw [clearEach]
  refine Yields.stuck_bind ((yields_readAt ha₁ hget).mpr ?_)
  exact (hc.clear_dangles he hd₁).bind

omit [Packs B E] in
/-- After everything has been given back, the heap is as it was. -/
lemma restored {m m₁ m₂ m₃ : Mem B} (h₁ : Gains [a] m m₁) (h₂ : Grown a l m₁ m₂)
    (h₃ : Leaves (a :: l) [] m₂ m₃) : m₃.cells = m.cells := by
  funext x
  by_cases hxa : x = a
  · subst hxa
    rw [h₃.freed x List.mem_cons_self List.not_mem_nil]
    exact (h₁.freed x (List.mem_singleton_self x) List.not_mem_nil).symm
  have hfirst : m₁.cells x = m.cells x :=
    (h₁.apart x fun hx => hxa (List.mem_singleton.mp hx)).symm
  by_cases hxl : x ∈ l
  · rw [h₃.freed x (List.mem_cons_of_mem _ hxl) List.not_mem_nil, ← hfirst]
    exact (h₂.fresh x hxl).symm
  · rw [h₃.apart x fun hx => (List.mem_cons.mp hx).elim hxa hxl, h₂.rest x hxa hxl, hfirst]

variable [Packs B P] [Packs B UInt8]

/-- The extra bytes are copied, if there are any. -/
def copyExtra (A : Allocator B) (sh : Shape P T S) (clear : E → Cmd (Mem B) Unit) (dest : P)
    (src : T) : Cmd (Mem B) (ℤ × P) :=
  if sh.bytes src = [] then pure (0, dest)
  else do
    match ← mallocFor A (pack (sh.bytes src)) with
    | none =>
      let dest := sh.setExtra none dest
      clearOwner sh clear dest
      pure (-enomem, dest)
    | some x => pure (0, sh.setExtra (some x) dest)

/-- The array at `a` is filled, then the extra bytes; without memory everything is cleared. -/
def copyInto (A : Allocator B) (sh : Shape P T S) (copy : E → S → Cmd (Mem B) (ℤ × E))
    (clear : E → Cmd (Mem B) Unit) (dest : P) (src : T) (a : ℕ) : Cmd (Mem B) (ℤ × P) := do
  let r ← copyEach copy a (sh.items src) 0
  if r < 0 then
    clearOwner sh clear dest
    pure (r, dest)
  else copyExtra A sh clear (sh.setLen src dest) src

/-- A copy of a record, its array and its extra bytes. -/
def copyOwner (A : Allocator B) (sh : Shape P T S) (copy : E → S → Cmd (Mem B) (ℤ × E))
    (clear : E → Cmd (Mem B) Unit) (dest : P) (src : T) : Cmd (Mem B) (ℤ × P) := do
  let dest := sh.fill src dest
  match ← mallocFor A (pack (zeros B (sh.items src).length : List E)) with
  | none => pure (-enomem, sh.setArray none dest)
  | some a => copyInto A sh copy clear (sh.setArray (some a) dest) src a

/-- What such a copy asks for. -/
def ownerAsks (sh : Shape P T S) (asks : S → List (Ask K)) (own ownExtra : K) (t : T) :
    List (Ask K) :=
  .memory own :: ((sh.items t).flatMap asks ++
    if sh.bytes t = [] then [] else [.memory ownExtra])

/-- A record that has got its array. -/
def Shape.made (sh : Shape P T S) (B : Type) [Packs B P] (t : T) (a : ℕ) : P :=
  sh.setLen t (sh.setArray (some a) (sh.fill t (zero B)))

/-- A copy of a record, and where its memory is. -/
inductive OwnerHolds (sh : Shape P T S) (holds : (ℕ → Option B) → E → S → List ℕ → Prop)
    (h : ℕ → Option B) : P → T → List ℕ → Prop
  | bare {t a es l} : sh.bytes t = [] → h a = some (pack es) →
    HoldsEach holds h es (sh.items t) l → OwnerHolds sh holds h (sh.made B t a) t (a :: l)
  | extra {t a es l x} : sh.bytes t ≠ [] → h a = some (pack es) →
    HoldsEach holds h es (sh.items t) l → h x = some (pack (sh.bytes t)) →
    OwnerHolds sh holds h (sh.setExtra (some x) (sh.made B t a)) t (x :: a :: l)

/-- A record that owns nothing. -/
def ownsNothing (sh : Shape P T S) (p : P) : Prop := sh.array p = none ∧ sh.extra p = none

/-- A record that points to an array and to nothing else. -/
def pointsTo (sh : Shape P T S) (p : P) (a : ℕ) : Prop := sh.array p = some a ∧ sh.extra p = none

/-- The array has been allocated. -/
lemma copyOwner_granted (sh : Shape P T S) (copy : E → S → Cmd (Mem B) (ℤ × E))
    (clear : E → Cmd (Mem B) Unit) (t : T) (hgranted : A.fails m.asked = false) :
    ∃ a m₁, Gains [a] m m₁ ∧ m₁.cells a = some (pack (zeros B (sh.items t).length : List E)) ∧
      m₁.asked = m.asked + 1 ∧ (copyOwner A sh copy clear (zero B) t).run m =
        (copyInto A sh copy clear (sh.setArray (some a) (sh.fill t (zero B))) t a).run m₁ := by
  obtain ⟨r, m₁, hrun, hasked, hr⟩ :=
    yields_mallocFor A (pack (zeros B (sh.items t).length : List E)) m
  cases r with
  | none => exact absurd (hgranted.symm.trans hr.1) Bool.false_ne_true
  | some a =>
    refine ⟨a, m₁, hr.2.1, hr.2.2, hasked, ?_⟩
    rw [copyOwner, StateT.run_bind, hrun]
    rfl

section Laws

variable (law : sh.Lawful) (hzero : ownsNothing sh (zero B : P))
include law

omit [Packs B UInt8] in
lemma array_made (t : T) (a : ℕ) : sh.array (sh.made B t a) = some a := by
  rw [Shape.made, law.array_setLen, law.array_setArray]

omit [Packs B UInt8] in
lemma count_made (t : T) (a : ℕ) : sh.count (sh.made B t a) = (sh.items t).length := by
  rw [Shape.made, law.count_setLen, law.count_setArray, law.count_fill]

/-- The array has been filled, and the extra bytes are still missing. -/
lemma copyExtra_spec (hc : Copies A copy clear asks grade holds blank dangles) {t : T}
    (ownExtra : K) {m₀ m₁ : Mem B} (ha : m.cells a = some (pack es))
    (hes : HoldsEach holds m.cells es (sh.items t) l) (hl : (a :: l).Nodup)
    (hgain : Gains [a] m₀ m₁) (hgrown : Grown a l m₁ m) :
    Yields (copyExtra A sh clear (sh.made B t a) t) m fun r m' =>
      match firstFail A m.asked (if sh.bytes t = [] then [] else [Ask.memory ownExtra]) with
      | none => r.1 = 0 ∧
        m'.asked = m.asked + (if sh.bytes t = [] then [] else [Ask.memory ownExtra]).length ∧
        ∃ l, OwnerHolds sh holds m'.cells r.2 t l ∧ l.Nodup ∧ Gains l m₀ m'
      | some _ => r.1 = -enomem ∧ m'.cells = m₀.cells ∧ pointsTo sh r.2 a := by
  have ha₀ : m₀.cells a = none := hgain.freed a (List.mem_singleton_self a) List.not_mem_nil
  have hgains : Gains (a :: l) m₀ m := by
    refine ⟨fun x hx => ?_, fun x hx _ => ?_⟩
    · rw [List.mem_cons, not_or] at hx
      rw [hgrown.rest x hx.1 hx.2]
      exact hgain.apart x fun hm => hx.1 (List.mem_singleton.mp hm)
    · rcases eq_or_ne x a with rfl | hxa
      · exact ha₀
      · rw [hgain.apart x fun hm => hxa (List.mem_singleton.mp hm)]
        exact hgrown.fresh x ((List.mem_cons.mp hx).resolve_left hxa)
  rw [copyExtra]
  by_cases hbytes : sh.bytes t = []
  · rw [if_pos hbytes, if_pos hbytes, yields_pure]
    exact ⟨rfl, rfl, a :: l, .bare hbytes ha hes, hl, hgains⟩
  rw [if_neg hbytes, if_neg hbytes, yields_bind]
  refine (yields_mallocFor A (pack (sh.bytes t)) m).mono ?_
  rintro (_ | x) m' ⟨hasked, hfails, hm'⟩
  · rw [firstFail, if_pos hfails]
    have hextra : sh.extra (sh.setExtra none (sh.made B t a)) = none :=
      law.extra_setExtra _ _ t hbytes
    have harray : sh.array (sh.setExtra none (sh.made B t a)) = some a := by
      rw [law.array_setExtra, array_made law]
    dsimp only
    rw [clearOwner, clearExtra_none hextra, pure_bind, yields_bind]
    have ha' : m'.cells a = some (pack es) := hm' ▸ ha
    have hes' : HoldsEach holds m'.cells es (sh.items t) l := hm' ▸ hes
    refine (clearArray_holds hc ha' hes' hl harray ?_).mono fun _ m₂ h₂ => ?_
    · rw [law.count_setExtra, count_made law, hes.length]
    rw [yields_pure]
    have hgrown' : Grown a l m₁ m' := ⟨hgrown.fresh, fun x hxa hxl => by
      rw [hm', hgrown.rest x hxa hxl]⟩
    exact ⟨rfl, restored hgain hgrown' h₂, harray, hextra⟩
  · obtain ⟨hnew, hx⟩ := hm'
    have hxnone : m.cells x = none := hnew.freed x (List.mem_singleton_self x) List.not_mem_nil
    have hxl : x ∉ a :: l := fun hm => by
      have hsome : (m.cells x).isSome := by
        rcases List.mem_cons.mp hm with rfl | hm
        · rw [ha]
          rfl
        · exact hes.live hc x hm
      rw [hxnone] at hsome
      exact absurd hsome Bool.false_ne_true
    have hcells : ∀ y, y ≠ x → m'.cells y = m.cells y := fun y hy =>
      (hnew.apart y fun hm => hy (List.mem_singleton.mp hm)).symm
    have hkeep : ∀ y ∈ a :: l, m'.cells y = m.cells y := fun y hy =>
      hcells y (ne_of_mem_of_not_mem hy hxl)
    dsimp only
    rw [firstFail, if_neg (by rw [hfails]; exact Bool.false_ne_true), firstFail, yields_pure]
    refine ⟨rfl, hasked, x :: a :: l, .extra hbytes ((hkeep a List.mem_cons_self).trans ha)
      (hes.frame hc fun y hy => hkeep y (List.mem_cons_of_mem _ hy)) hx,
      List.nodup_cons.mpr ⟨hxl, hl⟩, fun y hy => ?_, fun y hy _ => ?_⟩
    · rw [List.mem_cons, not_or] at hy
      rw [hcells y hy.1]
      exact hgains.apart y hy.2
    · by_cases hyl : y ∈ a :: l
      · exact hgains.freed y hyl List.not_mem_nil
      · obtain rfl := (List.mem_cons.mp hy).resolve_right hyl
        exact (hgains.apart y hyl).trans hxnone

include hzero

omit [Packs B UInt8] in
lemma extra_made (t : T) (a : ℕ) : sh.extra (sh.made B t a) = none := by
  rw [Shape.made, law.extra_setLen, law.extra_setArray, law.extra_fill, hzero.2]

lemma clearOwner_holds (hc : Copies A copy clear asks grade holds blank dangles) {t : T}
    (hp : OwnerHolds sh holds m.cells p t l) (hl : l.Nodup) :
    Yields (clearOwner sh clear p) m fun _ m' => Leaves l [] m m' := by
  cases hp with
  | @bare _ a es l hbytes ha hes =>
    rw [clearOwner, clearExtra_none (extra_made law hzero t a), pure_bind]
    exact clearArray_holds hc ha hes hl (array_made law t a)
      ((count_made law t a).trans hes.length.symm)
  | @extra _ a es l x hbytes ha hes hx =>
    obtain ⟨hxl, hl⟩ := List.nodup_cons.mp hl
    have hextra : sh.extra (sh.setExtra (some x) (sh.made B t a)) = some x :=
      law.extra_setExtra _ _ t hbytes
    rw [clearOwner, clearExtra, hextra, yields_bind, yields_free hx]
    have hcells : ∀ y ∈ a :: l, (m.erase x).cells y = m.cells y := fun y hy =>
      m.erase_of_ne (ne_of_mem_of_not_mem hy hxl)
    have ha' : (m.erase x).cells a = some (pack es) := (hcells a List.mem_cons_self).trans ha
    have hes' : HoldsEach holds (m.erase x).cells es (sh.items t) l :=
      hes.frame hc fun y hy => hcells y (List.mem_cons_of_mem _ hy)
    refine (clearArray_holds hc ha' hes' hl ?_ ?_).mono fun _ m' h' => ⟨?_, ?_⟩
    · rw [law.array_setExtra, array_made law]
    · rw [law.count_setExtra, count_made law, hes.length]
    · exact ((Apart.refl _ m).erase List.mem_cons_self).trans
        (h'.apart.mono (List.subset_cons_self _ _))
    · intro y hy _
      by_cases hyl : y ∈ a :: l
      · exact h'.freed y hyl List.not_mem_nil
      · obtain rfl := (List.mem_cons.mp hy).resolve_right hyl
        rw [h'.apart y hyl]
        exact m.erase_same y

omit hzero in
lemma copyOwner_succeeds (hc : Copies A copy clear asks grade holds blank dangles) {t : T}
    {own ownExtra : K} (hnone : firstFail A m.asked (ownerAsks sh asks own ownExtra t) = none) :
    Yields (copyOwner A sh copy clear (zero B) t) m fun r m' => r.1 = 0 ∧
      m'.asked = m.asked + (ownerAsks sh asks own ownExtra t).length ∧
      ∃ l, OwnerHolds sh holds m'.cells r.2 t l ∧ l.Nodup ∧ Gains l m m' := by
  rw [ownerAsks, firstFail] at hnone
  cases hfails : A.fails m.asked with
  | true =>
    rw [hfails, if_pos rfl] at hnone
    exact absurd hnone (Option.some_ne_none _)
  | false =>
    rw [hfails, if_neg Bool.false_ne_true, firstFail_append] at hnone
    obtain ⟨a, m₁, hgain, ha, hasked, hrun⟩ := copyOwner_granted
      sh copy clear t hfails
    rw [← hasked] at hnone
    cases hitems : firstFail A m₁.asked ((sh.items t).flatMap asks) with
    | some k =>
      rw [hitems] at hnone
      exact absurd hnone (Option.some_ne_none k)
    | none =>
      rw [hitems] at hnone
      rw [yields_congr hrun, copyInto, yields_bind]
      refine (copyEach_succeeds [] hc ha hitems).mono ?_
      rintro r m₂ ⟨rfl, hasked₂, es, l, ha₂, hes, hl, hgrown⟩
      rw [if_neg (by decide)]
      refine (copyExtra_spec law hc ownExtra ha₂ hes hl hgain hgrown).mono fun r m' hr => ?_
      dsimp only at hnone
      rw [hasked₂, hnone] at hr
      obtain ⟨hr, hasked₃, hholds⟩ := hr
      refine ⟨hr, ?_, hholds⟩
      rw [hasked₃, hasked, ownerAsks, List.length_cons, List.length_append]
      omega

lemma copyOwner_fails (hc : Copies A copy clear asks grade holds blank dangles) {t : T}
    {own ownExtra : K} {grade' : Ask K → Grade} {k : Ask K} (hown : grade' (.memory own) = .clean)
    (hextra : ∀ t, sh.bytes t ≠ [] → grade' (.memory ownExtra) = .dangling)
    (hitems : ∀ t, ∀ s ∈ sh.items t, ∀ k ∈ asks s, grade' k = (grade k).bump)
    (hk : firstFail A m.asked (ownerAsks sh asks own ownExtra t) = some k)
    (hgrade : grade' k ≠ .stuck) :
    Yields (copyOwner A sh copy clear (zero B) t) m fun r m' => r.1 = k.code ∧
      m'.cells = m.cells ∧ Spoilt (ownsNothing sh) (pointsTo sh) (grade' k) r.2 m.cells := by
  rw [ownerAsks, firstFail] at hk
  cases hfails : A.fails m.asked with
  | true =>
    rw [hfails, if_pos rfl] at hk
    obtain rfl := Option.some.inj hk
    rw [copyOwner, yields_bind]
    refine (yields_mallocFor A _ m).mono ?_
    rintro (_ | a) m₁ ⟨-, hr⟩
    · refine yields_pure.mpr ⟨rfl, hr.2, ?_⟩
      rw [hown]
      exact ⟨law.array_setArray _ _, by rw [law.extra_setArray, law.extra_fill, hzero.2]⟩
    · exact absurd (hr.1.symm.trans hfails) Bool.false_ne_true
  | false =>
    rw [hfails, if_neg Bool.false_ne_true, firstFail_append] at hk
    obtain ⟨a, m₁, hgain, ha, hasked, hrun⟩ := copyOwner_granted
      sh copy clear t hfails
    have hanone : m.cells a = none := hgain.freed a (List.mem_singleton_self a) List.not_mem_nil
    have harray : sh.array (sh.setArray (some a) (sh.fill t (zero B : P))) = some a :=
      law.array_setArray _ _
    have hnoextra : sh.extra (sh.setArray (some a) (sh.fill t (zero B : P))) = none := by
      rw [law.extra_setArray, law.extra_fill, hzero.2]
    have hcount : sh.count (sh.setArray (some a) (sh.fill t (zero B : P))) =
        (sh.items t).length := by rw [law.count_setArray, law.count_fill]
    rw [← hasked] at hk
    rw [yields_congr hrun, copyInto, yields_bind]
    cases hfirst : firstFail A m₁.asked ((sh.items t).flatMap asks) with
    | some k' =>
      rw [hfirst] at hk
      obtain rfl := Option.some.inj hk
      obtain ⟨s, hs, hks⟩ := List.mem_flatMap.mp (firstFail_mem hfirst)
      have hbump := hitems t s hs _ hks
      have hclean : grade k' = .clean := by
        cases hg : grade k' with
        | clean => rfl
        | dangling => exact absurd (hbump.trans (by rw [hg, Grade.bump])) hgrade
        | stuck => exact absurd (hbump.trans (by rw [hg, Grade.bump])) hgrade
      have hns : grade k' ≠ .stuck := by
        rw [hclean]
        exact Grade.noConfusion
      refine (copyEach_fails [] hc ha hfirst hns).mono ?_
      rintro r m₂ ⟨rfl, es, ss', e, n, l, hlen, ha₂, hes, hl, hgrown, hspoilt⟩
      rw [if_pos (hc.code_neg hks), clearOwner, clearExtra_none hnoextra, pure_bind, yields_bind]
      rw [hclean] at hspoilt
      refine (clearArray_blank hc ha₂ hes hl hspoilt harray (hcount.trans hlen.symm)).mono
        fun _ m₃ h₃ => ?_
      rw [yields_pure, hbump, hclean]
      exact ⟨rfl, restored hgain hgrown h₃, a, ⟨harray, hnoextra⟩, hanone⟩
    | none =>
      rw [hfirst] at hk
      refine (copyEach_succeeds [] hc ha hfirst).mono ?_
      rintro r m₂ ⟨rfl, hasked₂, es, l, ha₂, hes, hl, hgrown⟩
      rw [if_neg (by decide)]
      refine (copyExtra_spec law hc ownExtra ha₂ hes hl hgain hgrown).mono fun r m' hr => ?_
      dsimp only at hk
      rw [hasked₂, hk] at hr
      obtain ⟨hr, hcells, hpoints⟩ := hr
      have hmem := firstFail_mem hk
      split_ifs at hmem with hbytes
      · exact absurd hmem List.not_mem_nil
      · obtain rfl := List.mem_singleton.mp hmem
        rw [hextra t hbytes]
        exact ⟨hr, hcells, a, hpoints, hanone⟩

lemma copyOwner_stuck (hc : Copies A copy clear asks grade holds blank dangles) {t : T}
    {own ownExtra : K} {grade' : Ask K → Grade} {k : Ask K} (hown : grade' (.memory own) = .clean)
    (hextra : ∀ t, sh.bytes t ≠ [] → grade' (.memory ownExtra) = .dangling)
    (hitems : ∀ t, ∀ s ∈ sh.items t, ∀ k ∈ asks s, grade' k = (grade k).bump)
    (hk : firstFail A m.asked (ownerAsks sh asks own ownExtra t) = some k)
    (hgrade : grade' k = .stuck) : Stuck (copyOwner A sh copy clear (zero B) t) m := by
  rw [ownerAsks, firstFail] at hk
  cases hfails : A.fails m.asked with
  | true =>
    rw [hfails, if_pos rfl] at hk
    obtain rfl := Option.some.inj hk
    exact Grade.noConfusion (hown.symm.trans hgrade)
  | false =>
    rw [hfails, if_neg Bool.false_ne_true, firstFail_append] at hk
    obtain ⟨a, m₁, hgain, ha, hasked, hrun⟩ := copyOwner_granted
      sh copy clear t hfails
    have harray : sh.array (sh.setArray (some a) (sh.fill t (zero B : P))) = some a :=
      law.array_setArray _ _
    have hnoextra : sh.extra (sh.setArray (some a) (sh.fill t (zero B : P))) = none := by
      rw [law.extra_setArray, law.extra_fill, hzero.2]
    have hcount : sh.count (sh.setArray (some a) (sh.fill t (zero B : P))) =
        (sh.items t).length := by rw [law.count_setArray, law.count_fill]
    rw [← hasked] at hk
    rw [Stuck, hrun, copyInto]
    cases hfirst : firstFail A m₁.asked ((sh.items t).flatMap asks) with
    | none =>
      rw [hfirst] at hk
      have hmem := firstFail_mem hk
      split_ifs at hmem with hbytes
      · exact absurd hmem List.not_mem_nil
      · rw [List.mem_singleton.mp hmem, hextra t hbytes] at hgrade
        exact Grade.noConfusion hgrade
    | some k' =>
      rw [hfirst] at hk
      obtain rfl := Option.some.inj hk
      obtain ⟨s, hs, hks⟩ := List.mem_flatMap.mp (firstFail_mem hfirst)
      have hbump := hitems t s hs _ hks
      by_cases hst : grade k' = .stuck
      · exact (copyEach_stuck [] hc ha hfirst hst).bind
      refine Yields.stuck_bind ((copyEach_fails [] hc ha hfirst hst).mono ?_)
      rintro r m₂ ⟨rfl, es, ss', e, n, l, hlen, ha₂, hes, hl, hgrown, hspoilt⟩
      have hdangling : grade k' = .dangling := by
        cases hg : grade k' with
        | clean =>
          rw [hbump, hg] at hgrade
          exact Grade.noConfusion hgrade
        | dangling => rfl
        | stuck => exact absurd hg hst
      rw [hdangling] at hspoilt
      obtain ⟨d, hd, hnone⟩ := hspoilt
      rw [if_pos (hc.code_neg hks), clearOwner, clearExtra_none hnoextra, pure_bind]
      exact (clearArray_dangles hc ha₂ hes hl hd hnone harray (hcount.trans hlen.symm)).bind

/-- **Copying goes one level up**: a record with an array of records that can be copied can be
copied itself. -/
theorem Copies.owner {age : Ask K → ℕ} {level : ℕ}
    (hc : Copies A copy clear asks (gradeAt age level) holds blank dangles) {own ownExtra : K}
    (hown : age (.memory own) = level + 1)
    (hextra : ∀ t, sh.bytes t ≠ [] → age (.memory ownExtra) = level)
    (hitems : ∀ t, ∀ s ∈ sh.items t, ∀ k ∈ asks s, age k ≤ level) :
    Copies A (copyOwner A sh copy clear) (clearOwner sh clear)
      (ownerAsks sh asks own ownExtra) (gradeAt age (level + 1)) (OwnerHolds sh holds)
      (ownsNothing sh) (pointsTo sh) where
  frame := by
    intro h h' p t l hp hh
    cases hp with
    | bare hbytes ha hes =>
      exact .bare hbytes ((hh _ List.mem_cons_self).trans ha)
        (hes.frame hc fun x hx => hh x (List.mem_cons_of_mem _ hx))
    | extra hbytes ha hes hx =>
      exact .extra hbytes ((hh _ (List.mem_cons_of_mem _ List.mem_cons_self)).trans ha)
        (hes.frame hc fun x hx => hh x (List.mem_cons_of_mem _ (List.mem_cons_of_mem _ hx)))
        ((hh _ List.mem_cons_self).trans hx)
  live := by
    intro h p t l hp x hx
    cases hp with
    | bare hbytes ha hes =>
      rcases List.mem_cons.mp hx with rfl | hx
      · exact ha ▸ rfl
      · exact hes.live hc x hx
    | extra hbytes ha hes hy =>
      rcases List.mem_cons.mp hx with rfl | hx
      · exact hy ▸ rfl
      rcases List.mem_cons.mp hx with rfl | hx
      · exact ha ▸ rfl
      · exact hes.live hc x hx
  clear_holds := clearOwner_holds law hzero hc
  clear_blank := by
    intro m p ⟨harray, hextra⟩
    rw [clearOwner, clearExtra_none hextra, pure_bind, clearArray, harray]
    exact yields_pure.mpr rfl
  clear_dangles := by
    intro m p a ⟨harray, hextra⟩ ha
    rw [clearOwner, clearExtra_none hextra, pure_bind, clearArray, harray]
    dsimp only
    cases sh.count p with
    | zero => exact Yields.stuck_bind (yields_pure.mpr (stuck_free ha))
    | succ n => exact (stuck_readAt ha).bind.bind
  zero_blank := hzero
  code_neg := by
    intro t k hk
    rw [ownerAsks, List.mem_cons, List.mem_append] at hk
    rcases hk with rfl | hk | hk
    · exact memory_code_neg _
    · obtain ⟨s, -, hks⟩ := List.mem_flatMap.mp hk
      exact hc.code_neg hks
    · split_ifs at hk
      · exact absurd hk List.not_mem_nil
      · rw [List.mem_singleton.mp hk]
        exact memory_code_neg _
  succeeds := copyOwner_succeeds law hc
  fails := copyOwner_fails law hzero hc (gradeAt_clean hown.ge)
    (fun t ht => gradeAt_dangling (by rw [hextra t ht]))
    fun t s hs k hk => gradeAt_bump (hitems t s hs k hk)
  stuck := copyOwner_stuck law hzero hc (gradeAt_clean hown.ge)
    (fun t ht => gradeAt_dangling (by rw [hextra t ht]))
    fun t s hs k hk => gradeAt_bump (hitems t s hs k hk)

end Laws

/-- Requests get no older than the level they are made at. -/
lemma ownerAsks_age {age : Ask K → ℕ} {level : ℕ} {own ownExtra : K}
    (hown : age (.memory own) = level + 1)
    (hextra : ∀ t, sh.bytes t ≠ [] → age (.memory ownExtra) = level)
    (hitems : ∀ t, ∀ s ∈ sh.items t, ∀ k ∈ asks s, age k ≤ level) (t : T) :
    ∀ k ∈ ownerAsks sh asks own ownExtra t, age k ≤ level + 1 := by
  intro k hk
  rw [ownerAsks, List.mem_cons, List.mem_append] at hk
  rcases hk with rfl | hk | hk
  · exact hown.le
  · obtain ⟨s, hs, hks⟩ := List.mem_flatMap.mp hk
    exact Nat.le_succ_of_le (hitems t s hs k hks)
  · split_ifs at hk with hbytes
    · exact absurd hk List.not_mem_nil
    · rw [List.mem_singleton.mp hk, hextra t hbytes]
      exact Nat.le_succ level

end Owner

/-! ### Sources that may be missing -/

section Missing

variable [Packs B E] {X : Type}

def copyOrError (code : X → ℤ) (copy : E → S → Cmd (Mem B) (ℤ × E)) (e : E) :
    Except X S → Cmd (Mem B) (ℤ × E)
  | .error x => pure (code x, e)
  | .ok s => copy e s

def asksOrError (code : X → ℤ) (asks : S → List (Ask K)) : Except X S → List (Ask K)
  | .error x => [.error (code x)]
  | .ok s => asks s

def holdsOk (holds : (ℕ → Option B) → E → S → List ℕ → Prop) (h : ℕ → Option B) (e : E) :
    Except X S → List ℕ → Prop
  | .error _, _ => False
  | .ok s, l => holds h e s l

/-- A source that is missing is one more way to fail, which leaves nothing behind. -/
theorem Copies.orError {A : Allocator B} {copy : E → S → Cmd (Mem B) (ℤ × E)}
    {clear : E → Cmd (Mem B) Unit} {asks : S → List (Ask K)} {grade : Ask K → Grade}
    {holds : (ℕ → Option B) → E → S → List ℕ → Prop} {blank : E → Prop} {dangles : E → ℕ → Prop}
    (hc : Copies A copy clear asks grade holds blank dangles) {code : X → ℤ}
    (hneg : ∀ x, code x < 0) (hgrade : ∀ x, grade (.error (code x)) = .clean) :
    Copies A (copyOrError code copy) clear (asksOrError code asks) grade (holdsOk holds) blank
      dangles where
  frame := by
    intro h h' e s l he hh
    cases s with
    | error x => exact he.elim
    | ok s => exact hc.frame (s := s) he hh
  live := by
    intro h e s l he
    cases s with
    | error x => exact he.elim
    | ok s => exact hc.live (s := s) he
  clear_holds := by
    intro m e s l he
    cases s with
    | error x => exact he.elim
    | ok s => exact hc.clear_holds (s := s) he
  clear_blank := hc.clear_blank
  clear_dangles := hc.clear_dangles
  zero_blank := hc.zero_blank
  code_neg := by
    intro s k hk
    cases s with
    | error x =>
      rw [List.mem_singleton.mp hk]
      exact hneg x
    | ok s => exact hc.code_neg hk
  succeeds := by
    intro m s hnone
    cases s with
    | error x => exact absurd hnone (Option.some_ne_none _)
    | ok s => exact hc.succeeds hnone
  fails := by
    intro m s k hk hg
    cases s with
    | error x =>
      obtain rfl := Option.some.inj hk
      refine yields_pure.mpr ⟨rfl, rfl, ?_⟩
      rw [hgrade]
      exact hc.zero_blank
    | ok s => exact hc.fails hk hg
  stuck := by
    intro m s k hk hg
    cases s with
    | error x =>
      obtain rfl := Option.some.inj hk
      exact Grade.noConfusion ((hgrade x).symm.trans hg)
    | ok s => exact hc.stuck hk hg

end Missing

end AmlogicUpdate.DeepCopy

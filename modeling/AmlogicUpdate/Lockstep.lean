import AmlogicUpdate.Interaction

/-!
Two programs that go in step: they make the same calls, one after the other, as long as the
answers are among those considered, and end with related results. What is asked of the
results is passed on by the sequence and loop rules as a relation between the two states.
-/

namespace AmlogicUpdate.Interaction

open Prog

variable {Op : Type} {Resp : Op → Type} {α α' β β' σ σ' : Type}

/-- On the answers in `A` the programs make the same calls and return what `R` relates. -/
inductive Lockstep (A : Ev Resp → Prop) (R : α → β → Prop) : Prog Resp α → Prog Resp β → Prop
  | ret {a : α} {b : β} (h : R a b) : Lockstep A R (.ret a) (.ret b)
  | call {o : Op} {k : Resp o → Prog Resp α} {k' : Resp o → Prog Resp β}
      (h : ∀ r, A ⟨o, r⟩ → Lockstep A R (k r) (k' r)) : Lockstep A R (.call o k) (.call o k')
  | stop : Lockstep A R .stop .stop

namespace Lockstep

variable {A : Ev Resp → Prop} {R : α → α' → Prop} {p : Prog Resp α} {q : Prog Resp α'}

lemma refl (p : Prog Resp α) : Lockstep A Eq p p := by
  induction p with
  | ret a => exact .ret rfl
  | call o k ih => exact .call fun r _ => ih r
  | stop => exact .stop

lemma symm (h : Lockstep A R p q) : Lockstep A (fun b a => R a b) q p := by
  induction h with
  | ret h => exact .ret h
  | call _ ih => exact .call ih
  | stop => exact .stop

/-- Programs in step go on in step when what follows does, from related results. -/
theorem bind {R' : β → β' → Prop} {f : α → Prog Resp β} {f' : α' → Prog Resp β'}
    (h : Lockstep A R p q) (hf : ∀ a b, R a b → Lockstep A R' (f a) (f' b)) :
    Lockstep A R' (p >>= f) (q >>= f') := by
  induction h with
  | ret h => exact hf _ _ h
  | call _ ih => exact .call ih
  | stop => exact .stop

/-- The same part, and what follows it. -/
lemma bind_same {R' : β → β' → Prop} (p : Prog Resp α) {f : α → Prog Resp β}
    {f' : α → Prog Resp β'} (hf : ∀ a, Lockstep A R' (f a) (f' a)) :
    Lockstep A R' (p >>= f) (p >>= f') :=
  (refl p).bind fun a b hab => by
    subst hab
    exact hf a

/-- Tests that come out alike, and programs in step either way. -/
lemma ite_iff {c c' : Prop} [Decidable c] [Decidable c'] (hc : c ↔ c') {p' : Prog Resp α}
    {q' : Prog Resp α'} (hp : c → Lockstep A R p q) (hq : ¬ c → Lockstep A R p' q') :
    Lockstep A R (if c then p else p') (if c' then q else q') := by
  by_cases h : c
  · rw [if_pos h, if_pos (hc.mp h)]
    exact hp h
  · rw [if_neg h, if_neg (hc.not.mp h)]
    exact hq h

lemma ite {c : Prop} [Decidable c] {p' : Prog Resp α} {q' : Prog Resp α'}
    (hp : c → Lockstep A R p q) (hq : ¬ c → Lockstep A R p' q') :
    Lockstep A R (if c then p else p') (if c then q else q') :=
  ite_iff Iff.rfl hp hq

/-- Both turns go on, in related states, or both leave the loop. -/
inductive Turns (I : σ → σ' → Prop) (R : β → β' → Prop) : Loop σ β → Loop σ' β' → Prop
  | next {s : σ} {s' : σ'} (h : I s s') : Turns I R (.next s) (.next s')
  | done {b : β} {b' : β'} (h : R b b') : Turns I R (.done b) (.done b')

/-- Loops in step, from turns in step. -/
theorem iterate {I : σ → σ' → Prop} {R : β → β' → Prop} {body : σ → Prog Resp (Loop σ β)}
    {body' : σ' → Prog Resp (Loop σ' β')}
    (turn : ∀ s s', I s s' → Lockstep A (Turns I R) (body s) (body' s'))
    (n : ℕ) {s : σ} {s' : σ'} (h : I s s') :
    Lockstep A R (iterate body n s) (iterate body' n s') := by
  induction n generalizing s s' with
  | zero => exact .stop
  | succ n ih =>
    refine (turn s s' h).bind fun l l' hl => ?_
    cases hl with
    | next h => exact ih h
    | done h => exact .ret h

/-! ### Runs in step -/

lemma runs {t : List (Ev Resp)} {a : α} (h : Lockstep A R p q) (ht : ∀ e ∈ t, A e)
    (hr : Runs p t a) : ∃ b, Runs q t b ∧ R a b := by
  induction hr generalizing q with
  | ret a =>
    cases h with
    | ret h => exact ⟨_, .ret _, h⟩
  | @call o k r t a _ ih =>
    cases h with
    | call h =>
      have hA : A ⟨o, r⟩ := ht _ (List.mem_cons_self ..)
      obtain ⟨b, hb, hab⟩ := ih (h r hA) fun e he => ht e (List.mem_cons_of_mem _ he)
      exact ⟨b, .call r hb, hab⟩

lemma issues {t : List (Ev Resp)} {o : Op} (h : Lockstep A R p q) (ht : ∀ e ∈ t, A e)
    (hi : Issues p t o) : Issues q t o := by
  induction h generalizing t with
  | ret h => exact (not_issues_ret hi).elim
  | @call o' k k' h ih =>
    rcases issues_call.mp hi with ⟨rfl, rfl⟩ | ⟨r, t', rfl, hi'⟩
    · exact issues_call.mpr (.inl ⟨rfl, rfl⟩)
    · have hA : A ⟨o', r⟩ := ht _ (List.mem_cons_self ..)
      have ih' := ih r hA (fun e he => ht e (List.mem_cons_of_mem _ he)) hi'
      exact issues_call.mpr (.inr ⟨r, t', rfl, ih'⟩)
  | stop => exact (not_issues_stop hi).elim

lemma issues_iff {t : List (Ev Resp)} {o : Op} (h : Lockstep A R p q) (ht : ∀ e ∈ t, A e) :
    Issues p t o ↔ Issues q t o :=
  ⟨h.issues ht, h.symm.issues ht⟩

end Lockstep

end AmlogicUpdate.Interaction

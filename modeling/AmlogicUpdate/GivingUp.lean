import Mathlib.Data.List.Infix
import AmlogicUpdate.TwoKinds

/-!
Where programs use up the turns of a loop.

A loop is given a number of turns here, and the loop it stands for has none. `GivesUp S p` says that
the turns are used up only in histories with the property `S`. Where no history has it the number
makes no difference, and the program ends whatever it is answered.
-/

namespace AmlogicUpdate.Interaction

open Prog

variable {Op Op' : Type} {Resp : Op → Type} {Resp' : Op' → Type} {α β σ : Type}

/-- The turns of a loop are used up only where `S` holds. -/
def GivesUp (S : List (Ev Resp) → Prop) (p : Prog Resp α) : Prop := ∀ t, Steps p t .stop → S t

/-- What holds of a history holds of it after another. -/
def Lasts (S : List (Ev Resp) → Prop) : Prop := ∀ t₁ t₂, S t₂ → S (t₁ ++ t₂)

section GivesUp

variable {S S' : List (Ev Resp) → Prop} {p : Prog Resp α}

lemma givesUp_ret (a : α) : GivesUp S (.ret a : Prog Resp α) := by
  intro t hs
  simp [steps_ret] at hs

lemma GivesUp.mono (hp : GivesUp S p) (hS : ∀ t, S t → S' t) : GivesUp S' p :=
  fun t hs => hS t (hp t hs)

/-- What always returns uses up no turns. -/
lemma givesUp_of_returns (hp : Returns p) : GivesUp S p := by
  induction p generalizing S with
  | ret a => exact givesUp_ret a
  | call o k ih =>
    intro t hs
    rcases steps_call.mp hs with ⟨-, he⟩ | ⟨r, t', rfl, h⟩
    · simp at he
    · have hend : GivesUp (fun t' => S (⟨o, r⟩ :: t')) (k r) := ih r (hp r)
      exact hend t' h
  | stop => exact hp.elim

lemma givesUp_bind (hS : Lasts S) {f : α → Prog Resp β} (hp : GivesUp S p)
    (hf : ∀ t a, Runs p t a → GivesUp S (f a)) : GivesUp S (p >>= f) := by
  intro t hs
  rcases steps_bind hs with ⟨q, hq, he⟩ | ⟨a, t₁, t₂, rfl, h₁, h₂⟩
  · cases q with
    | ret a =>
      have hr := runs_iff_steps.mpr hq
      refine (List.append_nil t).symm ▸ hS t [] (hf t a hr [] ?_)
      rw [he]
      exact .refl _
    | call o k => simp at he
    | stop => exact hp t hq
  · exact hS t₁ t₂ (hf t₁ a h₁ t₂ h₂)

lemma givesUp_ite {c : Prop} [Decidable c] {q : Prog Resp α} (hp : c → GivesUp S p)
    (hq : ¬ c → GivesUp S q) :
    GivesUp S (if c then p else q) := by
  split
  · next h => exact hp h
  · next h => exact hq h

/-! ### Loops -/

section Loop

variable {body : σ → Prog Resp (Loop σ β)}

/-- A turn that goes on had something left to do. -/
lemma runs_while {c : Prop} [Decidable c] {q : Prog Resp (Loop σ β)} {b : β} {t : List (Ev Resp)}
    {s' : σ} (hr : Runs (if c then q else .ret (.done b)) t (.next s')) :
    c ∧ Runs q t (.next s') := by
  split_ifs at hr with hc
  · exact ⟨hc, hr⟩
  · cases (runs_ret.mp hr).2

/-- A turn that goes on was not left early. -/
lemma runs_unless {c : Prop} [Decidable c] {q : Prog Resp (Loop σ β)} {b : β} {t : List (Ev Resp)}
    {s' : σ} (hr : Runs (if c then .ret (.done b) else q) t (.next s')) :
    ¬ c ∧ Runs q t (.next s') := by
  split_ifs at hr with hc
  · cases (runs_ret.mp hr).2
  · exact ⟨hc, hr⟩

/-- A turn that goes on got past a check. -/
lemma runs_checked {c : α → Prop} [DecidablePred c] {b : α → β} {p : Prog Resp α}
    {f : α → Prog Resp (Loop σ β)} {t : List (Ev Resp)} {s' : σ}
    (hr : Runs (p >>= fun a => if c a then .ret (.done (b a)) else f a) t (.next s')) :
    ∃ a t₁ t₂, t = t₁ ++ t₂ ∧ Runs p t₁ a ∧ ¬ c a ∧ Runs (f a) t₂ (.next s') := by
  obtain ⟨a, t₁, t₂, rfl, h₁, h₂⟩ := runs_bind.mp hr
  obtain ⟨hc, h₂⟩ := runs_unless h₂
  exact ⟨a, t₁, t₂, rfl, h₁, hc, h₂⟩

/-- Turns used up: in the middle of one, or at the end of a first one and those after it. -/
lemma steps_iterate_stop {n : ℕ} {s : σ} {t : List (Ev Resp)}
    (h : Steps (iterate body (n + 1) s) t .stop) :
    Steps (body s) t .stop ∨ ∃ s' t₁ t₂, t = t₁ ++ t₂ ∧ Runs (body s) t₁ (.next s') ∧
      Steps (iterate body n s') t₂ .stop := by
  rcases steps_bind h with ⟨q, hq, he⟩ | ⟨l, t₁, t₂, rfl, h₁, h₂⟩
  · cases q with
    | ret l =>
      rw [ret_bind] at he
      cases l with
      | next s' =>
        refine .inr ⟨s', t, [], (List.append_nil t).symm, runs_iff_steps.mpr hq, ?_⟩
        rw [he]
        exact .refl _
      | done b => cases he
    | call o k => simp at he
    | stop => exact .inl hq
  · cases l with
    | next s' => exact .inr ⟨s', t₁, t₂, rfl, h₁, h₂⟩
    | done b => simp [steps_ret] at h₂

/-- A loop whose turns decrease `μ` does not use up `μ + 1` of them. -/
theorem givesUp_iterate (hS : Lasts S) {I : σ → Prop} {μ : σ → ℕ}
    (turn : ∀ s, I s → GivesUp S (body s))
    (next : ∀ s t s', I s → Runs (body s) t (.next s') → I s' ∧ μ s' < μ s) {n : ℕ} {s : σ}
    (hI : I s) (hn : μ s < n) : GivesUp S (iterate body n s) := by
  induction n generalizing s with
  | zero => omega
  | succ n ih =>
    intro t hs
    rcases steps_iterate_stop hs with h | ⟨s', t₁, t₂, rfl, h₁, h₂⟩
    · exact turn s hI t h
    · obtain ⟨hI', hμ⟩ := next _ _ _ hI h₁
      exact hS t₁ t₂ (ih hI' (by omega) t₂ h₂)

/-- A loop that makes a call of some kind in each turn has made it in each of those it used up. -/
theorem givesUp_iterate_counted {c : Ev Resp → Bool} (turn : ∀ s, Returns (body s))
    (next : ∀ s t s', Runs (body s) t (.next s') → ∃ e ∈ t, c e) {n : ℕ} {s : σ} :
    GivesUp (fun t => n ≤ t.countP c) (iterate body n s) := by
  induction n generalizing s with
  | zero => exact fun t _ => Nat.zero_le _
  | succ n ih =>
    intro t hs
    rcases steps_iterate_stop hs with h | ⟨s', t₁, t₂, rfl, h₁, h₂⟩
    · exact (givesUp_of_returns (S := fun _ => False) (turn s) t h).elim
    · have hle : n ≤ t₂.countP c := ih t₂ h₂
      have hpos : 0 < t₁.countP c := List.countP_pos_iff.mpr (next _ _ _ h₁)
      rw [List.countP_append]
      omega

/-- A loop that reads the clock at the end of each turn, and begins none after `deadline`, has read
it as often as it had turns without getting there. -/
theorem givesUp_iterate_timed {read : Ev Resp → Option ℤ} {now : σ → ℤ} {deadline : ℤ}
    (turn : ∀ s, Returns (body s))
    (next : ∀ s t s', Runs (body s) t (.next s') →
      now s < deadline ∧ t.filterMap read = [now s']) {n : ℕ} {s : σ} :
    GivesUp (fun t => ∃ cs, cs <+: now s :: t.filterMap read ∧ cs.length = n ∧
      ∀ c ∈ cs, c < deadline)
      (iterate body n s) := by
  induction n generalizing s with
  | zero => exact fun t _ => ⟨[], List.nil_prefix, rfl, by simp⟩
  | succ n ih =>
    intro t hs
    rcases steps_iterate_stop hs with h | ⟨s', t₁, t₂, rfl, h₁, h₂⟩
    · exact (givesUp_of_returns (S := fun _ => False) (turn s) t h).elim
    · obtain ⟨hlt, hread⟩ := next _ _ _ h₁
      obtain ⟨cs, hcs, hlen, hall⟩ := ih t₂ h₂
      refine ⟨now s :: cs, ?_, congrArg _ hlen, List.forall_mem_cons.mpr ⟨hlt, hall⟩⟩
      rw [List.filterMap_append, hread, List.singleton_append]
      exact List.cons_prefix_cons.mpr ⟨rfl, hcs⟩

end Loop

end GivesUp

/-! ### Programs as parts of others -/

lemma steps_left_stop {p : Prog Resp α} {t : List (Ev (Either Resp Resp'))}
    (h : Steps (left p : Prog (Either Resp Resp') α) t .stop) :
    ∃ u, t = u.map leftEv ∧ Steps p u .stop := by
  induction p generalizing t with
  | ret a => simp [left, steps_ret] at h
  | call o k ih =>
    rcases steps_call.mp h with ⟨-, he⟩ | ⟨r, t', rfl, h'⟩
    · simp at he
    · obtain ⟨u, rfl, hu⟩ := ih r h'
      exact ⟨⟨o, r⟩ :: u, rfl, steps_call_cons.mpr hu⟩
  | stop =>
    obtain ⟨rfl, -⟩ := steps_stop.mp h
    exact ⟨[], rfl, .refl _⟩

lemma givesUp_left {S : List (Ev Resp) → Prop} {p : Prog Resp α} (hp : GivesUp S p) :
    GivesUp (fun t => S (lefts t)) (left p : Prog (Either Resp Resp') α) := by
  intro t hs
  obtain ⟨u, rfl, hu⟩ := steps_left_stop hs
  rw [lefts_map]
  exact hp u hu

/-! ### One particular environment -/

/-- What has happened by the time the turns of a loop are used up, if that is where the answers
lead. -/
def givenUp (answer : List (Ev Resp) → (o : Op) → Option (Resp o)) :
    List (Ev Resp) → Prog Resp α → Option (List (Ev Resp))
  | _, .ret _ => none
  | h, .call o k => match answer h o with
    | some r => givenUp answer (h ++ [⟨o, r⟩]) (k r)
    | none => none
  | h, .stop => some h

lemma givenUp_steps {answer : List (Ev Resp) → (o : Op) → Option (Resp o)} {p : Prog Resp α}
    {h t : List (Ev Resp)} (hg : givenUp answer h p = some t) :
    ∃ u, t = h ++ u ∧ Steps p u .stop := by
  induction p generalizing h with
  | ret a => cases hg
  | call o k ih =>
    rw [givenUp] at hg
    split at hg
    · next r hr =>
      obtain ⟨u, rfl, hu⟩ := ih r hg
      exact ⟨⟨o, r⟩ :: u, by rw [List.append_assoc]; rfl, .call r hu⟩
    · cases hg
  | stop =>
    obtain rfl := Option.some.inj hg
    exact ⟨[], (List.append_nil h).symm, .refl _⟩

end AmlogicUpdate.Interaction

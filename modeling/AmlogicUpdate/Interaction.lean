import Mathlib.Tactic.Common
import Mathlib.Data.List.Basic

/-!
Programs that talk to an environment, as trees of calls.

A program either returns, or makes a call and goes on with the answer, or has used up the
turns of a loop. What a program does is read off in four ways: the runs that return
(`Runs`), the points it can get to (`Steps`, `Issues`), the property every run keeps
(`Sat`), and the outcome against one particular environment (`exec`). The loop rules are
the induction principles of the development.
-/

namespace AmlogicUpdate.Interaction

/-- A program over the calls `Op`, the answers to a call `o` being those of `Resp o`. -/
inductive Prog {Op : Type} (Resp : Op → Type) (α : Type) : Type
  | ret (a : α)
  | call (o : Op) (k : Resp o → Prog Resp α)
  | stop

variable {Op : Type} {Resp : Op → Type} {α β γ σ : Type}

namespace Prog

def bind : Prog Resp α → (α → Prog Resp β) → Prog Resp β
  | .ret a, f => f a
  | .call o k, f => .call o fun r => (k r).bind f
  | .stop, _ => .stop

instance : Monad (Prog Resp) where
  pure := .ret
  bind := bind

@[simp] lemma ret_bind (a : α) (f : α → Prog Resp β) : (ret a >>= f) = f a := rfl
@[simp] lemma call_bind (o : Op) (k : Resp o → Prog Resp α) (f : α → Prog Resp β) :
    (call o k >>= f) = call o fun r => k r >>= f := rfl
@[simp] lemma stop_bind (f : α → Prog Resp β) : ((stop : Prog Resp α) >>= f) = stop := rfl
@[simp] lemma pure_eq_ret (a : α) : (pure a : Prog Resp α) = ret a := rfl

lemma bind_ret (p : Prog Resp α) : (p >>= fun a => ret a) = p := by
  induction p with
  | ret a => rfl
  | call o k ih => simp only [call_bind, ih]
  | stop => rfl

lemma assoc (p : Prog Resp α) (f : α → Prog Resp β) (g : β → Prog Resp γ) :
    ((p >>= f) >>= g) = p >>= fun a => f a >>= g := by
  induction p with
  | ret a => rfl
  | call o k ih => simp only [call_bind, ih]
  | stop => rfl

instance : LawfulMonad (Prog Resp) :=
  LawfulMonad.mk' (Prog Resp) (fun p => bind_ret p) (fun _ _ => rfl) assoc

/-- A single call. -/
def perform (o : Op) : Prog Resp (Resp o) := .call o .ret

@[simp] lemma perform_bind (o : Op) (f : Resp o → Prog Resp β) :
    (perform o >>= f) = call o f := rfl

end Prog

open Prog

/-- A call with its answer. -/
abbrev Ev (Resp : Op → Type) : Type := (o : Op) × Resp o

/-! ### Runs -/

/-- `Runs p t a`: answered as in `t`, the program returns `a`. -/
inductive Runs : Prog Resp α → List (Ev Resp) → α → Prop
  | ret (a : α) : Runs (.ret a) [] a
  | call {o : Op} {k : Resp o → Prog Resp α} (r : Resp o) {t : List (Ev Resp)} {a : α}
      (h : Runs (k r) t a) : Runs (.call o k) (⟨o, r⟩ :: t) a

@[simp] lemma runs_ret {a b : α} {t : List (Ev Resp)} :
    Runs (.ret a) t b ↔ t = [] ∧ b = a := by
  constructor
  · rintro ⟨⟩; exact ⟨rfl, rfl⟩
  · rintro ⟨rfl, rfl⟩; exact .ret _

@[simp] lemma runs_call {o : Op} {k : Resp o → Prog Resp α} {t : List (Ev Resp)} {a : α} :
    Runs (.call o k) t a ↔ ∃ r t', t = ⟨o, r⟩ :: t' ∧ Runs (k r) t' a := by
  constructor
  · rintro (_ | @⟨_, _, r, t', _, h⟩); exact ⟨r, t', rfl, h⟩
  · rintro ⟨r, t', rfl, h⟩; exact .call r h

@[simp] lemma not_runs_stop {t : List (Ev Resp)} {a : α} : ¬ Runs (.stop : Prog Resp α) t a :=
  nofun

lemma runs_bind {p : Prog Resp α} {f : α → Prog Resp β} {t : List (Ev Resp)} {b : β} :
    Runs (p >>= f) t b ↔ ∃ a t₁ t₂, t = t₁ ++ t₂ ∧ Runs p t₁ a ∧ Runs (f a) t₂ b := by
  induction p generalizing t with
  | ret a =>
    simp only [ret_bind, runs_ret]
    constructor
    · intro h; exact ⟨a, [], t, rfl, ⟨rfl, rfl⟩, h⟩
    · rintro ⟨_, _, t₂, rfl, ⟨rfl, rfl⟩, h⟩; exact h
  | call o k ih =>
    simp only [call_bind, runs_call, ih]
    constructor
    · rintro ⟨r, _, rfl, a, t₁, t₂, rfl, h₁, h₂⟩
      exact ⟨a, ⟨o, r⟩ :: t₁, t₂, rfl, ⟨r, t₁, rfl, h₁⟩, h₂⟩
    · rintro ⟨a, _, t₂, rfl, ⟨r, t₁, rfl, h₁⟩, h₂⟩
      exact ⟨r, t₁ ++ t₂, rfl, a, t₁, t₂, rfl, h₁, h₂⟩
  | stop => simp

/-- The answers determine the run. -/
theorem Runs.unique {p : Prog Resp α} {t : List (Ev Resp)} {a b : α} (h : Runs p t a)
    (h' : Runs p t b) : a = b := by
  induction h with
  | ret a => exact (runs_ret.mp h').2.symm
  | call r _ ih =>
    obtain ⟨r', t', he, h''⟩ := runs_call.mp h'
    injection he with h₁ h₂
    injection h₁ with _ hr
    subst hr h₂
    exact ih h''

/-- What comes after a part, its run known. -/
lemma Runs.bind_iff {p : Prog Resp α} {f : α → Prog Resp β} {t t' : List (Ev Resp)} {a : α} {b : β}
    (h : Runs p t a) : Runs (p >>= f) (t ++ t') b ↔ Runs (f a) t' b := by
  induction h with
  | ret a => rfl
  | @call o k r t a _ ih =>
    rw [call_bind, List.cons_append, runs_call, ← ih]
    constructor
    · rintro ⟨r', u, he, hr⟩
      obtain ⟨rfl, rfl⟩ : r = r' ∧ t ++ t' = u := by simpa using he
      exact hr
    · exact fun hr => ⟨r, _, rfl, hr⟩

/-- A program answered alike goes through the same run, whatever is left out of the calls. -/
lemma Runs.trace_eq {γ : Type} {f : Ev Resp → γ}
    (hf : ∀ o (r r' : Resp o), f ⟨o, r⟩ = f ⟨o, r'⟩ → r = r') {p : Prog Resp α}
    {t t' : List (Ev Resp)} {a a' : α} (h : Runs p t a) (h' : Runs p t' a')
    (ht : t.map f = t'.map f) : t = t' := by
  induction h generalizing t' with
  | ret a => rw [(runs_ret.mp h').1]
  | call r _ ih =>
    obtain ⟨r', u, rfl, hr⟩ := runs_call.mp h'
    rw [List.map_cons, List.map_cons, List.cons.injEq] at ht
    obtain rfl := hf _ _ _ ht.1
    rw [ih hr ht.2]

/-! ### Points a run gets to -/

/-- `Steps p t q`: answered as in `t`, the program has become `q`. -/
inductive Steps : Prog Resp α → List (Ev Resp) → Prog Resp α → Prop
  | refl (p : Prog Resp α) : Steps p [] p
  | call {o : Op} {k : Resp o → Prog Resp α} (r : Resp o) {t : List (Ev Resp)}
      {q : Prog Resp α} (h : Steps (k r) t q) : Steps (.call o k) (⟨o, r⟩ :: t) q

/-- After the answers `t` the program makes the call `o`. -/
def Issues (p : Prog Resp α) (t : List (Ev Resp)) (o : Op) : Prop :=
  ∃ k, Steps p t (.call o k)

lemma steps_ret {a : α} {t : List (Ev Resp)} {q : Prog Resp α} :
    Steps (.ret a) t q ↔ t = [] ∧ q = .ret a := by
  constructor
  · rintro ⟨⟩; exact ⟨rfl, rfl⟩
  · rintro ⟨rfl, rfl⟩; exact .refl _

lemma steps_stop {t : List (Ev Resp)} {q : Prog Resp α} :
    Steps (.stop : Prog Resp α) t q ↔ t = [] ∧ q = .stop := by
  constructor
  · rintro ⟨⟩; exact ⟨rfl, rfl⟩
  · rintro ⟨rfl, rfl⟩; exact .refl _

lemma steps_call {o : Op} {k : Resp o → Prog Resp α} {t : List (Ev Resp)}
    {q : Prog Resp α} :
    Steps (.call o k) t q ↔
      (t = [] ∧ q = .call o k) ∨ ∃ r t', t = ⟨o, r⟩ :: t' ∧ Steps (k r) t' q := by
  constructor
  · rintro (_ | @⟨_, _, r, t', _, h⟩)
    · exact .inl ⟨rfl, rfl⟩
    · exact .inr ⟨r, t', rfl, h⟩
  · rintro (⟨rfl, rfl⟩ | ⟨r, t', rfl, h⟩)
    · exact .refl _
    · exact .call r h

lemma steps_call_cons {o : Op} {k : Resp o → Prog Resp α} {r : Resp o} {t : List (Ev Resp)}
    {q : Prog Resp α} : Steps (.call o k) (⟨o, r⟩ :: t) q ↔ Steps (k r) t q := by
  rw [steps_call]
  constructor
  · rintro (⟨h, -⟩ | ⟨r', t', he, h⟩)
    · exact nomatch h
    · obtain ⟨rfl, rfl⟩ : r = r' ∧ t = t' := by simpa using he
      exact h
  · exact fun h => .inr ⟨r, t, rfl, h⟩

lemma runs_iff_steps {p : Prog Resp α} {t : List (Ev Resp)} {a : α} :
    Runs p t a ↔ Steps p t (.ret a) := by
  induction p generalizing t with
  | ret b => simp only [runs_ret, steps_ret, Prog.ret.injEq]
  | call o k ih => simp [steps_call, ih]
  | stop => simp [steps_stop]

lemma Steps.trans {p q q' : Prog Resp α} {t t' : List (Ev Resp)} (h : Steps p t q)
    (h' : Steps q t' q') : Steps p (t ++ t') q' := by
  induction h with
  | refl p => exact h'
  | call r _ ih => exact .call r (ih h')

/-- A point inside a sequence lies in its first part, or past it. -/
lemma steps_bind {p : Prog Resp α} {f : α → Prog Resp β} {t : List (Ev Resp)}
    {q : Prog Resp β} (h : Steps (p >>= f) t q) :
    (∃ p', Steps p t p' ∧ q = p' >>= f) ∨
      ∃ a t₁ t₂, t = t₁ ++ t₂ ∧ Runs p t₁ a ∧ Steps (f a) t₂ q := by
  induction p generalizing t with
  | ret a => exact .inr ⟨a, [], t, rfl, .ret a, h⟩
  | call o k ih =>
    rcases steps_call.mp h with ⟨rfl, rfl⟩ | ⟨r, t', rfl, h'⟩
    · exact .inl ⟨_, .refl _, rfl⟩
    · rcases ih r h' with ⟨p', hp, rfl⟩ | ⟨a, t₁, t₂, rfl, h₁, h₂⟩
      · exact .inl ⟨p', .call r hp, rfl⟩
      · exact .inr ⟨a, _, t₂, rfl, .call r h₁, h₂⟩
  | stop =>
    obtain ⟨rfl, rfl⟩ := steps_stop.mp h
    exact .inl ⟨.stop, .refl _, rfl⟩

/-- The call a sequence makes is made by its first part, or past it. -/
lemma steps_bind_call {p : Prog Resp α} {f : α → Prog Resp β} {t : List (Ev Resp)} {o : Op}
    {k : Resp o → Prog Resp β} (h : Steps (p >>= f) t (.call o k)) :
    (∃ k', Steps p t (.call o k') ∧ k = fun r => k' r >>= f) ∨
      ∃ a t₁ t₂, t = t₁ ++ t₂ ∧ Runs p t₁ a ∧ Steps (f a) t₂ (.call o k) := by
  rcases steps_bind h with ⟨p', hp, he⟩ | h'
  · cases p' with
    | ret a => exact .inr ⟨a, t, [], by simp, runs_iff_steps.mpr hp, by rw [he]; exact .refl _⟩
    | call o' k' =>
      rw [call_bind] at he
      injection he with h₁ h₂
      subst h₁
      exact .inl ⟨k', hp, eq_of_heq h₂⟩
    | stop => simp at he
  · exact .inr h'

lemma issues_bind {p : Prog Resp α} {f : α → Prog Resp β} {t : List (Ev Resp)} {o : Op}
    (h : Issues (p >>= f) t o) :
    Issues p t o ∨ ∃ a t₁ t₂, t = t₁ ++ t₂ ∧ Runs p t₁ a ∧ Issues (f a) t₂ o := by
  obtain ⟨k, hk⟩ := h
  rcases steps_bind_call hk with ⟨k', h', -⟩ | ⟨a, t₁, t₂, rfl, h₁, h₂⟩
  · exact .inl ⟨k', h'⟩
  · exact .inr ⟨a, t₁, t₂, rfl, h₁, k, h₂⟩

lemma not_issues_ret {a : α} {t : List (Ev Resp)} {o : Op} :
    ¬ Issues (.ret a : Prog Resp α) t o := by
  rintro ⟨k, h⟩; simp [steps_ret] at h

lemma not_issues_stop {t : List (Ev Resp)} {o : Op} :
    ¬ Issues (.stop : Prog Resp α) t o := by
  rintro ⟨k, h⟩; simp [steps_stop] at h

lemma issues_call {o o' : Op} {k : Resp o → Prog Resp α} {t : List (Ev Resp)} :
    Issues (.call o k) t o' ↔
      (t = [] ∧ o' = o) ∨ ∃ r t', t = ⟨o, r⟩ :: t' ∧ Issues (k r) t' o' := by
  constructor
  · rintro ⟨k', h⟩
    rcases steps_call.mp h with ⟨rfl, he⟩ | ⟨r, t', rfl, h'⟩
    · injection he with h₁; exact .inl ⟨rfl, h₁⟩
    · exact .inr ⟨r, t', rfl, k', h'⟩
  · rintro (⟨rfl, rfl⟩ | ⟨r, t', rfl, k', h⟩)
    · exact ⟨k, .refl _⟩
    · exact ⟨k', .call r h⟩

/-- Every call of a run was issued after the answers before it. -/
lemma Runs.issues {p : Prog Resp α} {t t' : List (Ev Resp)} {e : Ev Resp} {a : α}
    (h : Runs p (t ++ e :: t') a) : Issues p t e.1 := by
  induction p generalizing t with
  | ret b => simp at h
  | call o k ih =>
    obtain ⟨r, t₁, he, hk⟩ := runs_call.mp h
    rw [issues_call]
    cases t with
    | nil => injection he with h₁ _; subst h₁; exact .inl ⟨rfl, rfl⟩
    | cons e' t =>
      injection he with h₁ h₂
      subst h₁ h₂
      exact .inr ⟨r, t, rfl, ih r hk⟩
  | stop => simp at h

/-- So was every call on the way to a point. -/
lemma Steps.issues {p q : Prog Resp α} {t t' : List (Ev Resp)} {e : Ev Resp}
    (h : Steps p (t ++ e :: t') q) : Issues p t e.1 := by
  induction t generalizing p with
  | nil =>
    cases h with
    | call r h => exact ⟨_, .refl _⟩
  | cons e' t ih =>
    cases h with
    | call r h =>
      obtain ⟨k, hk⟩ := ih h
      exact ⟨k, .call r hk⟩

lemma Issues.bind {p : Prog Resp α} {t : List (Ev Resp)} {o : Op} (h : Issues p t o)
    (f : α → Prog Resp β) : Issues (p >>= f) t o := by
  induction p generalizing t with
  | ret a => exact (not_issues_ret h).elim
  | call o' k ih =>
    rcases issues_call.mp h with ⟨rfl, rfl⟩ | ⟨r, t', rfl, h'⟩
    · exact issues_call.mpr (.inl ⟨rfl, rfl⟩)
    · exact issues_call.mpr (.inr ⟨r, t', rfl, ih r h'⟩)
  | stop => exact (not_issues_stop h).elim

lemma Runs.steps_bind {p : Prog Resp α} {t t' : List (Ev Resp)} {a : α} {f : α → Prog Resp β}
    {q : Prog Resp β} (h : Runs p t a) (h' : Steps (f a) t' q) : Steps (p >>= f) (t ++ t') q := by
  induction h with
  | ret a => exact h'
  | call r _ ih => exact .call r (ih h')

lemma Runs.issues_bind {p : Prog Resp α} {t t' : List (Ev Resp)} {a : α} {o : Op}
    {f : α → Prog Resp β} (h : Runs p t a) (h' : Issues (f a) t' o) :
    Issues (p >>= f) (t ++ t') o := by
  obtain ⟨k, hk⟩ := h'
  exact ⟨k, h.steps_bind hk⟩

/-- What is left of a program starts with the part `q`. -/
def Begins (p : Prog Resp β) (q : Prog Resp α) : Prop := ∃ K, p = q >>= K

lemma Begins.refl (p : Prog Resp α) : Begins p p := ⟨.ret, (bind_ret p).symm⟩

lemma Begins.bind {p : Prog Resp β} {q : Prog Resp α} (h : Begins p q) (f : β → Prog Resp γ) :
    Begins (p >>= f) q := by
  obtain ⟨K, rfl⟩ := h
  exact ⟨_, Prog.assoc q K f⟩

/-! ### Properties kept by every run -/

/-- With the history `h` behind it, the program only makes calls that `G` allows, only returns
with what `Q` asks for, and uses up the turns of a loop only where `S` holds. -/
def Keeps (S : List (Ev Resp) → Prop) (G : List (Ev Resp) → Op → Prop)
    (Q : List (Ev Resp) → α → Prop) : List (Ev Resp) → Prog Resp α → Prop
  | h, .ret a => Q h a
  | h, .call o k => G h o ∧ ∀ r, Keeps S G Q (h ++ [⟨o, r⟩]) (k r)
  | h, .stop => S h

/-- The same, wherever turns are used up. -/
abbrev Sat (G : List (Ev Resp) → Op → Prop) (Q : List (Ev Resp) → α → Prop) :
    List (Ev Resp) → Prog Resp α → Prop := Keeps (fun _ => True) G Q

section Keeps

variable {S : List (Ev Resp) → Prop} {G G' : List (Ev Resp) → Op → Prop}
  {Q Q' : List (Ev Resp) → α → Prop} {h : List (Ev Resp)}

@[simp] lemma keeps_ret {a : α} : Keeps S G Q h (.ret a) ↔ Q h a := Iff.rfl
@[simp] lemma keeps_call {o : Op} {k : Resp o → Prog Resp α} :
    Keeps S G Q h (.call o k) ↔ G h o ∧ ∀ r, Keeps S G Q (h ++ [⟨o, r⟩]) (k r) := Iff.rfl
@[simp] lemma keeps_stop : Keeps S G Q h .stop ↔ S h := Iff.rfl

lemma keeps_bind {p : Prog Resp α} {f : α → Prog Resp β} {Q : List (Ev Resp) → β → Prop} :
    Keeps S G Q h (p >>= f) ↔ Keeps S G (fun h' a => Keeps S G Q h' (f a)) h p := by
  induction p generalizing h with
  | ret a => rfl
  | call o k ih => simp only [call_bind, keeps_call, ih]
  | stop => rfl

lemma keeps_ite {c : Prop} [Decidable c] {p q : Prog Resp α} (hp : c → Keeps S G Q h p)
    (hq : ¬ c → Keeps S G Q h q) : Keeps S G Q h (if c then p else q) := by
  split
  · next hc => exact hp hc
  · next hc => exact hq hc

@[simp] lemma sat_ret {a : α} : Sat G Q h (.ret a) ↔ Q h a := Iff.rfl
@[simp] lemma sat_call {o : Op} {k : Resp o → Prog Resp α} :
    Sat G Q h (.call o k) ↔ G h o ∧ ∀ r, Sat G Q (h ++ [⟨o, r⟩]) (k r) := Iff.rfl

lemma sat_bind {p : Prog Resp α} {f : α → Prog Resp β} {Q : List (Ev Resp) → β → Prop} :
    Sat G Q h (p >>= f) ↔ Sat G (fun h' a => Sat G Q h' (f a)) h p := keeps_bind

lemma Keeps.mono {p : Prog Resp α} (hp : Keeps S G Q h p) (hQ : ∀ h' a, Q h' a → Q' h' a) :
    Keeps S G Q' h p := by
  induction p generalizing h with
  | ret a => exact hQ _ _ hp
  | call o k ih => exact ⟨hp.1, fun r => ih r (hp.2 r)⟩
  | stop => exact hp

lemma Keeps.weaken {p : Prog Resp α} (hp : Keeps S G Q h p) (hG : ∀ h' o, G h' o → G' h' o) :
    Keeps S G' Q h p := by
  induction p generalizing h with
  | ret a => exact hp
  | call o k ih => exact ⟨hG _ _ hp.1, fun r => ih r (hp.2 r)⟩
  | stop => exact hp

/-- A second property of the same program adds to what is known at its end. -/
lemma Keeps.and {S' : List (Ev Resp) → Prop} {p : Prog Resp α} (hp : Keeps S G Q h p)
    (hp' : Keeps S' G' Q' h p) : Keeps S G (fun h' a => Q h' a ∧ Q' h' a) h p := by
  induction p generalizing h with
  | ret a => exact ⟨hp, hp'⟩
  | call o k ih => exact ⟨hp.1, fun r => ih r (hp.2 r) (hp'.2 r)⟩
  | stop => exact hp

/-- The history only grows. -/
lemma keeps_grows (p : Prog Resp α) (h : List (Ev Resp)) :
    Sat (fun _ _ => True) (fun h' _ => h <+: h') h p := by
  induction p generalizing h with
  | ret a => exact List.prefix_rfl
  | call o k ih =>
    refine ⟨trivial, fun r => (ih r (h ++ [⟨o, r⟩])).mono fun h' _ hp => ?_⟩
    exact (List.prefix_append h _).trans hp
  | stop => trivial

/-- `Keeps` speaks about the calls issued, the results of runs, and the points given up at. -/
theorem keeps_iff {p : Prog Resp α} :
    Keeps S G Q h p ↔
      (∀ t o, Issues p t o → G (h ++ t) o) ∧ (∀ t a, Runs p t a → Q (h ++ t) a) ∧
        ∀ t, Steps p t .stop → S (h ++ t) := by
  induction p generalizing h with
  | ret a =>
    simp only [keeps_ret, not_issues_ret, false_implies, implies_true, true_and, runs_ret,
      steps_ret, reduceCtorEq, and_false, and_true]
    constructor
    · rintro hq _ _ ⟨rfl, rfl⟩; simpa using hq
    · intro hq; simpa using hq [] a ⟨rfl, rfl⟩
  | call o k ih =>
    simp only [keeps_call, ih, issues_call, runs_call, steps_call, reduceCtorEq, and_false,
      false_or]
    constructor
    · rintro ⟨hg, hk⟩
      refine ⟨?_, ?_, ?_⟩
      · rintro _ _ (⟨rfl, rfl⟩ | ⟨r, t, rfl, hi⟩)
        · simpa using hg
        · simpa using (hk r).1 t _ hi
      · rintro _ a ⟨r, t, rfl, hr⟩
        simpa using (hk r).2.1 t a hr
      · rintro _ ⟨r, t, rfl, hs⟩
        simpa using (hk r).2.2 t hs
    · rintro ⟨hg, hq, hs⟩
      refine ⟨by simpa using hg [] o (.inl ⟨rfl, rfl⟩), fun r => ⟨?_, ?_, ?_⟩⟩
      · intro t o' hi
        simpa using hg (⟨o, r⟩ :: t) o' (.inr ⟨r, t, rfl, hi⟩)
      · intro t a hr
        simpa using hq (⟨o, r⟩ :: t) a ⟨r, t, rfl, hr⟩
      · intro t hs'
        simpa using hs (⟨o, r⟩ :: t) ⟨r, t, rfl, hs'⟩
  | stop => simp [not_issues_stop, steps_stop]

lemma Keeps.runs {p : Prog Resp α} (hp : Keeps S G Q h p) {t : List (Ev Resp)} {a : α}
    (hr : Runs p t a) : Q (h ++ t) a := (keeps_iff.mp hp).2.1 t a hr

lemma Keeps.issues {p : Prog Resp α} (hp : Keeps S G Q h p) {t : List (Ev Resp)} {o : Op}
    (hi : Issues p t o) : G (h ++ t) o := (keeps_iff.mp hp).1 t o hi

/-- What is allowed of the calls issued holds of every call of a run. -/
lemma Keeps.event {p : Prog Resp α} (hp : Keeps S G Q h p) {t : List (Ev Resp)} {a : α}
    (hr : Runs p t a) {e : Ev Resp} (he : e ∈ t) : ∃ h', G h' e.1 := by
  obtain ⟨t₁, t₂, rfl⟩ := List.append_of_mem he
  exact ⟨_, hp.issues hr.issues⟩

lemma Keeps.stops {p : Prog Resp α} (hp : Keeps S G Q h p) {t : List (Ev Resp)}
    (hs : Steps p t .stop) : S (h ++ t) := (keeps_iff.mp hp).2.2 t hs

/-- A kind of call that is allowed only after fewer than `N` of them is made at most `N` times. -/
lemma Keeps.count_le {c : Op → Bool} {N : ℕ}
    (hG : ∀ h o, G h o → c o → (h.countP fun e => c e.1) < N) {p q : Prog Resp α}
    {t : List (Ev Resp)} (hp : Keeps S G Q h p) (hN : (h.countP fun e => c e.1) ≤ N)
    (hs : Steps p t q) : ((h ++ t).countP fun e => c e.1) ≤ N := by
  induction hs generalizing h with
  | refl p => rwa [List.append_nil]
  | @call o k r t q _ ih =>
    have hnext := hG h o hp.1
    rw [List.append_cons]
    refine ih (hp.2 r) ?_
    rw [List.countP_append, List.countP_singleton]
    dsimp only
    split_ifs with hc
    · exact hnext hc
    · exact hN

end Keeps

/-! ### Loops -/

/-- What one turn of a loop ends with: another turn, or the way out. -/
inductive Loop (σ β : Type) : Type
  | next (s : σ)
  | done (b : β)

/-- After a turn: the invariant if there is another, else what the loop is left with. -/
def Loop.Sat (I : σ → List (Ev Resp) → Prop) (Q : List (Ev Resp) → β → Prop)
    (h : List (Ev Resp)) : Loop σ β → Prop
  | .next s => I s h
  | .done b => Q h b

@[simp] lemma Loop.sat_next {I : σ → List (Ev Resp) → Prop} {Q : List (Ev Resp) → β → Prop}
    {h : List (Ev Resp)} {s : σ} : (Loop.next s).Sat I Q h ↔ I s h := Iff.rfl
@[simp] lemma Loop.sat_done {I : σ → List (Ev Resp) → Prop} {Q : List (Ev Resp) → β → Prop}
    {h : List (Ev Resp)} {b : β} : (Loop.done b : Loop σ β).Sat I Q h ↔ Q h b := Iff.rfl

/-- A loop with `body` as its turn, given up after the number of turns. -/
def iterate (body : σ → Prog Resp (Loop σ β)) : ℕ → σ → Prog Resp β
  | 0, _ => .stop
  | n + 1, s => body s >>= fun
    | .next s' => iterate body n s'
    | .done b => .ret b

section Loop

variable {body : σ → Prog Resp (Loop σ β)} {I : σ → List (Ev Resp) → Prop}

/-- The way out of a loop, from an invariant of its turns. -/
theorem runs_iterate {Q : β → List (Ev Resp) → Prop}
    (next : ∀ s h t s', I s h → Runs (body s) t (.next s') → I s' (h ++ t))
    (done : ∀ s h t b, I s h → Runs (body s) t (.done b) → Q b (h ++ t))
    {n : ℕ} {s : σ} {h t : List (Ev Resp)} {b : β} (hI : I s h)
    (hr : Runs (iterate body n s) t b) : Q b (h ++ t) := by
  induction n generalizing s h t with
  | zero => exact absurd hr not_runs_stop
  | succ n ih =>
    obtain ⟨l, t₁, t₂, rfl, h₁, h₂⟩ := runs_bind.mp hr
    cases l with
    | next s' => simpa using ih (next _ _ _ _ hI h₁) h₂
    | done b' =>
      obtain ⟨rfl, rfl⟩ := runs_ret.mp h₂
      simpa using done _ _ _ _ hI h₁

/-- A loop left in its first turn. -/
lemma runs_iterate_done {n : ℕ} {s : σ} {t : List (Ev Resp)} {b : β}
    (h : Runs (body s) t (.done b)) : Runs (iterate body (n + 1) s) t b :=
  runs_bind.mpr ⟨.done b, t, [], by simp, h, .ret b⟩

/-- What comes of a loop after one of its turns comes of it before. -/
lemma issues_iterate_next {n : ℕ} {s s' : σ} {t t' : List (Ev Resp)} {o : Op}
    {f : β → Prog Resp γ} (h : Runs (body s) t (.next s'))
    (h' : Issues (iterate body n s' >>= f) t' o) :
    Issues (iterate body (n + 1) s >>= f) (t ++ t') o := by
  rw [iterate, Prog.assoc]
  exact h.issues_bind h'

/-- A call inside a loop is made in a turn begun with the invariant. -/
theorem steps_iterate
    (next : ∀ s h t s', I s h → Runs (body s) t (.next s') → I s' (h ++ t))
    {n : ℕ} {s : σ} {h t : List (Ev Resp)} {o : Op} {k : Resp o → Prog Resp β} (hI : I s h)
    (hs : Steps (iterate body n s) t (.call o k)) :
    ∃ s' t₁ t₂ k' K, t = t₁ ++ t₂ ∧ I s' (h ++ t₁) ∧ Steps (body s') t₂ (.call o k') ∧
      k = fun r => k' r >>= K := by
  induction n generalizing s h t with
  | zero => simp [iterate, steps_stop] at hs
  | succ n ih =>
    rcases steps_bind_call hs with ⟨k', h', hk⟩ | ⟨l, t₁, t₂, rfl, h₁, h₂⟩
    · exact ⟨s, [], t, k', _, rfl, by simpa using hI, h', hk⟩
    · cases l with
      | next s' =>
        obtain ⟨s'', u₁, u₂, k', K, rfl, hI', hb, hk⟩ := ih (next _ _ _ _ hI h₁) h₂
        exact ⟨s'', t₁ ++ u₁, u₂, k', K, by simp, by simpa using hI', hb, hk⟩
      | done b => simp [steps_ret] at h₂

section Keeps

variable {S : List (Ev Resp) → Prop} {G : List (Ev Resp) → Op → Prop}
  {Q : List (Ev Resp) → β → Prop} {h : List (Ev Resp)}

/-- The rule of a loop with an invariant. -/
theorem sat_iterate (turn : ∀ s h, I s h → Sat G (fun h' l => l.Sat I Q h') h (body s))
    {n : ℕ} {s : σ} (hI : I s h) : Sat G Q h (iterate body n s) := by
  induction n generalizing s h with
  | zero => trivial
  | succ n ih =>
    rw [iterate, sat_bind]
    refine (turn s h hI).mono fun h' l hl => ?_
    cases l with
    | next s' => exact ih hl
    | done b => exact hl

/-- The rule of a loop whose turns decrease `μ`: it does not use up `μ + 1` turns. -/
theorem keeps_iterate {μ : σ → ℕ}
    (turn : ∀ s h, I s h →
      Keeps S G (fun h' l => l.Sat (fun s' h'' => I s' h'' ∧ μ s' < μ s) Q h') h (body s))
    {n : ℕ} {s : σ} (hI : I s h) (hn : μ s < n) : Keeps S G Q h (iterate body n s) := by
  induction n generalizing s h with
  | zero => omega
  | succ n ih =>
    rw [iterate, keeps_bind]
    refine (turn s h hI).mono fun h' l hl => ?_
    cases l with
    | next s' => exact ih hl.1 (by have := hl.2; omega)
    | done b => exact hl

/-- The rule of a loop that may use up its turns, the invariant counting them. -/
theorem keeps_iterate_out {I : ℕ → σ → List (Ev Resp) → Prop}
    (turn : ∀ i s h, I i s h → Keeps S G (fun h' l => l.Sat (I (i + 1)) Q h') h (body s))
    {n i : ℕ} {s : σ} (out : ∀ s h, I (i + n) s h → S h) (hI : I i s h) :
    Keeps S G Q h (iterate body n s) := by
  induction n generalizing i s h with
  | zero => exact out s h hI
  | succ n ih =>
    rw [iterate, keeps_bind]
    refine (turn i s h hI).mono fun h' l hl => ?_
    cases l with
    | next s' =>
      refine ih (i := i + 1) (fun s h hI' => out s h ?_) hl
      rwa [show i + (n + 1) = i + 1 + n by omega]
    | done b => exact hl

end Keeps

end Loop

/-! ### Programs that always return -/

/-- No run ends by using up the turns of a loop. -/
def Returns : Prog Resp α → Prop
  | .ret _ => True
  | .call _ k => ∀ r, Returns (k r)
  | .stop => False

@[simp] lemma returns_ret (a : α) : Returns (.ret a : Prog Resp α) := trivial
@[simp] lemma returns_call {o : Op} {k : Resp o → Prog Resp α} :
    Returns (.call o k) ↔ ∀ r, Returns (k r) := Iff.rfl

lemma returns_bind {p : Prog Resp α} {f : α → Prog Resp β} (hp : Returns p)
    (hf : ∀ t a, Runs p t a → Returns (f a)) : Returns (p >>= f) := by
  induction p with
  | ret a => exact hf [] a (.ret a)
  | call o k ih => exact fun r => ih r (hp r) fun t a h => hf _ a (.call r h)
  | stop => exact hp

lemma returns_ite {c : Prop} [Decidable c] {p q : Prog Resp α} (hp : Returns p)
    (hq : Returns q) : Returns (if c then p else q) := by
  split
  · exact hp
  · exact hq

/-- A loop whose turns decrease `μ` ends within `μ + 1` turns. -/
theorem returns_iterate {body : σ → Prog Resp (Loop σ β)} {I : σ → Prop} {μ : σ → ℕ}
    (turn : ∀ s, I s → Returns (body s))
    (next : ∀ s t s', I s → Runs (body s) t (.next s') → I s' ∧ μ s' < μ s)
    {n : ℕ} {s : σ} (hI : I s) (hn : μ s < n) : Returns (iterate body n s) := by
  induction n generalizing s with
  | zero => omega
  | succ n ih =>
    refine returns_bind (turn s hI) fun t l hl => ?_
    cases l with
    | next s' =>
      obtain ⟨hI', hμ⟩ := next _ _ _ hI hl
      exact ih hI' (by omega)
    | done b => trivial

/-- What always returns has a run, or makes a call that has no answer. -/
lemma Returns.ends {p : Prog Resp α} (hp : Returns p) :
    (∃ t a, Runs p t a) ∨ ∃ t o, Issues p t o ∧ ¬ Nonempty (Resp o) := by
  induction p with
  | ret a => exact .inl ⟨[], a, .ret a⟩
  | call o k ih =>
    by_cases ho : Nonempty (Resp o)
    · obtain ⟨r⟩ := ho
      rcases ih r (hp r) with ⟨t, a, h⟩ | ⟨t, o', ⟨k', h⟩, ho⟩
      · exact .inl ⟨_, a, .call r h⟩
      · exact .inr ⟨_, o', ⟨k', .call r h⟩, ho⟩
    · exact .inr ⟨[], o, ⟨k, .refl _⟩, ho⟩
  | stop => exact hp.elim

/-! ### Programs that can return -/

/-- Some answers make the program return with what `Q` asks for. -/
def Can (Q : α → Prop) (p : Prog Resp α) : Prop := ∃ t a, Runs p t a ∧ Q a

lemma can_ret {Q : α → Prop} {a : α} (ha : Q a) : Can Q (.ret a : Prog Resp α) :=
  ⟨[], a, .ret a, ha⟩

lemma can_call {Q : α → Prop} {o : Op} {k : Resp o → Prog Resp α} (r : Resp o)
    (h : Can Q (k r)) : Can Q (.call o k) := by
  obtain ⟨t, a, hr, ha⟩ := h
  exact ⟨_, a, .call r hr, ha⟩

lemma can_bind {Q : β → Prop} {p : Prog Resp α} {f : α → Prog Resp β}
    (h : Can (fun a => Can Q (f a)) p) : Can Q (p >>= f) := by
  obtain ⟨t, a, hr, t', b, hr', hb⟩ := h
  exact ⟨t ++ t', b, runs_bind.mpr ⟨a, t, t', rfl, hr, hr'⟩, hb⟩

lemma Can.mono {Q Q' : α → Prop} {p : Prog Resp α} (h : Can Q p) (hQ : ∀ a, Q a → Q' a) :
    Can Q' p := by
  obtain ⟨t, a, hr, ha⟩ := h
  exact ⟨t, a, hr, hQ a ha⟩

/-! ### What every run returns -/

/-- Whatever is answered, what is returned satisfies `Q`. -/
def Always (Q : α → Prop) (p : Prog Resp α) : Prop := ∀ t a, Runs p t a → Q a

lemma always_ret {Q : α → Prop} {a : α} (ha : Q a) : Always Q (.ret a : Prog Resp α) := by
  intro t b hr
  rw [(runs_ret.mp hr).2]
  exact ha

lemma always_call {Q : α → Prop} {o : Op} {k : Resp o → Prog Resp α} (h : ∀ r, Always Q (k r)) :
    Always Q (.call o k) := by
  intro t a hr
  obtain ⟨r, t', -, hk⟩ := runs_call.mp hr
  exact h r t' a hk

lemma always_bind {Q : β → Prop} {p : Prog Resp α} {f : α → Prog Resp β}
    (h : Always (fun a => Always Q (f a)) p) : Always Q (p >>= f) := by
  intro t b hr
  obtain ⟨a, t₁, t₂, -, hp, hf⟩ := runs_bind.mp hr
  exact h t₁ a hp t₂ b hf

/-- Whatever comes before. -/
lemma always_then {Q : β → Prop} {p : Prog Resp α} {f : α → Prog Resp β}
    (hf : ∀ a, Always Q (f a)) : Always Q (p >>= f) :=
  always_bind fun _ a _ => hf a

lemma always_ite {Q : α → Prop} {c : Prop} [Decidable c] {p q : Prog Resp α}
    (hp : c → Always Q p) (hq : ¬ c → Always Q q) : Always Q (if c then p else q) := by
  split
  · next h => exact hp h
  · next h => exact hq h

lemma Always.mono {Q Q' : α → Prop} {p : Prog Resp α} (h : Always Q p) (hQ : ∀ a, Q a → Q' a) :
    Always Q' p := fun t a hr => hQ a (h t a hr)

/-! ### The calls a program is made of -/

/-- Every call the program can make is one of `G`. -/
def Calls (G : Op → Prop) : Prog Resp α → Prop
  | .ret _ => True
  | .call o k => G o ∧ ∀ r, Calls G (k r)
  | .stop => True

@[simp] lemma calls_ret {G : Op → Prop} (a : α) : Calls G (.ret a : Prog Resp α) := trivial
@[simp] lemma calls_stop {G : Op → Prop} : Calls G (.stop : Prog Resp α) := trivial
@[simp] lemma calls_call {G : Op → Prop} {o : Op} {k : Resp o → Prog Resp α} :
    Calls G (.call o k) ↔ G o ∧ ∀ r, Calls G (k r) := Iff.rfl

lemma calls_bind {G : Op → Prop} {p : Prog Resp α} {f : α → Prog Resp β} (hp : Calls G p)
    (hf : ∀ a, Calls G (f a)) : Calls G (p >>= f) := by
  induction p with
  | ret a => exact hf a
  | call o k ih => exact ⟨hp.1, fun r => ih r (hp.2 r)⟩
  | stop => trivial

lemma calls_ite {G : Op → Prop} {c : Prop} [Decidable c] {p q : Prog Resp α}
    (hp : c → Calls G p) (hq : ¬ c → Calls G q) : Calls G (if c then p else q) := by
  split
  · next h => exact hp h
  · next h => exact hq h

/-- A check that ends the program makes no call. -/
lemma calls_unless {G : Op → Prop} {c : Prop} [Decidable c] {a : α} {q : Prog Resp α}
    (hq : Calls G q) : Calls G (if c then .ret a else q) :=
  calls_ite (fun _ => trivial) fun _ => hq

/-- What comes after a part, from what its runs return. -/
lemma calls_bind_of_runs {G : Op → Prop} {p : Prog Resp α} {f : α → Prog Resp β}
    (hp : Calls G p) (hf : ∀ t a, Runs p t a → Calls G (f a)) : Calls G (p >>= f) := by
  induction p with
  | ret a => exact hf [] a (.ret a)
  | call o k ih => exact ⟨hp.1, fun r => ih r (hp.2 r) fun t a h => hf _ a (.call r h)⟩
  | stop => trivial

lemma Keeps.calls {S : List (Ev Resp) → Prop} {G : Op → Prop} {Q : List (Ev Resp) → α → Prop}
    {h : List (Ev Resp)} {p : Prog Resp α} (hp : Keeps S (fun _ o => G o) Q h p) : Calls G p := by
  induction p generalizing h with
  | ret a => trivial
  | call o k ih => exact ⟨hp.1, fun r => ih r (hp.2 r)⟩
  | stop => trivial

lemma calls_iterate {G : Op → Prop} {body : σ → Prog Resp (Loop σ β)}
    (hbody : ∀ s, Calls G (body s)) (n : ℕ) (s : σ) : Calls G (iterate body n s) := by
  induction n generalizing s with
  | zero => trivial
  | succ n ih =>
    refine calls_bind (hbody s) fun l => ?_
    cases l with
    | next s' => exact ih s'
    | done b => trivial

/-- A loop whose state keeps `I`. -/
lemma calls_iterate_of {G : Op → Prop} {body : σ → Prog Resp (Loop σ β)} {I : σ → Prop}
    (hbody : ∀ s, I s → Calls G (body s))
    (hnext : ∀ s, I s → Always (fun l => ∀ s', l = .next s' → I s') (body s)) (n : ℕ) {s : σ}
    (hs : I s) : Calls G (iterate body n s) := by
  induction n generalizing s with
  | zero => trivial
  | succ n ih =>
    refine calls_bind_of_runs (hbody s hs) fun t l hr => ?_
    cases l with
    | next s' => exact ih (hnext s hs t _ hr s' rfl)
    | done b => trivial

lemma Calls.mono {G G' : Op → Prop} {p : Prog Resp α} (hp : Calls G p) (h : ∀ o, G o → G' o) :
    Calls G' p := by
  induction p with
  | ret a => trivial
  | call o k ih => exact ⟨h o hp.1, fun r => ih r (hp.2 r)⟩
  | stop => trivial

lemma Calls.issues {G : Op → Prop} {p : Prog Resp α} (hp : Calls G p) {t : List (Ev Resp)}
    {o : Op} (hi : Issues p t o) : G o := by
  induction p generalizing t with
  | ret a => exact (not_issues_ret hi).elim
  | call o' k ih =>
    rcases issues_call.mp hi with ⟨-, rfl⟩ | ⟨r, t', -, hi'⟩
    · exact hp.1
    · exact ih r (hp.2 r) hi'
  | stop => exact (not_issues_stop hi).elim

lemma Calls.event {G : Op → Prop} {p : Prog Resp α} (hp : Calls G p) {t : List (Ev Resp)} {a : α}
    (hr : Runs p t a) {e : Ev Resp} (he : e ∈ t) : G e.1 := by
  obtain ⟨t₁, t₂, rfl⟩ := List.append_of_mem he
  exact hp.issues hr.issues

/-- What the calls of a program leave alone is as it was. -/
lemma Calls.keeps {V : Type} {G : Op → Prop} (view : List (Ev Resp) → V)
    (hview : ∀ h o r, G o → view (h ++ [⟨o, r⟩]) = view h) {p : Prog Resp α} (hp : Calls G p)
    (h : List (Ev Resp)) : Sat (fun _ o => G o) (fun h' _ => view h' = view h) h p := by
  induction p generalizing h with
  | ret a => rfl
  | call o k ih =>
    refine ⟨hp.1, fun r => (ih r (hp.2 r) (h ++ [⟨o, r⟩])).mono fun h' _ he => ?_⟩
    rw [he, hview h o r hp.1]
  | stop => trivial

/-! ### Histories -/

/-- What has happened since the last event of a kind. -/
def since (p : Ev Resp → Bool) (h : List (Ev Resp)) : List (Ev Resp) :=
  (h.reverse.takeWhile fun e => !p e).reverse

@[simp] lemma since_nil (p : Ev Resp → Bool) : since p [] = [] := rfl

@[simp] lemma since_snoc (p : Ev Resp → Bool) (h : List (Ev Resp)) (e : Ev Resp) :
    since p (h ++ [e]) = if p e then [] else since p h ++ [e] := by
  unfold since
  rw [List.reverse_append, List.reverse_singleton, List.singleton_append, List.takeWhile_cons]
  cases p e <;> simp

/-! ### Two views of a history -/

/-- What a view makes of a history is `want` if every event is a whole one, and else shorter. -/
structure Mirrors {V : Type} (whole : Ev Resp → Bool) (view : Ev Resp → List V) (want : List V)
    (h : List (Ev Resp)) : Prop where
  full : h.all whole = true → h.flatMap view = want
  short : h.all whole = false → (h.flatMap view).length < want.length

section Mirrors

variable {V : Type} {whole : Ev Resp → Bool} {view : Ev Resp → List V} {want want' : List V}
  {h t : List (Ev Resp)}

lemma mirrors_nil : Mirrors whole view [] [] := ⟨fun _ => rfl, nofun⟩

lemma Mirrors.length_le (hm : Mirrors whole view want h) :
    (h.flatMap view).length ≤ want.length := by
  cases hw : h.all whole with
  | true => exact Nat.le_of_eq (congrArg _ (hm.full hw))
  | false => exact Nat.le_of_lt (hm.short hw)

lemma Mirrors.append (hh : Mirrors whole view want h) (ht : Mirrors whole view want' t) :
    Mirrors whole view (want ++ want') (h ++ t) := by
  have hle := hh.length_le
  have hle' := ht.length_le
  refine ⟨fun hfull => ?_, fun hshort => ?_⟩
  · rw [List.all_append, Bool.and_eq_true] at hfull
    rw [List.flatMap_append, hh.full hfull.1, ht.full hfull.2]
  · rw [List.all_append, Bool.and_eq_false_iff] at hshort
    rw [List.flatMap_append, List.length_append, List.length_append]
    rcases hshort with h | h
    · exact Nat.add_lt_add_of_lt_of_le (hh.short h) hle'
    · exact Nat.add_lt_add_of_le_of_lt hle (ht.short h)

lemma Mirrors.whole_of_length_le (hm : Mirrors whole view want h)
    (hlen : want.length ≤ (h.flatMap view).length) : h.all whole = true := by
  by_contra hne
  exact absurd (hm.short (Bool.not_eq_true _ ▸ hne)) (Nat.not_lt.mpr hlen)

/-- The two agree exactly when all events are whole. -/
lemma Mirrors.iff (hm : Mirrors whole view want h) :
    h.flatMap view = want ↔ h.all whole = true :=
  ⟨fun he => hm.whole_of_length_le (Nat.le_of_eq (congrArg _ he.symm)), hm.full⟩

/-- Events the view does not see, all of them whole. -/
lemma mirrors_silent (hs : ∀ e ∈ h, view e = [] ∧ whole e = true) : Mirrors whole view [] h := by
  have hall : h.all whole = true := List.all_eq_true.mpr fun e he => (hs e he).2
  refine ⟨fun _ => List.flatMap_eq_nil_iff.mpr fun e he => (hs e he).1, fun h => ?_⟩
  rw [hall] at h
  cases h

end Mirrors

/-! ### One particular environment -/

/-- The outcome against an environment with a state of its own, which may stop answering. -/
def exec (env : σ → (o : Op) → Option (Resp o × σ)) : σ → Prog Resp α → Option (α × σ)
  | s, .ret a => some (a, s)
  | s, .call o k => match env s o with
    | some (r, s') => exec env s' (k r)
    | none => none
  | _, .stop => none

section Exec

variable {env : σ → (o : Op) → Option (Resp o × σ)} {s s' : σ}

@[simp] lemma exec_ret (a : α) : exec env s (.ret a : Prog Resp α) = some (a, s) := rfl

lemma exec_call {o : Op} {k : Resp o → Prog Resp α} {r : Resp o} (h : env s o = some (r, s')) :
    exec env s (.call o k) = exec env s' (k r) := by
  rw [exec, h]

lemma exec_bind (p : Prog Resp α) (f : α → Prog Resp β) :
    exec env s (p >>= f) = (exec env s p).bind fun x => exec env x.2 (f x.1) := by
  induction p generalizing s with
  | ret a => rfl
  | call o k ih =>
    simp only [call_bind, exec]
    cases env s o with
    | none => rfl
    | some x => exact ih x.1
  | stop => rfl

/-- An outcome comes from a run, and from every answer being one of the environment. -/
theorem exec_runs {I : σ → List (Ev Resp) → Prop}
    (step : ∀ s h o r s', I s h → env s o = some (r, s') → I s' (h ++ [⟨o, r⟩]))
    {p : Prog Resp α} {h : List (Ev Resp)} {a : α} (hI : I s h)
    (he : exec env s p = some (a, s')) : ∃ t, Runs p t a ∧ I s' (h ++ t) := by
  induction p generalizing s h with
  | ret b =>
    obtain ⟨rfl, rfl⟩ := Prod.mk.inj (Option.some.inj he)
    exact ⟨[], .ret _, by simpa using hI⟩
  | call o k ih =>
    rw [exec] at he
    split at he
    · next r s₁ h₁ =>
      obtain ⟨t, ht, hI'⟩ := ih r (step _ _ _ _ _ hI h₁) he
      exact ⟨_, .call r ht, by simpa using hI'⟩
    · simp at he
  | stop => simp [exec] at he

end Exec

/-- The calls that are made, up to one that is not answered. -/
def callsMade (answer : (o : Op) → Option (Resp o)) : Prog Resp α → List Op
  | .ret _ => []
  | .call o k => o :: match answer o with
    | some r => callsMade answer (k r)
    | none => []
  | .stop => []

lemma callsMade_issued {answer : (o : Op) → Option (Resp o)} {p : Prog Resp α} {o : Op}
    (h : o ∈ callsMade answer p) : ∃ t, Issues p t o := by
  induction p with
  | ret a => cases h
  | call o' k ih =>
    rw [callsMade] at h
    rcases List.mem_cons.mp h with rfl | h
    · exact ⟨[], issues_call.mpr (.inl ⟨rfl, rfl⟩)⟩
    · split at h
      · next r hr =>
        obtain ⟨t, ht⟩ := ih r h
        exact ⟨⟨o', r⟩ :: t, issues_call.mpr (.inr ⟨r, t, rfl, ht⟩)⟩
      · cases h
  | stop => cases h

/-- Against the environment the program returns, and leaves what `Q` asks for. -/
def Ensures (env : σ → (o : Op) → Option (Resp o × σ)) (s : σ) (p : Prog Resp α)
    (Q : α → σ → Prop) : Prop :=
  ∃ a s', exec env s p = some (a, s') ∧ Q a s'

section Ensures

variable {env : σ → (o : Op) → Option (Resp o × σ)} {s s' : σ} {Q Q' : α → σ → Prop}

@[simp] lemma ensures_ret {a : α} : Ensures env s (.ret a : Prog Resp α) Q ↔ Q a s := by
  constructor
  · rintro ⟨_, _, he, hQ⟩
    obtain ⟨rfl, rfl⟩ := Prod.mk.inj (Option.some.inj he)
    exact hQ
  · intro hQ
    exact ⟨a, s, rfl, hQ⟩

lemma ensures_call {o : Op} {k : Resp o → Prog Resp α} {r : Resp o}
    (h : env s o = some (r, s')) :
    Ensures env s (.call o k) Q ↔ Ensures env s' (k r) Q := by
  rw [Ensures, Ensures, exec_call h]

lemma ensures_bind {p : Prog Resp α} {f : α → Prog Resp β} {Q : β → σ → Prop} :
    Ensures env s (p >>= f) Q ↔ Ensures env s p fun a s' => Ensures env s' (f a) Q := by
  simp only [Ensures, exec_bind]
  constructor
  · rintro ⟨b, s₂, he, hQ⟩
    obtain ⟨⟨a, s₁⟩, ha, hb⟩ := Option.bind_eq_some_iff.mp he
    exact ⟨a, s₁, ha, b, s₂, hb, hQ⟩
  · rintro ⟨a, s₁, ha, b, s₂, hb, hQ⟩
    exact ⟨b, s₂, Option.bind_eq_some_iff.mpr ⟨(a, s₁), ha, hb⟩, hQ⟩

lemma Ensures.mono {p : Prog Resp α} (hp : Ensures env s p Q) (hQ : ∀ a s', Q a s' → Q' a s') :
    Ensures env s p Q' := by
  obtain ⟨a, s', he, h⟩ := hp
  exact ⟨a, s', he, hQ _ _ h⟩

/-- A loop whose turns return, keep `I` and decrease `μ` ends within `μ + 1` turns. -/
theorem ensures_iterate {τ : Type} {body : τ → Prog Resp (Loop τ β)} {I : τ → σ → Prop}
    {μ : τ → ℕ} {Q : β → σ → Prop}
    (turn : ∀ x s, I x s → Ensures env s (body x) fun l s' => match l with
      | .next x' => I x' s' ∧ μ x' < μ x
      | .done b => Q b s')
    {n : ℕ} {x : τ} (hI : I x s) (hn : μ x < n) : Ensures env s (iterate body n x) Q := by
  induction n generalizing x s with
  | zero => omega
  | succ n ih =>
    refine ensures_bind.mpr ((turn x s hI).mono fun l s' hl => ?_)
    cases l with
    | next x' => exact ih hl.1 (by have := hl.2; omega)
    | done b => exact ensures_ret.mpr hl

/-- The same, with the turns counted by the invariant, which leaves no more than `N`. -/
theorem ensures_iterate_count {τ : Type} {body : τ → Prog Resp (Loop τ β)} {I : ℕ → τ → σ → Prop}
    {N : ℕ} {Q : β → σ → Prop} (bound : ∀ i x s, I i x s → i < N)
    (turn : ∀ i x s, I i x s → Ensures env s (body x) fun l s' => match l with
      | .next x' => I (i + 1) x' s'
      | .done b => Q b s')
    {n i : ℕ} {x : τ} (hI : I i x s) (hn : N ≤ i + n) : Ensures env s (iterate body n x) Q := by
  induction n generalizing i x s with
  | zero =>
    have := bound i x s hI
    omega
  | succ n ih =>
    refine ensures_bind.mpr ((turn i x s hI).mono fun l s' hl => ?_)
    cases l with
    | next x' => exact ih hl (by omega)
    | done b => exact ensures_ret.mpr hl

end Ensures

/-- The environment that keeps the history as its state. -/
def recorded (answer : List (Ev Resp) → (o : Op) → Option (Resp o)) (h : List (Ev Resp))
    (o : Op) : Option (Resp o × List (Ev Resp)) :=
  (answer h o).map fun r => (r, h ++ [⟨o, r⟩])

lemma recorded_eq {answer : List (Ev Resp) → (o : Op) → Option (Resp o)} {h : List (Ev Resp)}
    {o : Op} {r : Resp o} (hr : answer h o = some r) :
    recorded answer h o = some (r, h ++ [⟨o, r⟩]) := by
  rw [recorded, hr]
  rfl

/-- Against a recording environment the history grows by the run. -/
theorem exec_recorded (answer : List (Ev Resp) → (o : Op) → Option (Resp o))
    {p : Prog Resp α} {t : List (Ev Resp)} {a : α}
    (he : exec (recorded answer) [] p = some (a, t)) : Runs p t a := by
  obtain ⟨t', hr, ht⟩ := exec_runs (I := fun s h => s = h) (h := [])
    (fun s h o r s' hs h' => by
      subst hs
      simp only [recorded, Option.map_eq_some_iff, Prod.mk.injEq] at h'
      obtain ⟨r', -, rfl, rfl⟩ := h'
      rfl) rfl he
  simp only [List.nil_append] at ht
  rwa [ht]

/-- What every run keeps holds of the outcome as well. -/
lemma Ensures.keeps {answer : List (Ev Resp) → (o : Op) → Option (Resp o)} {p : Prog Resp α}
    {h : List (Ev Resp)} {Q : α → List (Ev Resp) → Prop} {S : List (Ev Resp) → Prop}
    {G : List (Ev Resp) → Op → Prop} {Q' : List (Ev Resp) → α → Prop}
    (hp : Ensures (recorded answer) h p Q) (hk : Keeps S G Q' h p) :
    Ensures (recorded answer) h p fun a h' => Q a h' ∧ Q' h' a := by
  induction p generalizing h with
  | ret a => exact ensures_ret.mpr ⟨ensures_ret.mp hp, hk⟩
  | call o k ih =>
    cases ho : answer h o with
    | none =>
      obtain ⟨a, h', he, -⟩ := hp
      simp [exec, recorded, ho] at he
    | some r =>
      rw [ensures_call (recorded_eq ho)] at hp ⊢
      exact ih r hp (hk.2 r)
  | stop =>
    obtain ⟨a, h', he, -⟩ := hp
    simp [exec] at he

/-- Every answer in the history is that of the environment. -/
lemma exec_recorded_answer {answer : List (Ev Resp) → (o : Op) → Option (Resp o)}
    {p : Prog Resp α} {t : List (Ev Resp)} {a : α}
    (he : exec (recorded answer) [] p = some (a, t)) {h h' : List (Ev Resp)} {e : Ev Resp}
    (ht : t = h ++ e :: h') : answer h e.1 = some e.2 := by
  obtain ⟨t', -, ht', hall⟩ := exec_runs (h := [])
    (I := fun s h => s = h ∧ ∀ h₀ (e : Ev Resp) h₁, h = h₀ ++ e :: h₁ → answer h₀ e.1 = some e.2)
    (fun s h o r s' hI h' => by
      obtain ⟨rfl, hall⟩ := hI
      obtain ⟨r', hr, he⟩ := Option.map_eq_some_iff.mp h'
      obtain ⟨rfl, rfl⟩ := Prod.mk.inj he
      refine ⟨rfl, fun h₀ e h₁ hs => ?_⟩
      rcases List.eq_nil_or_concat h₁ with rfl | ⟨h₂, e', rfl⟩
      · obtain ⟨rfl, rfl⟩ := List.append_singleton_inj.mp hs
        exact hr
      · rw [List.concat_eq_append, ← List.cons_append, ← List.append_assoc] at hs
        exact hall h₀ e h₂ (List.append_singleton_inj.mp hs).1)
    ⟨rfl, fun h₀ e h₁ hs => absurd hs (by simp)⟩ he
  exact hall h e h' (ht' ▸ ht)

/-- What always returns does so against any answers to the calls it makes. -/
theorem Returns.exec (answer : List (Ev Resp) → (o : Op) → Option (Resp o)) {p : Prog Resp α}
    (hp : Returns p) {h : List (Ev Resp)}
    (hanswer : ∀ t o, Issues p t o → (answer (h ++ t) o).isSome) :
    ∃ a t, exec (recorded answer) h p = some (a, t) := by
  induction p generalizing h with
  | ret a => exact ⟨a, h, rfl⟩
  | call o k ih =>
    have hfirst := hanswer [] o (issues_call.mpr (.inl ⟨rfl, rfl⟩))
    rw [List.append_nil] at hfirst
    obtain ⟨r, hr⟩ := Option.isSome_iff_exists.mp hfirst
    have hrec : recorded answer h o = some (r, h ++ [⟨o, r⟩]) := by rw [recorded, hr]; rfl
    rw [exec_call hrec]
    refine ih r (hp r) fun t o' hi => ?_
    rw [List.append_assoc]
    exact hanswer (⟨o, r⟩ :: t) o' (issues_call.mpr (.inr ⟨r, t, rfl, hi⟩))
  | stop => exact hp.elim

end AmlogicUpdate.Interaction

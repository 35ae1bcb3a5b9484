import AmlogicUpdate.Lockstep

/-!
Programs over two kinds of calls, and programs over the first kind alone as a part of them.
-/

namespace AmlogicUpdate.Interaction

open Prog

variable {Op Op' : Type} {Resp : Op → Type} {Resp' : Op' → Type} {α β σ : Type}

/-- The answers to a call of either kind. -/
@[reducible] def Either (Resp : Op → Type) (Resp' : Op' → Type) : Op ⊕ Op' → Type
  | .inl o => Resp o
  | .inr o => Resp' o

/-- A program over the first kind of calls. -/
def left : Prog Resp α → Prog (Either Resp Resp') α
  | .ret a => .ret a
  | .call o k => .call (.inl o) fun r => left (k r)
  | .stop => .stop

/-- One call of the second kind. -/
def right (o : Op') : Prog (Either Resp Resp') (Resp' o) := .call (.inr o) .ret

/-- A call of the first kind with its answer. -/
def leftEv (e : Ev Resp) : Ev (Either Resp Resp') := ⟨.inl e.1, e.2⟩

@[simp] lemma left_ret (a : α) : (left (.ret a) : Prog (Either Resp Resp') α) = .ret a := rfl

lemma left_bind (p : Prog Resp α) (f : α → Prog Resp β) :
    (left (p >>= f) : Prog (Either Resp Resp') β) = left p >>= fun a => left (f a) := by
  induction p with
  | ret a => rfl
  | call o k ih => simp only [left, call_bind, ih]
  | stop => rfl

lemma runs_left {p : Prog Resp α} {t : List (Ev (Either Resp Resp'))} {a : α} :
    Runs (left p) t a ↔ ∃ u, t = u.map leftEv ∧ Runs p u a := by
  induction p generalizing t with
  | ret b =>
    simp only [left, runs_ret]
    constructor
    · rintro ⟨rfl, rfl⟩; exact ⟨[], rfl, rfl, rfl⟩
    · rintro ⟨_, rfl, rfl, rfl⟩; exact ⟨rfl, rfl⟩
  | call o k ih =>
    simp only [left, runs_call, ih]
    constructor
    · rintro ⟨r, _, rfl, u, rfl, hr⟩; exact ⟨⟨o, r⟩ :: u, rfl, r, u, rfl, hr⟩
    · rintro ⟨_, rfl, r, u, rfl, hr⟩; exact ⟨r, _, rfl, u, rfl, hr⟩
  | stop => simp [left]

lemma issues_left {p : Prog Resp α} {t : List (Ev (Either Resp Resp'))} {o : Op ⊕ Op'} :
    Issues (left p) t o ↔ ∃ u q, t = u.map leftEv ∧ o = .inl q ∧ Issues p u q := by
  induction p generalizing t with
  | ret b =>
    refine ⟨fun h => (not_issues_ret h).elim, ?_⟩
    rintro ⟨_, _, -, -, h⟩; exact (not_issues_ret h).elim
  | call q k ih =>
    simp only [left, issues_call, ih]
    constructor
    · rintro (⟨rfl, rfl⟩ | ⟨r, _, rfl, u, q', rfl, rfl, hi⟩)
      · exact ⟨[], q, rfl, rfl, .inl ⟨rfl, rfl⟩⟩
      · exact ⟨⟨q, r⟩ :: u, q', rfl, rfl, .inr ⟨r, u, rfl, hi⟩⟩
    · rintro ⟨_, q', rfl, rfl, ⟨rfl, rfl⟩ | ⟨r, u, rfl, hi⟩⟩
      · exact .inl ⟨rfl, rfl⟩
      · exact .inr ⟨r, _, rfl, u, q', rfl, rfl, hi⟩
  | stop =>
    refine ⟨fun h => (not_issues_stop h).elim, ?_⟩
    rintro ⟨_, _, -, -, h⟩; exact (not_issues_stop h).elim

lemma calls_left {G : Op ⊕ Op' → Prop} {p : Prog Resp α} (h : Calls (fun o => G (.inl o)) p) :
    Calls G (left p : Prog (Either Resp Resp') α) := by
  induction p with
  | ret a => trivial
  | call o k ih => exact ⟨h.1, fun r => ih r (h.2 r)⟩
  | stop => trivial

/-- Only calls of the first kind. -/
lemma calls_left_all {G : Op ⊕ Op' → Prop} (h : ∀ o, G (.inl o)) (p : Prog Resp α) :
    Calls G (left p : Prog (Either Resp Resp') α) := by
  induction p with
  | ret a => trivial
  | call o k ih => exact ⟨h o, ih⟩
  | stop => trivial

lemma always_left {Q : α → Prop} {p : Prog Resp α} (h : Always Q p) :
    Always Q (left p : Prog (Either Resp Resp') α) := by
  intro t a hr
  obtain ⟨u, -, hu⟩ := runs_left.mp hr
  exact h u a hu

lemma can_left {Q : α → Prop} {p : Prog Resp α} (h : Can Q p) :
    Can Q (left p : Prog (Either Resp Resp') α) := by
  obtain ⟨u, a, hu, ha⟩ := h
  exact ⟨_, a, runs_left.mpr ⟨u, rfl, hu⟩, ha⟩

/-- Programs in step are in step as parts of others. -/
lemma Lockstep.left {A : Ev (Either Resp Resp') → Prop} {R : α → β → Prop} {p : Prog Resp α}
    {q : Prog Resp β} (h : Lockstep (fun e => A (leftEv e)) R p q) :
    Lockstep A R (Interaction.left p) (Interaction.left q) := by
  induction h with
  | ret h => exact .ret h
  | call _ ih => exact .call ih
  | stop => exact .stop

/-- The calls of the first kind in a history. -/
def lefts : List (Ev (Either Resp Resp')) → List (Ev Resp)
  | [] => []
  | ⟨.inl o, r⟩ :: t => ⟨o, r⟩ :: lefts t
  | ⟨.inr _, _⟩ :: t => lefts t

@[simp] lemma lefts_append (t u : List (Ev (Either Resp Resp'))) :
    lefts (t ++ u) = lefts t ++ lefts u := by
  induction t with
  | nil => rfl
  | cons e t ih =>
    obtain ⟨o | o, r⟩ := e
    · simp only [List.cons_append, lefts, ih]
    · simp only [List.cons_append, lefts, ih]

@[simp] lemma lefts_map (u : List (Ev Resp)) :
    lefts (u.map (leftEv : Ev Resp → Ev (Either Resp Resp'))) = u := by
  induction u with
  | nil => rfl
  | cons e u ih => simp only [List.map_cons, leftEv, lefts, ih]

/-! ### Calls with known answers -/

section Answered

variable (answer : (o : Op') → Option (Resp' o))

/-- The calls of the second kind answered where an answer is known; without one it is not known
how the program goes on. -/
def answered : Prog (Either Resp Resp') α → Prog Resp α
  | .ret a => .ret a
  | .call (.inl o) k => .call o fun r => answered (k r)
  | .call (.inr o) k => match answer o with
    | some r => answered (k r)
    | none => .stop
  | .stop => .stop

variable {answer}

@[simp] lemma answered_ret (a : α) :
    answered answer (.ret a : Prog (Either Resp Resp') α) = .ret a := rfl
@[simp] lemma answered_left (o : Op) (k : Resp o → Prog (Either Resp Resp') α) :
    answered answer (.call (.inl o) k) = .call o fun r => answered answer (k r) := rfl

lemma answered_right {o : Op'} {r : Resp' o} (h : answer o = some r)
    (k : Resp' o → Prog (Either Resp Resp') α) :
    answered answer (.call (.inr o) k) = answered answer (k r) := by
  rw [answered, h]

lemma answered_bind (p : Prog (Either Resp Resp') α) (f : α → Prog (Either Resp Resp') β) :
    answered answer (p >>= f) = answered answer p >>= fun a => answered answer (f a) := by
  induction p with
  | ret a => rfl
  | call o k ih =>
    cases o with
    | inl o => simp only [call_bind, answered_left, ih]
    | inr o =>
      cases h : answer o with
      | none => rw [call_bind, answered, answered, h]; rfl
      | some r => rw [call_bind, answered_right h, answered_right h, ih]
  | stop => rfl

@[simp] lemma answered_lift (p : Prog Resp α) :
    answered answer (left p : Prog (Either Resp Resp') α) = p := by
  induction p with
  | ret a => rfl
  | call o k ih => simp only [left, answered_left, ih]
  | stop => rfl

lemma answered_ite (c : Prop) [Decidable c] (p q : Prog (Either Resp Resp') α) :
    answered answer (if c then p else q) =
      if c then answered answer p else answered answer q := by
  split_ifs
  · rfl
  · rfl

end Answered

/-! ### Calls answered from a state -/

section Served

variable {μ : Type} (serve : μ → (a : Op') → Resp' a × μ)

/-- The calls of the second kind answered from a state of their own. -/
def served : μ → Prog (Either Resp Resp') α → Prog Resp (α × μ)
  | m, .ret a => .ret (a, m)
  | m, .call (.inl o) k => .call o fun r => served m (k r)
  | m, .call (.inr o) k => served (serve m o).2 (k (serve m o).1)
  | _, .stop => .stop

/-- From the state `m` only calls are made that `H` allows, or that `G` allows in the state they
are made in, and what is returned satisfies `Q`. -/
def Stays (H : Op → Prop) (G : μ → Op' → Prop) (Q : μ → α → Prop) :
    μ → Prog (Either Resp Resp') α → Prop
  | m, .ret a => Q m a
  | m, .call (.inl o) k => H o ∧ ∀ r, Stays H G Q m (k r)
  | m, .call (.inr o) k => G m o ∧ Stays H G Q (serve m o).2 (k (serve m o).1)
  | _, .stop => True

variable {serve} {H : Op → Prop} {G : μ → Op' → Prop} {m : μ}

@[simp] lemma served_ret (a : α) :
    served serve m (.ret a : Prog (Either Resp Resp') α) = .ret (a, m) := rfl
@[simp] lemma served_left (o : Op) (k : Resp o → Prog (Either Resp Resp') α) :
    served serve m (.call (.inl o) k) = .call o fun r => served serve m (k r) := rfl
@[simp] lemma served_right (o : Op') (k : Resp' o → Prog (Either Resp Resp') α) :
    served serve m (.call (.inr o) k) = served serve (serve m o).2 (k (serve m o).1) := rfl

lemma served_bind (p : Prog (Either Resp Resp') α) (f : α → Prog (Either Resp Resp') β) (m : μ) :
    served serve m (p >>= f) = served serve m p >>= fun x => served serve x.2 (f x.1) := by
  induction p generalizing m with
  | ret a => rfl
  | call o k ih =>
    cases o with
    | inl o => simp only [call_bind, served_left, ih]
    | inr o => simp only [call_bind, served_right, ih]
  | stop => rfl

/-- A part that makes no call of the second kind. -/
lemma served_lift (p : Prog Resp α) (m : μ) :
    served serve m (left p : Prog (Either Resp Resp') α) = p >>= fun a => .ret (a, m) := by
  induction p with
  | ret a => rfl
  | call o k ih => simp only [left, served_left, call_bind, ih]
  | stop => rfl

@[simp] lemma stays_ret {Q : μ → α → Prop} {a : α} :
    Stays serve H G Q m (.ret a : Prog (Either Resp Resp') α) ↔ Q m a := Iff.rfl
@[simp] lemma stays_left {Q : μ → α → Prop} {o : Op} {k : Resp o → Prog (Either Resp Resp') α} :
    Stays serve H G Q m (.call (.inl o) k) ↔ H o ∧ ∀ r, Stays serve H G Q m (k r) := Iff.rfl
@[simp] lemma stays_right {Q : μ → α → Prop} {o : Op'}
    {k : Resp' o → Prog (Either Resp Resp') α} :
    Stays serve H G Q m (.call (.inr o) k) ↔
      G m o ∧ Stays serve H G Q (serve m o).2 (k (serve m o).1) := Iff.rfl

lemma stays_bind {Q : μ → β → Prop} {p : Prog (Either Resp Resp') α}
    {f : α → Prog (Either Resp Resp') β} :
    Stays serve H G Q m (p >>= f) ↔
      Stays serve H G (fun m' a => Stays serve H G Q m' (f a)) m p := by
  induction p generalizing m with
  | ret a => rfl
  | call o k ih =>
    cases o with
    | inl o => simp only [call_bind, stays_left, ih]
    | inr o => simp only [call_bind, stays_right, ih]
  | stop => rfl

end Served

end AmlogicUpdate.Interaction

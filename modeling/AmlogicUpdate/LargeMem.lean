import AmlogicUpdate.Wire

/-!
Large transfers: `AmlUsbWriteLargeMem` and `AmlUsbReadLargeMem`.

The outer loop starts over with the whole length but not with the offset. It can only do so
while no start command has been accepted, and until then nothing has been moved; this is
the invariant that ties the mark of the start command to the offset.
-/

namespace AmlogicUpdate.LargeMem

open Interaction CData Usb AmlLibusb UsbRomDrv Wire Checksum

/-! ### What a trace has moved -/

/-- All the bytes moved, in order. -/
def movedBy (moved : Event → Bytes) (t : Trace) : Bytes := t.flatMap moved
/-- The number of bulk transfers. -/
def bulks (t : Trace) : ℕ := t.countP fun e => isBulk e.1
/-- The number of start commands accepted. -/
def starts (req : ℕ) (t : Trace) : ℕ := t.countP (requestAccepted req)

/-- No bulk transfer has failed. -/
def Unbroken (t : Trace) : Prop := ∀ e ∈ t, isBulk e.1 → failed e = false

/-- The length asked for in a bulk transfer. -/
def bulkLen : Op → ℕ
  | .bulkOut _ _ _ n _ => n
  | .bulkIn _ _ n _ => n
  | _ => 0

section Views

variable (moved : Event → Bytes) (req : ℕ) (t : Trace) (e : Event)

@[simp] lemma movedBy_nil : movedBy moved [] = [] := rfl
@[simp] lemma movedBy_snoc : movedBy moved (t ++ [e]) = movedBy moved t ++ moved e := by
  simp [movedBy]
@[simp] lemma bulks_nil : bulks [] = 0 := rfl
@[simp] lemma bulks_snoc : bulks (t ++ [e]) = bulks t + if isBulk e.1 then 1 else 0 := by
  simp [bulks, List.countP_append, List.countP_cons]
@[simp] lemma starts_nil : starts req [] = 0 := rfl
@[simp] lemma starts_snoc :
    starts req (t ++ [e]) = starts req t + if requestAccepted req e then 1 else 0 := by
  simp [starts, List.countP_append, List.countP_cons]
lemma unbroken_snoc :
    Unbroken (t ++ [e]) ↔ Unbroken t ∧ (isBulk e.1 → failed e = false) := by
  simp [Unbroken, or_imp, forall_and]

end Views

/-! ### The loops, for either direction -/

section Loops

variable (req : ℕ) (moved : Event → Bytes) (keeps : Bytes → Prop) (bufferLen : ℕ)
  (opening : Op → Prop) (payload : ℕ → Op → Prop)

/-- When a call may be made: a bulk transfer after one accepted start command and inside the
buffer, a start command before any bulk transfer and any accepted start command. -/
def Allowed (h : Trace) (o : Op) : Prop :=
  (isBulk o → starts req h = 1 ∧ (movedBy moved h).length + bulkLen o ≤ bufferLen ∧
    payload (movedBy moved h).length o) ∧
  (isRequest req o → bulks h = 0 ∧ starts req h = 0 ∧ opening o)

/-- A program of at most one call. -/
def Single {α : Type} (p : Program α) : Prop :=
  (∃ a, p = .ret a) ∨ ∃ (o : Op) (f : Resp o → α), p = .call o fun r => .ret (f r)

lemma Single.returns {α : Type} {p : Program α} (hp : Single p) : Returns p := by
  rcases hp with ⟨a, rfl⟩ | ⟨o, f, rfl⟩
  · trivial
  · exact fun r => trivial

lemma single_segfault {α : Type} : Single (segfault : Program α) :=
  .inr ⟨.nullHandle, fun e => e.elim, by rw [segfault]; congr 1; funext e; exact e.elim⟩

/-- What the loops rely on to end: the start command and the bulk transfer are one call
each. -/
structure DirSingle (dir : LargeDir) : Prop where
  commandSingle : ∀ remain seq, 0 < remain →
    Single (dir.command remain (min remain dir.chunk) seq)
  transferSingle : ∀ buf off len, Single (dir.transfer buf off len)
  transferBound : ∀ buf off len t r, Runs (dir.transfer buf off len) t r → -1 ≤ r.1

/-- What the loops rely on in a direction: calls are made when allowed, the start command for
the whole length, and a bulk transfer moves the next bytes of the buffer. -/
structure DirOk (dir : LargeDir) : Prop extends DirSingle dir where
  command : ∀ h seq, 0 < bufferLen → bulks h = 0 → starts req h = 0 →
    Sat (fun h o => Allowed req moved bufferLen opening payload h o ∧ ¬ isBulk o)
      (fun h' ret => bulks h' = 0 ∧ movedBy moved h' = movedBy moved h ∧
        (starts req h' = if ret = 0 then 0 else 1) ∧ (Unbroken h → Unbroken h')) h
      (dir.command bufferLen (min bufferLen dir.chunk) seq)
  transfer : ∀ h buf off len, keeps buf → starts req h = 1 → movedBy moved h = buf.take off →
    off + len ≤ bufferLen →
    Sat (Allowed req moved bufferLen opening payload)
      (fun h' (r : ℤ × Bytes) => keeps r.2 ∧ starts req h' = 1 ∧ -1 ≤ r.1 ∧ r.1 ≤ (len : ℤ) ∧
        movedBy moved h' = r.2.take (off + r.1.toNat) ∧
        (Unbroken h → r.1 ≠ -1 → Unbroken h')) h
      (dir.transfer buf off len)

/-- The invariant of the inner loop. -/
structure Inv (s : LargeMem) (h : Trace) : Prop where
  keeps : keeps s.buffer
  moved : movedBy moved h = s.buffer.take s.offset
  remain : s.offset + s.remain = bufferLen
  fresh : s.size = -1 → s.offset = 0 ∧ bulks h = 0 ∧ starts req h = 0
  started : s.size ≠ -1 → starts req h = 1
  unbroken : Unbroken h

/-- How the inner loop is left: by `break` before any start command was accepted, with
everything moved, or for the label `end`. -/
structure Left (h : Trace) (l : Bool × LargeMem) : Prop where
  keeps : keeps l.2.buffer
  moved : movedBy moved h = l.2.buffer.take l.2.offset
  bound : l.2.offset ≤ bufferLen
  started : l.2.offset = 0 ∨ starts req h = 1
  retry : ¬ l.1 → l.2.remain ≠ 0 → l.2.size = -1 ∧ l.2.offset = 0 ∧ bulks h = 0 ∧ starts req h = 0
  whole : ¬ l.1 → l.2.remain = 0 → l.2.offset = bufferLen
  unbroken : ¬ l.1 ∨ l.2.offset = bufferLen → Unbroken h

/-- Between the rounds of the outer loop nothing has been accepted or moved. -/
structure Waiting (s : ℕ × LargeMem) (h : Trace) : Prop where
  keeps : keeps s.2.buffer
  size : s.2.size = -1
  offset : s.2.offset = 0
  bulks : bulks h = 0
  starts : starts req h = 0
  moved : movedBy moved h = []
  unbroken : Unbroken h

/-- What the loops end with. -/
def Finished (h : Trace) (s : LargeMem) : Prop :=
  keeps s.buffer ∧ movedBy moved h = s.buffer.take s.offset ∧ s.offset ≤ bufferLen ∧
    (s.offset = 0 ∨ starts req h = 1) ∧ (s.offset = bufferLen → Unbroken h)

variable {req moved keeps bufferLen opening payload} {dir : LargeDir}
  (ok : DirOk req moved keeps bufferLen opening payload dir)
include ok

omit ok in
lemma Inv.opened {s : LargeMem} {h : Trace} (hI : Inv req moved keeps bufferLen s h) :
    s.offset = 0 ∨ starts req h = 1 := by
  by_cases hs : s.size = -1
  · exact .inl (hI.fresh hs).1
  · exact .inr (hI.started hs)

lemma transfer_sat {s : LargeMem} {h : Trace} (hI : Inv req moved keeps bufferLen s h)
    (hs : s.size ≠ -1) (hpos : 0 < s.remain) :
    Sat (Allowed req moved bufferLen opening payload) (fun h' l =>
      l.Sat (Inv req moved keeps bufferLen) (Left req moved keeps bufferLen) h') h
      (largeTransfer dir s) := by
  have hlen : s.offset + min s.remain dir.chunk ≤ bufferLen := by
    have := hI.remain; omega
  rw [largeTransfer, sat_bind]
  refine (ok.transfer h _ _ _ hI.keeps (hI.started hs) hI.moved hlen).mono ?_
  intro h' r ⟨hk, hst, hlo, hhi, hm, hu⟩
  have hrem := hI.remain
  have hle : r.1.toNat ≤ s.remain := by omega
  simp only [Prog.pure_eq_ret, sat_ret, afterTransfer]
  generalize (if r.1 ≠ 0 then 0 else s.retry + 1) = retry
  split_ifs with h₁ h₂
  · refine ⟨hk, ?_, by dsimp only; omega, .inr hst, fun h => absurd rfl h, fun h => absurd rfl h,
      fun _ => hu hI.unbroken (by omega)⟩
    rw [hm, h₁.1]; rfl
  · refine ⟨hk, ?_, by dsimp only; omega, .inr hst, fun h => absurd rfl h, fun h => absurd rfl h,
      fun h => ?_⟩
    · rw [hm, h₂]; rfl
    · -- what the failed transfer was to move remains
      rcases h with h | h
      · exact absurd rfl h
      · dsimp only at h; omega
  · exact ⟨hk, hm, by dsimp only; omega, fun h => absurd h hs, fun _ => hst, hu hI.unbroken h₂⟩

lemma turn_sat {s : LargeMem} {h : Trace} (hI : Inv req moved keeps bufferLen s h) :
    Sat (Allowed req moved bufferLen opening payload) (fun h' l =>
      l.Sat (Inv req moved keeps bufferLen) (Left req moved keeps bufferLen) h') h
      (largeTurn dir s) := by
  have hrem := hI.remain
  unfold largeTurn
  split_ifs with h₀ h₁
  · -- no start command accepted yet
    obtain ⟨hoff, hb, hst⟩ := hI.fresh h₁
    obtain rfl : s.remain = bufferLen := by omega
    rw [sat_bind]
    refine ((ok.command h _ h₀ hb hst).weaken fun _ _ hG => hG.1).mono
      fun h' ret ⟨hb', hm, hst', hu⟩ => ?_
    split_ifs with h₂
    · have hst'' : starts req h' = 0 := by rw [hst', if_pos h₂]
      exact ⟨hI.keeps, hm.trans hI.moved, by dsimp only; omega, .inl hoff,
        fun _ _ => ⟨h₁, hoff, hb', hst''⟩, fun _ h => absurd h h₀.ne', fun _ => hu hI.unbroken⟩
    · have hne : ((dir.mark s.remain : ℕ) : ℤ) ≠ -1 := by omega
      rw [if_neg h₂] at hst'
      exact transfer_sat ok ⟨hI.keeps, hm.trans hI.moved, hrem, fun h => absurd h hne,
        fun _ => hst', hu hI.unbroken⟩ hne h₀
  · exact transfer_sat ok hI h₁ h₀
  · have hz : s.remain = 0 := by omega
    exact ⟨hI.keeps, hI.moved, by dsimp only; omega, hI.opened, fun _ h => absurd hz h,
      fun _ _ => by dsimp only; omega, fun _ => hI.unbroken⟩

omit ok in
lemma Waiting.inv {s : ℕ × LargeMem} {h : Trace} (hW : Waiting req moved keeps s h) :
    Inv req moved keeps bufferLen { s.2 with remain := bufferLen } h := by
  have hoff := hW.offset
  refine ⟨hW.keeps, ?_, by dsimp only; omega, fun _ => ⟨hoff, hW.bulks, hW.starts⟩,
    fun h => absurd hW.size h, hW.unbroken⟩
  rw [hW.moved, hoff, List.take_zero]

lemma round_sat {s : ℕ × LargeMem} {h : Trace} (hW : Waiting req moved keeps s h) :
    Sat (Allowed req moved bufferLen opening payload) (fun h' l =>
      l.Sat (Waiting req moved keeps) (Finished req moved keeps bufferLen) h') h
      (largeRound dir bufferLen s) := by
  unfold largeRound
  split_ifs with hi
  · rw [sat_bind]
    refine (sat_iterate (I := Inv req moved keeps bufferLen)
      (fun _ _ => turn_sat ok) hW.inv).mono fun h' r hL => ?_
    obtain ⟨toEnd, s'⟩ := r
    dsimp only
    split_ifs with he
    · exact ⟨hL.keeps, hL.moved, hL.bound, hL.started, fun h => hL.unbroken (.inr h)⟩
    · push Not at he
      obtain ⟨hsize, hoff, hb, hst⟩ := hL.retry he.1 he.2
      exact ⟨hL.keeps, hsize, hoff, hb, hst, by rw [hL.moved, hoff, List.take_zero],
        hL.unbroken (.inl he.1)⟩
  · refine ⟨hW.keeps, ?_, by rw [hW.offset]; omega, .inl hW.offset, fun _ => hW.unbroken⟩
    rw [hW.moved, hW.offset, List.take_zero]

/-- The loops, from a trace that has not yet touched the device. -/
lemma rounds_sat {s : ℕ × LargeMem} {h : Trace} (hW : Waiting req moved keeps s h) (n : ℕ) :
    Sat (Allowed req moved bufferLen opening payload) (Finished req moved keeps bufferLen) h
      (iterate (largeRound dir bufferLen) n s) :=
  sat_iterate (I := Waiting req moved keeps) (fun _ _ => round_sat ok) hW

/-! ### Where a bulk transfer is made -/

omit ok in
/-- A turn's only call from the bulk transfer on is the bulk transfer. -/
lemma transfer_steps (single : ∀ buf off len, Single (dir.transfer buf off len))
    {s : LargeMem} {t : Trace} {o : Op} {k : Resp o → Program (Loop LargeMem (Bool × LargeMem))}
    (hs : Steps (largeTransfer dir s) t (.call o k)) :
    t = [] ∧ .call o k = largeTransfer dir s := by
  rw [largeTransfer] at hs ⊢
  rcases single s.buffer s.offset (min s.remain dir.chunk) with ⟨a, ha⟩ | ⟨o', f, hf⟩
  · rw [ha, Prog.ret_bind] at hs
    simp [steps_ret] at hs
  · simp only [hf, Prog.call_bind, Prog.ret_bind] at hs ⊢
    rcases steps_call.mp hs with h | ⟨r, t', rfl, h⟩
    · exact h
    · simp [steps_ret] at h

/-- In a turn begun with the invariant a bulk transfer is made with it. -/
lemma turn_steps {s : LargeMem} {h t : Trace} {o : Op}
    {k : Resp o → Program (Loop LargeMem (Bool × LargeMem))}
    (hI : Inv req moved keeps bufferLen s h) (hs : Steps (largeTurn dir s) t (.call o k))
    (ho : isBulk o) :
    ∃ s', Inv req moved keeps bufferLen s' (h ++ t) ∧ .call o k = largeTransfer dir s' := by
  unfold largeTurn at hs
  split_ifs at hs with h₀ h₁
  · obtain ⟨hoff, hb, hst⟩ := hI.fresh h₁
    have hrem := hI.remain
    obtain rfl : s.remain = bufferLen := by omega
    rcases steps_bind_call hs with ⟨k', hc, -⟩ | ⟨ret, t₁, t₂, rfl, hr, hs'⟩
    · exact absurd ho ((ok.command h _ h₀ hb hst).issues ⟨k', hc⟩).2
    obtain ⟨hb', hm, hst', hu⟩ := (ok.command h _ h₀ hb hst).runs hr
    split_ifs at hs' with h₂
    · simp [steps_ret] at hs'
    · obtain ⟨rfl, hk⟩ := transfer_steps ok.transferSingle hs'
      have hne : ((dir.mark s.remain : ℕ) : ℤ) ≠ -1 := by omega
      rw [if_neg h₂] at hst'
      refine ⟨_, ?_, hk⟩
      rw [List.append_nil]
      exact ⟨hI.keeps, hm.trans hI.moved, hI.remain, fun h => absurd h hne, fun _ => hst',
        hu hI.unbroken⟩
  · obtain ⟨rfl, hk⟩ := transfer_steps ok.transferSingle hs
    exact ⟨s, by rwa [List.append_nil], hk⟩
  · simp [steps_ret] at hs

/-- Wherever the loops are interrupted by a bulk transfer, its turn has kept the
invariant. -/
theorem rounds_steps {s : ℕ × LargeMem} {h t : Trace} {n : ℕ} {o : Op}
    {k : Resp o → Program LargeMem} (hW : Waiting req moved keeps s h)
    (hs : Steps (iterate (largeRound dir bufferLen) n s) t (.call o k)) (ho : isBulk o) :
    ∃ s', Inv req moved keeps bufferLen s' (h ++ t) ∧
      Begins (.call o k) (largeTransfer dir s') := by
  have hround : ∀ s h t s', Waiting req moved keeps s h →
      Runs (largeRound dir bufferLen s) t (.next s') → Waiting req moved keeps s' (h ++ t) :=
    fun _ _ _ _ hW hr => (round_sat ok hW).runs hr
  obtain ⟨s₁, t₁, t₂, k₁, K₁, rfl, hW₁, hs₁, rfl⟩ := steps_iterate hround hW hs
  unfold largeRound at hs₁
  split_ifs at hs₁ with hi
  · rcases steps_bind_call hs₁ with ⟨k₂, hs₂, rfl⟩ | ⟨r, u₁, u₂, rfl, -, hs₂⟩
    · have hturn : ∀ s h t s', Inv req moved keeps bufferLen s h →
          Runs (largeTurn dir s) t (.next s') → Inv req moved keeps bufferLen s' (h ++ t) :=
        fun _ _ _ _ hI hr => (turn_sat ok hI).runs hr
      obtain ⟨s₂, u₁, u₂, k₃, K₃, rfl, hI, hs₃, rfl⟩ := steps_iterate hturn hW₁.inv hs₂
      obtain ⟨s', hI', hk⟩ := turn_steps ok hI hs₃ ho
      refine ⟨s', by simpa using hI', ?_⟩
      have hb : Begins (.call o k₃) (largeTransfer dir s') := hk ▸ Begins.refl _
      exact ((hb.bind K₃).bind _).bind K₁
    · dsimp only at hs₂
      split_ifs at hs₂ <;> simp [steps_ret] at hs₂
  · simp [steps_ret] at hs₁

end Loops

/-! ### The loops end -/

section Ends

variable {dir : LargeDir}

lemma afterTransfer_next {s s' : LargeMem} {r : ℤ × Bytes} (hr : -1 ≤ r.1)
    (hrem : 0 < s.remain) (hretry : s.retry ≤ 5) (h : afterTransfer dir s r = .next s') :
    s'.retry ≤ 5 ∧ 6 * s'.remain + (6 - s'.retry) < 6 * s.remain + (6 - s.retry) := by
  unfold afterTransfer at h
  dsimp only at h
  split_ifs at h
  all_goals
    injection h with h
    subst h
    dsimp only
    omega

lemma afterTransfer_done {s s' : LargeMem} {r : ℤ × Bytes} {e : Bool}
    (h : afterTransfer dir s r = .done (e, s')) : e = true := by
  unfold afterTransfer at h
  dsimp only at h
  split_ifs at h <;> cases h <;> rfl

variable {bufferLen : ℕ} (ok : DirSingle dir)
include ok

/-- A turn of the inner loop either comes to its end through a bulk transfer, or has made
none and leaves the variables alone. -/
lemma turn_runs {s : LargeMem} {t : Trace} {l : Loop LargeMem (Bool × LargeMem)}
    (h : Runs (largeTurn dir s) t l) :
    l = .done (false, s) ∨ 0 < s.remain ∧ ∃ size r, -1 ≤ r.1 ∧
      l = afterTransfer dir { s with size := size } r := by
  have htransfer : ∀ s' t', Runs (largeTransfer dir s') t' l →
      ∃ r, -1 ≤ r.1 ∧ l = afterTransfer dir s' r := by
    intro s' t' h'
    obtain ⟨r, t₁, t₂, rfl, hr, hl⟩ := runs_bind.mp h'
    exact ⟨r, ok.transferBound _ _ _ _ _ hr, (runs_ret.mp hl).2⟩
  unfold largeTurn at h
  split_ifs at h with h₀ h₁
  · obtain ⟨ret, t₁, t₂, rfl, -, h'⟩ := runs_bind.mp h
    split_ifs at h' with h₂
    · exact .inl (runs_ret.mp h').2
    · obtain ⟨r, hr, hl⟩ := htransfer _ _ h'
      exact .inr ⟨h₀, _, r, hr, hl⟩
  · obtain ⟨r, hr, hl⟩ := htransfer _ _ h
    exact .inr ⟨h₀, s.size, r, hr, hl⟩
  · exact .inl (runs_ret.mp h).2

lemma turn_returns (s : LargeMem) : Returns (largeTurn dir s) := by
  have htransfer : ∀ s', Returns (largeTransfer dir s') := fun s' =>
    returns_bind (ok.transferSingle _ _ _).returns fun _ _ _ => trivial
  unfold largeTurn
  split_ifs with h₀ h₁
  · refine returns_bind (ok.commandSingle _ _ h₀).returns fun _ ret _ => ?_
    split_ifs
    · trivial
    · exact htransfer _
  · exact htransfer _
  · trivial

/-- The inner loop: a turn shortens what remains or uses up one of six empty transfers. -/
lemma turns_return {s : LargeMem} (hretry : s.retry ≤ 5) (hrem : s.remain = bufferLen) :
    Returns (iterate (largeTurn dir) (6 * bufferLen + 7) s) := by
  refine returns_iterate (I := fun s => s.retry ≤ 5) (μ := fun s => 6 * s.remain + (6 - s.retry))
    (fun s _ => turn_returns ok s) (fun s t s' hs h => ?_) hretry (by omega)
  rcases turn_runs ok h with h' | ⟨h₀, size, r, hr, h'⟩
  · cases h'
  · exact afterTransfer_next (s := { s with size := size }) hr h₀ hs h'.symm

lemma turns_retry {n : ℕ} {s s' : LargeMem} {t : Trace} (hretry : s.retry ≤ 5)
    (h : Runs (iterate (largeTurn dir) n s) t (false, s')) : s'.retry ≤ 5 := by
  have hend := runs_iterate (I := fun s _ => s.retry ≤ 5) (h := [])
    (Q := fun l _ => l.1 = false → l.2.retry ≤ 5)
    (fun s _ t s' hs hr => ?_) (fun s _ t l hs hr he => ?_) hretry h
  · exact hend rfl
  · rcases turn_runs ok hr with h' | ⟨h₀, size, r, hr', h'⟩
    · cases h'
    · exact (afterTransfer_next (s := { s with size := size }) hr' h₀ hs h'.symm).1
  · rcases turn_runs ok hr with h' | ⟨h₀, size, r, hr', h'⟩
    · cases h'; exact hs
    · obtain ⟨e, s'⟩ := l
      rw [afterTransfer_done h'.symm] at he
      cases he

lemma rounds_return {s : ℕ × LargeMem} (hs : s.1 ≤ 4) (hretry : s.2.retry ≤ 5) :
    Returns (iterate (largeRound dir bufferLen) 5 s) := by
  refine returns_iterate (I := fun s => s.1 ≤ 4 ∧ s.2.retry ≤ 5) (μ := fun s => 4 - s.1)
    (fun s hs => ?_) (fun s t s' hs h => ?_) ⟨hs, hretry⟩ (by omega)
  · unfold largeRound
    split_ifs
    · refine returns_bind (turns_return ok hs.2 rfl) fun _ l _ => ?_
      dsimp only
      split_ifs <;> trivial
    · trivial
  · unfold largeRound at h
    split_ifs at h with hi
    · obtain ⟨⟨e, s₁⟩, t₁, t₂, rfl, hl, h'⟩ := runs_bind.mp h
      dsimp only at h'
      split_ifs at h' with hc
      · cases (runs_ret.mp h').2
      · cases (runs_ret.mp h').2
        push Not at hc
        have he : e = false := by simpa using hc.1
        subst he
        have hr := turns_retry (s := { s.2 with remain := bufferLen }) ok hs.2 hl
        refine ⟨⟨by dsimp only; omega, hr⟩, by dsimp only; omega⟩
    · cases (runs_ret.mp h).2

end Ends

/-- The loops of a large transfer call what its direction calls. -/
lemma calls_largeRound {dir : LargeDir} {G : Op → Prop}
    (hcommand : ∀ remain ts seq, Calls G (dir.command remain ts seq))
    (htransfer : ∀ buf off len, Calls G (dir.transfer buf off len)) (bufferLen : ℕ)
    (s : ℕ × LargeMem) : Calls G (largeRound dir bufferLen s) := by
  have htrans : ∀ s, Calls G (largeTransfer dir s) := fun s =>
    calls_bind (htransfer _ _ _) fun _ => trivial
  have hturn : ∀ s, Calls G (largeTurn dir s) := by
    intro s
    unfold largeTurn
    split_ifs
    · refine calls_bind (hcommand _ _ _) fun ret => ?_
      split_ifs
      · trivial
      · exact htrans _
    · exact htrans _
    · trivial
  unfold largeRound
  split_ifs
  · refine calls_bind (calls_iterate hturn _ _) fun l => ?_
    dsimp only
    split_ifs <;> trivial
  · trivial

/-! ### The two directions -/

/-- The bytes handed over are those the offset points at. -/
def WritePayload (buffer : Bytes) (offset : ℕ) (o : Op) : Prop :=
  ∃ h n, o = .bulkOut h amEpOut (slice buffer offset n) n 50000

/-- The bytes are asked for from the endpoint to the host. -/
def ReadPayload (_offset : ℕ) (o : Op) : Prop := ∃ h n, o = .bulkIn h amEpIn n 30000

variable {drv : AmlUsbDrv} {address cksum bufferLen : ℕ} {buffer : Bytes}

/-- The start command in the direction `doRead`, whatever the number it carries. -/
def Opening (doRead : Bool) (address size cksum bulkSize : ℕ) (o : Op) : Prop :=
  ∃ h seq, o = .controlOut h (largeSetup doRead size bulkSize)
    (le32 address ++ le32 size ++ le32 cksum ++ le32 seq) 50000

/-- The block length `AmlUsbReadLargeMem` asks for. -/
def readBlock (bufferLen : ℕ) : ℕ :=
  if 0x1000 ≤ min bufferLen 0x10000 then 0x1000 else min (min bufferLen 0x10000) 0x200

lemma readBlock_le (bufferLen : ℕ) : readBlock bufferLen ≤ 4096 := by
  unfold readBlock
  split_ifs <;> omega

lemma readBlock_pos {bufferLen : ℕ} (h : 0 < bufferLen) : 0 < readBlock bufferLen := by
  unfold readBlock
  split_ifs <;> omega

lemma startCommand_sat {req : ℕ} {moved : Event → Bytes} {payload : ℕ → Op → Prop}
    (doRead : Bool) (hreq : req = if doRead then amReqRdLargeMem else amReqWrLargeMem)
    (hmoved : ∀ h s d n r, moved ⟨.controlOut h s d n, r⟩ = []) {size seq bulkSize : ℕ}
    (h₀ : 0 < bulkSize) (h₁ : bulkSize ≤ 4096) {h : Trace} (hb : bulks h = 0)
    (hs : starts req h = 0) :
    Sat (fun h o => Allowed req moved bufferLen (Opening doRead address size cksum bulkSize) payload
        h o ∧ ¬ isBulk o)
      (fun h' ret => bulks h' = 0 ∧ movedBy moved h' = movedBy moved h ∧
        (starts req h' = if ret = 0 then 0 else 1) ∧ (Unbroken h → Unbroken h')) h
      (rwLargeMemCmd drv address size bulkSize cksum seq doRead) := by
  rcases rwLargeMemCmd_cases drv address size cksum seq h₀ h₁ doRead with hc | hc | ⟨hd, hc⟩
  · rw [hc]
    exact ⟨hb, rfl, hs, id⟩
  · rw [hc]
    exact keeps_segfault.mpr ⟨⟨nofun, nofun⟩, nofun⟩
  · rw [hc]
    refine ⟨⟨⟨nofun, fun _ => ⟨hb, hs, hd, seq, rfl⟩⟩, nofun⟩, fun r => ?_⟩
    have hr : requestAccepted req ⟨.controlOut hd (largeSetup doRead size bulkSize)
        (le32 address ++ le32 size ++ le32 cksum ++ le32 seq) 50000, r⟩ = r.status.isNone := by
      simp [requestAccepted, largeSetup, hreq]
    rw [keeps_ret, bulks_snoc, starts_snoc, movedBy_snoc, hmoved, hr, hb, hs, List.append_nil]
    refine ⟨rfl, rfl, ?_, fun hu => (unbroken_snoc _ _).mpr ⟨hu, nofun⟩⟩
    cases r.status <;> rfl

lemma startCommand_single {size seq bulkSize : ℕ} (h₀ : 0 < bulkSize) (h₁ : bulkSize ≤ 4096)
    (doRead : Bool) : Single (rwLargeMemCmd drv address size bulkSize cksum seq doRead) := by
  rcases rwLargeMemCmd_cases drv address size cksum seq h₀ h₁ doRead with hc | hc | ⟨hd, hc⟩
  · exact hc ▸ .inl ⟨_, rfl⟩
  · exact hc ▸ single_segfault
  · exact hc ▸ .inr ⟨_, _, rfl⟩

lemma writeDir_single (hw : drv.writeEp = amEpOut) :
    DirSingle (writeDir drv address cksum) where
  commandSingle remain seq h₀ := by
    have h₁ : 0 < min remain 0x1000 := by omega
    exact startCommand_single h₁ (by omega) false
  transferSingle buf off len := by
    dsimp only [writeDir]
    rcases writeBulkUsb_cases hw (buf.drop off) len with hc | hc | ⟨h, hc⟩
    · rw [hc]; exact .inl ⟨_, rfl⟩
    · rw [hc, segfault_bind]; exact single_segfault
    · rw [hc]; exact .inr ⟨_, _, rfl⟩
  transferBound buf off len t r hr := by
    dsimp only [writeDir] at hr
    rcases writeBulkUsb_cases hw (buf.drop off) len with hc | hc | ⟨h, hc⟩
    · rw [hc] at hr
      obtain ⟨-, rfl⟩ := runs_ret.mp hr
      exact le_refl _
    · rw [hc, segfault_bind] at hr
      obtain ⟨e, -⟩ := runs_call.mp hr
      exact e.elim
    · rw [hc] at hr
      obtain ⟨res, t', rfl, hr'⟩ := runs_call.mp hr
      obtain ⟨-, rfl⟩ := runs_ret.mp hr'
      dsimp only
      split_ifs <;> omega

lemma writeDir_ok (hw : drv.writeEp = amEpOut) (hlen : bufferLen ≤ buffer.length) :
    DirOk amReqWrLargeMem accepted (· = buffer) bufferLen
      (Opening false address (min bufferLen 0x10000) cksum (min bufferLen 0x1000))
      (WritePayload buffer) (writeDir drv address cksum) where
  toDirSingle := writeDir_single hw
  command h seq h₀ hb hs := by
    have h₁ : 0 < min bufferLen 0x1000 := by omega
    exact startCommand_sat false rfl (fun _ _ _ _ _ => rfl) h₁ (by omega) hb hs
  transfer h buf off len hbuf hs hm hle := by
    subst hbuf
    have hoff : (movedBy accepted h).length = off := by rw [hm, List.length_take]; omega
    dsimp only [writeDir]
    rcases writeBulkUsb_cases hw (buf.drop off) len with hc | hc | ⟨hd, hc⟩
    · rw [hc]
      exact ⟨rfl, hs, le_refl _, by omega, hm, fun hu _ => hu⟩
    · rw [hc, segfault_bind]
      exact keeps_segfault.mpr ⟨nofun, nofun⟩
    · rw [hc]
      refine ⟨⟨fun _ => ⟨hs, by rwa [hoff], hd, len, by rw [hoff]; rfl⟩, nofun⟩, fun r => ?_⟩
      have hio := usbBulkIo_le r.status r.actual
      have hact : ((r.actual : ℕ) : ℤ) ≤ len := by have := r.actual.isLt; omega
      set io := usbBulkIo r.status r.actual with hio'
      have hneg : (if io < 0 then -1 else io).toNat = io.toNat := by split_ifs <;> omega
      refine ⟨rfl, ?_, by split_ifs <;> omega, by split_ifs <;> omega, ?_, fun hu hne => ?_⟩
      · rw [starts_snoc, hs]; rfl
      · rw [movedBy_snoc, hm]
        dsimp only
        rw [hneg, List.take_add]
        congr 1
        exact take_slice (by omega)
      · refine (unbroken_snoc _ _).mpr ⟨hu, fun _ => decide_eq_false ?_⟩
        exact fun hlt => hne (if_pos hlt)

lemma readDir_single (hr : drv.readEp = amEpIn) :
    DirSingle (readDir drv address bufferLen cksum) where
  commandSingle remain seq h₀ := by
    dsimp only [readDir]
    refine startCommand_single ?_ ?_ true
    · split_ifs <;> omega
    · split_ifs <;> omega
  transferSingle buf off len := by
    dsimp only [readDir]
    rcases readBulkUsb_cases hr (buf.drop off) len with hc | hc | ⟨h, hc⟩
    · rw [hc]; exact .inl ⟨_, rfl⟩
    · rw [hc, segfault_bind]; exact single_segfault
    · rw [hc]; exact .inr ⟨_, _, rfl⟩
  transferBound buf off len t r hr' := by
    dsimp only [readDir] at hr'
    rcases readBulkUsb_cases hr (buf.drop off) len with hc | hc | ⟨h, hc⟩
    · rw [hc] at hr'
      obtain ⟨-, rfl⟩ := runs_ret.mp hr'
      exact le_refl _
    · rw [hc, segfault_bind] at hr'
      obtain ⟨e, -⟩ := runs_call.mp hr'
      exact e.elim
    · rw [hc] at hr'
      obtain ⟨res, t', rfl, hr''⟩ := runs_call.mp hr'
      obtain ⟨-, rfl⟩ := runs_ret.mp hr''
      dsimp only
      split_ifs <;> omega

lemma readDir_ok (hr : drv.readEp = amEpIn) (hlen : bufferLen ≤ buffer.length) :
    DirOk amReqRdLargeMem delivered (fun b => b.length = buffer.length) bufferLen
      (Opening true address bufferLen cksum (readBlock bufferLen)) ReadPayload
      (readDir drv address bufferLen cksum) where
  toDirSingle := readDir_single hr
  command h seq h₀ hb hs := by
    exact startCommand_sat true rfl (fun _ _ _ _ _ => rfl) (readBlock_pos h₀) (readBlock_le _)
      hb hs
  transfer h buf off len hbuf hs hm hle := by
    have hoff : (movedBy delivered h).length = off := by rw [hm, List.length_take]; omega
    dsimp only [readDir]
    rcases readBulkUsb_cases hr (buf.drop off) len with hc | hc | ⟨hd, hc⟩
    · rw [hc]
      refine ⟨?_, hs, le_refl _, by omega, ?_, fun hu _ => hu⟩
      · rw [List.take_append_drop]; exact hbuf
      · rw [List.take_append_drop]; exact hm
    · rw [hc, segfault_bind]
      exact keeps_segfault.mpr ⟨nofun, nofun⟩
    · rw [hc]
      refine ⟨⟨fun _ => ⟨hs, by rwa [hoff], hd, len, rfl⟩, nofun⟩, ?_⟩
      rintro ⟨status, data, hdata⟩
      have hio := usbBulkIo_le status data.length
      have hcases := usbBulkIo_cases status data.length
      have htake : (buf.take off).length = off := by rw [List.length_take]; omega
      have hdrop : (buf.drop off).length = buf.length - off := List.length_drop
      refine ⟨?_, ?_, ?_, ?_, ?_, fun hu hne => ?_⟩
      · dsimp only
        rw [List.length_append, blit_length (by omega), htake, hdrop]
        omega
      · rw [starts_snoc, hs]; rfl
      · dsimp only; split_ifs <;> omega
      · dsimp only; split_ifs <;> omega
      · have hneg : (if usbBulkIo status data.length < 0 then -1
            else usbBulkIo status data.length).toNat = (usbBulkIo status data.length).toNat := by
          split_ifs <;> omega
        rw [movedBy_snoc, hm]
        dsimp only
        rw [hneg, List.take_append, htake, Nat.add_sub_cancel_left, blit_zero,
          List.take_append_of_le_length (by omega),
          List.take_of_length_le (l := buf.take off) (by omega)]
        rfl
      · refine (unbroken_snoc _ _).mpr ⟨hu, fun _ => decide_eq_false ?_⟩
        exact fun hlt => hne (if_pos hlt)

/-! ### The two routines -/

/-- A large transfer is exact: its bulk transfers continue each other inside the buffer, after
one accepted start command, and what they moved is what the routine reports. -/
structure Exact (req : ℕ) (moved : Event → Bytes) (keeps : Bytes → Prop)
    (payload : ℕ → Op → Prop) (dir : AmlUsbDrv → LargeDir) (rom : AmlUsbRomRW)
    (p : Program (ℤ × AmlUsbRomRW × ℕ)) : Prop where
  bulk : ∀ t o k, Steps p t (.call o k) → isBulk o →
    starts req t = 1 ∧ ∃ drv s, Begins (.call o k) (largeTransfer (dir drv) s) ∧
      s.offset + s.remain = rom.bufferLen ∧ s.offset + bulkLen o ≤ rom.bufferLen ∧
      movedBy moved t = s.buffer.take s.offset ∧ keeps s.buffer ∧ payload s.offset o
  start : ∀ t o, Issues p t o → isRequest req o → bulks t = 0 ∧ starts req t = 0
  result : ∀ t ret rom' seqNum, Runs p t (ret, rom', seqNum) →
    movedBy moved t = rom'.buffer.take rom'.dataSize ∧ rom'.dataSize ≤ rom.bufferLen ∧
      keeps rom'.buffer ∧ (ret = 0 ↔ rom'.dataSize = rom.bufferLen)
  returns : Returns p

section Routine

variable {req : ℕ} {moved : Event → Bytes} {keeps : Bytes → Prop} {opening : Op → Prop}
  {payload : ℕ → Op → Prop} {dir : AmlUsbDrv → LargeDir} {rom : AmlUsbRomRW}
  (ok : ∀ handle, DirOk req moved keeps rom.bufferLen opening payload
    (dir ⟨rom.device, handle, amEpIn, amEpOut⟩))
  (hdev : rom.device ≠ .null) (hlen : rom.bufferLen ≤ rom.buffer.length)
  (hmoved : ∀ o r, ¬ isBulk o → moved ⟨o, r⟩ = []) (hkeeps : keeps rom.buffer)
  (hlength : ∀ b, keeps b → b.length = rom.buffer.length)
include hdev

/-- A routine for large transfers once the device has been asked to open. -/
def routine (dir : AmlUsbDrv → LargeDir) (seqNum : ℕ) (rom : AmlUsbRomRW) :
    Program (ℤ × AmlUsbRomRW × ℕ) :=
  .call (.libusbOpen rom.device) fun handle =>
    largeMem (dir ⟨rom.device, handle, amEpIn, amEpOut⟩) ⟨rom.device, handle, amEpIn, amEpOut⟩
      seqNum rom

include hmoved hkeeps in
omit hdev in
lemma waiting_open (handle : Resp (.libusbOpen rom.device)) (seqNum : ℕ) :
    Waiting req moved keeps (0, ⟨0, 0, -1, 0, seqNum, rom.buffer⟩)
      [⟨.libusbOpen rom.device, handle⟩] :=
  ⟨hkeeps, rfl, rfl, rfl, rfl, by simp [movedBy, hmoved, isBulk], by simp [Unbroken, isBulk]⟩

include hmoved hkeeps ok in
lemma routine_sat (seqNum : ℕ) :
    Sat (Allowed req moved rom.bufferLen opening payload)
      (fun t r => keeps r.2.1.buffer ∧ movedBy moved t = r.2.1.buffer.take r.2.1.dataSize ∧
        r.2.1.dataSize ≤ rom.bufferLen ∧ (r.1 = 0 ↔ r.2.1.dataSize = rom.bufferLen) ∧
        (r.2.1.dataSize = 0 ∨ starts req t = 1) ∧ (r.1 = 0 → Unbroken t)) []
      (routine dir seqNum rom) := by
  refine ⟨⟨nofun, nofun⟩, fun handle => sat_bind.mpr ?_⟩
  refine (rounds_sat (ok handle) (waiting_open hmoved hkeeps handle seqNum) 5).mono ?_
  rintro h s ⟨hk, hm, hb, hst, hu⟩
  refine keeps_closing hdev (fun _ => ⟨nofun, nofun⟩) fun hd _ =>
    ⟨⟨nofun, nofun⟩, hk, ?_, hb, ?_, by rwa [starts_snoc], fun hz => ?_⟩
  · rw [movedBy_snoc, hmoved _ _ (by simp [isBulk]), List.append_nil, hm]
  · dsimp only
    split_ifs with he
    · exact ⟨fun _ => he.symm, fun _ => rfl⟩
    · exact ⟨nofun, fun h => absurd h.symm he⟩
  · refine (unbroken_snoc _ _).mpr ⟨hu ?_, nofun⟩
    dsimp only at hz
    split_ifs at hz with he
    exact he.symm

include hmoved hkeeps ok in
lemma routine_bulk {seqNum : ℕ} {t : Trace} {o : Op}
    {k : Resp o → Program (ℤ × AmlUsbRomRW × ℕ)}
    (hs : Steps (routine dir seqNum rom) t (.call o k)) (ho : isBulk o) :
    ∃ drv s, Inv req moved keeps rom.bufferLen s t ∧
      Begins (.call o k) (largeTransfer (dir drv) s) := by
  rcases steps_call.mp hs with ⟨rfl, he⟩ | ⟨handle, t', rfl, hs'⟩
  · injection he with he _
    subst he
    cases ho
  · rcases steps_bind_call hs' with ⟨k', hs₁, rfl⟩ | ⟨s, t₁, t₂, rfl, -, hs₂⟩
    · obtain ⟨s, hI, hk⟩ :=
        rounds_steps (ok handle) (waiting_open hmoved hkeeps handle seqNum) hs₁ ho
      exact ⟨_, s, hI, hk.bind _⟩
    · have hclosing : ∀ a : ℤ × AmlUsbRomRW × ℕ, Sat (fun _ o => ¬ isBulk o) (fun _ _ => True) []
          (closeUsbDevice ⟨rom.device, handle, amEpIn, amEpOut⟩ >>= fun _ => .ret a) := fun a =>
        keeps_closing hdev (fun _ => nofun) fun _ _ => ⟨nofun, trivial⟩
      exact absurd ho ((hclosing _).issues ⟨k, hs₂⟩)

include ok in
lemma routine_returns (seqNum : ℕ) : Returns (routine dir seqNum rom) := by
  intro handle
  exact returns_bind (rounds_return (ok handle).toDirSingle (by norm_num) (by norm_num))
    fun t s _ =>
    returns_closing hdev

include hlen hmoved hkeeps hlength ok in
lemma routine_exact (seqNum : ℕ) :
    Exact req moved keeps payload dir rom (routine dir seqNum rom) := by
  have hsat := routine_sat ok hdev hmoved hkeeps seqNum
  refine ⟨fun t o k hs ho => ?_, fun t o hi ho => ?_, fun t ret rom' seqNum' hr => ?_,
    routine_returns ok hdev seqNum⟩
  · obtain ⟨hst, hle, hpay⟩ := (hsat.issues ⟨k, hs⟩).1 ho
    obtain ⟨drv, s, hI, hk⟩ := routine_bulk ok hdev hmoved hkeeps hs ho
    have hl := hlength _ hI.keeps
    have hrem := hI.remain
    have hoff : (movedBy moved t).length = s.offset := by
      rw [hI.moved, List.length_take]; omega
    rw [List.nil_append] at hst hle hpay
    rw [hoff] at hle hpay
    exact ⟨hst, drv, s, hk, hrem, hle, hI.moved, hI.keeps, hpay⟩
  · obtain ⟨hb, hs, -⟩ := (hsat.issues hi).2 ho
    exact ⟨hb, hs⟩
  · obtain ⟨hk, hm, hb, hret, -⟩ := hsat.runs hr
    exact ⟨hm, hb, hk, hret⟩

end Routine

/-- What does not go over the bulk endpoints moves nothing. -/
lemma accepted_other (o : Op) (r : Resp o) (ho : ¬ isBulk o) : accepted ⟨o, r⟩ = [] := by
  cases o <;> first | rfl | exact absurd rfl ho

lemma delivered_other (o : Op) (r : Resp o) (ho : ¬ isBulk o) : delivered ⟨o, r⟩ = [] := by
  cases o <;> first | rfl | exact absurd rfl ho

section Directions

variable {rom : AmlUsbRomRW} (hdev : rom.device ≠ .null) (seqNum : ℕ)
include hdev

lemma amlUsbWriteLargeMem_eq : amlUsbWriteLargeMem seqNum rom = routine
    (fun drv => writeDir drv rom.address (checksum rom.buffer (i32 rom.bufferLen))) seqNum
    rom := by
  rw [amlUsbWriteLargeMem, openUsbDevice_eq hdev]; rfl

lemma amlUsbReadLargeMem_eq : amlUsbReadLargeMem seqNum rom = routine
    (fun drv => readDir drv rom.address rom.bufferLen 0) (seqNum + 1) rom := by
  rw [amlUsbReadLargeMem, openUsbDevice_eq hdev]; rfl

omit hdev in
/-- A large transfer that reports success has moved everything. -/
lemma amlUsbWriteLargeMem_runs (hlen : rom.bufferLen ≤ rom.buffer.length) {t : Trace}
    {r : ℤ × AmlUsbRomRW × ℕ} (hr : Runs (amlUsbWriteLargeMem seqNum rom) t r) (hret : r.1 = 0) :
    t.flatMap accepted = rom.buffer.take rom.bufferLen ∧ Unbroken t := by
  by_cases hdev : rom.device = .null
  · rw [amlUsbWriteLargeMem, hdev, openUsbDevice_null] at hr
    obtain ⟨-, rfl⟩ := runs_ret.mp hr
    simp at hret
  rw [amlUsbWriteLargeMem_eq hdev] at hr
  obtain ⟨hbuf, hmoved, -, hiff, -, hu⟩ := (@routine_sat _ _ (· = rom.buffer) _ _ _ _
    (fun _ => writeDir_ok rfl hlen) hdev accepted_other rfl seqNum).runs hr
  rw [hiff.mp hret, hbuf] at hmoved
  exact ⟨hmoved, hu hret⟩

omit hdev in
lemma amlUsbReadLargeMem_runs (hlen : rom.bufferLen ≤ rom.buffer.length) {t : Trace}
    {r : ℤ × AmlUsbRomRW × ℕ} (hr : Runs (amlUsbReadLargeMem seqNum rom) t r) (hret : r.1 = 0) :
    r.2.1.dataSize = rom.bufferLen ∧ r.2.1.buffer.length = rom.buffer.length ∧
      t.flatMap delivered = r.2.1.buffer.take rom.bufferLen ∧ Unbroken t := by
  by_cases hdev : rom.device = .null
  · rw [amlUsbReadLargeMem, hdev, openUsbDevice_null] at hr
    obtain ⟨-, rfl⟩ := runs_ret.mp hr
    simp at hret
  rw [amlUsbReadLargeMem_eq hdev] at hr
  have hkeeps : (fun b : Bytes => b.length = rom.buffer.length) rom.buffer := rfl
  obtain ⟨hbuf, hmoved, -, hiff, -, hu⟩ :=
    (routine_sat (fun _ => readDir_ok rfl hlen) hdev delivered_other hkeeps (seqNum + 1)).runs hr
  rw [hiff.mp hret] at hmoved
  exact ⟨hiff.mp hret, hbuf, hmoved, hu hret⟩

end Directions

/-- **Large transfers are exact.** In both directions, and whatever the device answers, the
bytes moved are the first `dataSize` bytes of the buffer, after one start command; the result
is 0 when they are all. -/
theorem largeMem_exact (seqNum : ℕ) (rom : AmlUsbRomRW) (hdev : rom.device ≠ .null)
    (hlen : rom.bufferLen ≤ rom.buffer.length) :
    Exact amReqWrLargeMem accepted (· = rom.buffer) (WritePayload rom.buffer)
        (fun drv => writeDir drv rom.address (checksum rom.buffer (i32 rom.bufferLen))) rom
        (amlUsbWriteLargeMem seqNum rom) ∧
      Exact amReqRdLargeMem delivered (·.length = rom.buffer.length) ReadPayload
        (fun drv => readDir drv rom.address rom.bufferLen 0) rom
        (amlUsbReadLargeMem seqNum rom) := by
  rw [amlUsbWriteLargeMem_eq hdev, amlUsbReadLargeMem_eq hdev]
  refine ⟨?_, ?_⟩
  · refine routine_exact (fun _ => writeDir_ok rfl hlen) hdev hlen accepted_other ?_ ?_ seqNum
    · rfl
    · exact fun b hb => by rw [hb]
  · refine routine_exact (fun _ => readDir_ok rfl hlen) hdev hlen delivered_other ?_ ?_ (seqNum + 1)
    · rfl
    · exact fun b hb => hb

theorem largeMem_exact_two :
    Exact amReqWrLargeMem accepted (· = [1, 2]) (WritePayload [1, 2])
        (fun drv => writeDir drv 0 (checksum [1, 2] (i32 (2 : ℕ)))) ⟨.dev 0, 2, [1, 2], 0, 0⟩
        (amlUsbWriteLargeMem 0 ⟨.dev 0, 2, [1, 2], 0, 0⟩) ∧
      Exact amReqRdLargeMem delivered (·.length = 2) ReadPayload
        (fun drv => readDir drv 0 2 0) ⟨.dev 0, 2, [1, 2], 0, 0⟩
        (amlUsbReadLargeMem 0 ⟨.dev 0, 2, [1, 2], 0, 0⟩) :=
  largeMem_exact 0 ⟨.dev 0, 2, [1, 2], 0, 0⟩ (by decide) (by decide)

end AmlogicUpdate.LargeMem

import AmlogicUpdate.LargeMem

/-!
How long a large transfer can take.

Six bulk transfers at most go by for a byte: five empty ones and one that moves it, or a
sixth empty one that ends it all. What may be empty is counted in the retries, so the
transfers made and six for each byte that remains never exceed six for each byte and the
retries. A refused start command uses up one of four rounds and nothing else.
-/

namespace AmlogicUpdate.LargeMem

open Interaction CData Usb AmlLibusb UsbRomDrv Wire Checksum

/-- The number of start commands, accepted or refused. -/
def commands (req : ℕ) (t : Trace) : ℕ := t.countP fun e => isRequest req e.1

@[simp] lemma commands_nil (req : ℕ) : commands req [] = 0 := rfl
@[simp] lemma commands_snoc (req : ℕ) (t : Trace) (e : Event) :
    commands req (t ++ [e]) = commands req t + if isRequest req e.1 then 1 else 0 := by
  simp [commands, List.countP_append, List.countP_cons]

/-- When a call may still be made. -/
def Within (req bufferLen : ℕ) (h : Trace) (o : Op) : Prop :=
  (isRequest req o → commands req h < 4) ∧ (isBulk o → bulks h < 6 * bufferLen)

/-- Neither a start command nor a bulk transfer. -/
lemma within_other {req bufferLen : ℕ} {h : Trace} {o : Op} (hreq : isRequest req o = false)
    (hbulk : isBulk o = false) : Within req bufferLen h o :=
  ⟨fun he => absurd (hreq.symm.trans he) (by decide),
    fun he => absurd (hbulk.symm.trans he) (by decide)⟩

/-- A program of at most one call, of the kind `P`. -/
def One (P : Op → Prop) {α : Type} (p : Program α) : Prop :=
  (∃ a, p = .ret a) ∨ ∃ (o : Op) (f : Resp o → α), P o ∧ p = .call o fun r => .ret (f r)

lemma one_segfault {P : Op → Prop} (h : P .nullHandle) {α : Type} :
    One P (segfault : Program α) :=
  .inr ⟨.nullHandle, fun e => e.elim, h, by rw [segfault]; congr 1; funext e; exact e.elim⟩

/-- The start command is no bulk transfer, and the bulk transfer no start command. -/
structure DirKinds (req : ℕ) (dir : LargeDir) : Prop where
  command : ∀ remain seq, 0 < remain →
    One (isBulk · = false) (dir.command remain (min remain dir.chunk) seq)
  transfer : ∀ buf off len, One (isRequest req · = false) (dir.transfer buf off len)

section Loops

variable {req bufferLen : ℕ} {dir : LargeDir} (kinds : DirKinds req dir)

/-- The invariant of the inner loop in round `i`. -/
structure Counted (req bufferLen i : ℕ) (s : LargeMem) (h : Trace) : Prop where
  fresh : s.size = -1 → commands req h ≤ i ∧ bulks h = 0 ∧ s.remain = bufferLen ∧ s.retry = 0
  started : commands req h ≤ i + 1
  retry : s.retry ≤ 5
  bulks : bulks h + 6 * s.remain ≤ 6 * bufferLen + s.retry

/-- Before the round `s.1` as many start commands were refused and nothing else was done. -/
structure Refused (req : ℕ) (s : ℕ × LargeMem) (h : Trace) : Prop where
  size : s.2.size = -1
  retry : s.2.retry = 0
  commands : commands req h ≤ s.1
  bulks : bulks h = 0

/-- How the inner loop of round `i` is left. -/
def Over (req i : ℕ) (h : Trace) (l : Bool × LargeMem) : Prop :=
  ¬ l.1 → l.2.remain ≠ 0 → Refused req (i + 1, l.2) h

lemma Refused.counted {s : ℕ × LargeMem} {h : Trace} (hr : Refused req s h) :
    Counted req bufferLen s.1 { s.2 with remain := bufferLen } h := by
  obtain ⟨hsize, hretry, hcommands, hbulks⟩ := hr
  refine ⟨fun _ => ⟨hcommands, hbulks, rfl, hretry⟩, by omega, ?_, ?_⟩
  · dsimp only
    omega
  · dsimp only
    omega

/-- A bulk transfer either moves a byte or uses up a retry. -/
lemma afterTransfer_counted {i : ℕ} {s : LargeMem} {h : Trace} {r : ℤ × Bytes}
    (hI : Counted req bufferLen i s h) (hsize : s.size ≠ -1) (hremain : 0 < s.remain)
    (hr : -1 ≤ r.1) {h' : Trace} (hcommands : commands req h' = commands req h)
    (hbulks : bulks h' ≤ bulks h + 1) :
    (afterTransfer dir s r).Sat (Counted req bufferLen i) (Over req i) h' := by
  obtain ⟨-, hstarted, hretry, hcount⟩ := hI
  have hretry' : (if r.1 ≠ 0 then 0 else s.retry + 1) ≤ s.retry + 1 := by split_ifs <;> omega
  have hmoved : r.1 ≠ 0 → (if r.1 ≠ 0 then 0 else s.retry + 1) = 0 := fun hne => if_pos hne
  have hempty : r.1 = 0 → (if r.1 ≠ 0 then 0 else s.retry + 1) = s.retry + 1 :=
    fun hz => if_neg (not_not.mpr hz)
  unfold afterTransfer
  dsimp only
  generalize (if r.1 ≠ 0 then 0 else s.retry + 1) = retry at hretry' hmoved hempty ⊢
  split_ifs with h₁ h₂
  · exact fun he => absurd rfl he
  · exact fun he => absurd rfl he
  · refine ⟨fun he => absurd he hsize, by omega, ?_, ?_⟩
    · dsimp only
      omega
    · dsimp only
      omega

include kinds

lemma transfer_counts (single : DirSingle dir) {i : ℕ} {s : LargeMem} {h : Trace}
    (hI : Counted req bufferLen i s h) (hsize : s.size ≠ -1) (hremain : 0 < s.remain) :
    Sat (Within req bufferLen) (fun h' l => l.Sat (Counted req bufferLen i) (Over req i) h') h
      (largeTransfer dir s) := by
  have hbound := single.transferBound s.buffer s.offset (min s.remain dir.chunk)
  rcases kinds.transfer s.buffer s.offset (min s.remain dir.chunk) with ⟨a, ha⟩ | ⟨o, f, ho, hf⟩
  · have ha' : -1 ≤ a.1 := hbound [] a (by rw [ha]; exact .ret a)
    rw [largeTransfer, ha]
    exact afterTransfer_counted hI hsize hremain ha' rfl (Nat.le_succ _)
  · rw [largeTransfer, hf]
    have hlt : bulks h < 6 * bufferLen := by
      have := hI.bulks
      have := hI.retry
      omega
    refine ⟨⟨fun he => absurd (ho.symm.trans he) (by decide), fun _ => hlt⟩, fun r => ?_⟩
    have hr : -1 ≤ (f r).1 := hbound [⟨o, r⟩] (f r) (by rw [hf]; exact .call r (.ret _))
    refine afterTransfer_counted hI hsize hremain hr ?_ ?_
    · rw [commands_snoc, ho]
      rfl
    · rw [bulks_snoc]
      dsimp only
      split_ifs <;> omega

lemma turn_counts (single : DirSingle dir) {i : ℕ} (hi : i < 4) {s : LargeMem} {h : Trace}
    (hI : Counted req bufferLen i s h) :
    Sat (Within req bufferLen) (fun h' l => l.Sat (Counted req bufferLen i) (Over req i) h') h
      (largeTurn dir s) := by
  unfold largeTurn
  split_ifs with h₀ h₁
  · -- the start command of this round
    obtain ⟨hcommands, hbulks, hremain, hretry⟩ := hI.fresh h₁
    have hafter : ∀ h' ret, commands req h' ≤ commands req h + 1 → bulks h' = bulks h →
        Sat (Within req bufferLen) (fun h' l => l.Sat (Counted req bufferLen i) (Over req i) h') h'
          (if ret = 0 then pure (.done (false, s))
            else largeTransfer dir { s with size := dir.mark s.remain }) := by
      intro h' ret hc hb
      split_ifs with h₂
      · exact fun _ _ => ⟨h₁, hretry, by dsimp only; omega, by omega⟩
      · have hne : ((dir.mark s.remain : ℕ) : ℤ) ≠ -1 := by omega
        refine transfer_counts kinds single ⟨fun he => absurd he hne, by omega, hI.retry, ?_⟩ hne h₀
        dsimp only
        omega
    rcases kinds.command s.remain s.seqNum h₀ with ⟨a, ha⟩ | ⟨o, f, ho, hf⟩
    · rw [ha]
      exact hafter h a (Nat.le_succ _) rfl
    · rw [hf]
      refine ⟨⟨fun _ => by omega, fun he => absurd (ho.symm.trans he) (by decide)⟩, fun r => ?_⟩
      refine hafter _ _ ?_ ?_
      · rw [commands_snoc]
        dsimp only
        split_ifs <;> omega
      · rw [bulks_snoc]
        dsimp only
        rw [ho]
        rfl
  · exact transfer_counts kinds single hI h₁ h₀
  · have hzero : s.remain = 0 := by omega
    exact fun _ hne => absurd hzero hne

lemma round_counts (single : DirSingle dir) {s : ℕ × LargeMem} {h : Trace}
    (hr : Refused req s h) :
    Sat (Within req bufferLen) (fun h' l => l.Sat (Refused req) (fun _ _ => True) h') h
      (largeRound dir bufferLen s) := by
  unfold largeRound
  split_ifs with hi
  · refine sat_bind.mpr ((sat_iterate (I := Counted req bufferLen s.1) (fun _ _ hI =>
      turn_counts kinds single hi hI) hr.counted).mono fun h' r hover => ?_)
    obtain ⟨toEnd, s'⟩ := r
    dsimp only
    split_ifs with he
    · trivial
    · push Not at he
      exact hover he.1 he.2
  · trivial

end Loops

/-! ### The two routines -/

/-- A routine for large transfers always comes to its end, and soon enough. -/
structure Ends (req bufferLen : ℕ) {α : Type} (p : Program α) : Prop where
  returns : Returns p
  answered : ∀ answer : Trace → (o : Op) → Option (Resp o),
    (∀ t o, Issues p t o → (answer t o).isSome) → ∃ a t, exec (recorded answer) [] p = some (a, t)
  commands : ∀ t q, Steps p t q → commands req t ≤ 4
  transfers : ∀ t q, Steps p t q → bulks t ≤ 6 * bufferLen

lemma ends_of_sat {req bufferLen : ℕ} {α : Type} {p : Program α} (hret : Returns p)
    (hp : Sat (Within req bufferLen) (fun _ _ => True) [] p) : Ends req bufferLen p where
  returns := hret
  answered answer hanswer := hret.exec answer hanswer
  commands _ _ hs := hp.count_le (c := isRequest req) (fun _ _ hG => hG.1) (Nat.zero_le _) hs
  transfers _ _ hs := hp.count_le (c := isBulk) (fun _ _ hG => hG.2) (Nat.zero_le _) hs

lemma routine_counts {req : ℕ} {dir : AmlUsbDrv → LargeDir} {rom : AmlUsbRomRW}
    (kinds : ∀ handle, DirKinds req (dir ⟨rom.device, handle, amEpIn, amEpOut⟩))
    (single : ∀ handle, DirSingle (dir ⟨rom.device, handle, amEpIn, amEpOut⟩))
    (hdev : rom.device ≠ .null) (seqNum : ℕ) :
    Sat (Within req rom.bufferLen) (fun _ _ => True) [] (routine dir seqNum rom) := by
  refine ⟨within_other rfl rfl, fun handle => sat_bind.mpr ?_⟩
  have hstart : Refused req (0, ⟨0, 0, -1, 0, seqNum, rom.buffer⟩)
      ([] ++ [⟨.libusbOpen rom.device, handle⟩]) := ⟨rfl, rfl, Nat.zero_le _, rfl⟩
  refine (sat_iterate (I := Refused req) (fun _ _ hr =>
    round_counts (kinds handle) (single handle) hr) hstart).mono fun h s _ => ?_
  exact keeps_closing hdev (fun _ => within_other rfl rfl) fun _ _ =>
    ⟨within_other rfl rfl, trivial⟩

section Directions

variable {drv : AmlUsbDrv} {address cksum bufferLen : ℕ}

lemma startCommand_one {size seq bulkSize : ℕ} (h₀ : 0 < bulkSize) (h₁ : bulkSize ≤ 4096)
    (doRead : Bool) :
    One (isBulk · = false) (rwLargeMemCmd drv address size bulkSize cksum seq doRead) := by
  rcases rwLargeMemCmd_cases drv address size cksum seq h₀ h₁ doRead with hc | hc | ⟨hd, hc⟩
  · exact hc ▸ .inl ⟨_, rfl⟩
  · exact hc ▸ one_segfault (P := (isBulk · = false)) rfl
  · exact hc ▸ .inr ⟨_, _, rfl, rfl⟩

lemma writeDir_kinds (hw : drv.writeEp = amEpOut) :
    DirKinds amReqWrLargeMem (writeDir drv address cksum) where
  command remain seq h₀ := by
    have h₁ : 0 < min remain 0x1000 := by omega
    exact startCommand_one h₁ (by omega) false
  transfer buf off len := by
    dsimp only [writeDir]
    rcases writeBulkUsb_cases hw (buf.drop off) len with hc | hc | ⟨h, hc⟩
    · rw [hc]; exact .inl ⟨_, rfl⟩
    · rw [hc, segfault_bind]; exact one_segfault (P := (isRequest amReqWrLargeMem · = false)) rfl
    · rw [hc]; exact .inr ⟨_, _, rfl, rfl⟩

lemma readDir_kinds (hr : drv.readEp = amEpIn) :
    DirKinds amReqRdLargeMem (readDir drv address bufferLen cksum) where
  command remain seq h₀ := by
    dsimp only [readDir]
    refine startCommand_one ?_ ?_ true
    · split_ifs <;> omega
    · split_ifs <;> omega
  transfer buf off len := by
    dsimp only [readDir]
    rcases readBulkUsb_cases hr (buf.drop off) len with hc | hc | ⟨h, hc⟩
    · rw [hc]; exact .inl ⟨_, rfl⟩
    · rw [hc, segfault_bind]; exact one_segfault (P := (isRequest amReqRdLargeMem · = false)) rfl
    · rw [hc]; exact .inr ⟨_, _, rfl, rfl⟩

end Directions

/-- **Large transfers end.** Whatever the device answers, in either direction, there are at most
four start commands and six bulk transfers for each byte. -/
theorem largeMem_ends (seqNum : ℕ) (rom : AmlUsbRomRW) :
    Ends amReqWrLargeMem rom.bufferLen (amlUsbWriteLargeMem seqNum rom) ∧
      Ends amReqRdLargeMem rom.bufferLen (amlUsbReadLargeMem seqNum rom) := by
  by_cases hdev : rom.device = .null
  · rw [amlUsbWriteLargeMem, amlUsbReadLargeMem, hdev, openUsbDevice_null]
    exact ⟨ends_of_sat trivial trivial, ends_of_sat trivial trivial⟩
  rw [amlUsbWriteLargeMem_eq hdev, amlUsbReadLargeMem_eq hdev]
  refine ⟨ends_of_sat (fun handle => ?_) ?_, ends_of_sat (fun handle => ?_) ?_⟩
  · exact returns_bind (rounds_return (writeDir_single rfl) (by norm_num) (by norm_num))
      fun t s _ => returns_closing hdev
  · exact routine_counts (fun _ => writeDir_kinds rfl) (fun _ => writeDir_single rfl) hdev seqNum
  · exact returns_bind (rounds_return (readDir_single rfl) (by norm_num) (by norm_num))
      fun t s _ => returns_closing hdev
  · exact routine_counts (fun _ => readDir_kinds rfl) (fun _ => readDir_single rfl) hdev
      (seqNum + 1)

end AmlogicUpdate.LargeMem

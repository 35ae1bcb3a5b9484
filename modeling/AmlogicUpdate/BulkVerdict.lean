import AmlogicUpdate.BulkCmd

/-!
What a bulk command is judged by: the first reply that is not a busy one.

One buffer takes every reply and is never cleared, and it is looked at again after the loop,
whatever ended that. A reply is only looked at as far as it goes, and when the time is up the
buffer still begins with a busy reply.
-/

namespace AmlogicUpdate.BulkCmd

open Interaction CData Usb AmlLibusb UsbRomDrv Wire Media

def isBulkIn : Op → Bool
  | .bulkIn .. => true
  | _ => false

/-- The readings of the clock. -/
def clocks (t : Trace) : List ℤ := t.filterMap clockOf

/-- The time from the first reading to the last. -/
def elapsed (t : Trace) : ℤ := (clocks t).getLastD 0 - (clocks t).headD 0

/-- A reply that is not a busy one. -/
def isAnswer (e : Event) : Bool := isBulkIn e.1 && !isBusy34 e

/-- The first answer was asked for in time, and says that the command succeeded. -/
def TellsSuccess (t : Trace) : Prop :=
  ∃ h e h', t = h ++ e :: h' ∧ (∀ x ∈ h, isAnswer x = false) ∧ isAnswer e ∧
    elapsed h < 20 * 60 * 1000 ∧ isSuccess e

/-- The device opened, the command was accepted, and the first answer says that it succeeded. -/
structure Succeeded (dev : Device) (t : Trace) : Prop where
  opened : ∃ hd : Handle, (⟨.libusbOpen dev, some hd⟩ : Event) ∈ t
  accepted : ∃ e ∈ t, requestAccepted amReqBulkCmd e
  answer : TellsSuccess t

/-! ### The first answer -/

lemma find_first {h h' : Trace} {e : Event} (hh : ∀ x ∈ h, isAnswer x = false)
    (he : isAnswer e) : (h ++ e :: h').find? isAnswer = some e := by
  have hnone : h.find? isAnswer = none :=
    List.find?_eq_none.mpr fun x hx hans => Bool.false_ne_true ((hh x hx).symm.trans hans)
  rw [List.find?_append, hnone, Option.none_or, List.find?_cons_of_pos he]

lemma no_answer_snoc {t : Trace} {e : Event} (ht : ∀ x ∈ t, isAnswer x = false)
    (he : isAnswer e = false) : ∀ x ∈ t ++ [e], isAnswer x = false := by
  intro x hx
  rcases List.mem_append.mp hx with hx | hx
  · exact ht x hx
  · rwa [List.mem_singleton.mp hx]

lemma no_answer_tells {t : Trace} (ht : ∀ x ∈ t, isAnswer x = false) : ¬ TellsSuccess t := by
  rintro ⟨h, e, h', rfl, -, he, -⟩
  have hno := ht e (by simp)
  rw [he] at hno
  cases hno

lemma tells_iff {h h' : Trace} {e : Event} (hh : ∀ x ∈ h, isAnswer x = false)
    (he : isAnswer e) (htime : elapsed h < 20 * 60 * 1000) :
    TellsSuccess (h ++ e :: h') ↔ isSuccess e := by
  constructor
  · rintro ⟨h₂, e₂, h₂', heq, hh₂, he₂, -, hs⟩
    have hfirst : (h ++ e :: h').find? isAnswer = some e := find_first hh he
    rw [heq, find_first hh₂ he₂] at hfirst
    rwa [← Option.some.inj hfirst]
  · exact fun hs => ⟨h, e, h', rfl, hh, he, htime, hs⟩

lemma Waits.no_answer {w : Trace} (hw : Waits w) : ∀ x ∈ w, isAnswer x = false := by
  intro x hx
  rcases hw x hx with hbusy | hclock
  · rw [isAnswer, hbusy]
    exact Bool.and_false _
  · obtain ⟨o, r⟩ := x
    cases o <;> first | rfl | cases hclock

/-! ### The polling -/

/-- The invariant of the polling loop that began after `base`. -/
structure Polling (base : Trace) (start : ℤ) (s : BulkPoll) (h : Trace) : Prop where
  success : s.success = true
  time : s.curTime = start ∨ strBusy34 <+: s.buf
  waits : ∃ w, h = base ++ w ∧ Waits w
  clocks : ∃ cs, clocks h = start :: cs ∧ (start :: cs).getLastD 0 = s.curTime

/-- A polling that has come to its end: the time was up, or there is an answer. -/
def Concluded (base h : Trace) (s : BulkPoll) : Prop :=
  ∃ w, Waits w ∧
    ((h = base ++ w ∧ ¬ (s.success = true ∧ strSuccess <+: s.buf)) ∨
      ∃ e, h = base ++ w ++ [e] ∧ isAnswer e ∧ elapsed (base ++ w) < 20 * 60 * 1000 ∧
        (s.success = true ∧ strSuccess <+: s.buf ↔ isSuccess e))

lemma clocks_snoc (t : Trace) (e : Event) : clocks (t ++ [e]) = clocks t ++ (clockOf e).toList := by
  rw [clocks, List.filterMap_append]
  cases h : clockOf e <;> simp [clocks, h]

lemma Polling.elapsed {base h : Trace} {start : ℤ} {s : BulkPoll} (hp : Polling base start s h) :
    elapsed h = s.curTime - start := by
  obtain ⟨cs, hcs, hlast⟩ := hp.clocks
  rw [BulkCmd.elapsed, hcs, hlast, List.headD_cons]

section Poll

variable {base h : Trace} {start : ℤ} {s : BulkPoll}

lemma bulkPollTurn_concludes {dev : Device} (hdev : dev ≠ .invalid) (hd : Handle)
    (hp : Polling base start s h) :
    Sat (fun _ _ => True) (fun h' l => l.Sat (Polling base start) (Concluded base) h') h
      (bulkPollTurn ⟨dev, some hd, amEpIn, amEpOut⟩ start s) := by
  have helapsed := hp.elapsed
  obtain ⟨hsucc, htime, ⟨w, hh, hw⟩, cs, hcs, -⟩ := hp
  unfold bulkPollTurn
  by_cases hlt : s.curTime - start < 20 * 60 * 1000
  swap
  · -- the time is up while the device is still busy
    rw [if_neg hlt]
    have hbusy : strBusy34 <+: s.buf := htime.resolve_left (by omega)
    exact ⟨w, hw, .inl ⟨hh, fun hs => not_success_of_busy hbusy hs.2⟩⟩
  rw [if_pos hlt]
  refine keeps_bind.mpr ?_
  rw [readBulkUsb_eq hdev]
  refine ⟨trivial, fun r => ?_⟩
  simp only [keeps_ret]
  rw [← helapsed, hh] at hlt
  rcases bulkRead_cases hd s.buf r with ⟨hshort, hbusy, hanswer⟩ | ⟨hlong, hbusy, hanswer⟩
  · rw [if_pos hshort]
    refine ⟨w, hw, .inr ⟨_, by rw [hh], ?_, hlt, ?_⟩⟩
    · rw [isAnswer, hbusy]
      rfl
    · rw [hanswer]
      simp
  rw [if_neg hlong, strBusy34_length]
  by_cases hb : strBusy34 <+: blit s.buf 0 r.data.1
  · -- busy: the clock is read and the wait goes on
    rw [if_neg (not_not.mpr ((strncmp_busy34 _).mpr hb))]
    refine ⟨trivial, fun c : ℤ => ⟨hsucc, .inr hb, ⟨w ++ [⟨.bulkIn hd amEpIn 0x200 30000, r⟩,
      ⟨.clock, c⟩], ?_, ?_⟩, cs ++ [c], ?_, ?_⟩⟩
    · rw [hh]
      simp
    · intro x hx
      simp only [List.mem_append, List.mem_cons, List.not_mem_nil, or_false] at hx
      rcases hx with hx | rfl | rfl
      · exact hw x hx
      · exact .inl (hbusy.mp hb)
      · exact .inr rfl
    · rw [clocks_snoc, clocks_snoc, hcs]
      simp [clockOf]
    · rw [← List.cons_append, List.getLastD_concat]
  · rw [if_pos fun hz => hb ((strncmp_busy34 _).mp hz)]
    refine ⟨w, hw, .inr ⟨_, by rw [hh], ?_, hlt, ?_⟩⟩
    · rw [isAnswer, Bool.eq_false_iff.mpr fun he => hb (hbusy.mpr he)]
      rfl
    · rw [← hanswer]
      exact and_iff_right hsucc

lemma bulkPolls_conclude {dev : Device} (hdev : dev ≠ .invalid) (hd : Handle) (turns : ℕ)
    (hp : Polling base start s h) :
    Sat (fun _ _ => True) (Concluded base) h
      (iterate (bulkPollTurn ⟨dev, some hd, amEpIn, amEpOut⟩ start) turns s) :=
  sat_iterate (fun _ _ hp => bulkPollTurn_concludes hdev hd hp) hp

/-- What a polling that has ended tells, from what the buffer holds at its end. -/
lemma Concluded.tells_iff (hc : Concluded base h s) (hbase : ∀ x ∈ base, isAnswer x = false)
    {e : Event} (he : isAnswer e = false) :
    TellsSuccess (h ++ [e]) ↔ s.success = true ∧ strSuccess <+: s.buf := by
  obtain ⟨w, hw, ⟨rfl, hno⟩ | ⟨x, rfl, hx, htime, hiff⟩⟩ := hc
  · refine iff_of_false (no_answer_tells (no_answer_snoc (fun y hy => ?_) he)) hno
    rcases List.mem_append.mp hy with hy | hy
    · exact hbase y hy
    · exact hw.no_answer y hy
  · rw [hiff, List.append_assoc]
    refine BulkCmd.tells_iff (fun y hy => ?_) hx htime
    rcases List.mem_append.mp hy with hy | hy
    · exact hbase y hy
    · exact hw.no_answer y hy

/-- The polling begins with a reading of the clock, and none before it. -/
lemma polling_first (hbase : clocks base = []) (start : ℤ) (buf : Bytes) :
    Polling base start ⟨start, true, buf⟩ (base ++ [⟨.clock, start⟩]) := by
  refine ⟨rfl, .inl rfl, ⟨[⟨.clock, start⟩], rfl, ?_⟩, [], ?_, rfl⟩
  · intro x hx
    rw [List.mem_singleton.mp hx]
    exact .inr rfl
  · rw [clocks_snoc, hbase]
    rfl

lemma Concluded.begins (hc : Concluded base h s) : base <+: h := by
  obtain ⟨w, -, ⟨rfl, -⟩ | ⟨x, rfl, -⟩⟩ := hc
  · exact List.prefix_append _ _
  · exact (List.prefix_append base w).trans (List.prefix_append _ _)

/-- After a command that was accepted, the buffer at the end tells whether it succeeded. -/
lemma Concluded.verdict (hc : Concluded base h s) (hbase : ∀ x ∈ base, isAnswer x = false)
    {dev : Device} {hd : Handle} (hopened : (⟨.libusbOpen dev, some hd⟩ : Event) ∈ base)
    (haccepted : ∃ e ∈ base, requestAccepted amReqBulkCmd e) {e : Event} (he : isAnswer e = false) :
    Succeeded dev (h ++ [e]) ↔ s.success = true ∧ strSuccess <+: s.buf := by
  have htells := hc.tells_iff hbase he
  have hmem : ∀ x ∈ base, x ∈ h ++ [e] := fun x hx =>
    List.mem_append_left _ (hc.begins.subset hx)
  obtain ⟨c, hc, hreq⟩ := haccepted
  refine ⟨fun hs => htells.mp hs.answer, fun hs => ?_⟩
  exact ⟨⟨hd, hmem _ hopened⟩, ⟨c, hmem c hc, hreq⟩, htells.mpr hs⟩

end Poll

/-! ### The command -/

lemma not_succeeded {dev : Device} {t : Trace} (ht : ∀ x ∈ t, isAnswer x = false) {z : ℤ}
    (hz : z ≠ 0) : z = 0 ↔ Succeeded dev t :=
  iff_of_false hz fun h => no_answer_tells ht h.answer

lemma amlUsbBulkCmd_judges (turns : ℕ) (rom : AmlUsbRomRW) :
    Sat (fun _ _ => True) (fun t r => r.1 = 0 ↔ Succeeded rom.device t) []
      (amlUsbBulkCmd turns rom) := by
  have hnothing : ∀ x ∈ ([] : Trace), isAnswer x = false := fun x hx => absurd hx List.not_mem_nil
  have hopened : ∀ handle, ∀ x ∈ ([⟨.libusbOpen rom.device, handle⟩] : Trace),
      isAnswer x = false := fun _ => no_answer_snoc hnothing rfl
  have hsent : ∀ hd r, ∀ x ∈ ([⟨.libusbOpen rom.device, some hd⟩] ++
      [commandEvent hd rom.buffer r] : Trace), isAnswer x = false :=
    fun hd r => no_answer_snoc (hopened _) rfl
  refine amlUsbBulkCmd_sat turns rom (fun _ _ _ => trivial) (fun _ _ _ => trivial)
    (not_succeeded hnothing (by simp))
    (fun handle _ _ => not_succeeded (no_answer_snoc (hopened handle) rfl) (by simp))
    (fun hd r _ _ => not_succeeded (no_answer_snoc (hsent hd r) rfl) (by simp))
    fun hdev hd r start hacc => ?_
  have hp := @polling_first ([⟨.libusbOpen rom.device, some hd⟩] ++
    [commandEvent hd rom.buffer r]) rfl start (List.replicate 0x200 0)
  refine (bulkPolls_conclude hdev hd turns hp).mono fun h' p hc hclosed rom' => ?_
  have hverdict : Succeeded rom.device (h' ++ [⟨.libusbClose hclosed, ()⟩]) ↔
      p.success = true ∧ strSuccess <+: p.buf :=
    hc.verdict (hsent hd r) List.mem_cons_self ⟨_, by simp, hacc⟩ rfl
  dsimp only
  rw [hverdict, ← strncmp_success]
  split_ifs with hok
  · exact iff_of_true rfl hok
  · exact iff_of_false (by decide) hok

/-- **A bulk command returns 0 exactly on success**: the device opened, the command was accepted,
and the first reply that is not a busy one, asked for before the deadline, says `success`. What
earlier replies left in the buffer does not matter. -/
theorem bulkCmd_zero_iff (turns : ℕ) (rom : AmlUsbRomRW) {t : Trace} {r : ℤ × AmlUsbRomRW}
    (hr : Runs (amlUsbBulkCmd turns rom) t r) : r.1 = 0 ↔ Succeeded rom.device t :=
  (amlUsbBulkCmd_judges turns rom).runs hr

/-- A device that is busy once, with a long reply, and then says `success`. -/
def busyOnce (h : Trace) : (o : Op) → Option (Resp o)
  | .libusbOpen _ => some (some (0 : ℕ))
  | .libusbClose _ => some ()
  | .controlOut _ s _ _ => some ⟨none, Fin.last s.wLength⟩
  | .clock => some ((h.length : ℤ) * 1000)
  | .bulkIn _ _ n _ =>
    if h.any fun e => isBulkIn e.1 then
      some ⟨none, (strSuccess ++ [58, 40, 41, 0]).take n, by
        rw [List.length_take]; exact Nat.min_le_left _ _⟩
    else some ⟨none, (strBusy34 ++ strSuccess ++ strSuccess).take n, by
        rw [List.length_take]; exact Nat.min_le_left _ _⟩
  | _ => none

set_option maxRecDepth 20000 in
theorem bulkCmd_zero_iff_busy :
    ∃ t r, Runs (amlUsbBulkCmd 3 ⟨.dev 0, 68, List.replicate 68 0, 0, 0⟩) t r ∧ r.1 = 0 ∧
      Succeeded (.dev 0) t := by
  have hrun : ∃ t r, Runs (amlUsbBulkCmd 3 ⟨.dev 0, 68, List.replicate 68 0, 0, 0⟩) t r ∧ r.1 = 0 :=
    ⟨_, _, exec_recorded busyOnce rfl, rfl⟩
  obtain ⟨t, r, hr, hzero⟩ := hrun
  exact ⟨t, r, hr, hzero, (bulkCmd_zero_iff 3 _ hr).mp hzero⟩

end AmlogicUpdate.BulkCmd

import AmlogicUpdate.Wire
import AmlogicUpdate.Update

/-!
Writing an image block by block: `WriteMediaFile` over `AmlWriteMedia`.

What may be sent at a point is read off the history alone: the number of acknowledgements
received says which block is due, and the headers since the last one how often it has been
tried.
-/

namespace AmlogicUpdate.Media

open Interaction CData Usb AmlLibusb UsbRomDrv Update Wire Checksum

/-! ### Replies -/

/-- What a bulk transfer from the device that did not fail has brought. -/
def reply : Event → Option Bytes
  | ⟨.bulkIn _ _ n _, r⟩ =>
    have r : InResult n := r
    if 0 ≤ usbBulkIo r.status r.data.1.length then some r.data.1 else none
  | _ => none

/-- A reply that is long enough to be looked at. -/
def isReply (p : Bytes → Bool) (e : Event) : Bool :=
  (reply e).any fun b => 11 ≤ b.length && p b

def isAck : Event → Bool := isReply fun b => strOk.isPrefixOf b
def isBusy : Event → Bool := isReply fun b => strBusy32.isPrefixOf b
def isNack : Event → Bool :=
  isReply fun b => !strBusy32.isPrefixOf b && !strOk.isPrefixOf b

/-- A header handed to the device, whatever comes of it. -/
def isHeader (e : Event) : Bool := isRequest amReqWriteMedia e.1

def isPayload : Event → Bool
  | ⟨.bulkOut .., _⟩ => true
  | _ => false

def clockOf : Event → Option ℤ
  | ⟨.clock, c⟩ => some c
  | _ => none

/-! ### What the history says -/

/-- The number of blocks acknowledged. -/
def acks (h : Trace) : ℕ := h.countP isAck
/-- How often the block that is due has been tried. -/
def attempts (h : Trace) : ℕ := (since isAck h).countP isHeader
/-- When the wait for a reply to the last payload began. -/
def startTime (h : Trace) : Option ℤ := (since isPayload h).findSome? clockOf

/-- Neither a busy reply nor a look at the clock. -/
def endsWait (e : Event) : Bool := !isBusy e && (clockOf e).isNone

/-- The number of busy replies in a row at the end. -/
def waits (h : Trace) : ℕ := (since endsWait h).countP isBusy

/-- The last attempt came to nothing: a reply that is neither busy nor an acknowledgement, or
twelve minutes of busy replies. -/
def MayRetry (h : Trace) : Prop :=
  (∃ h₀ e, h = h₀ ++ [e] ∧ isNack e) ∨
    ∃ h₀ e c start, h = h₀ ++ [e, ⟨.clock, c⟩] ∧ isBusy e ∧ startTime h = some start ∧
      12 * 60 * 1000 ≤ c - start

/-- There was a point where the block that is due might be tried again. -/
def Refused (h : Trace) : Prop := ∃ h₀, h₀ <+: h ∧ MayRetry h₀

lemma acks_snoc (h : Trace) (e : Event) :
    acks (h ++ [e]) = acks h + if isAck e then 1 else 0 := by
  simp [acks, List.countP_append, List.countP_cons]

lemma attempts_snoc (h : Trace) (e : Event) :
    attempts (h ++ [e]) = if isAck e then 0 else attempts h + if isHeader e then 1 else 0 := by
  unfold attempts
  rw [since_snoc]
  cases isAck e <;> simp [List.countP_append, List.countP_cons]

lemma startTime_snoc (h : Trace) (e : Event) :
    startTime (h ++ [e]) = if isPayload e then none else (startTime h).or (clockOf e) := by
  unfold startTime
  rw [since_snoc]
  cases isPayload e with
  | true => rfl
  | false =>
    simp only [Bool.false_eq_true, if_false, List.findSome?_append]
    cases hc : clockOf e <;> simp [List.findSome?, hc]

lemma waits_snoc (h : Trace) (e : Event) :
    waits (h ++ [e]) =
      if isBusy e then waits h + 1 else if (clockOf e).isSome then waits h else 0 := by
  unfold waits
  rw [since_snoc]
  cases hb : isBusy e <;> cases hc : clockOf e <;>
    simp [endsWait, hb, hc, List.countP_append]

lemma refused_snoc {h : Trace} {e : Event} :
    Refused (h ++ [e]) ↔ Refused h ∨ MayRetry (h ++ [e]) := by
  simp only [Refused, List.prefix_concat_iff]
  constructor
  · rintro ⟨h₀, rfl | hp, hm⟩
    · exact .inr hm
    · exact .inl ⟨h₀, hp, hm⟩
  · rintro (⟨h₀, hp, hm⟩ | hm)
    · exact ⟨h₀, .inr hp, hm⟩
    · exact ⟨_, .inl rfl, hm⟩

lemma Refused.mono {h h' : Trace} (hr : Refused h) (hp : h <+: h') : Refused h' := by
  obtain ⟨h₀, hp₀, hm⟩ := hr
  exact ⟨h₀, hp₀.trans hp, hm⟩

lemma MayRetry.refused {h : Trace} (hm : MayRetry h) : Refused h := ⟨h, List.prefix_rfl, hm⟩

lemma not_mayRetry_nil : ¬ MayRetry [] := by
  rintro (⟨h₀, e, he, -⟩ | ⟨h₀, e, c, start, he, -⟩)
  · exact List.append_ne_nil_of_right_ne_nil h₀ (List.cons_ne_nil _ _) he.symm
  · exact List.append_ne_nil_of_right_ne_nil h₀ (List.cons_ne_nil _ _) he.symm

/-- Only a reply or a look at the clock gives leave to try again. -/
lemma not_mayRetry {h : Trace} {e : Event} (hnack : isNack e = false) (hclock : clockOf e = none) :
    ¬ MayRetry (h ++ [e]) := by
  rintro (⟨h₀, e', he, hn⟩ | ⟨h₀, e', c, start, he, -⟩)
  · obtain ⟨-, rfl⟩ := List.append_singleton_inj.mp he
    rw [hnack] at hn
    cases hn
  · rw [show h₀ ++ [e', ⟨.clock, c⟩] = (h₀ ++ [e']) ++ [⟨.clock, c⟩] by simp] at he
    obtain ⟨-, rfl⟩ := List.append_singleton_inj.mp he
    cases hclock

lemma not_mayRetry_clock {h : Trace} {c start : ℤ}
    (hstart : startTime (h ++ [⟨.clock, c⟩]) = some start) (hlt : c - start < 12 * 60 * 1000) :
    ¬ MayRetry (h ++ [⟨.clock, c⟩]) := by
  rintro (⟨h₀, e', he, hn⟩ | ⟨h₀, e', c', start', he, -, hst, hle⟩)
  · obtain ⟨-, rfl⟩ := List.append_singleton_inj.mp he
    cases hn
  · rw [hstart, Option.some_inj] at hst
    rw [show h₀ ++ [e', ⟨.clock, c'⟩] = (h₀ ++ [e']) ++ [⟨.clock, c'⟩] by simp] at he
    obtain ⟨-, he⟩ := List.append_singleton_inj.mp he
    cases he
    omega

/-! ### What may be sent -/

/-- The words of a header for attempt `a` of block `k`. -/
structure HeaderFor (block : Bytes) (k a : ℕ) (data : Bytes) : Prop where
  attempt : getU32 data 0 = a
  length : getU32 data 4 = block.length
  command : getU32 data 8 = 16 * k % 2 ^ 32
  cksum : getU32 data 12 = checksum64K block block.length

/-- What may be sent or asked for with the history `h`. -/
structure Permitted (image : Bytes) (h : Trace) (o : Op) : Prop where
  header : ∀ hd s data timeout, o = .controlOut hd s data timeout →
    acks h < blockCount image.length ∧ attempts h ≤ 2 ∧ (attempts h = 0 ∨ MayRetry h) ∧
      s.bRequest = amReqWriteMedia ∧ HeaderFor (blockAt image (acks h)) (acks h) (attempts h) data
  payload : ∀ hd ep data n timeout, o = .bulkOut hd ep data n timeout →
    (∃ h₀ e, h = h₀ ++ [e] ∧ requestAccepted amReqWriteMedia e) ∧
      data = blockAt image (acks h) ∧ n = data.length
  reply : ∀ hd ep n timeout, o = .bulkIn hd ep n timeout → 1 ≤ attempts h

/-- Where the turns are used up: a block is due, and the device has been busy all the time. -/
def Busy (n turns : ℕ) (h : Trace) : Prop := acks h < blockCount n ∧ waits h = turns

/-- A call that sends nothing to the device and asks it for nothing. -/
def quiet : Op → Bool
  | .controlOut .. => false
  | .bulkOut .. => false
  | .bulkIn .. => false
  | _ => true

lemma permitted_quiet {image : Bytes} {h : Trace} {o : Op} (hq : quiet o) :
    Permitted image h o := by
  refine ⟨?_, ?_, ?_⟩
  · rintro _ _ _ _ rfl; cases hq
  · rintro _ _ _ _ _ rfl; cases hq
  · rintro _ _ _ _ rfl; cases hq

lemma mediaHeader_for {block : Bytes} {k a addr : ℕ} (ha : a ≤ 2) (hb : block.length ≤ 65536)
    (haddr : addr = k % 2 ^ 32) :
    HeaderFor block k a (mediaHeader a block.length ((16 * addr) % 2 ^ 32)
      (checksum64K block block.length)) := by
  have hlt := checksum64K_lt block block.length
  obtain ⟨h₀, h₄, h₈, h₁₂⟩ := mediaHeader_words a block.length ((16 * addr) % 2 ^ 32)
    (checksum64K block block.length)
  exact ⟨by omega, by omega, by omega, by omega⟩

/-- The header of attempt `a` at a block. -/
def attemptHeader (rom : AmlUsbRomRW) (a : ℕ) : Bytes :=
  mediaHeader a rom.bufferLen ((16 * rom.address) % 2 ^ 32)
    (checksum64K rom.buffer (i32 rom.bufferLen))

/-- The bytes of every attempt. -/
def attemptPayload (rom : AmlUsbRomRW) : Bytes := rom.buffer.take (min rom.bufferLen 0x10000)

/-- What `AmlWriteMedia` relies on for block `k`: leave for each of its calls, and for giving
up after as many busy replies as there are turns. -/
structure Sends (S : Trace → Prop) (G : Trace → Op → Prop) (turns k : ℕ)
    (rom : AmlUsbRomRW) : Prop where
  header : ∀ h hd a, acks h = k → attempts h = a → a ≤ 2 → (a = 0 ∨ MayRetry h) →
    G h (.controlOut hd mediaSetup (attemptHeader rom a) 5000)
  payload : ∀ h hd, acks h = k → (∃ h₀ e, h = h₀ ++ [e] ∧ requestAccepted amReqWriteMedia e) →
    G h (.bulkOut hd amEpOut (attemptPayload rom) (min rom.bufferLen 0x10000) 50000)
  reply : ∀ h hd, 1 ≤ attempts h → G h (.bulkIn hd amEpIn 256 30000)
  quiet : ∀ h o, quiet o → G h o
  out : ∀ h, acks h = k → waits h = turns → S h

/-! ### Waiting for the verdict on a block -/

lemma reply_in (hd : Handle) (ep n : ℕ) (timeout : ℤ) (r : InResult n) :
    reply ⟨.bulkIn hd ep n timeout, r⟩ =
      if 0 ≤ usbBulkIo r.status r.data.1.length then some r.data.1 else none := rfl

/-- Only the reply itself is looked at, when it is long enough. -/
lemma prefix_blit {p buf data : Bytes} (h : p.length ≤ data.length) :
    p <+: blit buf 0 data ↔ p <+: data := by
  rw [blit_zero]
  constructor
  · intro hp
    exact List.prefix_of_prefix_length_le hp (List.prefix_append _ _) h
  · intro hp
    exact hp.trans (List.prefix_append _ _)

lemma strBusy32_length : strBusy32.length = 11 := rfl
lemma strOk_length : strOk.length = 4 := rfl

lemma strncmp_busy (buf : Bytes) : strncmp buf strBusy32 11 = 0 ↔ strBusy32 <+: buf :=
  strncmp_eq_zero (by decide) buf

lemma strncmp_ok (buf : Bytes) : strncmp buf strOk 4 = 0 ↔ strOk <+: buf :=
  strncmp_eq_zero (by decide) buf

/-- A busy reply is no acknowledgement. -/
lemma not_ok_of_busy {buf : Bytes} (h : strBusy32 <+: buf) : ¬ strOk <+: buf := by
  intro hok
  have hp : strOk <+: strBusy32 := List.prefix_of_prefix_length_le hok h (by decide)
  revert hp
  decide

/-- The invariant of the polling loop, `a` attempts after `k` acknowledgements and `w` busy
replies; `R` is what an earlier refusal has led to. -/
structure Polling (R : Prop) (k a : ℕ) (start : ℤ) (w : ℕ) (s : MediaPoll) (h : Trace) :
    Prop where
  acks : acks h = k
  attempts : attempts h = a
  started : startTime h = some start
  waits : waits h = w
  ret : s.ret = 0
  time : s.curTime = start ∨
    strBusy32 <+: s.buf ∧ ∃ h₀ e, h = h₀ ++ [e, ⟨.clock, s.curTime⟩] ∧ isBusy e
  calm : Refused h → R ∨ 12 * 60 * 1000 ≤ s.curTime - start

/-- How the polling ends: in failure, with an acknowledgement, or with leave to try again. -/
inductive Polled (R : Prop) (k a : ℕ) (h : Trace) (s : MediaPoll) : Prop
  | failed (ret : s.ret ≠ 0) (hk : acks h = k)
  | acked (ret : s.ret = 0) (ok : strOk <+: s.buf) (hk : acks h = k + 1) (ha : attempts h = 0)
    (calm : Refused h → R)
  | again (ret : s.ret = 0) (ok : ¬ strOk <+: s.buf) (hk : acks h = k) (ha : attempts h = a)
    (may : MayRetry h)

section Poll

variable {S : Trace → Prop} {G : Trace → Op → Prop} {turns k : ℕ} {rom : AmlUsbRomRW}
  {R : Prop} {a w : ℕ} {start : ℤ} {s : MediaPoll} {h : Trace}

lemma isReply_false {p : Bytes → Bool} {e : Event} (he : reply e = none) :
    isReply p e = false := by simp [isReply, he]

lemma isReply_some {p : Bytes → Bool} {e : Event} {b : Bytes} (he : reply e = some b) :
    isReply p e = (decide (11 ≤ b.length) && p b) := by simp [isReply, he]

lemma isAck_iff {e : Event} {b : Bytes} (he : reply e = some b) (hb : 11 ≤ b.length) :
    isAck e = true ↔ strOk <+: b := by simp [isAck, isReply_some he, hb]

lemma isBusy_iff {e : Event} {b : Bytes} (he : reply e = some b) (hb : 11 ≤ b.length) :
    isBusy e = true ↔ strBusy32 <+: b := by simp [isBusy, isReply_some he, hb]

lemma isNack_iff {e : Event} {b : Bytes} (he : reply e = some b) (hb : 11 ≤ b.length) :
    isNack e = true ↔ ¬ strBusy32 <+: b ∧ ¬ strOk <+: b := by
  simp [isNack, isReply_some he, hb, ← Bool.not_eq_true]

/-- The state after a reply that is neither an acknowledgement nor a payload or a header. -/
lemma unacked_snoc {e : Event} (hack : isAck e = false) (hhead : isHeader e = false) :
    acks (h ++ [e]) = acks h ∧ attempts (h ++ [e]) = attempts h := by
  rw [acks_snoc, attempts_snoc, hack, hhead]
  simp

/-- The wait begins with a payload and a reading of the clock. -/
lemma polling_first (hk : acks h = k) (hatt : attempts h = a) (hcalm : Refused h → R) {e : Event}
    (hpay : isPayload e = true) (hack : isAck e = false) (hhead : isHeader e = false)
    (hbusy : isBusy e = false) (hnack : isNack e = false) (hclock : clockOf e = none) (c : ℤ)
    (actualLen : ℕ) (buf : Bytes) :
    Polling R k a c 0 ⟨c, 0, actualLen, buf⟩ (h ++ [e] ++ [⟨.clock, c⟩]) := by
  obtain ⟨hk₁, ha₁⟩ := unacked_snoc (h := h) hack hhead
  obtain ⟨hk₂, ha₂⟩ := unacked_snoc (h := h ++ [e]) (e := ⟨.clock, c⟩) rfl rfl
  have hstart : startTime (h ++ [e] ++ [⟨.clock, c⟩]) = some c := by
    rw [startTime_snoc, startTime_snoc, hpay]; rfl
  have hwait : waits (h ++ [e] ++ [⟨.clock, c⟩]) = 0 := by
    rw [waits_snoc, waits_snoc, hbusy, hclock]; rfl
  refine ⟨hk₂.trans (hk₁.trans hk), ha₂.trans (ha₁.trans hatt), hstart, hwait, rfl, .inl rfl,
    fun hr => .inl ?_⟩
  rw [refused_snoc, refused_snoc] at hr
  rcases hr.resolve_right (not_mayRetry_clock hstart (by omega)) with hr | hr
  · exact hcalm hr
  · exact absurd hr (not_mayRetry hnack hclock)

/-- After a busy reply and another reading of the clock the wait goes on. -/
lemma Polling.busy (hp : Polling R k a start w s h) (hlt : s.curTime - start < 12 * 60 * 1000)
    {e : Event} {data : Bytes} (hreply : reply e = some data) (hlong : 11 ≤ data.length)
    (hhead : isHeader e = false) (hpay : isPayload e = false) (hclock : clockOf e = none)
    (hb : strBusy32 <+: data) {s' : MediaPoll} (hret : s'.ret = s.ret)
    (hbuf : strBusy32 <+: s'.buf) :
    Polling R k a start (w + 1) s' (h ++ [e] ++ [⟨.clock, s'.curTime⟩]) := by
  have hnot := Bool.eq_false_iff.mpr fun h => not_ok_of_busy hb ((isAck_iff hreply hlong).mp h)
  have hbusy := (isBusy_iff hreply hlong).mpr hb
  have hnack : isNack e = false := Bool.eq_false_iff.mpr fun hn =>
    ((isNack_iff hreply hlong).mp hn).1 hb
  obtain ⟨hk₁, ha₁⟩ := unacked_snoc (h := h) hnot hhead
  obtain ⟨hk₂, ha₂⟩ := unacked_snoc (h := h ++ [e]) (e := ⟨.clock, s'.curTime⟩) rfl rfl
  have hst : startTime (h ++ [e] ++ [⟨.clock, s'.curTime⟩]) = some start := by
    rw [startTime_snoc, startTime_snoc, hpay, hp.started]; rfl
  refine ⟨?_, ?_, hst, ?_, hret.trans hp.ret, .inr ⟨hbuf, h, e, ?_, hbusy⟩, ?_⟩
  · rw [hk₂, hk₁, hp.acks]
  · rw [ha₂, ha₁, hp.attempts]
  · rw [waits_snoc, waits_snoc, hbusy, hp.waits]; rfl
  · simp
  · intro hr
    by_cases hc : 12 * 60 * 1000 ≤ s'.curTime - start
    · exact .inr hc
    rw [refused_snoc, refused_snoc] at hr
    rcases hr.resolve_right (not_mayRetry_clock hst (by omega)) with hr | hr
    · exact .inl ((hp.calm hr).resolve_right (by omega))
    · exact absurd hr (not_mayRetry hnack hclock)

/-- A reply that is not a busy one ends the wait. -/
lemma Polling.answered (hp : Polling R k a start w s h) (hlt : s.curTime - start < 12 * 60 * 1000)
    {e : Event} {data : Bytes} (hreply : reply e = some data) (hlong : 11 ≤ data.length)
    (hhead : isHeader e = false) (hclock : clockOf e = none) (hb : ¬ strBusy32 <+: data)
    {s' : MediaPoll} (hret : s'.ret = 0) (hbuf : strOk <+: s'.buf ↔ strOk <+: data) :
    Polled R k a (h ++ [e]) s' := by
  by_cases ho : strOk <+: data
  · have hack := (isAck_iff hreply hlong).mpr ho
    have hnack : isNack e = false := Bool.eq_false_iff.mpr fun hn =>
      ((isNack_iff hreply hlong).mp hn).2 ho
    refine .acked hret (hbuf.mpr ho) ?_ ?_ fun hr => ?_
    · rw [acks_snoc, hack, hp.acks]; rfl
    · rw [attempts_snoc, hack]; rfl
    · rcases refused_snoc.mp hr with hr | hr
      · exact (hp.calm hr).resolve_right (by omega)
      · exact absurd hr (not_mayRetry hnack hclock)
  · have hnack := (isNack_iff hreply hlong).mpr ⟨hb, ho⟩
    have hnot := Bool.eq_false_iff.mpr fun h => ho ((isAck_iff hreply hlong).mp h)
    obtain ⟨hk, ha⟩ := unacked_snoc (h := h) hnot hhead
    exact .again hret (fun h => ho (hbuf.mp h)) (hk.trans hp.acks) (ha.trans hp.attempts)
      (.inl ⟨h, e, rfl, hnack⟩)

lemma mediaPollTurn_keeps (ok : Sends S G turns k rom) {dev : Device} (hdev : dev ≠ .invalid)
    (hd : Handle) (ha : 1 ≤ a) (hp : Polling R k a start w s h) :
    Keeps S G (fun h' l => l.Sat (Polling R k a start (w + 1)) (Polled R k a) h') h
      (mediaPollTurn ⟨dev, some hd, amEpIn, amEpOut⟩ start s) := by
  have hk := hp.acks
  have hatt := hp.attempts
  have hret := hp.ret
  unfold mediaPollTurn
  by_cases hlt : s.curTime - start < 12 * 60 * 1000
  · rw [if_pos hlt]
    refine keeps_bind.mpr ?_
    rw [usbReadFile_eq hdev]
    refine ⟨ok.reply h hd (by omega), fun r => ?_⟩
    have hhead : isHeader ⟨.bulkIn hd amEpIn 256 30000, r⟩ = false := rfl
    have hpay : isPayload ⟨.bulkIn hd amEpIn 256 30000, r⟩ = false := rfl
    have hclock : clockOf ⟨.bulkIn hd amEpIn 256 30000, r⟩ = none := rfl
    have hreply := reply_in hd amEpIn 256 30000 r
    have hcases := usbBulkIo_cases r.status r.data.1.length
    simp only [keeps_ret]
    generalize (⟨.bulkIn hd amEpIn 256 30000, r⟩ : Event) = e at hhead hpay hclock hreply ⊢
    generalize r.data.1 = data at hreply hcases ⊢
    generalize usbBulkIo r.status data.length = io at hreply hcases ⊢
    by_cases hneg : io < 0
    · -- the read failed
      rw [if_neg (by omega)] at hreply
      simp only [if_pos hneg, if_true, Prog.pure_eq_ret, keeps_ret]
      refine .failed (by norm_num) ?_
      rw [(unacked_snoc (isReply_false hreply) hhead).1, hk]
    have hio : io = data.length := hcases.resolve_right hneg
    rw [if_pos (by omega)] at hreply
    simp only [hio, Int.toNat_natCast, strBusy32_length]
    by_cases hshort : data.length < 11
    · have hnot : isAck e = false := by
        rw [isAck, isReply_some hreply, decide_eq_false (by omega), Bool.false_and]
      simp only [if_pos hshort, Prog.pure_eq_ret]
      refine .failed (by norm_num) ?_
      rw [(unacked_snoc hnot hhead).1, hk]
    have hlong : 11 ≤ data.length := by omega
    have hbuf : strBusy32 <+: blit s.buf 0 data ↔ strBusy32 <+: data := prefix_blit hlong
    have hbusy := (strncmp_busy (blit s.buf 0 data)).trans hbuf
    have hok : strOk <+: blit s.buf 0 data ↔ strOk <+: data :=
      prefix_blit (by rw [strOk_length]; omega)
    rw [if_neg hshort]
    by_cases hb : strBusy32 <+: data
    · -- busy: the clock is read and the wait goes on
      rw [if_neg (not_not.mpr (hbusy.mpr hb))]
      exact ⟨ok.quiet _ _ rfl, fun c : ℤ =>
        hp.busy hlt hreply hlong hhead hpay hclock hb rfl (hbuf.mpr hb)⟩
    · rw [if_pos (fun h => hb (hbusy.mp h))]
      exact hp.answered hlt hreply hlong hhead hclock hb hret hok
  · -- twelve minutes have passed, so there was a reply, and it was busy
    rw [if_neg hlt]
    rcases hp.time with htime | ⟨hbuf, h₀, e, rfl, hbusy⟩
    · rw [htime] at hlt; omega
    · exact .again hret (not_ok_of_busy hbuf) hk hatt
        (.inr ⟨h₀, e, s.curTime, start, rfl, hbusy, hp.started, by omega⟩)

lemma mediaPolls_keeps (ok : Sends S G turns k rom) {dev : Device} (hdev : dev ≠ .invalid)
    (hd : Handle) (ha : 1 ≤ a) (hp : Polling R k a start 0 s h) :
    Keeps S G (Polled R k a) h
      (iterate (mediaPollTurn ⟨dev, some hd, amEpIn, amEpOut⟩ start) turns s) := by
  refine keeps_iterate_out (I := Polling R k a start) ?_ ?_ hp
  · intro i s h hp
    exact mediaPollTurn_keeps ok hdev hd ha hp
  · intro s h hp
    exact ok.out h hp.acks (by rw [hp.waits, Nat.zero_add])

end Poll

/-! ### The attempts for a block -/

/-- The invariant of the loop over the attempts. -/
structure Trying (R : Prop) (k : ℕ) (s : ℕ × ℤ) (h : Trace) : Prop where
  acks : acks h = k
  attempts : attempts h = s.1
  may : s.1 = 0 ∨ MayRetry h ∧ s.2 ≠ 0
  bound : s.1 ≤ 3
  calm : Refused h → R ∨ s.1 ≠ 0

/-- A block has been acknowledged, or the result says that it has not. -/
def Tried (k : ℕ) (h : Trace) (ret : ℤ) : Prop :=
  (ret = 0 ∧ acks h = k + 1 ∧ attempts h = 0) ∨ (ret ≠ 0 ∧ acks h = k)

/-- How a turn of the loop ends that began with `s`. -/
def AfterAttempt (R : Prop) (k a : ℕ) (h : Trace) (l : Loop (ℕ × ℤ) ℤ) : Prop :=
  l.Sat (fun s' h' => Trying R k s' h' ∧ s'.1 = a + 1)
    (fun h' ret => Tried k h' ret ∧ (ret = 0 → Refused h' → R ∨ a ≠ 0)) h

section Attempts

variable {S : Trace → Prop} {G : Trace → Op → Prop} {turns k : ℕ} {rom : AmlUsbRomRW}
  (ok : Sends S G turns k rom) {R : Prop} {s : ℕ × ℤ} {h : Trace}
include ok

omit ok in
lemma afterAttempt_failed {a : ℕ} {ret : ℤ} (hret : ret ≠ 0) (hk : acks h = k) :
    AfterAttempt R k a h (.done ret) :=
  ⟨.inr ⟨hret, hk⟩, fun h => absurd h hret⟩

/-- An attempt from the accepted header on. -/
lemma writeMediaData_keeps {dev : Device} (hdev : dev ≠ .invalid) (hd : Handle) {a : ℕ}
    (h₂ : a ≤ 2) (hk : acks h = k) (hatt : attempts h = a + 1)
    (hhead : ∃ h₀ e, h = h₀ ++ [e] ∧ requestAccepted amReqWriteMedia e)
    (hcalm : Refused h → R ∨ a ≠ 0) :
    Keeps S G (AfterAttempt R k a) h
      (writeMediaData ⟨dev, some hd, amEpIn, amEpOut⟩ rom turns a) := by
  unfold writeMediaData
  refine keeps_bind.mpr ?_
  rw [usbWriteFile_eq hdev]
  refine ⟨ok.payload h hd hk hhead, fun r => ?_⟩
  simp only [keeps_ret]
  generalize hpay : (⟨.bulkOut hd amEpOut (rom.buffer.take (min rom.bufferLen 0x10000))
    (min rom.bufferLen 0x10000) 50000, r⟩ : Event) = e
  have hack : isAck e = false := by subst hpay; rfl
  have hhead' : isHeader e = false := by subst hpay; rfl
  have hbusy : isBusy e = false := by subst hpay; rfl
  have hnack : isNack e = false := by subst hpay; rfl
  have hclock : clockOf e = none := by subst hpay; rfl
  have hpay' : isPayload e = true := by subst hpay; rfl
  have hk₁ := (unacked_snoc (h := h) hack hhead').1
  by_cases hfail : usbBulkIo r.status r.actual < 0
  · simp only [if_pos hfail, if_true]
    exact afterAttempt_failed (by norm_num) (hk₁.trans hk)
  simp only [if_neg hfail, one_ne_zero, if_false]
  by_cases hshort : min rom.bufferLen 0x10000 = (usbBulkIo r.status r.actual).toNat
  swap
  · rw [if_pos hshort]
    exact afterAttempt_failed (by norm_num) (hk₁.trans hk)
  rw [if_neg (not_not.mpr hshort), getTickCount, timeGetTime, Prog.call_bind]
  refine ⟨ok.quiet _ _ rfl, fun c : ℤ => ?_⟩
  simp only [Prog.ret_bind]
  refine keeps_bind.mpr ?_
  have hpoll := polling_first hk hatt hcalm hpay' hack hhead' hbusy hnack hclock c
    (usbBulkIo r.status r.actual).toNat (List.replicate 0x200 0)
  refine (mediaPolls_keeps ok hdev hd (by omega) hpoll).mono ?_
  intro h' p hp
  rw [Prog.pure_eq_ret, keeps_ret, mediaVerdict]
  cases hp with
  | failed ret hk' =>
    rw [if_neg ret]
    exact afterAttempt_failed ret hk'
  | acked ret ok hk' ha' hcalm =>
    rw [if_pos ret, if_neg (not_not.mpr ((strncmp_ok _).mpr ok))]
    exact ⟨.inl ⟨rfl, hk', ha'⟩, fun _ => hcalm⟩
  | again ret ok hk' ha' may =>
    have hne : strncmp p.buf strOk 4 ≠ 0 := fun h => ok ((strncmp_ok _).mp h)
    rw [if_pos ret, if_pos hne]
    exact ⟨⟨hk', ha', .inr ⟨may, hne⟩, by dsimp only; omega, fun _ => .inr (Nat.succ_ne_zero a)⟩,
      rfl⟩

lemma writeMediaTurn_keeps (dev : Device) (handle : Option Handle) (hT : Trying R k s h) :
    Keeps S G (AfterAttempt R k s.1) h
      (writeMediaTurn ⟨dev, handle, amEpIn, amEpOut⟩ rom
        (checksum64K rom.buffer (i32 rom.bufferLen)) turns s) := by
  obtain ⟨hk, hatt, hmay, hbound, hcalm⟩ := hT
  unfold writeMediaTurn
  by_cases h₂ : s.1 ≤ 2
  · rw [if_pos h₂]
    refine keeps_bind.mpr ?_
    by_cases hdev : dev = .invalid
    · rw [hdev, writeMediaCmd_invalid]
      exact afterAttempt_failed (by norm_num) hk
    cases handle with
    | none =>
      rw [writeMediaCmd_none hdev, keeps_segfault]
      exact ok.quiet _ _ rfl
    | some hd =>
      rw [writeMediaCmd_eq hdev]
      refine ⟨ok.header h hd s.1 hk hatt h₂ (hmay.imp_right And.left), ?_⟩
      generalize mediaHeader s.1 rom.bufferLen (16 * rom.address % 2 ^ 32)
        (checksum64K rom.buffer (i32 rom.bufferLen)) = header
      intro r
      have hk₁ : acks (h ++ [⟨.controlOut hd mediaSetup header 5000, r⟩]) = k := by
        rw [acks_snoc, hk]; rfl
      have hatt₁ : attempts (h ++ [⟨.controlOut hd mediaSetup header 5000, r⟩]) = s.1 + 1 := by
        rw [attempts_snoc, hatt]; rfl
      cases hst : r.status with
      | some err =>
        simp only [keeps_ret, hst, Option.isSome_some, if_true]
        exact afterAttempt_failed (by norm_num) hk₁
      | none =>
        simp only [keeps_ret, hst, Option.isSome_none, Bool.false_eq_true, if_false, one_ne_zero]
        refine writeMediaData_keeps ok hdev hd h₂ hk₁ hatt₁ ⟨h, _, rfl, ?_⟩ fun hr => ?_
        · simp [requestAccepted, mediaSetup, hst]
        · exact hcalm ((refused_snoc.mp hr).resolve_right (not_mayRetry rfl rfl))
  · rw [if_neg h₂]
    rcases hmay with h₀ | ⟨-, hne⟩
    · omega
    · exact afterAttempt_failed hne hk

lemma writeMediaTurns_keeps (dev : Device) (handle : Option Handle) (hT : Trying R k (0, 0) h) :
    Keeps S G (Tried k) h (iterate (writeMediaTurn ⟨dev, handle, amEpIn, amEpOut⟩ rom
      (checksum64K rom.buffer (i32 rom.bufferLen)) turns) 4 (0, 0)) := by
  refine keeps_iterate (I := Trying R k) (μ := fun s => 3 - s.1) ?_ hT (by decide)
  intro s h hT
  refine (writeMediaTurn_keeps ok dev handle hT).mono fun h' l hl => ?_
  cases l with
  | next s' =>
    obtain ⟨hT', hs'⟩ := hl
    have := hT'.bound
    exact ⟨hT', by omega⟩
  | done ret => exact hl.1

omit ok in
lemma Tried.silent {ret : ℤ} (ht : Tried k h ret) {e : Event} (hack : isAck e = false)
    (hhead : isHeader e = false) : Tried k (h ++ [e]) ret := by
  obtain ⟨hk, ha⟩ := unacked_snoc (h := h) hack hhead
  rw [Tried, hk, ha]
  exact ht

lemma amlWriteMedia_keeps (hk : acks h = k) (hatt : attempts h = 0) :
    Keeps S G (Tried k) h (amlWriteMedia turns rom) := by
  unfold amlWriteMedia
  by_cases hdev : rom.device = .null
  · rw [hdev, openUsbDevice_null]
    exact .inr ⟨by norm_num, hk⟩
  refine keeps_opened hdev (fun drv => iterate (writeMediaTurn drv rom
    (checksum64K rom.buffer (i32 rom.bufferLen)) turns) 4 (0, 0)) (fun _ => rfl)
    (ok.quiet _ _ rfl) fun handle => ?_
  obtain ⟨hk₁, ha₁⟩ := unacked_snoc (h := h) (e := ⟨.libusbOpen rom.device, handle⟩) rfl rfl
  have hT : Trying True k (0, 0) (h ++ [⟨.libusbOpen rom.device, handle⟩]) :=
    ⟨hk₁.trans hk, ha₁.trans hatt, .inl rfl, Nat.zero_le _, fun _ => .inl trivial⟩
  refine (writeMediaTurns_keeps ok _ _ hT).mono fun h' ret ht => ?_
  exact ⟨fun _ => ok.quiet _ _ rfl, fun hd _ => ⟨ok.quiet _ _ rfl, ht.silent rfl rfl⟩⟩

end Attempts

/-! ### One block -/

/-- The request of `AmlWriteMedia` for block `k`. -/
structure RomFor (image : Bytes) (k : ℕ) (rom : AmlUsbRomRW) : Prop where
  due : k < blockCount image.length
  data : rom.buffer.take rom.bufferLen = blockAt image k
  length : rom.bufferLen = (blockAt image k).length
  address : rom.address = k % 2 ^ 32

lemma RomFor.cksum {image : Bytes} {k : ℕ} {rom : AmlUsbRomRW} (hr : RomFor image k rom) :
    checksum64K rom.buffer (i32 rom.bufferLen) =
      checksum64K (blockAt image k) (blockAt image k).length := by
  have hlen := hr.length
  have hle := blockAt_length image k
  have hi : i32 rom.bufferLen = rom.bufferLen := i32_of_lt (by omega)
  rw [hi, ← checksum64K_take rom.buffer rom.bufferLen, hr.data, hlen]

/-- What `AmlWriteMedia` does for a block of the image is permitted. -/
lemma RomFor.sends {image : Bytes} {k : ℕ} {rom : AmlUsbRomRW} (hrom : RomFor image k rom)
    (turns : ℕ) : Sends (Busy image.length turns) (Permitted image) turns k rom := by
  have hlen := hrom.length
  have hle := blockAt_length image k
  have hbulk : min rom.bufferLen 0x10000 = rom.bufferLen := by omega
  refine ⟨?_, ?_, ?_, fun h o hq => permitted_quiet hq, ?_⟩
  · intro h hd a hk hatt ha hmay
    refine ⟨?_, nofun, nofun⟩
    rintro _ _ _ _ ⟨⟩
    rw [hk, hatt, attemptHeader, hrom.cksum, hlen]
    exact ⟨hrom.due, ha, hmay, rfl, mediaHeader_for ha (by omega) hrom.address⟩
  · intro h hd hk hhead
    refine ⟨nofun, ?_, nofun⟩
    rintro _ _ _ _ _ ⟨⟩
    rw [attemptPayload, hbulk, hrom.data, hk]
    exact ⟨hhead, rfl, hlen⟩
  · intro h hd ha
    exact ⟨nofun, nofun, fun _ _ _ _ _ => ha⟩
  · intro h hk hw
    rw [Busy, hk]
    exact ⟨hrom.due, hw⟩

/-! ### The blocks of a file -/

/-- The invariant of the loop over the blocks. -/
structure Writing (image : Bytes) (s : MediaFile) (h : Trace) : Prop where
  attempts : attempts h = 0
  addr : s.addr = acks h % 2 ^ 32
  remain : s.remain = image.length - 65536 * acks h
  bound : acks h ≤ blockCount image.length
  content : s.file.content = image
  pos : s.remain ≠ 0 → s.file.pos = 65536 * acks h

/-- Nothing remains exactly when every block has been acknowledged. -/
def Written (image : Bytes) (h : Trace) (s : MediaFile) : Prop :=
  s.remain = 0 ↔ acks h = blockCount image.length

section File

variable {image : Bytes} {s : MediaFile} {h : Trace}

lemma Writing.due (hw : Writing image s h) (hr : s.remain ≠ 0) :
    acks h < blockCount image.length := by
  have := hw.remain
  unfold blockCount
  omega

lemma Writing.written (hw : Writing image s h) : Written image h s := by
  have hr := hw.remain
  have hb := hw.bound
  unfold Written
  unfold blockCount at hb ⊢
  omega

/-- A read of the length asked for is the block that is due. -/
lemma romFor_block (rom : AmlUsbRomRW) (hw : Writing image s h) (hr : s.remain ≠ 0) {n : ℕ}
    (hn : (slice s.file.content s.file.pos n).length = min s.remain 0x10000) :
    RomFor image (acks h) { rom with
      buffer := blit s.buf 0 (slice s.file.content s.file.pos n)
      bufferLen := min s.remain 0x10000
      address := s.addr } := by
  rw [hw.content, hw.pos hr] at hn ⊢
  have hremain := hw.remain
  have hblock : slice image (65536 * acks h) n = blockAt image (acks h) := by
    rw [slice_length] at hn
    rw [blockAt, slice, slice, List.take_eq_take_iff, List.length_drop]
    omega
  refine ⟨hw.due hr, ?_, ?_, hw.addr⟩
  · dsimp only
    rw [← hn, blit_zero, List.take_left, hblock]
  · dsimp only
    rw [← hn, hblock]

lemma mediaFileTurn_keeps (turns : ℕ) (rom : AmlUsbRomRW) (hw : Writing image s h) :
    Keeps (Busy image.length turns) (Permitted image) (fun h' l => l.Sat
      (fun s' h'' => Writing image s' h'' ∧ s'.remain < s.remain) (Written image) h') h
      (mediaFileTurn turns rom s) := by
  unfold mediaFileTurn
  by_cases hr : s.remain = 0
  · rw [if_neg (not_not.mpr hr)]
    exact hw.written
  rw [if_pos hr]
  refine keeps_bind.mpr ⟨permitted_quiet rfl, fun n => ?_⟩
  simp only [keeps_ret]
  set e : Event := ⟨.fread (min s.remain 0x10000) (s.file.content.length - s.file.pos), n⟩ with he
  obtain ⟨hk, ha⟩ := unacked_snoc (h := h) (e := e) rfl rfl
  have hdue := hw.due hr
  by_cases hn : (slice s.file.content s.file.pos n).length = min s.remain 0x10000
  swap
  · rw [if_pos hn]
    refine ⟨fun hz => absurd hz hr, fun hz => ?_⟩
    rw [hk] at hz
    omega
  rw [if_neg (not_not.mpr hn)]
  refine keeps_bind.mpr ((amlWriteMedia_keeps ((romFor_block rom hw hr hn).sends turns) hk
    (ha.trans hw.attempts)).mono fun h' ret ht => ?_)
  rcases ht with ⟨hret, hk', ha'⟩ | ⟨hret, hk'⟩
  · rw [if_neg (not_not.mpr hret)]
    have hpos := hw.pos hr
    have hremain := hw.remain
    have haddr := hw.addr
    refine ⟨⟨ha', ?_, ?_, ?_, hw.content, fun hr' => ?_⟩, ?_⟩
    · dsimp only; omega
    · dsimp only; omega
    · omega
    · have hle := n.isLt
      rw [slice_length] at hn
      dsimp only at hr' ⊢
      omega
    · dsimp only; omega
  · rw [if_pos hret]
    refine ⟨fun hz => absurd hz hr, fun hz => ?_⟩
    rw [hk'] at hz
    omega

end File

/-! ### The whole file -/

/-- The file can be read: where it is to be opened, it is. -/
def Readable (filename : Bytes) (t : Trace) : Prop :=
  ∀ r : Bool, (⟨.fopen filename false, r⟩ : Event) ∈ t → r = true

/-- What the block writer for `filename` promises: what it sends, that the file it is to send is
opened and its result says whether all of it was acknowledged, and where it waits. -/
structure Delivers (image filename : Bytes) (turns : ℕ) (p : Program ℤ) : Prop where
  permitted : ∀ t o, Issues p t o → Permitted image t o
  result : ∀ t ret, Runs p t ret → Readable filename t →
    (⟨.fopen filename false, true⟩ : Event) ∈ t ∧ (ret = 0 ↔ acks t = blockCount image.length)
  ends : ∀ t, Steps p t .stop → Busy image.length turns t

lemma mediaFile_keeps (junk : ℕ → UInt8) (turns : ℕ) (rom : AmlUsbRomRW) (image : Bytes)
    {h : Trace} (hk : acks h = 0) (hatt : attempts h = 0) :
    Keeps (Busy image.length turns) (Permitted image) (fun h' s => Written image h' s) h
      (iterate (mediaFileTurn turns rom) (image.length + 1)
        ⟨0, image.length, ⟨image, 0⟩, malloc junk 0x10000⟩) := by
  refine keeps_iterate (I := Writing image) (μ := MediaFile.remain) ?_ ?_ (Nat.lt_succ_self _)
  · intro s h hw
    exact mediaFileTurn_keeps turns rom hw
  · refine ⟨hatt, ?_, ?_, ?_, rfl, fun _ => ?_⟩
    · rw [hk]; rfl
    · rw [hk, Nat.mul_zero, Nat.sub_zero]
    · rw [hk]; exact Nat.zero_le _
    · rw [hk]

lemma writeMediaFile_keeps (files : Files) (junk : ℕ → UInt8) (turns : ℕ) (rom : AmlUsbRomRW)
    (filename : Bytes) :
    Keeps (Busy (files filename).length turns) (Permitted (files filename))
      (fun t ret => ⟨.fopen filename false, true⟩ ∈ t →
        (ret = 0 ↔ acks t = blockCount (files filename).length)) []
      (writeMediaFile files junk turns rom filename) := by
  rw [writeMediaFile_eq]
  refine ⟨permitted_quiet rfl, fun ok : Bool => ?_⟩
  cases ok with
  | false => exact fun hmem => by simp at hmem
  | true =>
    simp only [reduceIte]
    refine ⟨permitted_quiet rfl, fun c : ℤ => ?_⟩
    refine keeps_bind.mpr ((mediaFile_keeps junk turns rom (files filename) rfl rfl).mono ?_)
    refine fun t s hw => ⟨permitted_quiet rfl, fun c' : ℤ => ?_⟩
    intro _
    have hacks : acks (t ++ [⟨.clock, c'⟩]) = acks t := (unacked_snoc rfl rfl).1
    rw [hacks]
    refine Iff.trans ?_ hw
    split_ifs with hz <;> simp [hz]

/-- The first thing is to open the file; without it the result is -1. -/
lemma writeMediaFile_opens {files : Files} {junk : ℕ → UInt8} {turns : ℕ} {rom : AmlUsbRomRW}
    {filename : Bytes} {t : Trace} {ret : ℤ}
    (hr : Runs (writeMediaFile files junk turns rom filename) t ret) :
    ∃ ok : Bool, (⟨.fopen filename false, ok⟩ : Event) ∈ t ∧ (ok = false → ret = -1) := by
  rw [writeMediaFile_eq, runs_call] at hr
  obtain ⟨ok, t', rfl, hr⟩ := hr
  refine ⟨ok, List.mem_cons_self, fun hok => ?_⟩
  subst hok
  exact (runs_ret.mp hr).2

/-- The image is delivered block by block, and the result says whether all of it was. -/
theorem writeMediaFile_delivers (files : Files) (junk : ℕ → UInt8) (turns : ℕ)
    (rom : AmlUsbRomRW) (filename : Bytes) :
    Delivers (files filename) filename turns (writeMediaFile files junk turns rom filename) := by
  have hkeeps := writeMediaFile_keeps files junk turns rom filename
  refine ⟨?_, ?_, ?_⟩
  · intro t o hi
    exact hkeeps.issues hi
  · intro t ret hr hread
    obtain ⟨ok, hmem, -⟩ := writeMediaFile_opens hr
    rw [hread ok hmem] at hmem
    exact ⟨hmem, hkeeps.runs hr hmem⟩
  · intro t hs
    exact hkeeps.stops hs

/-- An acknowledgement as long as the reply that is asked for. -/
def okReply : Bytes := strOk ++ List.replicate 252 0

lemma okReply_length : okReply.length = 256 := by
  rw [okReply, List.length_append, strOk_length, List.length_replicate]

lemma okReply_fits {n : ℕ} (h : n = 256) : okReply.length ≤ n := by rw [okReply_length, h]

/-- The answers of a device that takes every block, and of files that can be read. -/
def mediaAnswers (_ : Trace) : (o : Op) → Option (Resp o)
  | .libusbOpen _ => some (some (0 : ℕ))
  | .libusbClose _ => some ()
  | .fopen _ _ => some true
  | .fread want avail => some (Fin.last (min want avail))
  | .clock => some (0 : ℤ)
  | .controlOut _ s _ _ => some ⟨none, Fin.last s.wLength⟩
  | .bulkOut _ _ _ n _ => some ⟨none, Fin.last n⟩
  | .bulkIn _ _ n _ => if h : n = 256 then some ⟨none, okReply, okReply_fits h⟩ else none
  | _ => none

set_option maxRecDepth 10000 in
lemma byteMedia_exec : ∃ t, exec (recorded mediaAnswers) [] (writeMediaFile (fun _ => [7])
    (fun _ => 0) 1 ⟨.dev 0, 0, [], 0, 0⟩ []) = some (0, t) := ⟨_, rfl⟩

/-- A file of one byte that can be read, on a device that takes it: one acknowledgement. -/
theorem writeMediaFile_delivers_byte : ∃ t, Runs (writeMediaFile (fun _ => [7]) (fun _ => 0) 1
    ⟨.dev 0, 0, [], 0, 0⟩ []) t 0 ∧ Readable [] t ∧ acks t = 1 := by
  obtain ⟨t, he⟩ := byteMedia_exec
  have hread : Readable [] t := by
    intro r hmem
    obtain ⟨h, h', ht⟩ := List.append_of_mem hmem
    have hanswer := exec_recorded_answer he ht
    exact (Option.some.inj hanswer).symm
  have hr := exec_recorded mediaAnswers he
  have hdel := writeMediaFile_delivers (fun _ => [7]) (fun _ => 0) 1 ⟨.dev 0, 0, [], 0, 0⟩ []
  exact ⟨t, hr, hread, (hdel.result t 0 hr hread).2.mp rfl⟩

end AmlogicUpdate.Media

import AmlogicUpdate.Download
import Mathlib.Data.List.Induction

/-!
A whole session of `Aml_Libusb_bl2_boot`: requests from the device until it ends it, or the
tool gives up.

The packets of a session are read as a list of rounds, one for each CBW. The tool returns 0
after any round that is not a download; whether that was the end the device asked for, and
whether everything before it was delivered, depends on what the device sent. It gives up when a
transfer fails or is short and when a piece is not acknowledged, but not for the verdict on a
download.
-/

namespace AmlogicUpdate.Session

open Interaction CData Usb AmlLibusb Bl2 Wire Download

/-! ### Rounds -/

/-- A CBW and the packets after it. -/
abbrev Round : Type := Bytes × List Packet

/-- A packet of the latest round. -/
def follow : List Round → Packet → List Round
  | [], _ => []
  | (c, l) :: rs, p => (c, l ++ [p]) :: rs

/-- One packet more; the latest round comes first. -/
def note (rs : List Round) : Packet → List Round
  | .reply n d => if n = 512 then (d, []) :: rs else follow rs (.reply n d)
  | .out d => follow rs (.out d)

def rounds (ps : List Packet) : List Round := ps.foldl note []

/-- The requests, the latest first. -/
def cbws (ps : List Packet) : List Bytes := (rounds ps).map Prod.fst

/-- The data sent to the device. -/
def outs (ps : List Packet) : List Bytes := ps.filterMap fun p => match p with
  | .out d => some d
  | .reply _ _ => none

/-- What a download has sent between the CSW and the trailer. -/
def payload (r : Round) : Bytes := ((outs r.2).drop 1).dropLast.flatten

/-- The CSW a download ends with: what the device makes of the trailer. -/
def Verdict (r : Round) (v : Bytes) : Prop := r.2.getLast? = some (.reply 16 v)

lemma rounds_append (ps ps' : List Packet) : rounds (ps ++ ps') = ps'.foldl note (rounds ps) :=
  List.foldl_append

/-- Without a new CBW everything goes to the latest round. -/
lemma foldl_note {ps : List Packet} (hps : ∀ n d, .reply n d ∈ ps → n ≠ 512) (c : Bytes)
    (l : List Packet) (rs : List Round) :
    ps.foldl note ((c, l) :: rs) = (c, l ++ ps) :: rs := by
  induction ps generalizing l with
  | nil => simp
  | cons p ps ih =>
    have hps' : ∀ n d, .reply n d ∈ ps → n ≠ 512 := fun n d h => hps n d (List.mem_cons_of_mem p h)
    have hnote : note ((c, l) :: rs) p = (c, l ++ [p]) :: rs := by
      cases p with
      | out d => rfl
      | reply n d => exact if_neg (hps n d List.mem_cons_self)
    rw [List.foldl_cons, hnote, ih hps', List.append_assoc, List.singleton_append]

lemma mem_follow {rs : List Round} {p q : Packet} {r : Round} (hr : r ∈ follow rs p)
    (hq : q ∈ r.2) :
    (∃ r' ∈ rs, q ∈ r'.2) ∨ q = p := by
  cases rs with
  | nil => cases hr
  | cons r₀ rs =>
    rcases List.mem_cons.mp hr with rfl | hr
    · rcases List.mem_append.mp hq with hq | hq
      · exact .inl ⟨r₀, List.mem_cons_self, hq⟩
      · exact .inr (List.mem_singleton.mp hq)
    · exact .inl ⟨r, List.mem_cons_of_mem r₀ hr, hq⟩

/-- The packets of the rounds are those of the session. -/
lemma mem_of_rounds {ps : List Packet} {r : Round} {q : Packet} (hr : r ∈ rounds ps)
    (hq : q ∈ r.2) : q ∈ ps := by
  induction ps using List.reverseRecOn generalizing r with
  | nil => cases hr
  | append_singleton ps p ih =>
    have hmem : r ∈ follow (rounds ps) p → q ∈ ps ++ [p] := by
      intro hfollow
      rcases mem_follow hfollow hq with ⟨r', hr', hq'⟩ | rfl
      · exact List.mem_append_left _ (ih hr' hq')
      · exact List.mem_append_right _ List.mem_cons_self
    rw [rounds_append, List.foldl_cons, List.foldl_nil] at hr
    cases p with
    | out d => exact hmem hr
    | reply n d =>
      by_cases hn : n = 512
      · rw [note, if_pos hn] at hr
        rcases List.mem_cons.mp hr with rfl | hr
        · cases hq
        · exact List.mem_append_left _ (ih hr hq)
      · rw [note, if_neg hn] at hr
        exact hmem hr

@[simp] lemma outs_append (ps ps' : List Packet) : outs (ps ++ ps') = outs ps ++ outs ps' :=
  List.filterMap_append

/-- The pieces make up the part of the region they cover. -/
lemma outs_exchange (region : Bytes) (csws : List Bytes) :
    (outs (exchange region csws)).flatten = region.take (65536 * csws.length) := by
  induction csws using List.reverseRecOn with
  | nil => rfl
  | append_singleton csws c ih =>
    have hblock : outs [.out (blockAt region csws.length)] = [blockAt region csws.length] := rfl
    have hreply : outs [.reply 16 c] = [] := rfl
    rw [exchange_snoc, outs_append, outs_append, hblock, hreply, List.append_nil,
      List.flatten_append, ih, List.length_append, List.length_singleton, ← take_blockAt,
      List.flatten_singleton]

lemma reply_exchange {region : Bytes} {csws : List Bytes} {n : ℕ} {d : Bytes}
    (h : .reply n d ∈ exchange region csws) : n ≠ 512 := by
  simp only [exchange, List.mem_flatMap] at h
  obtain ⟨c, -, hc⟩ := h
  simp only [List.mem_cons, reduceCtorEq, Packet.reply.injEq, List.not_mem_nil, or_false,
    false_or] at hc
  omega

/-! ### What is claimed of a session -/

/-- A download the tool supports. -/
def Supported (cbw : Bytes) : Prop := getU8 cbw 17 = 0 ∧ getU8 cbw 16 < 2 ^ 7

/-- The device says that it is done. -/
def End (cbw : Bytes) : Prop := getU8 cbw 17 = 1

/-- All the data a request names has been sent. -/
def Sent (file : Bytes) (r : Round) : Prop :=
  payload r = slice file (getU32 r.1 12) (getU32 r.1 8) ∧ (payload r).length = getU32 r.1 8

/-- A session that went well: the device ended it, that was acknowledged, every request before
it was met, the device acknowledged everything, and no transfer failed or was short. -/
structure Completed (file : Bytes) (t : Trace) : Prop where
  ended : ∃ c rs, rounds (packets t) = (c, [.out (cswBytes true)]) :: rs ∧ End c ∧
    ∀ r ∈ rs, Supported r.1 ∧ Sent file r
  acknowledged : ∀ d, .reply 16 d ∈ packets t → Okay d
  whole : ∀ e ∈ t, carried e = true

/-! ### When it can be claimed -/

/-- Where the bytes for a request are read from, the file being at `pos`. -/
def readFrom (pos : ℕ) (cbw : Bytes) : ℕ := if getU32 cbw 12 < 2 ^ 31 then getU32 cbw 12 else pos

/-- Where the file is after the downloads, the latest first. -/
def reach : List Bytes → ℕ
  | [] => 0
  | c :: cs => readFrom (reach cs) c + amount (getU32 c 8)

/-- The sizes are in range, and so are the offsets, unless the bytes at the current position
happen to be the ones asked for. -/
def InRange (file : Bytes) : List Bytes → Prop
  | [] => True
  | c :: cs => InRange file cs ∧ getU32 c 8 ≤ 0x7FFF0000 ∧
    (getU32 c 12 < 2 ^ 31 ∨
      slice file (reach cs) (getU32 c 8) = slice file (getU32 c 12) (getU32 c 8))

/-- A device that asks for nothing but downloads in range and the end, and gives a good verdict on
every download. -/
structure Regular (file : Bytes) (ps : List Packet) : Prop where
  kinds : ∀ c ∈ cbws ps, Supported c ∨ End c
  verdicts : ∀ r ∈ (rounds ps).tail, ∀ v, Verdict r v → Okay v
  inRange : InRange file (cbws ps).tail

/-- What the downloads of a session have sent, whatever the requests. -/
def Delivered (file : Bytes) : List Round → Prop
  | [] => True
  | r :: rs => Delivered file rs ∧ Supported r.1 ∧
    payload r = slice file (readFrom (reach (rs.map Prod.fst)) r.1) (amount (getU32 r.1 8)) ∧
    (payload r).length = amount (getU32 r.1 8)

lemma Delivered.supported {file : Bytes} {rs : List Round} (hd : Delivered file rs) :
    ∀ r ∈ rs, Supported r.1 := by
  induction rs with
  | nil => exact nofun
  | cons r rs ih =>
    intro r' hr'
    rcases List.mem_cons.mp hr' with rfl | hr'
    · exact hd.2.1
    · exact ih hd.1 r' hr'

/-- What was sent is what was asked for, when the request is in range. -/
lemma Delivered.sent_iff {file : Bytes} {rs : List Round} (hd : Delivered file rs) :
    (∀ r ∈ rs, Sent file r) ↔ InRange file (rs.map Prod.fst) := by
  induction rs with
  | nil => simp [InRange]
  | cons r rs ih =>
    obtain ⟨hd, -, hpay, hlen⟩ := hd
    rw [List.forall_mem_cons, List.map_cons, InRange, ih hd, and_comm]
    refine and_congr_right fun _ => ?_
    rw [Sent, hlen, hpay]
    by_cases hsize : getU32 r.1 8 ≤ 0x7FFF0000
    · rw [amount, if_pos hsize]
      by_cases hoff : getU32 r.1 12 < 2 ^ 31
      · rw [readFrom, if_pos hoff]
        exact ⟨fun _ => ⟨hsize, .inl hoff⟩, fun _ => ⟨rfl, rfl⟩⟩
      · rw [readFrom, if_neg hoff]
        exact ⟨fun h => ⟨hsize, .inr h.1⟩, fun h => ⟨h.2.resolve_left hoff, rfl⟩⟩
    · have hz : amount (getU32 r.1 8) = 0 := if_neg hsize
      rw [hz]
      exact ⟨fun h => by omega, fun h => absurd h.1 hsize⟩

/-! ### The session -/

/-- The verdict on one of the downloads. -/
def Judges (rs : List Round) (e : Event) : Prop :=
  ∃ r ∈ rs, ∃ v, Verdict r v ∧ packetOf e = some (.reply 16 v)

/-- The invariant of the session between two requests. -/
structure InSession (file : Bytes) (s : Session) (h : Trace) : Prop where
  fine : ∀ e ∈ h, Fine e ∨ Judges (rounds (packets h)) e
  delivered : Delivered file (rounds (packets h))
  file : s.file = ⟨file, reach (cbws (packets h))⟩
  buf : 512 ≤ s.buf.length

/-- How a session ends that returns 0: with a request that is no download, after downloads. -/
def Left (file : Bytes) (t : Trace) : Prop :=
  ∃ c rs b, rounds (packets t) = (c, [.out (cswBytes b)]) :: rs ∧ Delivered file rs ∧
    ¬ Supported c ∧ (b = true ↔ End c) ∧ ∀ e ∈ t, Fine e ∨ Judges rs e

/-- The three kinds of requests. -/
lemma parseCbw_cases (c : Bytes) :
    (Supported c ∧ parseCbw c = (0xABCD, cbwParam c)) ∨
      (¬ Supported c ∧ End c ∧ (parseCbw c).1 = 0xABCF) ∨
      (¬ Supported c ∧ ¬ End c ∧ ((parseCbw c).1 = 0xABCE ∨ (parseCbw c).1 = 0xABD0)) := by
  unfold Supported End
  by_cases h₀ : getU8 c 17 = 0
  · by_cases hf : getU8 c 16 < 2 ^ 7
    · exact .inl ⟨⟨h₀, hf⟩, parseCbw_download h₀ hf⟩
    · refine .inr (.inr ⟨fun h => hf h.2, by omega, .inl ?_⟩)
      rw [parseCbw, if_pos h₀, if_neg hf]
      rfl
  · by_cases h₁ : getU8 c 17 = 1
    · refine .inr (.inl ⟨fun h => h₀ h.1, h₁, ?_⟩)
      rw [parseCbw, if_neg h₀, if_pos h₁]
      rfl
    · refine .inr (.inr ⟨fun h => h₀ h.1, h₁, .inr ?_⟩)
      rw [parseCbw, if_neg h₀, if_neg h₁]
      rfl

lemma fseekSet_cbw (file : Bytes) (pos : ℕ) (cbw : Bytes) :
    fseekSet ⟨file, pos⟩ (cbwParam cbw).offset = ⟨file, readFrom pos cbw⟩ := by
  have hlt := getU32_lt cbw 12
  have hoff : (cbwParam cbw).offset = i32 (getU32 cbw 12) := rfl
  rw [hoff]
  by_cases h : getU32 cbw 12 < 2 ^ 31
  · rw [i32_of_lt h, readFrom, if_pos h]
    simp [fseekSet]
  · have hneg : ¬ 0 ≤ i32 (getU32 cbw 12) := by unfold i32; omega
    rw [readFrom, if_neg h, fseekSet, if_neg hneg]

/-- A round of a download. -/
lemma Downloads.delivered {file region : Bytes} {seq cksum : ℕ} {ps : List Packet}
    (hd : Downloads region seq cksum ps) {rs : List Round} {c : Bytes}
    (hdel : Delivered file rs) (hs : Supported c)
    (hregion : region = slice file (readFrom (reach (rs.map Prod.fst)) c) (amount (getU32 c 8)))
    (hlen : region.length = amount (getU32 c 8)) :
    ∃ l, ps.foldl note ((c, [.out (cswBytes true)]) :: rs) = (c, l) :: rs ∧
      Delivered file ((c, l) :: rs) ∧ ∀ v, ps.getLast? = some (.reply 16 v) → Verdict (c, l) v := by
  obtain ⟨csws, last, verdict, hcount, -, -, rfl⟩ := hd
  have hreply : ∀ n d, .reply n d ∈ exchange region csws ++ [.out last, .reply 16 verdict] →
      n ≠ 512 := by
    intro n d h
    rcases List.mem_append.mp h with h | h
    · exact reply_exchange h
    · simp only [List.mem_cons, reduceCtorEq, Packet.reply.injEq, List.not_mem_nil, or_false,
        false_or] at h
      omega
  have hpay : payload (c, [.out (cswBytes true)] ++
      (exchange region csws ++ [.out last, .reply 16 verdict])) = region := by
    have hlast : outs [.out last, .reply 16 verdict] = [last] := rfl
    have hfirst : outs [.out (cswBytes true)] = [cswBytes true] := rfl
    rw [payload, outs_append, outs_append, hlast, hfirst]
    simp only [List.singleton_append, List.drop_succ_cons, List.drop_zero, List.dropLast_concat]
    rw [outs_exchange, hcount, List.take_of_length_le]
    unfold blockCount
    omega
  refine ⟨_, foldl_note hreply c [.out (cswBytes true)] rs, ⟨hdel, hs, ?_, ?_⟩, fun v hv => ?_⟩
  · rw [hpay, hregion]
  · rw [hpay, hlen]
  · rw [Verdict, List.getLast?_append, hv]
    rfl

/-- After a download that went through, its request is the latest of those that did. -/
lemma Delivered.download {file region : Bytes} {h h₁ h₂ : Trace} {c : Bytes} {seq cksum : ℕ}
    {ps : List Packet} (hdel : Delivered file (rounds (packets h)))
    (hr₁ : rounds (packets h₁) = (c, [.out (cswBytes true)]) :: rounds (packets h))
    (hp₂ : packets h₂ = packets h₁ ++ ps) (hdown : Downloads region seq cksum ps) (hs : Supported c)
    (hregion : region =
      slice file (readFrom (reach (cbws (packets h))) c) (amount (getU32 c 8)))
    (hlen : region.length = amount (getU32 c 8)) :
    Delivered file (rounds (packets h₂)) ∧ cbws (packets h₂) = c :: cbws (packets h) ∧
      ∃ l, rounds (packets h₂) = (c, l) :: rounds (packets h) ∧
        ∀ v, ps.getLast? = some (.reply 16 v) → Verdict (c, l) v := by
  obtain ⟨l, hl, hdel', hverdict⟩ := Downloads.delivered hdown hdel hs hregion hlen
  have hr₂ : rounds (packets h₂) = (c, l) :: rounds (packets h) := by
    rw [hp₂, rounds_append, hr₁, hl]
  refine ⟨by rw [hr₂]; exact hdel', ?_, l, hr₂, hverdict⟩
  rw [cbws, hr₂]
  rfl

/-- The last reply of a download is the verdict on it. -/
lemma last_of_downloads {region : Bytes} {seq cksum : ℕ} {ps : List Packet}
    (hd : Downloads region seq cksum ps) {h₁ h₂ h' : Trace} {e : Event} {v : Bytes}
    (hp : packets h₂ = packets h₁ ++ ps) (hh : h₂ = h' ++ [e])
    (he : packetOf e = some (.reply 16 v)) : ps.getLast? = some (.reply 16 v) := by
  obtain ⟨csws, last, verdict, -, -, -, rfl⟩ := hd
  rw [packets_event hh he, ← List.append_assoc, List.append_cons] at hp
  obtain ⟨-, hv⟩ := List.append_inj' hp rfl
  rw [← (List.cons.inj hv).1]
  simp

attribute [local irreducible] pieceCount

lemma bootTurn_packets (dev : Option Handle) {file : Bytes} {s : Session} {h : Trace}
    (hI : InSession file s h) :
    Sat Free (fun h' l => l.Sat (InSession file) (fun h' ret => ret = 0 → Left file h') h')
      h (bootTurn dev s) := by
  obtain ⟨hfine, hdel, hfile, hbuf⟩ := hI
  have hP : ∀ e, Fine e → Fine e ∨ Judges (rounds (packets h)) e := fun _ => .inl
  unfold bootTurn
  refine keeps_bind.mpr (((cmdParser_packets dev s.cmd ⟨0, 0, 0, false⟩).and
    (cmdParser_fine dev hP hfine)).mono ?_)
  rintro h₁ ⟨ret, cmd, param⟩ ⟨hpar, hfine₁⟩
  dsimp only at hpar ⊢
  by_cases hret : ret ≠ 0
  · rw [if_pos hret]
    exact nofun
  rw [if_neg hret]
  obtain ⟨c, -, hc, hp₁⟩ := hpar (not_not.mp hret)
  replace hfine₁ := hfine₁ (not_not.mp hret)
  have hrounds : ∀ b, packets h₁ = packets h ++ [.reply 512 c, .out (cswBytes b)] →
      rounds (packets h₁) = (c, [.out (cswBytes b)]) :: rounds (packets h) := by
    intro b hp
    rw [hp, rounds_append]
    rfl
  rcases parseCbw_cases c with ⟨hs, hcmd⟩ | ⟨hs, hend, hcmd⟩ | ⟨hs, hend, hcmd⟩
  · -- a download
    rw [hcmd] at hc
    obtain ⟨rfl, rfl⟩ := Prod.mk.inj hc
    rw [if_neg (by omega), if_neg (by omega), if_neg (by omega), hfile, fseekSet_cbw]
    have hr₁ := hrounds true (by simpa using hp₁)
    generalize hq : requestOf file (readFrom (reach (cbws (packets h))) c) c = q
    have hsat := @secureDownload_packets h₁ dev file (readFrom (reach (cbws (packets h))) c) c s.buf
      hbuf q hq.symm
    refine keeps_bind.mpr ((hsat.and (secureDownload_fine dev hP hfine₁)).mono ?_)
    rintro h₂ ⟨ret', file', buf'⟩ ⟨hd, hfine₂⟩
    dsimp only at hd hfine₂ ⊢
    by_cases hret' : ret' ≠ 0
    · rw [if_pos hret']
      exact nofun
    rw [if_neg hret']
    obtain ⟨hlen, hfile', hbuf', ps, hp₂, hdown⟩ := hd (not_not.mp hret')
    have hregion : q.region = slice file (readFrom (reach (cbws (packets h))) c)
        (amount (getU32 c 8)) := by
      rw [← hq]; rfl
    obtain ⟨h₃, e, v, hh, he, hfine₃⟩ := hfine₂ (not_not.mp hret')
    obtain ⟨hdel', hc₂, l, hr₂, hverdict⟩ := hdel.download hr₁ hp₂ hdown hs hregion hlen
    refine ⟨?_, hdel', ?_, hbuf'⟩
    · rw [hr₂, hh]
      refine List.forall_mem_append.mpr ⟨fun e' he' => ?_, List.forall_mem_singleton.mpr (.inr ?_)⟩
      · refine (hfine₃ e' he').imp_right ?_
        rintro ⟨r, hr, hjudged⟩
        exact ⟨r, List.mem_cons_of_mem _ hr, hjudged⟩
      · exact ⟨(c, l), List.mem_cons_self, v, hverdict v (last_of_downloads hdown hp₂ hh he), he⟩
    · dsimp only
      rw [hfile', hc₂]
      rfl
  · -- the end
    have hc₁ : cmd = 0xABCF := by rw [← hcmd, ← hc]
    subst hc₁
    rw [if_neg (by omega), if_pos (by omega)]
    have hr₁ := hrounds true (by simpa using hp₁)
    exact fun _ => ⟨c, _, true, hr₁, hdel, hs, iff_of_true rfl hend, hfine₁⟩
  · -- an error report, or what is not supported
    have hc₁ : cmd = 0xABCE ∨ cmd = 0xABD0 := by
      rcases hcmd with hcmd | hcmd
      · exact .inl (by rw [← hcmd, ← hc])
      · exact .inr (by rw [← hcmd, ← hc])
    have hleft : Left file h₁ := by
      have hr₁ := hrounds false (by rcases hc₁ with rfl | rfl <;> simpa using hp₁)
      exact ⟨c, _, false, hr₁, hdel, hs, iff_of_false nofun hend, hfine₁⟩
    rcases hc₁ with rfl | rfl
    · rw [if_neg (by omega), if_neg (by omega), if_pos (by omega)]
      exact fun _ => hleft
    · rw [if_neg (by omega), if_pos (by omega)]
      exact fun _ => hleft

/-- Sessions that are left with 0 went well exactly when the device was regular. -/
lemma Left.completed_iff {file : Bytes} {t : Trace} (hl : Left file t) :
    Completed file t ↔ Regular file (packets t) := by
  obtain ⟨c, rs, b, hr, hdel, hs, hb, hfine⟩ := hl
  have hcbws : cbws (packets t) = c :: rs.map Prod.fst := by rw [cbws, hr]; rfl
  have htail : (rounds (packets t)).tail = rs := by rw [hr]; rfl
  constructor
  · rintro ⟨⟨c', rs', hr', hend, hall⟩, hack, -⟩
    rw [hr] at hr'
    obtain ⟨hcc, hrr⟩ := List.cons.inj hr'
    obtain ⟨rfl, -⟩ := Prod.mk.inj hcc
    subst hrr
    refine ⟨?_, fun r hmem v hv => ?_, ?_⟩
    · rw [hcbws, List.forall_mem_cons]
      refine ⟨.inr hend, fun c' hc' => ?_⟩
      obtain ⟨r, hmem, rfl⟩ := List.mem_map.mp hc'
      exact .inl (hall r hmem).1
    · exact hack v (mem_of_rounds (List.mem_of_mem_tail hmem) (List.mem_of_getLast? hv))
    · rw [hcbws, List.tail_cons]
      exact hdel.sent_iff.mp fun r hmem => (hall r hmem).2
  · rintro ⟨hkinds, hverdicts, hrange⟩
    rw [hcbws, List.forall_mem_cons] at hkinds
    have hend : End c := hkinds.1.resolve_left hs
    rw [hb.mpr hend] at hr
    rw [hcbws, List.tail_cons] at hrange
    have hsent := hdel.sent_iff.mpr hrange
    -- with good verdicts there is nothing to excuse
    have hall : ∀ e ∈ t, Fine e := by
      intro e he
      rcases hfine e he with hfine | ⟨r, hmem, v, hv, hp⟩
      · exact hfine
      · exact fine_reply hp (hverdicts r (htail.symm ▸ hmem) v hv)
    refine ⟨⟨c, rs, hr, hend, fun r hmem => ⟨hdel.supported r hmem, hsent r hmem⟩⟩, fun d hd => ?_,
      fun e he => (hall e he).1⟩
    obtain ⟨e, he, hp⟩ := List.mem_filterMap.mp hd
    exact (hall e he).2 d hp

/-- Every session that returns 0 was left after a request that is no download. -/
lemma boot_left (files : Files) {buf : Bytes} (hbuf : 512 ≤ buf.length) (turns : ℕ) (dev : Device)
    (argc : ℤ) (argv : List Bytes) :
    Sat Free (fun h' ret => ret = 0 → Left (files (argv.getD 0 [])) h') []
      (amlLibusbBl2Boot files buf turns dev argc argv) := by
  unfold amlLibusbBl2Boot
  by_cases hd : dev = .null
  · rw [hd, openUsbDevice_null]
    exact fun h => absurd h (by decide)
  rw [openUsbDevice_eq hd]
  refine ⟨trivial, fun handle => ?_⟩
  have hopen : packets ([] ++ [⟨.libusbOpen dev, handle⟩]) = [] ∧
      ∀ e ∈ [] ++ [(⟨.libusbOpen dev, handle⟩ : Event)], Fine e :=
    ⟨rfl, List.forall_mem_singleton.mpr (fine_other rfl nofun)⟩
  generalize [] ++ [(⟨.libusbOpen dev, handle⟩ : Event)] = h₁ at hopen ⊢
  by_cases hargc : argc ≤ 0
  · simp only [if_pos hargc]
    exact fun h => absurd h (by decide)
  simp only [if_neg hargc]
  refine ⟨trivial, fun ok => ?_⟩
  have hfopen : packets (h₁ ++ [⟨.fopen (argv.getD 0 []) false, ok⟩]) = [] ∧
      ∀ e ∈ h₁ ++ [⟨.fopen (argv.getD 0 []) false, ok⟩], Fine e := by
    refine ⟨?_, fine_snoc (fun _ => id) rfl hopen.2 (fine_other rfl nofun)⟩
    rw [packets_append, hopen.1]
    rfl
  generalize h₁ ++ [(⟨.fopen (argv.getD 0 []) false, ok⟩ : Event)] = h₂ at hfopen ⊢
  refine keeps_bind.mpr (keeps_ret.mpr (keeps_bind.mpr ?_))
  refine Keeps.mono (Q := fun h' ret => ret = 0 → Left (files (argv.getD 0 [])) h') ?_
    fun h₃ ret hret => ?_
  · cases ok with
    | false => exact fun h => absurd h (by decide)
    | true =>
      refine sat_iterate (fun s h hI => bootTurn_packets handle hI) ⟨?_, ?_, ?_, hbuf⟩
      · exact fun e he => .inl (hfopen.2 e he)
      · rw [hfopen.1]
        trivial
      · rw [hfopen.1]
        rfl
  refine keeps_closing hd (fun _ => trivial) fun hc _ => ⟨trivial, fun hz => ?_⟩
  obtain ⟨c, rs, b, hr, hdel, hs, hb, hfine⟩ := hret hz
  have hclose : packets (h₃ ++ [⟨.libusbClose hc, ()⟩]) = packets h₃ := by
    rw [packets_append]
    exact List.append_nil _
  exact ⟨c, rs, b, by rw [hclose, hr], hdel, hs, hb,
    fine_snoc (fun _ => .inl) rfl hfine (fine_other rfl nofun)⟩

/-- **A session that returns 0 went well exactly when the device was regular.** The tool gives
back 0 as well after an error report, an unsupported request and a failed verdict, and loses
requests for more than `0x7FFF0000` bytes. Otherwise nothing that fails, is short or is not
acknowledged gets past it. -/
theorem completed_iff_regular (files : Files) {buf : Bytes} (hbuf : 512 ≤ buf.length)
    {turns : ℕ} {dev : Device} {argc : ℤ} {argv : List Bytes} {t : Trace}
    (hr : Runs (amlLibusbBl2Boot files buf turns dev argc argv) t 0) :
    Completed (files (argv.getD 0 [])) t ↔ Regular (files (argv.getD 0 [])) (packets t) := by
  have hleft := (boot_left files hbuf turns dev argc argv).runs hr rfl
  rw [List.nil_append] at hleft
  exact hleft.completed_iff

/-! ### Two sessions -/

/-- A CBW of the request type `kind`. -/
def typedCbw (kind : UInt8) : Bytes := List.replicate 17 0 ++ [kind] ++ List.replicate 494 0

lemma typedCbw_length (kind : UInt8) : (typedCbw kind).length = 512 := by
  simp only [typedCbw, List.length_append, List.length_replicate, List.length_singleton]

/-- The answers of a device that begins with the request `cbw`, and whose next request has the
type `kind`. -/
def sessionAnswers (cbw : { l : Bytes // l.length = 512 }) (kind : UInt8) (t : Trace) :
    (o : Op) → Option (Resp o)
  | .libusbOpen _ => some (some (0 : ℕ))
  | .libusbClose _ => some ()
  | .fopen _ _ => some true
  | .fread want avail => some (Fin.last (min want avail))
  | .controlOut _ s _ _ => some ⟨none, Fin.last s.wLength⟩
  | .bulkOut _ _ _ n _ => some ⟨none, Fin.last n⟩
  | .bulkIn _ _ n _ =>
    if h : n = 512 then
      if (packets t).isEmpty then some ⟨none, cbw.1, by rw [cbw.2, h]⟩
      else some ⟨none, typedCbw kind, by rw [typedCbw_length, h]⟩
    else if h : n = 16 then some ⟨none, cswBytes true, cswBytes_fits h⟩
    else none
  | _ => none

/-- A download of the first byte, and the end. -/
lemma byte_run : ∃ t, Runs (amlLibusbBl2Boot (fun _ => [7]) (List.replicate 512 0) 2 (.dev 0) 1
    [[]]) t 0 ∧ cbws (packets t) = [typedCbw 1, byteCbw] ∧
    (rounds (packets t)).tail.map (fun r => r.2.getLast?) =
      [some (.reply 16 (cswBytes true))] := by
  have heval : (exec (recorded (sessionAnswers ⟨byteCbw, byteCbw_length⟩ 1)) []
      (amlLibusbBl2Boot (fun _ => [7]) (List.replicate 512 0) 2 (.dev 0) 1 [[]])).map
        (fun x => (x.1, cbws (packets x.2), (rounds (packets x.2)).tail.map fun r =>
          r.2.getLast?)) =
      some (0, [typedCbw 1, byteCbw], [some (.reply 16 (cswBytes true))]) := by
    decide +kernel
  obtain ⟨⟨ret, t⟩, hexec, hres⟩ := Option.map_eq_some_iff.mp heval
  obtain ⟨rfl, hrest⟩ := Prod.mk.inj hres
  obtain ⟨hcbws, hlast⟩ := Prod.mk.inj hrest
  exact ⟨t, exec_recorded _ hexec, hcbws, hlast⟩

theorem completed_iff_regular_byte : ∃ t, cbws (packets t) = [typedCbw 1, byteCbw] ∧
    Completed [7] t := by
  obtain ⟨t, hr, hcbws, hlast⟩ := byte_run
  refine ⟨t, hcbws, (completed_iff_regular (fun _ => [7]) (by rw [List.length_replicate]) hr).mpr
    ⟨?_, fun r hmem v hv => ?_, ?_⟩⟩
  · rw [hcbws, List.forall_mem_cons, List.forall_mem_singleton]
    exact ⟨.inr rfl, .inl ⟨rfl, by decide⟩⟩
  · have hr := List.mem_map_of_mem (f := fun r : Round => r.2.getLast?) hmem
    rw [hlast, List.mem_singleton] at hr
    rw [Verdict, hr] at hv
    obtain ⟨-, rfl⟩ := Packet.reply.inj (Option.some.inj hv)
    exact ⟨rfl, by decide⟩
  · rw [hcbws]
    exact ⟨trivial, by decide, .inl (by decide)⟩

set_option maxRecDepth 10000 in
lemma report_run : ∃ t, Runs (amlLibusbBl2Boot (fun _ => []) (List.replicate 512 0) 1 (.dev 0) 1
    [[]]) t 0 ∧ packets t = [.reply 512 (typedCbw 2), .out (cswBytes false)] :=
  ⟨_, exec_recorded (sessionAnswers ⟨typedCbw 2, typedCbw_length 2⟩ 1) rfl, rfl⟩

/-- The device reports an error at once; the tool answers FAIL and returns 0. -/
theorem report_returns_zero : ∃ t, Runs (amlLibusbBl2Boot (fun _ => []) (List.replicate 512 0) 1
    (.dev 0) 1 [[]]) t 0 ∧ ¬ Completed [] t := by
  obtain ⟨t, hr, hp⟩ := report_run
  refine ⟨t, hr, fun hc => ?_⟩
  obtain ⟨c, rs, hrounds, -, -⟩ := hc.ended
  rw [hp] at hrounds
  have hcsw : rounds [.reply 512 (typedCbw 2), .out (cswBytes false)] =
      [(typedCbw 2, [.out (cswBytes false)])] := rfl
  rw [hcsw] at hrounds
  obtain ⟨hround, -⟩ := List.cons.inj hrounds
  obtain ⟨-, hsent⟩ := Prod.mk.inj hround
  exact absurd hsent (by decide)

end AmlogicUpdate.Session

import AmlogicUpdate.Bl2
import AmlogicUpdate.Wire

/-!
A download of the BL2 protocol: from the CBW that asks for a region of the file to the
verdict on it.

What is said about a download is read off the bulk transfers alone, as a list of packets.
Three variables count along with the pieces; the invariant gives all of them from the
number of pieces sent.
-/

namespace AmlogicUpdate.Download

open Interaction CData Usb AmlLibusb Bl2 Wire Checksum

/-! ### Packets -/

/-- A bulk transfer: what the device took, or what it gave when asked for so many bytes. -/
inductive Packet
  | out (data : Bytes)
  | reply (asked : ℕ) (data : Bytes)
  deriving DecidableEq

def packetOf : Event → Option Packet
  | ⟨.bulkOut h ep data n timeout, r⟩ => some (.out (accepted ⟨.bulkOut h ep data n timeout, r⟩))
  | ⟨.bulkIn h ep n timeout, r⟩ => some (.reply n (delivered ⟨.bulkIn h ep n timeout, r⟩))
  | _ => none

def packets (t : Trace) : List Packet := t.filterMap packetOf

@[simp] lemma packets_nil : packets [] = [] := rfl
@[simp] lemma packets_append (t t' : Trace) : packets (t ++ t') = packets t ++ packets t' :=
  List.filterMap_append
@[simp] lemma packets_singleton (e : Event) : packets [e] = (packetOf e).toList := by
  cases h : packetOf e <;> simp [packets, h]

/-- An acknowledgement. -/
def Okay (d : Bytes) : Prop := d.length = 16 ∧ okay <+: d

/-- Nothing is amiss with what happened: a transfer moved all it was asked for, and a CSW that came
is an acknowledgement. -/
def Fine (e : Event) : Prop := carried e = true ∧ ∀ d, packetOf e = some (.reply 16 d) → Okay d

/-- A reply as long as it was asked for. -/
lemma carried_reply {e : Event} {n : ℕ} {d : Bytes} (h : packetOf e = some (.reply n d))
    (hn : 0 < n) (hlen : d.length = n) : carried e = true := by
  obtain ⟨o, r⟩ := e
  cases o
  case bulkIn hd ep n' timeout =>
    obtain ⟨rfl, hdata⟩ := Packet.reply.inj (Option.some.inj h)
    cases r with | mk status data =>
    rcases usbBulkIo_cases status data.1.length with hio | hio
    · rw [delivered, hio, Int.toNat_natCast, List.take_length] at hdata
      rw [hdata, hlen] at hio
      simp [carried, outcome, hio, hdata, hlen]
    · rw [delivered, usbBulkIo_neg hio] at hdata
      rw [← hdata] at hlen
      exact absurd hlen hn.ne
  all_goals cases h

lemma fine_reply {e : Event} {d : Bytes} (h : packetOf e = some (.reply 16 d)) (hok : Okay d) :
    Fine e := by
  refine ⟨carried_reply h (by decide) hok.1, fun d' hd' => ?_⟩
  rw [h] at hd'
  obtain ⟨-, rfl⟩ := Packet.reply.inj (Option.some.inj hd')
  exact hok

lemma fine_other {e : Event} (h : carried e = true) (hp : ∀ d, packetOf e ≠ some (.reply 16 d)) :
    Fine e := ⟨h, fun d hd => absurd hd (hp d)⟩

/-- The CSW the tool sends. -/
def cswBytes (doOkay : Bool) : Bytes := (if doOkay then okay else fail) ++ List.replicate 12 0

/-! ### What the calls of a session put on the bulk endpoints -/

/-- Any call may be made. -/
abbrev Free : Trace → Op → Prop := fun _ _ => True

section Calls

variable {h : Trace} (dev : Option Handle)

lemma control_event (bRequest : ℕ) (wValue wIndex timeout : ℤ) :
    Sat Free (fun h' r => ∃ e, h' = h ++ [e] ∧ packetOf e = none ∧ (0 ≤ r.1 → Fine e)) h
      (usbControlMsg dev vendorOut bRequest wValue wIndex [] 0 timeout) := by
  cases dev with
  | none => exact keeps_segfault.mpr trivial
  | some hd =>
    rw [usbControlMsg_out hd rfl rfl rfl rfl rfl timeout]
    refine ⟨trivial, fun r => ⟨_, rfl, rfl, fun hr => fine_other ?_ nofun⟩⟩
    have hle := usbControlResult_le r.status r.actual
    have hactual : (r.actual : ℕ) < 1 := r.actual.2
    have hzero : usbControlResult r.status r.actual = 0 := by omega
    simp only [carried, outcome, Option.all_some, decide_eq_true_eq]
    exact hzero

lemma bulkWrite_event (bytes : Bytes) (size : ℕ) (timeout : ℤ) :
    Sat Free (fun h' (ret : ℤ) => ∃ e d, h' = h ++ [e] ∧ packetOf e = some (.out d) ∧
      (ret = size → d = bytes.take size ∧ Fine e)) h
      (usbBulkWrite dev amEpOut bytes size timeout) := by
  cases dev with
  | none => exact keeps_segfault.mpr trivial
  | some hd =>
    refine ⟨trivial, fun r => ?_⟩
    rw [keeps_ret]
    refine ⟨_, _, rfl, rfl, fun hret => ⟨?_, fine_other ?_ nofun⟩⟩
    · simp only [accepted, hret, Int.toNat_natCast, List.take_take, Nat.min_self]
    · simp [carried, outcome, hret]

lemma bulkRead_event (bytes : Bytes) (size : ℕ) (timeout : ℤ) :
    Sat Free (fun h' (r : ℤ × Bytes) => ∃ e d, h' = h ++ [e] ∧
      packetOf e = some (.reply size d) ∧
      ((r.1 = d.length ∧ r.2 = blit bytes 0 d) ∨ (r.1 < 0 ∧ d = []))) h
      (usbBulkRead dev amEpIn bytes size timeout) := by
  cases dev with
  | none => exact keeps_segfault.mpr trivial
  | some hd =>
    refine ⟨trivial, fun r => ?_⟩
    rw [keeps_ret]
    refine ⟨_, _, rfl, rfl, ?_⟩
    simp only [delivered]
    rcases usbBulkIo_cases r.status r.data.1.length with hio | hio
    · left
      rw [hio, Int.toNat_natCast, List.take_length]
      exact ⟨rfl, rfl⟩
    · right
      rw [usbBulkIo_neg hio]
      exact ⟨hio, rfl⟩

lemma fread_event (f : File) (n : ℕ) :
    Sat Free (fun h' r => ∃ e, h' = h ++ [e] ∧ packetOf e = none ∧ Fine e ∧
      ∃ k, k ≤ f.content.length - f.pos ∧
        r = (slice f.content f.pos k, { f with pos := f.pos + k })) h (fread f n) := by
  refine ⟨trivial, fun k => ⟨_, rfl, rfl, fine_other rfl nofun, k, ?_, rfl⟩⟩
  have := k.isLt
  omega

lemma cswGet_event :
    Sat Free (fun h' (ret : ℤ) => ∃ e d, h' = h ++ [e] ∧ packetOf e = some (.reply 16 d) ∧
      (ret = 0 ↔ Okay d)) h (amlLibusbBl2Csw dev false false) := by
  refine keeps_bind.mpr ((bulkRead_event dev (List.replicate 16 0) 16 30000).mono ?_)
  rintro h' r ⟨e, d, he, hp, hr⟩
  simp only [Prog.pure_eq_ret, keeps_ret]
  refine ⟨e, d, he, hp, ?_⟩
  rcases hr with ⟨hlen, hbuf⟩ | ⟨hneg, rfl⟩
  · by_cases h16 : d.length = 16
    · have hslice : slice r.2 0 4 = d.take 4 := by
        rw [hbuf, blit_zero, slice, List.drop_zero, List.take_append_of_le_length (by omega)]
      have hne : ¬ r.1 ≠ 16 := by omega
      rw [if_neg hne, hslice, Okay, List.prefix_iff_eq_take]
      simp only [h16, true_and]
      split_ifs with hok
      · exact ⟨nofun, fun h => absurd h.symm hok⟩
      · exact ⟨fun _ => (not_not.mp hok).symm, fun _ => rfl⟩
    · rw [if_pos (by omega)]
      exact ⟨nofun, fun h => absurd h.1 h16⟩
  · rw [if_pos (by omega)]
    exact ⟨nofun, fun h => absurd h.1 (by decide)⟩

lemma cswSend_event (doOkay : Bool) :
    Sat Free (fun h' (ret : ℤ) => ∃ e d, h' = h ++ [e] ∧ packetOf e = some (.out d) ∧
      (ret = 0 → d = cswBytes doOkay ∧ Fine e)) h (amlLibusbBl2Csw dev true doOkay) := by
  refine keeps_bind.mpr ((bulkWrite_event dev _ 16 30000).mono ?_)
  rintro h' ret ⟨e, d, he, hp, hd⟩
  simp only [Prog.pure_eq_ret, keeps_ret]
  refine ⟨e, d, he, hp, fun hret => ?_⟩
  split_ifs at hret with h16
  obtain ⟨hd, hfine⟩ := hd (not_not.mp h16)
  rw [hd]
  exact ⟨by cases doOkay <;> rfl, hfine⟩

/-! Of these, the packets. -/

lemma packets_event {h' : Trace} {e : Event} {p : Option Packet} (h₁ : h' = h ++ [e])
    (h₂ : packetOf e = p) : packets h' = packets h ++ p.toList := by
  rw [h₁, packets_append, packets_singleton, h₂]

lemma control_packets (bRequest : ℕ) (wValue wIndex timeout : ℤ) :
    Sat Free (fun h' _ => packets h' = packets h) h
      (usbControlMsg dev vendorOut bRequest wValue wIndex [] 0 timeout) := by
  refine (control_event dev bRequest wValue wIndex timeout).mono ?_
  rintro h' r ⟨e, he, hp, -⟩
  exact (packets_event he hp).trans (List.append_nil _)

lemma bulkWrite_packets (bytes : Bytes) (size : ℕ) (timeout : ℤ) :
    Sat Free (fun h' (ret : ℤ) => ∃ d, packets h' = packets h ++ [.out d] ∧
      (ret = size → d = bytes.take size)) h (usbBulkWrite dev amEpOut bytes size timeout) := by
  refine (bulkWrite_event dev bytes size timeout).mono ?_
  rintro h' ret ⟨e, d, he, hp, hd⟩
  exact ⟨d, packets_event he hp, fun hret => (hd hret).1⟩

lemma bulkRead_packets (bytes : Bytes) (size : ℕ) (timeout : ℤ) :
    Sat Free (fun h' r => ∃ d, packets h' = packets h ++ [.reply size d] ∧
      ((r.1 = d.length ∧ r.2 = blit bytes 0 d) ∨ (r.1 < 0 ∧ d = []))) h
      (usbBulkRead dev amEpIn bytes size timeout) := by
  refine (bulkRead_event dev bytes size timeout).mono ?_
  rintro h' r ⟨e, d, he, hp, hr⟩
  exact ⟨d, packets_event he hp, hr⟩

lemma fread_packets (f : File) (n : ℕ) :
    Sat Free (fun h' r => packets h' = packets h ∧
      ∃ k, k ≤ f.content.length - f.pos ∧
        r = (slice f.content f.pos k, { f with pos := f.pos + k })) h (fread f n) := by
  refine (fread_event f n).mono ?_
  rintro h' r ⟨e, he, hp, -, hr⟩
  exact ⟨(packets_event he hp).trans (List.append_nil _), hr⟩

lemma cswGet_packets :
    Sat Free (fun h' (ret : ℤ) => ∃ d, packets h' = packets h ++ [.reply 16 d] ∧
      (ret = 0 ↔ Okay d)) h
      (amlLibusbBl2Csw dev false false) := by
  refine (cswGet_event dev).mono ?_
  rintro h' ret ⟨e, d, he, hp, hok⟩
  exact ⟨d, packets_event he hp, hok⟩

lemma cswSend_packets (doOkay : Bool) :
    Sat Free (fun h' (ret : ℤ) => ∃ d, packets h' = packets h ++ [.out d] ∧
      (ret = 0 → d = cswBytes doOkay)) h (amlLibusbBl2Csw dev true doOkay) := by
  refine (cswSend_event dev doOkay).mono ?_
  rintro h' ret ⟨e, d, he, hp, hd⟩
  exact ⟨d, packets_event he hp, fun hret => (hd hret).1⟩

end Calls

/-! ### The pieces -/

/-- The bytes a request for `n` is answered with: beyond the range in which the number of pieces
is computed without overflow there are none. -/
def amount (n : ℕ) : ℕ := if n ≤ 0x7FFF0000 then n else 0

lemma amount_le (n : ℕ) : amount n ≤ 0x7FFF0000 := by unfold amount; split_ifs <;> omega

lemma amount_of_pos {n : ℕ} (h : 0 < blockCount (amount n)) : amount n = n := by
  unfold amount blockCount at *
  split_ifs at * <;> omega

lemma pieceCount_eq {n : ℕ} (hn : n < 2 ^ 32) :
    (pieceCount (i32 n)).toNat = blockCount (amount n) := by
  unfold pieceCount i32 blockCount amount
  split_ifs <;> omega

/-- The pieces of a region that have been sent, each with the reply to it. -/
def exchange (region : Bytes) (csws : List Bytes) : List Packet :=
  csws.zipIdx.flatMap fun c => [.out (blockAt region c.2), .reply 16 c.1]

lemma exchange_snoc (region : Bytes) (csws : List Bytes) (c : Bytes) :
    exchange region (csws ++ [c]) =
      exchange region csws ++ [.out (blockAt region csws.length)] ++ [.reply 16 c] := by
  simp [exchange, List.zipIdx_append, List.flatMap_append]

/-- What is asked for of the file: where, how much, and whether with a checksum. -/
structure Request where
  content : Bytes
  pos : ℕ
  size : ℕ
  doCksum : Bool

namespace Request

variable (q : Request)

/-- The bytes that answer the request. -/
def region : Bytes := slice q.content q.pos (amount q.size)

/-- The checksum in the trailer. -/
def cksum : ℕ := if q.doCksum then checksum64K q.region q.region.length else 0

/-- How far the pieces have got after `i` of them. -/
def done (i : ℕ) : ℕ := min (65536 * i) (amount q.size)

end Request

/-- The invariant of the loop over the pieces; `ps` are the packets before it. -/
structure Piecing (q : Request) (ps : List Packet) (s : Download) (h : Trace) : Prop where
  count : s.i ≤ blockCount (amount q.size)
  dataOffset : s.dataOffset = 65536 * s.i
  dataSize : s.i < blockCount (amount q.size) → s.dataSize = amount q.size - 65536 * s.i
  file : s.file = ⟨q.content, q.pos + q.done s.i⟩
  whole : q.done s.i ≤ q.region.length
  cksum : s.cksum = if q.doCksum then checksum64K q.region (q.done s.i) else 0
  buf : 512 ≤ s.buf.length
  sent : ∃ csws, csws.length = s.i ∧ (∀ c ∈ csws, Okay c) ∧
    packets h = ps ++ exchange q.region csws

section Pieces

variable {q : Request} {ps : List Packet} {s : Download} {h : Trace}

/-- The next piece, once it has been read in full. -/
lemma Piecing.block (hP : Piecing q ps s h) (hi : s.i < blockCount (amount q.size)) {k : ℕ}
    (hlen : (slice q.content (q.pos + q.done s.i) k).length = min s.dataSize 0x10000) :
    slice q.content (q.pos + q.done s.i) k = blockAt q.region s.i ∧
      (blockAt q.region s.i).length = min s.dataSize 0x10000 ∧
      q.done (s.i + 1) = q.done s.i + min s.dataSize 0x10000 ∧
      q.done (s.i + 1) ≤ q.region.length := by
  have hsize := hP.dataSize hi
  have hcount : blockCount (amount q.size) = (amount q.size + 65535) / 65536 := rfl
  have hdone : q.done s.i = 65536 * s.i := by unfold Request.done; omega
  have hnext : q.done (s.i + 1) = q.done s.i + min s.dataSize 0x10000 := by
    unfold Request.done at hdone ⊢; omega
  rw [slice_length] at hlen
  have hblock : slice q.content (q.pos + q.done s.i) k = blockAt q.region s.i := by
    rw [blockAt, Request.region, slice, slice, slice, List.drop_take, List.drop_drop,
      List.take_take, hdone, List.take_eq_take_iff, List.length_drop]
    omega
  have hregion : q.region.length = min (amount q.size) (q.content.length - q.pos) :=
    slice_length _ _ _
  refine ⟨hblock, ?_, hnext, ?_⟩
  · rw [← hblock, slice_length, hlen]
  · omega

/-- What is left after one more piece that was not the last. -/
lemma dataSize_next {n i : ℕ} (hi : i + 1 < blockCount (amount n)) :
    u32 (((amount n - 65536 * i : ℕ) : ℤ) - 0x10000) = amount n - 65536 * (i + 1) := by
  have := amount_le n
  unfold blockCount at hi
  unfold u32
  omega

/-- The checksum of one more piece. -/
lemma Request.cksum_succ {i : ℕ} (hi : i < blockCount (amount q.size))
    (hwhole : q.done (i + 1) ≤ q.region.length) :
    (checksum64K q.region (q.done i) +
        checksum64K (blockAt q.region i) (blockAt q.region i).length) % 2 ^ 32 =
      checksum64K q.region (q.done (i + 1)) := by
  have hcount : blockCount (amount q.size) = (amount q.size + 65535) / 65536 := rfl
  have hdone : q.done i = 65536 * i := by unfold Request.done; omega
  have hregion : q.region.length ≤ amount q.size := by
    rw [Request.region, slice_length]; exact Nat.min_le_left _ _
  have hle : q.done i ≤ q.done (i + 1) := by unfold Request.done; omega
  have hlen : (q.region.take (65536 * i)).length = q.done i := by
    rw [List.length_take]; omega
  have htake : q.region.take (65536 * (i + 1)) = q.region.take (q.done (i + 1)) := by
    rw [List.take_eq_take_iff, Request.done, Nat.min_assoc, Nat.min_eq_right hregion]
  have hlen' : (q.region.take (q.done (i + 1))).length = q.done (i + 1) := by
    rw [List.length_take]; omega
  have happend := checksum64K_append (a := q.region.take (65536 * i)) (b := blockAt q.region i)
    (by omega)
  rw [take_blockAt, htake, hlen, hlen', hdone, checksum64K_take, checksum64K_take] at happend
  rw [happend, hdone]

/-- The invariant after a piece that was read in full, sent and acknowledged. -/
lemma Piecing.next (hP : Piecing q ps s h) (hi : s.i < blockCount (amount q.size)) {k : ℕ}
    (hk : k ≤ q.content.length - (q.pos + q.done s.i))
    (hread : (slice q.content (q.pos + q.done s.i) k).length = min s.dataSize 0x10000)
    {c : Bytes} (hok : Okay c) {h' : Trace}
    (hp : packets h' = packets h ++ [.out (blockAt q.region s.i)] ++ [.reply 16 c]) :
    Piecing q ps
      { i := s.i + 1
        dataOffset := (s.dataOffset + 0x10000) % 2 ^ 32
        dataSize := u32 ((s.dataSize : ℤ) - 0x10000)
        cksum := if q.doCksum then (s.cksum + checksum64K (blit s.buf 0 (blockAt q.region s.i))
          (min s.dataSize 0x10000 : ℕ)) % 2 ^ 32 else s.cksum
        file := ⟨q.content, q.pos + q.done s.i + k⟩
        buf := blit s.buf 0 (blockAt q.region s.i) } h' := by
  have hamount := amount_le q.size
  have hcount : blockCount (amount q.size) = (amount q.size + 65535) / 65536 := rfl
  obtain ⟨-, hblen, hnext, hwhole⟩ := hP.block hi hread
  obtain ⟨csws, hlen, hall, hsent⟩ := hP.sent
  refine ⟨by dsimp only; omega, ?_, fun hlt => ?_, ?_, hwhole, ?_, ?_, csws ++ [c], ?_, ?_, ?_⟩
  · dsimp only
    rw [hP.dataOffset]; omega
  · dsimp only at hlt ⊢
    rw [hP.dataSize hi]
    exact dataSize_next hlt
  · dsimp only
    have hk' : k = min s.dataSize 0x10000 := by
      have hslice := slice_length q.content (q.pos + q.done s.i) k
      omega
    rw [hnext, hk', Nat.add_assoc]
  · dsimp only
    have hbuf : (blit s.buf 0 (blockAt q.region s.i)).take (min s.dataSize 0x10000) =
        blockAt q.region s.i := by
      rw [← hblen, blit_zero, List.take_left]
    rw [hP.cksum, ← Request.cksum_succ hi hwhole]
    cases q.doCksum with
    | false => rfl
    | true =>
      simp only [if_true]
      rw [← checksum64K_take (blit s.buf 0 _), hbuf, hblen]
  · have := hP.buf
    rw [blit_zero, List.length_append, List.length_drop]
    omega
  · rw [List.length_append, hlen]; rfl
  · intro c' hc'
    rcases List.mem_append.mp hc' with hc' | hc'
    · exact hall c' hc'
    · rw [List.mem_singleton.mp hc']
      exact hok
  · rw [hp, hsent, exchange_snoc, hlen]
    simp only [List.append_assoc]

lemma piece_packets {dev : Option Handle} {param : AmlBl2Cmd}
    (hsize : (pieceCount param.dataSize).toNat = blockCount (amount q.size))
    (hck : param.doCksum = q.doCksum) (hP : Piecing q ps s h) :
    Sat Free (fun h' l => l.Sat (Piecing q ps) (fun h' l => l.1 = 0 →
      l.2.i = blockCount (amount q.size) ∧ Piecing q ps l.2 h') h') h
      (downloadTurn dev param s) := by
  unfold downloadTurn
  by_cases hi : (s.i : ℤ) < pieceCount param.dataSize
  swap
  · rw [if_neg hi]
    have := hP.count
    exact fun _ => ⟨by dsimp only; omega, hP⟩
  rw [if_pos hi]
  have hi' : s.i < blockCount (amount q.size) := by omega
  refine keeps_bind.mpr ((control_packets dev _ _ _ _).mono fun h₁ r hp₁ => ?_)
  by_cases hr : r.1 < 0
  · rw [if_pos hr]
    exact nofun
  rw [if_neg hr]
  refine keeps_bind.mpr ((fread_packets _ _).mono ?_)
  rintro h₂ _ ⟨hp₂, k, hk, rfl⟩
  rw [hP.file] at hk ⊢
  dsimp only at hk ⊢
  by_cases hread : (slice q.content (q.pos + q.done s.i) k).length ≠ min s.dataSize 0x10000 ∨
      min s.dataSize 0x10000 = 0
  · rw [if_pos hread]
    exact nofun
  rw [if_neg hread]
  push Not at hread
  obtain ⟨hblock, hblen, -⟩ := hP.block hi' hread.1
  rw [hblock]
  have hbuf : (blit s.buf 0 (blockAt q.region s.i)).take (min s.dataSize 0x10000) =
      blockAt q.region s.i := by
    rw [← hblen, blit_zero, List.take_left]
  refine keeps_bind.mpr ((bulkWrite_packets dev _ _ _).mono ?_)
  rintro h₃ ret ⟨d, hp₃, hd⟩
  by_cases hret : ret ≠ (min s.dataSize 0x10000 : ℕ)
  · rw [if_pos hret]
    exact nofun
  rw [if_neg hret]
  rw [hd (not_not.mp hret), hbuf] at hp₃
  refine keeps_bind.mpr ((cswGet_packets dev).mono ?_)
  rintro h₄ ret' ⟨c, hp₄, hok⟩
  by_cases hret' : ret' ≠ 0
  · rw [if_pos hret']
    exact nofun
  rw [if_neg hret']
  have hsent : packets h₄ = packets h ++ [.out (blockAt q.region s.i)] ++ [.reply 16 c] := by
    rw [hp₄, hp₃, hp₂, hp₁]
  rw [hck]
  exact hP.next hi' hk hread.1 (hok.mp (not_not.mp hret')) hsent

lemma pieces_packets {dev : Option Handle} {param : AmlBl2Cmd}
    (hsize : (pieceCount param.dataSize).toNat = blockCount (amount q.size))
    (hck : param.doCksum = q.doCksum) (hP : Piecing q ps s h) (n : ℕ) :
    Sat Free (fun h' l => l.1 = 0 → l.2.i = blockCount (amount q.size) ∧ Piecing q ps l.2 h') h
      (iterate (downloadTurn dev param) n s) :=
  sat_iterate (I := Piecing q ps) (fun _ _ hP => piece_packets hsize hck hP) hP

end Pieces

/-! ### The trailer -/

/-- The packet that ends a download. -/
structure Trailer (seq cksum : ℕ) (data : Bytes) : Prop where
  length : data.length = 512
  magic : amls <+: data
  seq : getU32 data 4 = seq
  cksum : getU32 data 8 = cksum

lemma trailer_eq (buf : Bytes) (seq cksum : ℕ) :
    trailer buf seq cksum = amls ++ le32 seq ++ le32 cksum ++ le32 0 ++ buf.drop 16 := by
  have hm : amls.length = 4 := rfl
  rw [trailer, blit_zero, hm, setU32_append amls _ _ hm.symm,
    setU32_append (amls ++ le32 seq) _ _ (by simp [hm]),
    setU32_append (amls ++ le32 seq ++ le32 cksum) _ _ (by simp [hm]), List.drop_drop,
    List.drop_drop, List.drop_drop]

lemma trailer_length {buf : Bytes} (hbuf : 512 ≤ buf.length) (seq cksum : ℕ) :
    512 ≤ (trailer buf seq cksum).length := by
  have hm : amls.length = 4 := rfl
  rw [trailer_eq]
  simp only [List.length_append, List.length_drop, le32_length, hm]
  omega

lemma trailer_words {buf : Bytes} (hbuf : 512 ≤ buf.length) {seq cksum : ℕ} (hs : seq < 2 ^ 32)
    (hc : cksum < 2 ^ 32) : Trailer seq cksum ((trailer buf seq cksum).take 512) := by
  have hm : amls.length = 4 := rfl
  rw [trailer_eq]
  refine ⟨?_, ?_, ?_, ?_⟩
  · simp only [List.length_take, List.length_append, List.length_drop, le32_length, hm]
    omega
  · rw [List.prefix_take_iff]
    refine ⟨?_, by rw [hm]; omega⟩
    simp only [List.append_assoc]
    exact List.prefix_append _ _
  · rw [getU32_take _ (by omega), List.append_assoc, List.append_assoc, getU32_word _ _ _ hm.symm,
      Nat.mod_eq_of_lt hs]
  · rw [getU32_take _ (by omega), List.append_assoc, getU32_word _ _ _ (by simp [hm]),
      Nat.mod_eq_of_lt hc]

/-- What a download puts on the bulk endpoints: the pieces in order, each acknowledged before
the next, then the trailer and whatever the device makes of it. -/
def Downloads (region : Bytes) (seq cksum : ℕ) (ps : List Packet) : Prop :=
  ∃ csws last verdict, csws.length = blockCount region.length ∧ (∀ c ∈ csws, Okay c) ∧
    Trailer seq cksum last ∧ ps = exchange region csws ++ [.out last, .reply 16 verdict]

/-- What a CBW asks for, the words read as `int`s. -/
def cbwParam (cbw : Bytes) : AmlBl2Cmd :=
  ⟨i32 (getU32 cbw 12), i32 (getU32 cbw 8), i32 (getU32 cbw 4), getU8 cbw 16 % 2 = 0⟩

lemma parseCbw_download {cbw : Bytes} (htype : getU8 cbw 17 = 0) (hflag : getU8 cbw 16 < 2 ^ 7) :
    parseCbw cbw = (0xABCD, cbwParam cbw) := by
  rw [parseCbw, if_pos htype, if_pos hflag]
  rfl

/-- The request of a CBW, met from the position `pos` of the file. -/
def requestOf (content : Bytes) (pos : ℕ) (cbw : Bytes) : Request :=
  ⟨content, pos, getU32 cbw 8, getU8 cbw 16 % 2 = 0⟩

section SecureDownload

-- elaboration would unfold the program far enough to compute with it
attribute [local irreducible] pieceCount

variable {h : Trace} (dev : Option Handle)

lemma cbwParam_count {content cbw : Bytes} {pos : ℕ} {q : Request}
    (hq : q = requestOf content pos cbw) :
    (pieceCount (cbwParam cbw).dataSize).toNat = blockCount (amount q.size) := by
  have hsize : q.size = getU32 cbw 8 := by rw [hq]; rfl
  have hdata : (cbwParam cbw).dataSize = i32 (getU32 cbw 8) := rfl
  rw [hdata, pieceCount_eq (getU32_lt cbw 8), hsize]

/-- Before the first piece. -/
lemma piecing_start {content cbw buf : Bytes} {pos : ℕ} {q : Request} (hbuf : 512 ≤ buf.length)
    (hq : q = requestOf content pos cbw) :
    Piecing q (packets h) ⟨0, 0, u32 (cbwParam cbw).dataSize, 0, ⟨q.content, q.pos⟩, buf⟩ h := by
  have hsize : q.size = getU32 cbw 8 := by rw [hq]; rfl
  have hdata : (cbwParam cbw).dataSize = i32 (getU32 cbw 8) := rfl
  refine ⟨Nat.zero_le _, rfl, fun hi => ?_, ?_, Nat.zero_le _, ?_, hbuf, [], rfl, nofun, ?_⟩
  · dsimp only at hi ⊢
    rw [hdata, u32_i32 (getU32_lt cbw 8), ← hsize]
    exact (amount_of_pos hi).symm
  · simp [Request.done]
  · have hz : q.done 0 = 0 := Nat.zero_min _
    dsimp only
    rw [hz]
    cases q.doCksum <;> rfl
  · simp [exchange]

lemma secureDownload_packets (content : Bytes) (pos : ℕ) (cbw : Bytes) {buf : Bytes}
    (hbuf : 512 ≤ buf.length) {q : Request} (hq : q = requestOf content pos cbw) :
    Sat Free (fun h' r => r.1 = 0 → q.region.length = amount (getU32 cbw 8) ∧
        r.2.1 = ⟨content, pos + amount (getU32 cbw 8)⟩ ∧ 512 ≤ r.2.2.length ∧
        ∃ ps, packets h' = packets h ++ ps ∧ Downloads q.region (getU32 cbw 4) q.cksum ps) h
      (amlLibusbBl2SecureDownload dev ⟨content, pos⟩ buf (cbwParam cbw)) := by
  have hcontent : q.content = content := by rw [hq]; rfl
  have hpos : q.pos = pos := by rw [hq]; rfl
  have hsize : q.size = getU32 cbw 8 := by rw [hq]; rfl
  have hck : (cbwParam cbw).doCksum = q.doCksum := by rw [hq]; rfl
  have hseq : u32 (cbwParam cbw).seq = getU32 cbw 4 := u32_i32 (getU32_lt cbw 4)
  rw [← hcontent, ← hpos, ← hsize, ← hseq]
  have hcount := cbwParam_count hq
  have hP := piecing_start hbuf hq (h := h)
  unfold amlLibusbBl2SecureDownload
  refine keeps_bind.mpr (Keeps.mono (pieces_packets hcount hck hP _) ?_)
  rintro h₁ ⟨ret, s⟩ hs
  dsimp only at hs ⊢
  by_cases hret : ret ≠ 0
  · rw [if_pos hret]
    exact fun hz => absurd hz hret
  rw [if_neg hret]
  obtain ⟨hi, hP⟩ := hs (not_not.mp hret)
  refine keeps_bind.mpr ((control_packets dev _ _ _ _).mono fun h₂ r hp₂ => ?_)
  by_cases hr : r.1 < 0
  · rw [if_pos hr]
    exact nofun
  rw [if_neg hr]
  refine keeps_bind.mpr ((bulkWrite_packets dev _ _ _).mono ?_)
  rintro h₃ ret' ⟨d, hp₃, hd⟩
  by_cases hret' : ret' ≠ 0x200
  · rw [if_pos hret']
    exact nofun
  rw [if_neg hret']
  refine keeps_bind.mpr ((cswGet_packets dev).mono ?_)
  rintro h₄ ret'' ⟨c, hp₄, -⟩ -
  have hdone : q.done s.i = amount q.size := by
    rw [hi, Request.done, Nat.min_eq_right (le_blockCount _)]
  have hle : q.region.length ≤ amount q.size := by
    rw [Request.region, slice_length]; exact Nat.min_le_left _ _
  have hlen : q.region.length = amount q.size := by have := hP.whole; omega
  have hcksum : s.cksum = q.cksum := by rw [hP.cksum, hdone, ← hlen]; rfl
  have hclt : q.cksum < 2 ^ 32 := by
    unfold Request.cksum
    split_ifs
    · exact checksum64K_lt _ _
    · norm_num
  obtain ⟨csws, hl, hall, hp⟩ := hP.sent
  have htr := trailer_words hP.buf (u32_lt (cbwParam cbw).seq) hclt
  refine ⟨hlen, ?_, ?_, exchange q.region csws ++ [.out d, .reply 16 c], ?_, csws, d, c, ?_, hall,
    ?_, rfl⟩
  · dsimp only
    rw [hP.file, hdone]
  · exact trailer_length hP.buf _ _
  · rw [hp₄, hp₃, hp₂, hp]
    simp
  · rw [hl, hi, hlen]
  · rw [hd (not_not.mp hret'), hcksum]
    exact htr

lemma cmdParser_packets (cmd : ℤ) (param : AmlBl2Cmd) :
    Sat Free (fun h' r => r.1 = 0 → ∃ cbw : Bytes, cbw.length = 512 ∧ r.2 = parseCbw cbw ∧
        packets h' = packets h ++ [.reply 512 cbw,
          .out (cswBytes (decide (r.2.1 = 0xABCD ∨ r.2.1 = 0xABCF)))]) h
      (amlLibusbBl2CmdParser dev cmd param) := by
  unfold amlLibusbBl2CmdParser
  refine keeps_bind.mpr ((control_packets dev _ _ _ _).mono fun h₁ r hp₁ => ?_)
  by_cases hr : r.1 < 0
  · rw [if_pos hr]
    exact nofun
  rw [if_neg hr]
  refine keeps_bind.mpr ((bulkRead_packets dev _ _ _).mono ?_)
  rintro h₂ r₂ ⟨d, hp₂, hd⟩
  by_cases hr₂ : r₂.1 ≠ 512
  · rw [if_pos hr₂]
    exact nofun
  rw [if_neg hr₂]
  obtain ⟨hlen, hbuf⟩ := hd.resolve_right fun hneg => by omega
  have hd512 : d.length = 512 := by omega
  have hcbw : r₂.2 = d := by
    rw [hbuf, blit_zero, hd512, List.drop_of_length_le (by rw [List.length_replicate]),
      List.append_nil]
  rw [hcbw]
  refine keeps_bind.mpr ((cswSend_packets dev _).mono ?_)
  rintro h₃ ret ⟨c, hp₃, hc⟩ hz
  have hret : ret = 0 := by
    by_contra hne
    simp [hne] at hz
  refine ⟨d, hd512, rfl, ?_⟩
  rw [hp₃, hp₂, hp₁, hc hret]
  simp

/-! What went through without anything amiss, besides what `P` excuses. -/

section Fine

variable {P : Event → Prop} (hP : ∀ e, Fine e → P e)
include hP

omit dev in
lemma fine_snoc {h' : Trace} {e : Event} (he : h' = h ++ [e]) (hh : ∀ e ∈ h, P e) (hfine : Fine e) :
    ∀ e ∈ h', P e := by
  rw [he]
  exact List.forall_mem_append.mpr ⟨hh, List.forall_mem_singleton.mpr (hP e hfine)⟩

lemma piece_fine {param : AmlBl2Cmd} {s : Download} (hh : ∀ e ∈ h, P e) :
    Sat Free (fun h' l => l.Sat (fun _ h => ∀ e ∈ h, P e)
      (fun h' l => l.1 = 0 → ∀ e ∈ h', P e) h') h (downloadTurn dev param s) := by
  unfold downloadTurn
  refine keeps_ite (fun _ => ?_) fun _ _ => hh
  refine keeps_bind.mpr ((control_event dev _ _ _ _).mono ?_)
  rintro h₁ r ⟨e₁, he₁, -, hfine₁⟩
  refine keeps_ite (fun _ => nofun) fun hr => ?_
  have hh₁ := fine_snoc hP he₁ hh (hfine₁ (Int.not_lt.mp hr))
  refine keeps_bind.mpr ((fread_event _ _).mono ?_)
  rintro h₂ _ ⟨e₂, he₂, -, hfine₂, k, -, rfl⟩
  have hh₂ := fine_snoc hP he₂ hh₁ hfine₂
  refine keeps_ite (fun _ => nofun) fun _ => ?_
  refine keeps_bind.mpr ((bulkWrite_event dev _ _ _).mono ?_)
  rintro h₃ ret ⟨e₃, d, he₃, -, hfine₃⟩
  refine keeps_ite (fun _ => nofun) fun hret => ?_
  have hh₃ := fine_snoc hP he₃ hh₂ (hfine₃ (not_not.mp hret)).2
  refine keeps_bind.mpr ((cswGet_event dev).mono ?_)
  rintro h₄ ret' ⟨e₄, c, he₄, hp₄, hok⟩
  refine keeps_ite (fun _ => nofun) fun hret' => ?_
  exact fine_snoc hP he₄ hh₃ (fine_reply hp₄ (hok.mp (not_not.mp hret')))

/-- The verdict on the trailer is the only thing a download does not look at. -/
lemma secureDownload_fine {file : File} {buf : Bytes} {param : AmlBl2Cmd} (hh : ∀ e ∈ h, P e) :
    Sat Free (fun h' r => r.1 = 0 → ∃ h₁ e v, h' = h₁ ++ [e] ∧ packetOf e = some (.reply 16 v) ∧
      ∀ e ∈ h₁, P e) h (amlLibusbBl2SecureDownload dev file buf param) := by
  unfold amlLibusbBl2SecureDownload
  refine keeps_bind.mpr ((sat_iterate (fun _ _ hI => piece_fine dev hP hI) hh).mono ?_)
  rintro h₁ ⟨ret, s⟩ hs
  refine keeps_ite (fun hret => fun hz => absurd hz hret) fun hret => ?_
  have hh₁ := hs (not_not.mp hret)
  refine keeps_bind.mpr ((control_event dev _ _ _ _).mono ?_)
  rintro h₂ r ⟨e₂, he₂, -, hfine₂⟩
  refine keeps_ite (fun _ => nofun) fun hr => ?_
  have hh₂ := fine_snoc hP he₂ hh₁ (hfine₂ (Int.not_lt.mp hr))
  refine keeps_bind.mpr ((bulkWrite_event dev _ _ _).mono ?_)
  rintro h₃ ret' ⟨e₃, d, he₃, -, hfine₃⟩
  refine keeps_ite (fun _ => nofun) fun hret' => ?_
  have hh₃ := fine_snoc hP he₃ hh₂ (hfine₃ (not_not.mp hret')).2
  refine keeps_bind.mpr ((cswGet_event dev).mono ?_)
  rintro h₄ ret'' ⟨e₄, v, he₄, hp₄, -⟩ -
  exact ⟨h₃, e₄, v, he₄, hp₄, hh₃⟩

lemma cmdParser_fine {cmd : ℤ} {param : AmlBl2Cmd} (hh : ∀ e ∈ h, P e) :
    Sat Free (fun h' r => r.1 = 0 → ∀ e ∈ h', P e) h (amlLibusbBl2CmdParser dev cmd param) := by
  unfold amlLibusbBl2CmdParser
  refine keeps_bind.mpr ((control_event dev _ _ _ _).mono ?_)
  rintro h₁ r ⟨e₁, he₁, -, hfine₁⟩
  refine keeps_ite (fun _ => nofun) fun hr => ?_
  have hh₁ := fine_snoc hP he₁ hh (hfine₁ (Int.not_lt.mp hr))
  refine keeps_bind.mpr ((bulkRead_event dev _ _ _).mono ?_)
  rintro h₂ r₂ ⟨e₂, d, he₂, hp₂, hd⟩
  refine keeps_ite (fun _ => nofun) fun hr₂ => ?_
  have hlen : d.length = 512 := by
    rcases hd with ⟨hlen, -⟩ | ⟨hneg, -⟩ <;> omega
  have hfine₂ : Fine e₂ := fine_other (carried_reply hp₂ (by decide) hlen) (by simp [hp₂])
  have hh₂ := fine_snoc hP he₂ hh₁ hfine₂
  refine keeps_bind.mpr ((cswSend_event dev _).mono ?_)
  rintro h₃ ret ⟨e₃, c, he₃, -, hfine₃⟩ hz
  have hret : ret = 0 := by
    by_contra hne
    simp [hne] at hz
  exact fine_snoc hP he₃ hh₂ (hfine₃ hret).2

end Fine

/-- **A download is exact.** The device gets the region of the file that its CBW asks for, in
pieces that it acknowledges one by one, and a trailer with the checksum of the whole. -/
theorem download_exact (content buf cbw : Bytes) (pos : ℕ) (cmd₀ : ℤ)
    (param₀ : AmlBl2Cmd) (hbuf : 512 ≤ buf.length) {t₁ t₂ : Trace} {cmd : ℤ} {param : AmlBl2Cmd}
    {file' : File} {buf' : Bytes}
    (hparse : Runs (amlLibusbBl2CmdParser dev cmd₀ param₀) t₁ (0, cmd, param))
    (hcbw : .reply 512 cbw ∈ packets t₁) (hflag : getU8 cbw 16 < 2 ^ 7) (htype : getU8 cbw 17 = 0)
    (hsize : getU32 cbw 8 ≤ 0x7FFF0000) (hoff : getU32 cbw 12 < 2 ^ 31)
    (hr : Runs (amlLibusbBl2SecureDownload dev (fseekSet ⟨content, pos⟩ param.offset) buf param) t₂
      (0, file', buf')) :
    (slice content (getU32 cbw 12) (getU32 cbw 8)).length = getU32 cbw 8 ∧
      ∃ ps, packets (t₁ ++ t₂) = [.reply 512 cbw, .out (cswBytes true)] ++ ps ∧
        Downloads (slice content (getU32 cbw 12) (getU32 cbw 8)) (getU32 cbw 4)
          (if getU8 cbw 16 % 2 = 0 then checksum64K (slice content (getU32 cbw 12) (getU32 cbw 8))
            (getU32 cbw 8) else 0) ps := by
  obtain ⟨d, -, hpar, hp₁⟩ := (cmdParser_packets dev cmd₀ param₀).runs hparse rfl
  rw [List.nil_append, packets_nil, List.nil_append] at hp₁
  obtain rfl : cbw = d := by
    rw [hp₁] at hcbw
    simpa using hcbw
  rw [parseCbw_download htype hflag] at hpar
  obtain ⟨rfl, rfl⟩ := Prod.mk.inj hpar
  have hseek : fseekSet ⟨content, pos⟩ (cbwParam cbw).offset = ⟨content, getU32 cbw 12⟩ := by
    rw [cbwParam, i32_of_lt hoff]
    simp [fseekSet]
  rw [hseek] at hr
  have hamount : amount (getU32 cbw 8) = getU32 cbw 8 := if_pos hsize
  generalize hq : requestOf content (getU32 cbw 12) cbw = q
  have hsat := @secureDownload_packets t₁ dev content (getU32 cbw 12) cbw buf hbuf q hq.symm
  obtain ⟨hlen, -, -, ps, hp₂, hdown⟩ := Keeps.runs hsat hr rfl
  have hregion : q.region = slice content (getU32 cbw 12) (getU32 cbw 8) := by
    rw [← hq, Request.region, requestOf, hamount]
  rw [Request.cksum, hlen, hamount, hregion, ← hq, requestOf] at hdown
  rw [hregion, hamount] at hlen
  refine ⟨hlen, ps, ?_, ?_⟩
  · rw [hp₂, hp₁]; simp
  · simpa using hdown

end SecureDownload

/-- A CBW that asks for the first byte of the file. -/
def byteCbw : Bytes := List.replicate 8 0 ++ [1] ++ List.replicate 503 0

lemma byteCbw_length : byteCbw.length = 512 := by
  simp only [byteCbw, List.length_append, List.length_replicate, List.length_singleton]

lemma byteCbw_fits {n : ℕ} (h : n = 512) : byteCbw.length ≤ n := by rw [byteCbw_length, h]

lemma cswBytes_fits {n : ℕ} (h : n = 16) : (cswBytes true).length ≤ n := by
  subst h
  decide

/-- The answers of a device that asks for that byte and takes it. -/
def byteAnswers (_ : Trace) : (o : Op) → Option (Resp o)
  | .controlOut _ s _ _ => some ⟨none, Fin.last s.wLength⟩
  | .bulkOut _ _ _ n _ => some ⟨none, Fin.last n⟩
  | .bulkIn _ _ n _ =>
    if h : n = 512 then some ⟨none, byteCbw, byteCbw_fits h⟩
    else if h : n = 16 then some ⟨none, cswBytes true, cswBytes_fits h⟩
    else none
  | .fread want avail => some (Fin.last (min want avail))
  | _ => none

set_option maxRecDepth 10000 in
lemma byteCbw_parsed : ∃ t, Runs (amlLibusbBl2CmdParser (some 0) 0 ⟨0, 0, 0, false⟩) t
    (0, 0xABCD, cbwParam byteCbw) ∧ .reply 512 byteCbw ∈ packets t :=
  ⟨_, exec_recorded byteAnswers rfl, List.Mem.head _⟩

set_option maxRecDepth 10000 in
lemma byteCbw_served : ∃ t buf, Runs (amlLibusbBl2SecureDownload (some 0)
    (fseekSet ⟨[7], 0⟩ (cbwParam byteCbw).offset) (List.replicate 512 0) (cbwParam byteCbw)) t
      (0, ⟨[7], 1⟩, buf) :=
  ⟨_, _, exec_recorded byteAnswers rfl⟩

theorem download_exact_byte :
    ∃ t₁ t₂ : Trace, (slice [7] (getU32 byteCbw 12) (getU32 byteCbw 8)).length =
        getU32 byteCbw 8 ∧
      ∃ ps, packets (t₁ ++ t₂) = [.reply 512 byteCbw, .out (cswBytes true)] ++ ps ∧
        Downloads (slice [7] (getU32 byteCbw 12) (getU32 byteCbw 8)) (getU32 byteCbw 4)
          (if getU8 byteCbw 16 % 2 = 0 then
            checksum64K (slice [7] (getU32 byteCbw 12) (getU32 byteCbw 8)) (getU32 byteCbw 8)
          else 0) ps := by
  obtain ⟨t₁, hparse, hmem⟩ := byteCbw_parsed
  obtain ⟨t₂, buf, hr⟩ := byteCbw_served
  exact ⟨t₁, t₂, download_exact (some 0) [7] (List.replicate 512 0) byteCbw 0 0 ⟨0, 0, 0, false⟩
    (by rw [List.length_replicate]) hparse hmem (by decide) (by decide) (by decide) (by decide) hr⟩

end AmlogicUpdate.Download

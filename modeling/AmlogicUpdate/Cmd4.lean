import AmlogicUpdate.Session

/-!
What a download announces in the fields of its CMD4 requests.

The place of a piece and the offset of the whole go into a field of 16 bits, in units of 512
bytes. Nothing is checked before that, so a request beyond 32 MiB is either cut short or met
with fields that have wrapped around.
-/

namespace AmlogicUpdate.Cmd4

open Interaction CData Usb AmlLibusb Bl2 Wire Download Session

/-! ### Frames -/

/-- A CMD4 request with its two fields, or a transfer to the device. -/
inductive Frame
  | request (wValue wIndex : ℕ)
  | data (bytes : Bytes)

def frameOf : Event → Option Frame
  | ⟨.controlOut _ s _ _, _⟩ =>
    if s.bRequest = amReqCmd4 then some (.request s.wValue s.wIndex) else none
  | ⟨.bulkOut h ep data n timeout, r⟩ => some (.data (accepted ⟨.bulkOut h ep data n timeout, r⟩))
  | _ => none

def frames (t : Trace) : List Frame := t.filterMap frameOf

@[simp] lemma frames_nil : frames [] = [] := rfl
@[simp] lemma frames_append (t t' : Trace) : frames (t ++ t') = frames t ++ frames t' :=
  List.filterMap_append
@[simp] lemma frames_singleton (e : Event) : frames [e] = (frameOf e).toList := by
  cases h : frameOf e <;> simp [frames, h]

/-- All the data the device took. -/
def sent (t : Trace) : Bytes := t.flatMap accepted

@[simp] lemma sent_append (t t' : Trace) : sent (t ++ t') = sent t ++ sent t' :=
  List.flatMap_append

lemma sent_eq_outs (t : Trace) : sent t = (outs (packets t)).flatten := by
  induction t with
  | nil => rfl
  | cons e t ih =>
    have hone : accepted e = (outs (packets [e])).flatten := by
      obtain ⟨o, r⟩ := e
      cases o <;> first | rfl | exact (List.append_nil _).symm
    rw [← List.singleton_append, sent_append, packets_append, outs_append, List.flatten_append,
      ← ih, ← hone, sent, List.flatMap_singleton]

/-! ### What is claimed of a download -/

/-- Pieces, each announced by where it lies in the download and how long it is. -/
inductive Pieces : List Frame → Bytes → Prop
  | nil : Pieces [] []
  | snoc {fs : List Frame} {data d : Bytes} {v i : ℕ} (hfs : Pieces fs data)
      (hv : 512 * v = data.length) (hi : i + 1 = d.length) :
      Pieces (fs ++ [.request v i, .data d]) (data ++ d)

/-- All that was asked for was sent, from its place in the file, and so announced; then the
trailer, announced by the offset of the whole. -/
def Exact (content : Bytes) (offset dataSize : ℕ) (t : Trace) : Prop :=
  ∃ fs v i last, frames t = fs ++ [.request v i, .data last] ∧
    Pieces fs (slice content offset dataSize) ∧
    (slice content offset dataSize).length = dataSize ∧ v = offset / 512 ∧ i + 1 = last.length

/-- A CMD4 request made after `t` is that of the next piece, or of the trailer after the last. -/
def Expressed (offset dataSize : ℕ) (t : Trace) : Op → Prop
  | .controlOut _ s _ _ => s.bRequest = amReqCmd4 →
    ((sent t).length < dataSize ∧ 512 * s.wValue = (sent t).length ∧
      s.wIndex + 1 = min 0x10000 (dataSize - (sent t).length)) ∨
    ((sent t).length = dataSize ∧ s.wValue = offset / 512 ∧ s.wIndex + 1 = 512)
  | _ => True

/-- How a CMD4 request satisfies this. -/
lemma expressed_trailer {offset dataSize v i n req bRequest : ℕ} {t : Trace} {hd : Handle}
    {data : Bytes} {timeout : ℤ} (hsent : (sent t).length = dataSize) (hv : v = offset / 512)
    (hi : i + 1 = 512) :
    Expressed offset dataSize t (.controlOut hd ⟨req, bRequest, v, i, n⟩ data timeout) :=
  fun _ => .inr ⟨hsent, hv, hi⟩

/-- A download that is exact when it says so, and at no point sends a wrapped field. -/
structure Honest (content : Bytes) (offset dataSize : ℕ) (p : Program (ℤ × File × Bytes)) :
    Prop where
  exact : ∀ t r, Runs p t r → r.1 = 0 → Exact content offset dataSize t
  expressed : ∀ t o, Issues p t o → Expressed offset dataSize t o

/-- The download that a CBW asks for, from the file at `pos`. -/
def requested (hd : Handle) (content : Bytes) (pos : ℕ) (cbw buf : Bytes) :
    Program (ℤ × File × Bytes) :=
  amlLibusbBl2SecureDownload (some hd) (fseekSet ⟨content, pos⟩ (cbwParam cbw).offset) buf
    (cbwParam cbw)

/-! ### What the calls of a download put there -/

/-- Neither a CMD4 request nor a transfer to the device. -/
def Quiet : Op → Prop
  | .controlOut .. => False
  | .bulkOut .. => False
  | _ => True

section Calls

variable {F D : ℕ} {h : Trace}

lemma quiet_frames {α : Type} {p : Program α} (hp : Calls Quiet p) (h : Trace) :
    Sat (Expressed F D) (fun h' _ => frames h' = frames h ∧ sent h' = sent h) h p := by
  have hview : ∀ (h : Trace) (o : Op) (r : Resp o), Quiet o →
      (frames (h ++ [⟨o, r⟩]), sent (h ++ [⟨o, r⟩])) = (frames h, sent h) := by
    intro h o r ho
    have hframe : frameOf ⟨o, r⟩ = none := by cases o <;> first | rfl | exact ho.elim
    have hnone : accepted ⟨o, r⟩ = [] := by cases o <;> first | exact ho.elim | rfl
    rw [frames_append, frames_singleton, hframe, sent_append, sent, sent, List.flatMap_singleton,
      hnone]
    simp
  refine ((hp.keeps _ hview h).weaken fun h' o ho => ?_).mono fun h' a he => Prod.mk.inj he
  cases o <;> trivial

lemma cmd4_frames (dev : Option Handle) {wValue wIndex timeout : ℤ}
    (hG : ∀ hd, Expressed F D h
      (.controlOut hd ⟨0x40, amReqCmd4, u16 wValue, u16 wIndex, 0⟩ [] timeout)) :
    Sat (Expressed F D) (fun h' _ => frames h' = frames h ++ [.request (u16 wValue) (u16 wIndex)] ∧
        sent h' = sent h) h
      (usbControlMsg dev vendorOut amReqCmd4 wValue wIndex [] 0 timeout) := by
  cases dev with
  | none => exact keeps_segfault.mpr trivial
  | some hd =>
    rw [usbControlMsg_out hd rfl rfl rfl rfl rfl timeout]
    refine ⟨hG hd, fun r => ?_⟩
    rw [keeps_ret, frames_append, sent_append, frames_singleton]
    exact ⟨rfl, List.append_nil _⟩

lemma bulkWrite_frames (dev : Option Handle) {bytes : Bytes} {size : ℕ}
    (hsize : size ≤ bytes.length)
    (timeout : ℤ) :
    Sat (Expressed F D) (fun h' (ret : ℤ) => ∃ d, frames h' = frames h ++ [.data d] ∧
        sent h' = sent h ++ d ∧ (ret = size → d.length = size)) h
      (usbBulkWrite dev amEpOut bytes size timeout) := by
  cases dev with
  | none => exact keeps_segfault.mpr trivial
  | some hd =>
    refine ⟨trivial, fun r => ?_⟩
    rw [keeps_ret, frames_append, sent_append, frames_singleton]
    refine ⟨_, rfl, congrArg _ (List.append_nil _), fun hret => ?_⟩
    simp only [accepted, hret, Int.toNat_natCast, List.take_take, List.length_take]
    omega

lemma quiet_fread (f : File) (n : ℕ) : Calls Quiet (fread f n) := ⟨trivial, fun _ => trivial⟩

lemma quiet_cswGet (dev : Option Handle) : Calls Quiet (amlLibusbBl2Csw dev false false) := by
  refine calls_bind ?_ fun _ => trivial
  cases dev with
  | none => exact ⟨trivial, fun e => e.elim⟩
  | some hd => exact ⟨trivial, fun _ => trivial⟩

end Calls

/-! ### The pieces -/

section Turns

variable {q : Request} {s : Download} {h : Trace} {F : ℕ}

lemma sent_of_piecing (hP : Piecing q [] s h) : sent h = q.region.take (65536 * s.i) := by
  obtain ⟨csws, hlen, -, hp⟩ := hP.sent
  rw [sent_eq_outs, hp, List.nil_append, outs_exchange, hlen]

lemma sent_length (hP : Piecing q [] s h) : (sent h).length = q.done s.i := by
  have hwhole := hP.whole
  have hregion : q.region.length ≤ amount q.size := by
    rw [Request.region, slice_length]; exact Nat.min_le_left _ _
  rw [sent_of_piecing hP, List.length_take]
  unfold Request.done at hwhole ⊢
  omega

lemma done_eq {i : ℕ} (hi : i < blockCount (amount q.size)) : q.done i = 65536 * i := by
  unfold Request.done
  unfold blockCount at hi
  omega

/-- The fields of the request for a piece below 32 MiB. -/
lemma piece_expressed {n i dataOffset dataSize : ℕ} (hi : i < 512) (hlt : 65536 * i < n)
    (hoff : dataOffset = 65536 * i) (hsize : dataSize = n - 65536 * i) :
    512 * u16 (dataOffset / 2 ^ 9 : ℕ) = 65536 * i ∧
      u16 ((min dataSize 0x10000 : ℕ) - 1 : ℤ) + 1 = min dataSize 0x10000 := by
  have hpos : ((min dataSize 0x10000 : ℕ) - 1 : ℤ) = ((min dataSize 0x10000 - 1 : ℕ) : ℤ) := by
    omega
  rw [hpos, u16_natCast, u16_natCast]
  omega

lemma turn_frames {dev : Option Handle} {param : AmlBl2Cmd}
    (hcount : (pieceCount param.dataSize).toNat = blockCount (amount q.size))
    (hsize : amount q.size = q.size) (hin : s.i < blockCount (amount q.size) → s.i < 512)
    (hP : Piecing q [] s h) (hF : Pieces (frames h) (sent h)) :
    Sat (Expressed F q.size) (fun h' l => l.Sat (fun _ h' => Pieces (frames h') (sent h'))
        (fun h' l => l.1 = 0 → Pieces (frames h') (sent h')) h') h
      (downloadTurn dev param s) := by
  unfold downloadTurn
  by_cases hi : (s.i : ℤ) < pieceCount param.dataSize
  swap
  · rw [if_neg hi]
    exact fun _ => hF
  rw [if_pos hi]
  have hi' : s.i < blockCount (amount q.size) := by omega
  have hlen := sent_length hP
  have hds := hP.dataSize hi'
  have hlt : 65536 * s.i < q.size := by
    unfold blockCount at hi'
    omega
  rw [done_eq hi'] at hlen
  rw [hsize] at hds
  obtain ⟨hv, hx⟩ := piece_expressed (hin hi') hlt hP.dataOffset hds
  have hG : ∀ hd, Expressed F q.size h (.controlOut hd ⟨0x40, amReqCmd4,
      u16 (s.dataOffset / 2 ^ 9 : ℕ), u16 ((min s.dataSize 0x10000 : ℕ) - 1 : ℤ), 0⟩ [] 5000) := by
    refine fun hd _ => .inl ⟨?_, ?_, ?_⟩
    · rw [hlen]; exact hlt
    · rw [hlen]; exact hv
    · rw [hlen, hx, hds]; exact Nat.min_comm _ _
  refine keeps_bind.mpr ((cmd4_frames dev hG).mono ?_)
  rintro h₁ r ⟨hf₁, hs₁⟩
  by_cases hr : r.1 < 0
  · rw [if_pos hr]
    exact nofun
  rw [if_neg hr]
  refine keeps_bind.mpr ((quiet_frames (quiet_fread _ _) h₁).mono ?_)
  rintro h₂ ⟨data, file⟩ ⟨hf₂, hs₂⟩
  dsimp only
  by_cases hread : data.length ≠ min s.dataSize 0x10000 ∨ min s.dataSize 0x10000 = 0
  · rw [if_pos hread]
    exact nofun
  rw [if_neg hread]
  push Not at hread
  have hbuf : min s.dataSize 0x10000 ≤ (blit s.buf 0 data).length := by
    rw [blit_zero, List.length_append, hread.1]
    exact Nat.le_add_right _ _
  refine keeps_bind.mpr ((bulkWrite_frames dev hbuf 30000).mono ?_)
  rintro h₃ ret ⟨d, hf₃, hs₃, hd⟩
  by_cases hret : ret ≠ (min s.dataSize 0x10000 : ℕ)
  · rw [if_pos hret]
    exact nofun
  rw [if_neg hret]
  refine keeps_bind.mpr ((quiet_frames (quiet_cswGet dev) h₃).mono ?_)
  rintro h₄ ret' ⟨hf₄, hs₄⟩
  by_cases hret' : ret' ≠ 0
  · rw [if_pos hret']
    exact nofun
  rw [if_neg hret']
  have hnext : Pieces (frames h ++ [.request (u16 (s.dataOffset / 2 ^ 9 : ℕ))
      (u16 ((min s.dataSize 0x10000 : ℕ) - 1 : ℤ)), .data d]) (sent h ++ d) := by
    refine .snoc hF ?_ ?_
    · rw [hlen]; exact hv
    · rw [hx, hd (not_not.mp hret)]
  rw [← hs₁, ← hs₂, ← hs₃, ← hs₄] at hnext
  rw [Prog.pure_eq_ret, keeps_ret, Loop.sat_next, hf₄, hf₃, hf₂, hf₁, List.append_assoc]
  exact hnext

end Turns

/-! ### The whole download -/

section Whole

/-- The field of the trailer is the offset below 32 MiB and only there. -/
lemma trailer_value {n : ℕ} (hn : n < 2 ^ 32) : u16 (i32 n / 2 ^ 9) = n / 512 ↔ n < 2 ^ 25 := by
  unfold u16 i32
  omega

attribute [local irreducible] pieceCount

variable {content cbw buf : Bytes} {pos : ℕ} {q : Request}

/-- After the last piece the whole region has been sent. -/
lemma piecing_finished {s : Download} {h : Trace} (hP : Piecing q [] s h)
    (hamount : amount q.size = q.size) (hi : s.i = blockCount (amount q.size)) :
    q.region.length = q.size ∧ sent h = q.region := by
  have hdone : q.done s.i = q.size := by
    rw [hi, Request.done, Nat.min_eq_right (le_blockCount _), hamount]
  have hle : q.region.length ≤ amount q.size := by
    rw [Request.region, slice_length]; exact Nat.min_le_left _ _
  have hwhole := hP.whole
  have hlen : q.region.length = q.size := by omega
  refine ⟨hlen, ?_⟩
  rw [sent_of_piecing hP]
  refine List.take_of_length_le ?_
  rw [hlen, hi, hamount]
  exact le_blockCount _

/-- A download that gets to no field that does not fit. -/
lemma download_frames (dev : Option Handle) (hbuf : 512 ≤ buf.length)
    (hq : q = requestOf content pos cbw) (hsize : getU32 cbw 8 ≤ 0x7FFF0000)
    (hin : ∀ i < blockCount (getU32 cbw 8), 65536 * i ≤ q.region.length → i < 512)
    (hoff : q.region.length = getU32 cbw 8 → getU32 cbw 12 < 2 ^ 25) :
    Sat (Expressed (getU32 cbw 12) (getU32 cbw 8)) (fun h' r => r.1 = 0 →
        ∃ fs v i last, frames h' = fs ++ [.request v i, .data last] ∧ Pieces fs q.region ∧
          q.region.length = getU32 cbw 8 ∧ v = getU32 cbw 12 / 512 ∧ i + 1 = last.length) []
      (amlLibusbBl2SecureDownload dev ⟨content, pos⟩ buf (cbwParam cbw)) := by
  have hcontent : q.content = content := by rw [hq]; rfl
  have hpos : q.pos = pos := by rw [hq]; rfl
  have hqsize : q.size = getU32 cbw 8 := by rw [hq]; rfl
  have hamount : amount q.size = q.size := by rw [hqsize]; exact if_pos hsize
  have hck : (cbwParam cbw).doCksum = q.doCksum := by rw [hq]; rfl
  have hcount := cbwParam_count hq
  have hP := piecing_start hbuf hq (h := [])
  rw [← hcontent, ← hpos]
  rw [← hqsize] at hin hoff ⊢
  unfold amlLibusbBl2SecureDownload
  refine keeps_bind.mpr (Keeps.mono (sat_iterate
    (I := fun s h => Piecing q [] s h ∧ Pieces (frames h) (sent h))
    (Q := fun h' l => l.1 = 0 → (l.2.i = blockCount (amount q.size) ∧ Piecing q [] l.2 h') ∧
      Pieces (frames h') (sent h')) (fun s h hI => ?_) ⟨hP, .nil⟩) ?_)
  · have hin' : s.i < blockCount (amount q.size) → s.i < 512 := by
      intro hi
      have hwhole := hI.1.whole
      rw [done_eq hi] at hwhole
      exact hin s.i (by rwa [hamount] at hi) hwhole
    refine ((turn_frames hcount hamount hin' hI.1 hI.2).and
      (piece_packets hcount hck hI.1)).mono fun h' l hl => ?_
    cases l with
    | next s' => exact ⟨hl.2, hl.1⟩
    | done b => exact fun hz => ⟨hl.2 hz, hl.1 hz⟩
  rintro h₁ ⟨ret, s⟩ hs
  dsimp only at hs ⊢
  by_cases hret : ret ≠ 0
  · rw [if_pos hret]
    exact fun hz => absurd hz hret
  rw [if_neg hret]
  obtain ⟨⟨hi, hP⟩, hF⟩ := hs (not_not.mp hret)
  obtain ⟨hlen, hsent⟩ := piecing_finished hP hamount hi
  have hoff' := hoff hlen
  have hv : u16 ((cbwParam cbw).offset / 2 ^ 9) = getU32 cbw 12 / 512 :=
    (trailer_value (getU32_lt cbw 12)).mpr hoff'
  have hx : u16 0x1FF + 1 = 512 := by decide
  have hG : ∀ hd, Expressed (getU32 cbw 12) q.size h₁ (.controlOut hd ⟨0x40, amReqCmd4,
      u16 ((cbwParam cbw).offset / 2 ^ 9), u16 0x1FF, 0⟩ [] 5000) :=
    fun hd => expressed_trailer (by rw [hsent, hlen]) hv hx
  refine keeps_bind.mpr ((cmd4_frames dev hG).mono ?_)
  rintro h₂ r ⟨hf₂, -⟩
  by_cases hr : r.1 < 0
  · rw [if_pos hr]
    exact fun hz => by cases hz
  rw [if_neg hr]
  refine keeps_bind.mpr ((bulkWrite_frames dev (trailer_length hP.buf _ _) _).mono ?_)
  rintro h₃ ret' ⟨d, hf₃, -, hd⟩
  by_cases hret' : ret' ≠ 0x200
  · rw [if_pos hret']
    exact fun hz => by cases hz
  rw [if_neg hret']
  refine keeps_bind.mpr ((quiet_frames (quiet_cswGet dev) h₃).mono ?_)
  rintro h₄ ret'' ⟨hf₄, -⟩ -
  refine ⟨frames h₁, _, u16 0x1FF, d, ?_, ?_, hlen, hv, ?_⟩
  · rw [hf₄, hf₃, hf₂, List.append_assoc]
    exact rfl
  · rwa [hsent] at hF
  · rw [hx, hd (not_not.mp hret')]

end Whole

/-! ### Where the fields wrap around -/

section Wrapping

attribute [local irreducible] pieceCount

variable {q : Request} {s : Download} {h : Trace} (hd : Handle)

lemma can_cmd4 {Q : ℤ × Bytes → Prop} {wValue wIndex timeout : ℤ} (hQ : Q (0, [])) :
    Can Q (usbControlMsg (some hd) vendorOut amReqCmd4 wValue wIndex [] 0 timeout) := by
  rw [usbControlMsg_out hd rfl rfl rfl rfl rfl timeout]
  exact can_call (⟨none, 0⟩ : OutResult (u16 0)) (can_ret hQ)

lemma can_fread {Q : Bytes × File → Prop} {f : File} {n : ℕ} (hn : n ≤ f.content.length - f.pos)
    (hQ : Q (slice f.content f.pos n, { f with pos := f.pos + n })) : Can Q (fread f n) := by
  refine can_call (⟨n, by omega⟩ : Fin (min n (f.content.length - f.pos) + 1)) (can_ret ?_)
  exact hQ

lemma can_bulkWrite {Q : ℤ → Prop} {bytes : Bytes} {size : ℕ} {timeout : ℤ} (hQ : Q size) :
    Can Q (usbBulkWrite (some hd) amEpOut bytes size timeout) :=
  can_call (⟨none, Fin.last size⟩ : OutResult size) (can_ret hQ)

lemma can_cswGet {Q : ℤ → Prop} (hQ : Q 0) : Can Q (amlLibusbBl2Csw (some hd) false false) := by
  refine can_bind (can_call (⟨none, cswBytes true, by decide⟩ : InResult 16) (can_ret ?_))
  refine can_ret ?_
  rwa [if_neg (by decide), if_neg (by decide)]

/-- A piece the file has can be sent. -/
lemma can_turn {param : AmlBl2Cmd}
    (hcount : (pieceCount param.dataSize).toNat = blockCount (amount q.size))
    {ps : List Packet} (hP : Piecing q ps s h) (hi : s.i < blockCount (amount q.size))
    (hfull : q.done (s.i + 1) ≤ q.region.length) :
    Can (fun l => ∃ s', l = .next s' ∧ s'.i = s.i + 1) (downloadTurn (some hd) param s) := by
  have hi' : (s.i : ℤ) < pieceCount param.dataSize := by omega
  have hds := hP.dataSize hi
  have hfile := hP.file
  have hdone := done_eq hi
  have hregion : q.region.length = min (amount q.size) (q.content.length - q.pos) :=
    slice_length _ _ _
  have hpos : 0 < s.dataSize := by
    unfold blockCount at hi
    omega
  have hn : min s.dataSize 0x10000 ≤ s.file.content.length - s.file.pos := by
    rw [hfile]
    unfold Request.done at hfull hdone ⊢
    dsimp only
    omega
  have hread : ¬ ((slice s.file.content s.file.pos (min s.dataSize 0x10000)).length ≠
      min s.dataSize 0x10000 ∨ min s.dataSize 0x10000 = 0) := by
    rw [slice_length]
    omega
  unfold downloadTurn
  rw [if_pos hi']
  refine can_bind (can_cmd4 hd ?_)
  rw [if_neg (by decide)]
  refine can_bind (can_fread hn ?_)
  dsimp only
  rw [if_neg hread]
  refine can_bind (can_bulkWrite hd ?_)
  rw [if_neg (not_not.mpr rfl)]
  refine can_bind (can_cswGet hd ?_)
  rw [if_neg (by decide)]
  exact can_ret ⟨_, rfl, rfl⟩

/-- As far as the file goes, any number of pieces can have been sent. -/
lemma reaches_piece {param : AmlBl2Cmd}
    (hcount : (pieceCount param.dataSize).toNat = blockCount (amount q.size))
    (hck : param.doCksum = q.doCksum) {k : ℕ} (hP : Piecing q [] s h)
    (hk : s.i + k ≤ blockCount (amount q.size)) (hfull : q.done (s.i + k) ≤ q.region.length) :
    ∃ t s', s'.i = s.i + k ∧ Piecing q [] s' (h ++ t) ∧
      ∀ {α : Type} (f : ℤ × Download → Program α) n t' o,
        Issues (iterate (downloadTurn (some hd) param) n s' >>= f) t' o →
        Issues (iterate (downloadTurn (some hd) param) (n + k) s >>= f) (t ++ t') o := by
  induction k generalizing s h with
  | zero => exact ⟨[], s, rfl, by simpa using hP, fun f n t' o ho => ho⟩
  | succ k ih =>
    have hle : q.done (s.i + 1) ≤ q.done (s.i + (k + 1)) := by
      unfold Request.done
      omega
    obtain ⟨t, l, hr, s₁, rfl, hs₁⟩ := can_turn hd hcount hP (by omega) (hle.trans hfull)
    have hP₁ : Piecing q [] s₁ (h ++ t) := (piece_packets hcount hck hP).runs hr
    have hadd : s₁.i + k = s.i + (k + 1) := by omega
    obtain ⟨t₁, s', hs', hP', hlift⟩ := ih hP₁ (hadd ▸ hk) (hadd ▸ hfull)
    refine ⟨t ++ t₁, s', by omega, by rwa [← List.append_assoc], fun f n t' o ho => ?_⟩
    rw [← Nat.add_assoc, List.append_assoc]
    exact issues_iterate_next hr (hlift f n t' o ho)

/-- The request of the next piece. -/
lemma turn_issues {param : AmlBl2Cmd} (hi : (s.i : ℤ) < pieceCount param.dataSize) :
    Issues (downloadTurn (some hd) param s) [] (.controlOut hd ⟨0x40, amReqCmd4,
      u16 (s.dataOffset / 2 ^ 9 : ℕ), u16 ((min s.dataSize 0x10000 : ℕ) - 1 : ℤ), 0⟩ [] 5000) := by
  unfold downloadTurn
  rw [if_pos hi]
  refine Issues.bind ?_ _
  rw [usbControlMsg_out hd rfl rfl rfl rfl rfl 5000]
  exact issues_call.mpr (.inl ⟨rfl, rfl⟩)

variable {content cbw buf : Bytes} {pos : ℕ}

lemma reaches {k : ℕ} (hbuf : 512 ≤ buf.length) (hq : q = requestOf content pos cbw)
    (hk : k ≤ blockCount (amount q.size)) (hfull : q.done k ≤ q.region.length) :
    ∃ t s, s.i = k ∧ Piecing q [] s t ∧ ∀ {α : Type} (f : ℤ × Download → Program α) n t' o,
      Issues (iterate (downloadTurn (some hd) (cbwParam cbw)) n s >>= f) t' o →
      Issues (iterate (downloadTurn (some hd) (cbwParam cbw)) (n + k)
        ⟨0, 0, u32 (cbwParam cbw).dataSize, 0, ⟨content, pos⟩, buf⟩ >>= f) (t ++ t') o := by
  have hcontent : q.content = content := by rw [hq]; rfl
  have hpos : q.pos = pos := by rw [hq]; rfl
  have hck : (cbwParam cbw).doCksum = q.doCksum := by rw [hq]; rfl
  have hP := piecing_start hbuf hq (h := [])
  rw [hcontent, hpos, packets_nil] at hP
  obtain ⟨t, s, hs, hP', hlift⟩ := reaches_piece hd (cbwParam_count hq) hck hP
    (k := k) (by rwa [Nat.zero_add]) (by rwa [Nat.zero_add])
  rw [Nat.zero_add] at hs
  exact ⟨t, s, hs, hP', hlift⟩

/-- After 32 MiB of pieces the next one is announced at 0. -/
lemma piece_wraps (hbuf : 512 ≤ buf.length) (hq : q = requestOf content pos cbw)
    (hbig : 512 < blockCount (amount q.size)) (hfull : 2 ^ 25 ≤ q.region.length) (F : ℕ) :
    ∃ t o, Issues (amlLibusbBl2SecureDownload (some hd) ⟨content, pos⟩ buf (cbwParam cbw)) t o ∧
      ¬ Expressed F q.size t o := by
  have hcount := cbwParam_count hq
  have hdone : q.done 512 = 2 ^ 25 := done_eq hbig
  obtain ⟨t, s, hs, hP, hlift⟩ := reaches hd hbuf hq (Nat.le_of_lt hbig) (by rwa [hdone])
  have hi : (s.i : ℤ) < pieceCount (cbwParam cbw).dataSize := by omega
  obtain ⟨m, hm⟩ := Nat.exists_eq_add_of_lt hbig
  have hn : (pieceCount (cbwParam cbw).dataSize).toNat + 1 = m + 1 + 1 + 512 := by omega
  refine ⟨t ++ [], .controlOut hd ⟨0x40, amReqCmd4, u16 (s.dataOffset / 2 ^ 9 : ℕ),
    u16 ((min s.dataSize 0x10000 : ℕ) - 1 : ℤ), 0⟩ [] 5000, ?_, ?_⟩
  · unfold amlLibusbBl2SecureDownload
    rw [hn]
    refine hlift _ _ _ _ (Issues.bind ?_ _)
    rw [iterate]
    exact (turn_issues hd hi).bind _
  · have hsent := sent_length hP
    rw [hs, hdone] at hsent
    have hzero : u16 (s.dataOffset / 2 ^ 9 : ℕ) = 0 := by rw [hP.dataOffset, hs]; decide
    have hsize : 2 ^ 25 < q.size := by
      unfold blockCount amount at hbig
      split_ifs at hbig <;> omega
    rw [List.append_nil]
    intro he
    rcases he rfl with ⟨-, hv, -⟩ | ⟨hend, -, -⟩
    · rw [hsent, hzero] at hv
      exact absurd hv (by norm_num)
    · omega

/-- The trailer comes after as many pieces as were counted. -/
lemma trailer_issues (hbuf : 512 ≤ buf.length) (hq : q = requestOf content pos cbw)
    (hfull : amount q.size ≤ q.region.length) :
    ∃ t, (sent t).length = amount q.size ∧
      Issues (amlLibusbBl2SecureDownload (some hd) ⟨content, pos⟩ buf (cbwParam cbw)) t
        (.controlOut hd ⟨0x40, amReqCmd4, u16 ((cbwParam cbw).offset / 2 ^ 9), u16 0x1FF, 0⟩ []
          5000) := by
  have hcount := cbwParam_count hq
  have hdone : q.done (blockCount (amount q.size)) = amount q.size :=
    Nat.min_eq_right (le_blockCount _)
  obtain ⟨t, s, hs, hP, hlift⟩ := reaches hd hbuf hq Nat.le.refl (by rwa [hdone])
  refine ⟨t ++ [], ?_, ?_⟩
  · rw [List.append_nil, sent_length hP, hs, hdone]
  · have hend : iterate (downloadTurn (some hd) (cbwParam cbw)) 1 s = .ret (0, s) := by
      rw [iterate, downloadTurn, if_neg (by omega)]
      rfl
    unfold amlLibusbBl2SecureDownload
    rw [hcount, Nat.add_comm]
    refine hlift _ _ _ _ ?_
    rw [hend, Prog.ret_bind]
    dsimp only
    rw [if_neg (not_not.mpr rfl)]
    refine Issues.bind ?_ _
    rw [usbControlMsg_out hd rfl rfl rfl rfl rfl 5000]
    exact issues_call.mpr (.inl ⟨rfl, rfl⟩)

end Wrapping

/-! ### When a download is honest -/

section Main

attribute [local irreducible] pieceCount

/-- A request for `D` bytes at the offset `F` that fits in the fields, or runs out of the `avail`
bytes of its file before it gets to one that does not. -/
def Fits (F D avail : ℕ) : Prop :=
  (D ≤ 2 ^ 25 ∧ F < 2 ^ 25) ∨ (D ≤ 0x7FFF0000 ∧ avail < min D (2 ^ 25))

variable {F D avail : ℕ}

lemma fits_piece (hf : Fits F D avail) {i : ℕ} (hi : i < blockCount D)
    (hread : 65536 * i ≤ min D avail) : i < 512 := by
  unfold blockCount at hi
  unfold Fits at hf
  omega

lemma fits_trailer (hf : Fits F D avail) (hread : min D avail = D) : F < 2 ^ 25 := by
  unfold Fits at hf
  omega

lemma fits_size (hf : Fits F D avail) : D ≤ 0x7FFF0000 := by
  unfold Fits at hf
  omega

/-- Of what does not fit either a piece wraps around, or everything that was counted is sent. -/
lemma read_of_not_fits (hf : ¬ Fits F D avail)
    (hpiece : ¬ (512 < blockCount (amount D) ∧ 2 ^ 25 ≤ min (amount D) avail)) :
    amount D ≤ min (amount D) avail := by
  unfold Fits at hf
  unfold blockCount amount at *
  split_ifs at * <;> omega

/-- The trailer then has a field that does not fit: its own size, or its offset. -/
lemma trailer_of_not_fits (hf : ¬ Fits F D avail)
    (hpiece : ¬ (512 < blockCount (amount D) ∧ 2 ^ 25 ≤ min (amount D) avail)) :
    (amount D < D → 512 ≠ min 0x10000 (D - amount D)) ∧ (amount D = D → ¬ F < 2 ^ 25) := by
  unfold Fits at hf
  unfold blockCount amount at *
  split_ifs at * <;> omega

/-- **A download is honest** about the requests below 32 MiB, and about those it gives up before
any of its fields wraps around; about no other. -/
theorem honest_iff (hd : Handle) (content cbw buf : Bytes) (pos : ℕ) (hbuf : 512 ≤ buf.length) :
    Honest content (getU32 cbw 12) (getU32 cbw 8) (requested hd content pos cbw buf) ↔
      Fits (getU32 cbw 12) (getU32 cbw 8) (content.length - readFrom pos cbw) := by
  generalize hq : requestOf content (readFrom pos cbw) cbw = q
  have hsize : q.size = getU32 cbw 8 := by rw [← hq]; rfl
  have hlen : q.region.length = min (amount q.size) (content.length - readFrom pos cbw) := by
    rw [← hq]
    exact slice_length _ _ _
  rw [requested, fseekSet_cbw]
  constructor
  · intro hh
    by_contra hf
    rw [← hsize] at hh hf
    by_cases hpiece : 512 < blockCount (amount q.size) ∧ 2 ^ 25 ≤ q.region.length
    · obtain ⟨t, o, ho, hbad⟩ := piece_wraps hd hbuf hq.symm hpiece.1 hpiece.2 (getU32 cbw 12)
      exact hbad (hh.expressed t o ho)
    · rw [hlen] at hpiece
      have hfull := read_of_not_fits hf hpiece
      rw [← hlen] at hfull
      obtain ⟨t, ht, ho⟩ := trailer_issues hd hbuf hq.symm hfull
      have htrailer := hh.expressed t _ ho rfl
      obtain ⟨hcut, hoff⟩ := trailer_of_not_fits hf hpiece
      have hx : u16 0x1FF + 1 = 512 := by decide
      rw [ht] at htrailer
      rcases htrailer with ⟨hlt, -, hi⟩ | ⟨he, hv, -⟩
      · exact hcut hlt (hx ▸ hi)
      · dsimp only at hv
        exact hoff he ((trailer_value (getU32_lt cbw 12)).mp hv)
  · intro hf
    have hamount : amount q.size = getU32 cbw 8 := by rw [hsize]; exact if_pos (fits_size hf)
    rw [hamount] at hlen
    have hoff : q.region.length = getU32 cbw 8 → getU32 cbw 12 < 2 ^ 25 :=
      fun h => fits_trailer hf (hlen ▸ h)
    have hin : ∀ i < blockCount (getU32 cbw 8), 65536 * i ≤ q.region.length → i < 512 :=
      fun i hi hread => fits_piece hf hi (hlen ▸ hread)
    have hsat := download_frames (some hd) hbuf hq.symm (fits_size hf) hin hoff
    refine ⟨fun t r hr hz => ?_, fun t o ho => hsat.issues ho⟩
    obtain ⟨fs, v, i, last, hframes, hpieces, hwhole, hv, hi⟩ := hsat.runs hr hz
    have hfrom : readFrom pos cbw = getU32 cbw 12 := if_pos (by have := hoff hwhole; omega)
    have hregion : q.region = slice content (getU32 cbw 12) (getU32 cbw 8) := by
      rw [Request.region, hamount, ← hq, requestOf, hfrom]
    rw [hregion] at hpieces hwhole
    exact ⟨fs, v, i, last, hframes, hpieces, hwhole, hv, hi⟩

theorem honest_iff_byte :
    Honest [7] (getU32 byteCbw 12) (getU32 byteCbw 8)
        (requested 0 [7] 0 byteCbw (List.replicate 512 0)) ∧
      ∃ t r, Runs (requested 0 [7] 0 byteCbw (List.replicate 512 0)) t r ∧ r.1 = 0 := by
  have hfits : Fits (getU32 byteCbw 12) (getU32 byteCbw 8) ([7].length - readFrom 0 byteCbw) :=
    .inl ⟨by decide, by decide⟩
  obtain ⟨t, buf, hr⟩ := byteCbw_served
  exact ⟨(honest_iff 0 [7] byteCbw (List.replicate 512 0) 0 (by rw [List.length_replicate])).mpr
    hfits, t, _, hr, rfl⟩

end Main

/-- A CBW that asks for `2 ^ 32 - 1` bytes. -/
def hugeCbw : Bytes := List.replicate 8 0 ++ List.replicate 4 0xFF ++ List.replicate 500 0

/-- A CBW that asks for nothing at the offset `2 ^ 25`. -/
def farCbw : Bytes := List.replicate 15 0 ++ [2] ++ List.replicate 496 0

set_option maxRecDepth 10000 in
lemma hugeCbw_served : ∃ t buf, Runs (requested 0 [7] 0 hugeCbw (List.replicate 512 0)) t
    (0, ⟨[7], 0⟩, buf) :=
  ⟨_, _, exec_recorded byteAnswers rfl⟩

/-- A request for 4 GiB is reported as met from a file of one byte, and an offset is announced
that is not the one asked for. -/
theorem not_honest :
    (∃ t r, Runs (requested 0 [7] 0 hugeCbw (List.replicate 512 0)) t r ∧ r.1 = 0 ∧
      ¬ Exact [7] (getU32 hugeCbw 12) (getU32 hugeCbw 8) t) ∧
    ∃ t o, Issues (requested 0 [7] 0 farCbw (List.replicate 512 0)) t o ∧
      ¬ Expressed (getU32 farCbw 12) (getU32 farCbw 8) t o := by
  constructor
  · obtain ⟨t, buf, hr⟩ := hugeCbw_served
    refine ⟨t, _, hr, rfl, ?_⟩
    rintro ⟨fs, v, i, last, -, -, hlen, -, -⟩
    have hshort := slice_length [7] (getU32 hugeCbw 12) (getU32 hugeCbw 8)
    have hbig : 1 < getU32 hugeCbw 8 := by decide
    rw [hlen, List.length_singleton] at hshort
    omega
  · have hsize : getU32 farCbw 8 = 0 := by decide
    have hamount : amount (requestOf [7] (readFrom 0 farCbw) farCbw).size = 0 := by
      have hz : (requestOf [7] (readFrom 0 farCbw) farCbw).size = 0 := hsize
      rw [hz]
      rfl
    have hbuf : 512 ≤ (List.replicate 512 0 : Bytes).length := by rw [List.length_replicate]
    obtain ⟨t, ht, ho⟩ := trailer_issues 0 hbuf rfl (hamount ▸ Nat.zero_le _)
    rw [hamount] at ht
    refine ⟨t, _, by rw [requested, fseekSet_cbw]; exact ho, fun he => ?_⟩
    rcases he rfl with ⟨hlt, -, -⟩ | ⟨-, hv, -⟩
    · rw [hsize] at hlt
      omega
    · dsimp only at hv
      have hfar := (trailer_value (getU32_lt farCbw 12)).mp hv
      exact absurd hfar (by decide)

end AmlogicUpdate.Cmd4

import AmlogicUpdate.Session

/-!
A first-stage loader as the other party of `Aml_Libusb_bl2_boot`.

The loader asks for the downloads of a list, one after the other, takes the data of each in
pieces, compares the checksum in the trailer with that of what it has got, and ends the session. It
answers nothing that it does not expect in its phase, so that a session in which both parties reach
the end has followed the protocol all the way.
-/

namespace AmlogicUpdate.Loader

open Interaction CData Usb AmlLibusb Bl2 Wire Checksum Download Session

/-! ### The loader -/

/-- What the loader waits for, with the data it has of the current download. -/
inductive Phase
  | idle
  | asked
  | told
  | taking (got : Bytes)
  | promised (got : Bytes) (n : ℕ)
  | thanking (got : Bytes)
  | closing (got : Bytes)
  | judging (verdict : Bool)
  | ended

/-- The CBWs still to be met, the current one first, and the downloads that have been verified. -/
structure State where
  queue : List Bytes
  phase : Phase
  loaded : List (Bytes × Bytes)

/-- The trailer of a download: whose it is, and the checksum if it has one. -/
def verify (cbw got data : Bytes) : Bool :=
  amls.isPrefixOf data && getU32 data 4 = getU32 cbw 4 &&
    getU32 data 8 = if getU8 cbw 16 % 2 = 0 then sum32 got % 2 ^ 32 else 0

/-- A status word from the loader. -/
def status (ok : Bool) (n : ℕ) : InResult n := ⟨none, (cswBytes ok).take n, by simp⟩

/-- A request without data. -/
def control (l : State) (s : Setup) : Option State :=
  match l.queue, l.phase with
  | _ :: _, .idle =>
    if s = ⟨0x40, amReqStart, 0x0200, 0, 0⟩ then some { l with phase := .asked } else none
  | cbw :: _, .taking got =>
    if s.bmRequestType = 0x40 ∧ s.bRequest = amReqCmd4 ∧ s.wLength = 0 then
      if got.length < getU32 cbw 8 then
        if s.wValue = got.length / 2 ^ 9 % 2 ^ 16 ∧
            s.wIndex + 1 = min (getU32 cbw 8 - got.length) 0x10000 then
          some { l with phase := .promised got (s.wIndex + 1) }
        else none
      else if s.wValue = getU32 cbw 12 / 2 ^ 9 % 2 ^ 16 ∧ s.wIndex = 0x1FF then
        some { l with phase := .closing got }
      else none
    else none
  | _, _ => none

/-- Data for the loader. -/
def take (l : State) (data : Bytes) (n : ℕ) : Option State :=
  match l.queue, l.phase with
  | cbw :: _, .told =>
    if data = cswBytes true then
      some { l with phase := if getU8 cbw 17 = 1 then .ended else .taking [] }
    else none
  | _ :: _, .promised got m =>
    if n = m then some { l with phase := .thanking (got ++ data) } else none
  | cbw :: _, .closing got =>
    if n = 0x200 then
      let ok := verify cbw got data
      some { l with
        phase := .judging ok
        loaded := if ok then l.loaded ++ [(cbw, got)] else l.loaded }
    else none
  | _, _ => none

/-- Data from the loader. -/
def give (l : State) (n : ℕ) : Option (InResult n × State) :=
  match l.queue, l.phase with
  | cbw :: _, .asked =>
    if n = 512 then
      some (⟨none, cbw.take n, List.length_take_le n cbw⟩, { l with phase := .told })
    else none
  | _ :: _, .thanking got => if n = 16 then some (status true n, { l with phase := .taking got })
    else none
  | _ :: cbws, .judging ok =>
    if n = 16 then some (status ok n, { l with queue := cbws, phase := .idle }) else none
  | _, _ => none

/-- The loader at the other end of the wire, and a file that is read without errors. -/
def serve (hd : Handle) (l : State) : (o : Op) → Option (Resp o × State)
  | .libusbOpen _ => some (some hd, l)
  | .libusbClose h => if h = hd then some ((), l) else none
  | .controlOut h s _ _ =>
    if h = hd then (control l s).map fun l' => (⟨none, Fin.last _⟩, l') else none
  | .bulkOut h ep data n _ =>
    if h = hd ∧ ep = amEpOut then (take l data n).map fun l' => (⟨none, Fin.last _⟩, l') else none
  | .bulkIn h ep n _ => if h = hd ∧ ep = amEpIn then give l n else none
  | .fopen _ false => some (true, l)
  | .fread want avail => some (Fin.last (min want avail), l)
  | _ => none

def start (cbws : List Bytes) : State := ⟨cbws, .idle, []⟩

/-- A download that a file can meet. -/
structure Wanted (file cbw : Bytes) : Prop where
  length : cbw.length = 512
  supported : Supported cbw
  size : getU32 cbw 8 ≤ 0x7FFF0000
  offset : getU32 cbw 12 < 2 ^ 31
  within : getU32 cbw 12 + getU32 cbw 8 ≤ file.length

/-! ### One call -/

section Calls

variable {hd : Handle} {l : State} {cbw : Bytes} {cbws : List Bytes} {got : Bytes}

lemma ensures_control {l' : State} {req v i : ℕ} {wValue wIndex timeout : ℤ}
    {Q : ℤ × Bytes → State → Prop} (hr : req % 2 ^ 8 = req) (hv : u16 wValue = v)
    (hi : u16 wIndex = i) (hl : control l ⟨0x40, req, v, i, 0⟩ = some l') (hQ : Q (0, []) l') :
    Ensures (serve hd) l (usbControlMsg (some hd) vendorOut req wValue wIndex [] 0 timeout) Q := by
  have hn : u16 0 = 0 := rfl
  rw [usbControlMsg_out hd hr hv hi hn (List.take_nil) timeout]
  have hserve : serve hd l (.controlOut hd ⟨0x40, req, v, i, 0⟩ [] timeout) =
      some (⟨none, Fin.last 0⟩, l') := by
    rw [serve, if_pos rfl, hl]
    rfl
  exact (ensures_call hserve).mpr (ensures_ret.mpr hQ)

lemma ensures_take {l' : State} {bytes data : Bytes} {n : ℕ} {timeout : ℤ} {Q : ℤ → State → Prop}
    (hdata : bytes.take n = data) (hl : take l data n = some l') (hQ : Q n l') :
    Ensures (serve hd) l (usbBulkWrite (some hd) amEpOut bytes n timeout) Q := by
  have hserve : serve hd l (.bulkOut hd (amEpOut &&& 0x7F) (bytes.take n) n timeout) =
      some (⟨none, Fin.last n⟩, l') := by
    rw [serve, if_pos ⟨rfl, by decide⟩, hdata, hl]
    rfl
  exact (ensures_call hserve).mpr (ensures_ret.mpr hQ)

lemma ensures_give {l' : State} {bytes : Bytes} {n : ℕ} {r : InResult n} {timeout : ℤ}
    {Q : ℤ × Bytes → State → Prop} (hl : give l n = some (r, l'))
    (hQ : Q (usbBulkIo r.status r.data.1.length, blit bytes 0 r.data.1) l') :
    Ensures (serve hd) l (usbBulkRead (some hd) amEpIn bytes n timeout) Q := by
  have hserve : serve hd l (.bulkIn hd (amEpIn ||| usbEndpointIn) n timeout) = some (r, l') := by
    rw [serve, if_pos ⟨rfl, by decide⟩, hl]
  exact (ensures_call hserve).mpr (ensures_ret.mpr hQ)

lemma ensures_fread (f : File) (n : ℕ) {Q : Bytes × File → State → Prop}
    (hQ : Q (slice f.content f.pos n,
      { f with pos := f.pos + min n (f.content.length - f.pos) }) l) :
    Ensures (serve hd) l (fread f n) Q := by
  have hserve : serve hd l (.fread n (f.content.length - f.pos)) =
      some (Fin.last (min n (f.content.length - f.pos)), l) := rfl
  refine (ensures_call hserve).mpr (ensures_ret.mpr ?_)
  have hslice : slice f.content f.pos (min n (f.content.length - f.pos)) =
      slice f.content f.pos n := by
    rw [slice, slice, List.take_eq_take_iff, List.length_drop]
    omega
  rw [Fin.val_last, hslice]
  exact hQ

/-- A status word that is good. -/
lemma ensures_thanks {loaded : List (Bytes × Bytes)} {Q : ℤ → State → Prop}
    (hQ : Q 0 ⟨cbw :: cbws, .taking got, loaded⟩) :
    Ensures (serve hd) ⟨cbw :: cbws, .thanking got, loaded⟩ (amlLibusbBl2Csw (some hd) false false)
      Q := by
  have hgive : give ⟨cbw :: cbws, .thanking got, loaded⟩ 16 =
      some (status true 16, ⟨cbw :: cbws, .taking got, loaded⟩) := rfl
  refine ensures_bind.mpr (ensures_give hgive ?_)
  have hlen : ¬ usbBulkIo (status true 16).status (status true 16).data.1.length ≠ 16 := by decide
  have hokay : ¬ slice (blit (List.replicate 16 0) 0 (status true 16).data.1) 0 4 ≠ okay := by
    decide
  rw [if_neg hlen, if_neg hokay]
  exact ensures_ret.mpr hQ

/-- The verdict, which is not looked at. -/
lemma ensures_verdict {ok : Bool} {loaded : List (Bytes × Bytes)} {Q : ℤ → State → Prop}
    (hQ : ∀ r, Q r ⟨cbws, .idle, loaded⟩) :
    Ensures (serve hd) ⟨cbw :: cbws, .judging ok, loaded⟩ (amlLibusbBl2Csw (some hd) false false)
      Q := by
  have hgive : give ⟨cbw :: cbws, .judging ok, loaded⟩ 16 =
      some (status ok 16, ⟨cbws, .idle, loaded⟩) := rfl
  exact ensures_bind.mpr (ensures_give hgive (ensures_ret.mpr (hQ _)))

end Calls

/-! ### A download -/

/-- Traces can be found for packets that continue others. -/
lemma exists_packets (h : Trace) (data : Bytes) {c : Bytes} (hc : c.length ≤ 16) :
    ∃ h', packets h' = packets h ++ [.out data] ++ [.reply 16 c] := by
  refine ⟨h ++ [⟨.bulkOut 0 0 data data.length 0, ⟨none, Fin.last _⟩⟩] ++
    [⟨.bulkIn 0 0 16 0, ⟨none, c, hc⟩⟩], ?_⟩
  simp [packets, packetOf, accepted, delivered, usbBulkIo]

/-- The invariant of the loop over the pieces: the loader has those that have been sent. -/
structure Loading (q : Request) (cbw : Bytes) (cbws : List Bytes) (loaded : List (Bytes × Bytes))
    (s : Download) (l : State) : Prop where
  pieces : ∃ h, Piecing q [] s h
  loader : l = ⟨cbw :: cbws, .taking (q.region.take (65536 * s.i)), loaded⟩

section Download

-- elaboration would unfold the program far enough to compute with it
attribute [local irreducible] pieceCount

variable {hd : Handle} {file cbw : Bytes} {cbws : List Bytes} {loaded : List (Bytes × Bytes)}
  {q : Request} {s : Download} {l : State}

lemma Wanted.amount (h : Wanted file cbw) : amount (getU32 cbw 8) = getU32 cbw 8 := if_pos h.size

/-- What is asked for is there. -/
lemma Wanted.region (h : Wanted file cbw) (hq : q = requestOf file (getU32 cbw 12) cbw) :
    q.region = slice file (getU32 cbw 12) (getU32 cbw 8) ∧ q.region.length = getU32 cbw 8 := by
  subst hq
  have hwithin := h.within
  have hregion : (requestOf file (getU32 cbw 12) cbw).region =
      slice file (getU32 cbw 12) (getU32 cbw 8) := congrArg (slice file _) h.amount
  refine ⟨hregion, ?_⟩
  rw [hregion, slice_length]
  omega

/-- A piece is announced. -/
lemma control_piece (cbws : List Bytes) (loaded : List (Bytes × Bytes)) {got : Bytes} {n : ℕ}
    (hlt : got.length < getU32 cbw 8)
    (hn : n = min (getU32 cbw 8 - got.length) 0x10000) :
    control ⟨cbw :: cbws, .taking got, loaded⟩
      ⟨0x40, amReqCmd4, got.length / 2 ^ 9 % 2 ^ 16, n - 1, 0⟩ =
        some ⟨cbw :: cbws, .promised got n, loaded⟩ := by
  have hpos : n - 1 + 1 = n := by omega
  unfold control
  dsimp only
  rw [if_pos ⟨rfl, rfl, rfl⟩, if_pos hlt, if_pos ⟨rfl, hpos.trans hn⟩, hpos]

/-- The trailer is announced. -/
lemma control_trailer {got : Bytes} (hall : got.length = getU32 cbw 8) :
    control ⟨cbw :: cbws, .taking got, loaded⟩
      ⟨0x40, amReqCmd4, getU32 cbw 12 / 2 ^ 9 % 2 ^ 16, 0x1FF, 0⟩ =
        some ⟨cbw :: cbws, .closing got, loaded⟩ := by
  unfold control
  dsimp only
  rw [if_pos ⟨rfl, rfl, rfl⟩, if_neg hall.not_lt, if_pos ⟨rfl, rfl⟩]

lemma u16_pred {n : ℕ} (hpos : 0 < n) (hle : n ≤ 0x10000) : u16 ((n : ℤ) - 1) = n - 1 := by
  unfold u16
  omega

/-- One more piece. -/
lemma downloadTurn_loads (hw : Wanted file cbw) (hq : q = requestOf file (getU32 cbw 12) cbw)
    (hI : Loading q cbw cbws loaded s l) :
    Ensures (serve hd) l (downloadTurn (some hd) (cbwParam cbw) s) fun r l' => match r with
      | .next s' => Loading q cbw cbws loaded s' l' ∧
        blockCount (getU32 cbw 8) - s'.i < blockCount (getU32 cbw 8) - s.i
      | .done r => r.1 = 0 ∧ r.2.i = blockCount (getU32 cbw 8) ∧
        Loading q cbw cbws loaded r.2 l' := by
  obtain ⟨⟨h, hP⟩, rfl⟩ := hI
  obtain ⟨hregion, hlen⟩ := hw.region hq
  have hcontent : q.content = file := by rw [hq]; rfl
  have hpos : q.pos = getU32 cbw 12 := by rw [hq]; rfl
  have hsize : q.size = getU32 cbw 8 := by rw [hq]; rfl
  have hcount : (pieceCount (cbwParam cbw).dataSize).toNat = blockCount (getU32 cbw 8) := by
    rw [cbwParam_count hq, hsize, hw.amount]
  have hwithin := hw.within
  have hsmall := hw.size
  have hamount : amount q.size = getU32 cbw 8 := by rw [hsize, hw.amount]
  unfold downloadTurn
  by_cases hi : (s.i : ℤ) < pieceCount (cbwParam cbw).dataSize
  swap
  · have hle := hP.count
    rw [hamount] at hle
    have hdone : s.i = blockCount (getU32 cbw 8) :=
      le_antisymm hle (hcount ▸ Int.toNat_le.mpr (not_lt.mp hi))
    rw [if_neg hi, Prog.pure_eq_ret, ensures_ret]
    exact ⟨rfl, hdone, ⟨h, hP⟩, rfl⟩
  rw [if_pos hi]
  have hi' : s.i < blockCount (amount q.size) := by rw [hamount]; omega
  have hlt : 65536 * s.i < getU32 cbw 8 := by
    have hb : blockCount (getU32 cbw 8) = (getU32 cbw 8 + 65535) / 65536 := rfl
    omega
  have hleft := hP.dataSize hi'
  rw [hamount] at hleft
  have hgot : (q.region.take (65536 * s.i)).length = 65536 * s.i := by
    rw [List.length_take, hlen]
    omega
  obtain ⟨n, hn⟩ : ∃ n, n = min (getU32 cbw 8 - 65536 * s.i) 0x10000 := ⟨_, rfl⟩
  have hdata : min s.dataSize 0x10000 = n := by rw [hleft, hn]
  have hdone : q.done s.i = 65536 * s.i := by
    rw [Request.done, hamount, Nat.min_eq_left hlt.le]
  have hread : (slice q.content (q.pos + q.done s.i) n).length = min s.dataSize 0x10000 := by
    rw [slice_length, hcontent, hpos, hdone, hdata]
    omega
  obtain ⟨hblock, hblen, -⟩ := hP.block hi' hread
  rw [hdata] at hread hblen ⊢
  have hcontrol := control_piece cbws loaded (hgot.symm ▸ hlt)
    (hn.trans (by rw [hgot]))
  rw [hgot] at hcontrol
  refine ensures_bind.mpr (ensures_control (by decide) (by rw [u16_natCast, hP.dataOffset])
    (u16_pred (by omega) (by omega)) hcontrol ?_)
  rw [if_neg (by decide), hP.file]
  refine ensures_bind.mpr (ensures_fread _ _ ?_)
  dsimp only
  rw [if_neg (by rw [hread]; omega), hblock]
  have hbuf : (blit s.buf 0 (blockAt q.region s.i)).take n = blockAt q.region s.i := by
    rw [← hblen, blit_zero, List.take_left]
  have htake : take ⟨cbw :: cbws, .promised (q.region.take (65536 * s.i)) n, loaded⟩
      (blockAt q.region s.i) n =
        some ⟨cbw :: cbws, .thanking (q.region.take (65536 * (s.i + 1))), loaded⟩ := by
    rw [← take_blockAt]
    exact if_pos rfl
  refine ensures_bind.mpr (ensures_take hbuf htake ?_)
  rw [if_neg (not_not.mpr rfl)]
  refine ensures_bind.mpr (ensures_thanks ?_)
  rw [if_neg (not_not.mpr rfl), Prog.pure_eq_ret, ensures_ret]
  have hk : min n (q.content.length - (q.pos + q.done s.i)) = n := by
    rw [slice_length] at hread
    exact hread
  have hck : (cbwParam cbw).doCksum = q.doCksum := by rw [hq]; rfl
  obtain ⟨h', hh'⟩ := exists_packets h (blockAt q.region s.i) (c := cswBytes true) (by decide)
  have hnext := hP.next hi' (by rw [slice_length] at hread; omega) (hread.trans hdata.symm)
    (⟨by decide, by decide⟩ : Okay (cswBytes true)) hh'
  rw [hdata] at hnext
  rw [hk, hck]
  rw [hamount] at hi'
  exact ⟨⟨⟨h', hnext⟩, rfl⟩, Nat.sub_lt_sub_left hi' (Nat.lt_succ_self _)⟩

/-- A download that the file can meet is met, and the loader finds its checksum right. -/
lemma secureDownload_loads (hw : Wanted file cbw) {buf : Bytes} (hbuf : 512 ≤ buf.length) :
    Ensures (serve hd) ⟨cbw :: cbws, .taking [], loaded⟩
      (amlLibusbBl2SecureDownload (some hd) ⟨file, getU32 cbw 12⟩ buf (cbwParam cbw)) fun r l' =>
        r.1 = 0 ∧ r.2.1.content = file ∧ 512 ≤ r.2.2.length ∧
          l' = ⟨cbws, .idle, loaded ++ [(cbw, slice file (getU32 cbw 12) (getU32 cbw 8))]⟩ := by
  obtain ⟨q, hq⟩ : ∃ q, q = requestOf file (getU32 cbw 12) cbw := ⟨_, rfl⟩
  obtain ⟨hregion, hlen⟩ := hw.region hq
  have hcontent : q.content = file := by rw [hq]; rfl
  have hpos : q.pos = getU32 cbw 12 := by rw [hq]; rfl
  have hsize : q.size = getU32 cbw 8 := by rw [hq]; rfl
  have hcount : (pieceCount (cbwParam cbw).dataSize).toNat = blockCount (getU32 cbw 8) := by
    rw [cbwParam_count hq, hsize, hw.amount]
  unfold amlLibusbBl2SecureDownload
  rw [hcount, ← hcontent, ← hpos]
  have hstart : Loading q cbw cbws loaded
      ⟨0, 0, u32 (cbwParam cbw).dataSize, 0, ⟨q.content, q.pos⟩, buf⟩
      ⟨cbw :: cbws, .taking [], loaded⟩ := by
    refine ⟨⟨[], piecing_start (h := []) hbuf hq⟩, ?_⟩
    rw [Nat.mul_zero, List.take_zero]
  refine ensures_bind.mpr ((ensures_iterate (I := Loading q cbw cbws loaded)
    (μ := fun s => blockCount (getU32 cbw 8) - s.i)
    (Q := fun r l' => r.1 = 0 ∧ r.2.i = blockCount (getU32 cbw 8) ∧
      Loading q cbw cbws loaded r.2 l') (fun s l hI => ?_) hstart (Nat.lt_succ_self _)).mono ?_)
  · refine (downloadTurn_loads hw hq hI).mono fun r l' hr => ?_
    cases r <;> exact hr
  rintro ⟨ret, s⟩ l ⟨hret, hi, ⟨h, hP⟩, rfl⟩
  obtain rfl : ret = 0 := hret
  have hall : q.region.take (65536 * s.i) = q.region :=
    List.take_of_length_le (by rw [hlen, hi]; exact le_blockCount _)
  have hdone : q.done s.i = q.region.length := by
    rw [Request.done, hi, hsize, hw.amount, hlen, Nat.min_eq_right (le_blockCount _)]
  dsimp only at hi ⊢
  rw [if_neg (not_not.mpr rfl), hall]
  have hoff : (cbwParam cbw).offset = getU32 cbw 12 := i32_of_lt hw.offset
  have hoffset : u16 ((cbwParam cbw).offset / 2 ^ 9) = getU32 cbw 12 / 2 ^ 9 % 2 ^ 16 := by
    rw [hoff]
    unfold u16
    omega
  refine ensures_bind.mpr
    (ensures_control (by decide) hoffset (by decide) (control_trailer hlen) ?_)
  rw [if_neg (by decide)]
  have hseq : u32 (cbwParam cbw).seq = getU32 cbw 4 := u32_i32 (getU32_lt cbw 4)
  have hcksum : s.cksum = if getU8 cbw 16 % 2 = 0 then sum32 q.region % 2 ^ 32 else 0 := by
    have hck : q.doCksum = decide (getU8 cbw 16 % 2 = 0) := by rw [hq]; rfl
    rw [hP.cksum, hdone, checksum64K_eq, hck]
    by_cases heven : getU8 cbw 16 % 2 = 0
    · rw [if_pos (decide_eq_true heven), if_pos heven]
    · rw [if_neg (by rw [decide_eq_false heven]; exact Bool.false_ne_true), if_neg heven]
  have hlt : s.cksum < 2 ^ 32 := by
    rw [hcksum]
    split_ifs
    · exact Nat.mod_lt _ (by norm_num)
    · norm_num
  have htrailer := trailer_words hP.buf (getU32_lt cbw 4) hlt
  have hverify : verify cbw q.region ((trailer s.buf (getU32 cbw 4) s.cksum).take 512) = true := by
    rw [verify, Bool.and_eq_true, Bool.and_eq_true, htrailer.seq, htrailer.cksum, ← hcksum]
    exact ⟨⟨List.isPrefixOf_iff_prefix.mpr htrailer.magic, decide_eq_true rfl⟩, decide_eq_true rfl⟩
  have htake : take ⟨cbw :: cbws, .closing q.region, loaded⟩
      ((trailer s.buf (getU32 cbw 4) s.cksum).take 512) 512 =
        some ⟨cbw :: cbws, .judging true, loaded ++ [(cbw, q.region)]⟩ := by
    unfold take
    dsimp only
    rw [if_pos rfl, hverify, if_pos rfl]
  rw [hseq]
  refine ensures_bind.mpr (ensures_take rfl htake ?_)
  rw [if_neg (by decide)]
  refine ensures_bind.mpr (ensures_verdict fun _ => ?_)
  rw [Prog.pure_eq_ret, ensures_ret, hcontent, hpos, ← hregion]
  refine ⟨rfl, ?_, trailer_length hP.buf _ _, rfl⟩
  have hfile := congrArg File.content hP.file
  exact hfile.trans hcontent

end Download

/-! ### A session -/

section Session

variable {hd : Handle} {file cbw : Bytes} {cbws : List Bytes} {loaded : List (Bytes × Bytes)}

/-- A request, up to the answer to its CBW. -/
lemma cmdParser_loads (hlen : cbw.length = 512) (hcmd : (parseCbw cbw).1 = 0xABCD ∨
    (parseCbw cbw).1 = 0xABCF) (cmd : ℤ) (param : AmlBl2Cmd) :
    Ensures (serve hd) ⟨cbw :: cbws, .idle, loaded⟩ (amlLibusbBl2CmdParser (some hd) cmd param)
      fun r l' => r = (0, parseCbw cbw) ∧
        l' = ⟨cbw :: cbws, if getU8 cbw 17 = 1 then .ended else .taking [], loaded⟩ := by
  have hstart : control ⟨cbw :: cbws, .idle, loaded⟩ ⟨0x40, amReqStart, 0x0200, 0, 0⟩ =
      some ⟨cbw :: cbws, .asked, loaded⟩ := rfl
  have hgive : give ⟨cbw :: cbws, .asked, loaded⟩ 512 =
      some (⟨none, cbw.take 512, List.length_take_le 512 cbw⟩, ⟨cbw :: cbws, .told, loaded⟩) := rfl
  have htake : take ⟨cbw :: cbws, .told, loaded⟩ (cswBytes true) 16 =
      some ⟨cbw :: cbws, if getU8 cbw 17 = 1 then .ended else .taking [], loaded⟩ := rfl
  unfold amlLibusbBl2CmdParser
  refine ensures_bind.mpr (ensures_control (by decide) (by decide) (by decide) hstart ?_)
  rw [if_neg (by decide)]
  refine ensures_bind.mpr (ensures_give hgive ?_)
  have hcbw : cbw.take 512 = cbw := List.take_of_length_le hlen.le
  have hblit : blit (List.replicate 512 0) 0 (cbw.take 512) = cbw := by
    rw [hcbw, blit_zero, hlen, List.drop_of_length_le (by rw [List.length_replicate]),
      List.append_nil]
  have hwhole : ¬ usbBulkIo none (cbw.take 512).length ≠ 512 := by
    rw [hcbw, hlen]
    decide
  dsimp only
  rw [hblit, if_neg hwhole, decide_eq_true hcmd]
  refine ensures_bind.mpr ?_
  unfold amlLibusbBl2Csw
  rw [if_pos rfl, if_pos rfl]
  refine ensures_bind.mpr (ensures_take rfl htake ?_)
  have hsent : ¬ ((16 : ℕ) : ℤ) ≠ 16 := by decide
  rw [if_neg hsent, Prog.pure_eq_ret, ensures_ret, if_neg (not_not.mpr rfl), Prog.pure_eq_ret,
    ensures_ret]
  exact ⟨rfl, rfl⟩

/-- What the downloads of a list load from a file. -/
def loads (file : Bytes) (cbws : List Bytes) : List (Bytes × Bytes) :=
  cbws.map fun c => (c, slice file (getU32 c 12) (getU32 c 8))

/-- From a point between two requests the session goes on to its end. -/
lemma bootTurns_load (loaded : List (Bytes × Bytes)) {last : Bytes} (hlast : last.length = 512)
    (hend : End last) (hw : ∀ c ∈ cbws, Wanted file c) {n : ℕ} (hn : cbws.length < n) {s : Session}
    (hfile : s.file.content = file) (hbuf : 512 ≤ s.buf.length) :
    Ensures (serve hd) ⟨cbws ++ [last], .idle, loaded⟩ (iterate (bootTurn (some hd)) n s)
      fun ret l => ret = 0 ∧ l = ⟨[last], .ended, loaded ++ loads file cbws⟩ := by
  induction cbws generalizing n s loaded with
  | nil =>
    obtain ⟨n, rfl⟩ : ∃ k, n = k + 1 :=
      ⟨n - 1, (Nat.sub_add_cancel (Nat.le_trans (Nat.succ_pos _) hn)).symm⟩
    have hcmd : (parseCbw last).1 = 0xABCF := by
      rcases parseCbw_cases last with ⟨hs, -⟩ | ⟨-, -, hcmd⟩ | ⟨-, hne, -⟩
      · exact absurd (hs.1.symm.trans hend) (by decide)
      · exact hcmd
      · exact absurd hend hne
    refine ensures_bind.mpr ?_
    unfold bootTurn
    refine ensures_bind.mpr ((cmdParser_loads hlast (.inr hcmd) s.cmd ⟨0, 0, 0, false⟩).mono ?_)
    rintro r l ⟨rfl, rfl⟩
    have hkind : getU8 last 17 = 1 := hend
    dsimp only
    rw [if_pos hkind, hcmd, if_neg (not_not.mpr rfl), if_neg (by decide), if_pos (by decide),
      Prog.pure_eq_ret, ensures_ret]
    refine ensures_ret.mpr ⟨rfl, ?_⟩
    rw [loads, List.map_nil, List.append_nil]
  | cons c cbws ih =>
    obtain ⟨n, rfl⟩ : ∃ k, n = k + 1 :=
      ⟨n - 1, (Nat.sub_add_cancel (Nat.le_trans (Nat.succ_pos _) hn)).symm⟩
    have hc := hw c List.mem_cons_self
    have hparse := parseCbw_download hc.supported.1 hc.supported.2
    have hcmd : (parseCbw c).1 = 0xABCD := congrArg Prod.fst hparse
    have hkind : ¬ getU8 c 17 = 1 := by
      rw [hc.supported.1]
      decide
    have hoff : (cbwParam c).offset = getU32 c 12 := i32_of_lt hc.offset
    have hseek : fseekSet s.file (cbwParam c).offset = ⟨file, getU32 c 12⟩ := by
      rw [hoff, fseekSet, if_pos (Int.natCast_nonneg _), Int.toNat_natCast, ← hfile]
    refine ensures_bind.mpr ?_
    unfold bootTurn
    refine ensures_bind.mpr ((cmdParser_loads hc.length (.inl hcmd) s.cmd ⟨0, 0, 0, false⟩).mono ?_)
    rintro r l ⟨rfl, rfl⟩
    rw [hparse, if_neg hkind]
    dsimp only
    rw [if_neg (by decide), if_neg (by decide), if_neg (by decide), if_neg (by decide), hseek]
    refine ensures_bind.mpr ((secureDownload_loads hc hbuf).mono ?_)
    rintro ⟨ret, file', buf'⟩ l ⟨hret, hfile', hbuf', rfl⟩
    obtain rfl : ret = 0 := hret
    dsimp only
    rw [if_neg (not_not.mpr rfl), Prog.pure_eq_ret, ensures_ret]
    refine (ih _ (fun c' hc' => hw c' (List.mem_cons_of_mem _ hc')) (Nat.lt_of_succ_lt_succ hn)
      hfile' hbuf').mono ?_
    rintro ret l ⟨hret, rfl⟩
    rw [List.append_assoc]
    exact ⟨hret, rfl⟩

/-- **A session with a loader that follows the protocol comes to its end.** The loader gets every
download it asks for, finds every checksum right and ends the session, and the tool returns 0. -/
theorem boot_loads (cbws : List Bytes) (files : Files) {buf : Bytes} (hbuf : 512 ≤ buf.length)
    {turns d : ℕ} {argc : ℤ} {argv : List Bytes} (hargc : 0 < argc) {last : Bytes}
    (hlast : last.length = 512) (hend : End last)
    (hw : ∀ c ∈ cbws, Wanted (files (argv.getD 0 [])) c) (hturns : cbws.length < turns) :
    Ensures (serve hd) (start (cbws ++ [last]))
      (amlLibusbBl2Boot files buf turns (.dev d) argc argv) fun ret l =>
        ret = 0 ∧ l.phase = .ended ∧ l.loaded = loads (files (argv.getD 0 [])) cbws := by
  have hopen : serve hd (start (cbws ++ [last])) (.libusbOpen (.dev d)) =
      some (some hd, start (cbws ++ [last])) := rfl
  have hfopen : serve hd (start (cbws ++ [last])) (.fopen (argv.getD 0 []) false) =
      some (true, start (cbws ++ [last])) := rfl
  unfold amlLibusbBl2Boot
  rw [openUsbDevice_eq (dev_ne_null d), Prog.call_bind, ensures_call hopen, Prog.ret_bind]
  dsimp only
  rw [if_neg (by decide), if_neg (not_le.mpr hargc)]
  refine ensures_bind.mpr ((ensures_call hfopen).mpr (ensures_ret.mpr ?_))
  rw [if_pos rfl]
  refine ensures_bind.mpr ((bootTurns_load [] hlast hend hw hturns rfl hbuf).mono ?_)
  rintro ret l ⟨rfl, rfl⟩
  have hclose : serve hd ⟨[last], .ended, [] ++ loads (files (argv.getD 0 [])) cbws⟩
      (.libusbClose hd) = some ((), ⟨[last], .ended, [] ++ loads (files (argv.getD 0 [])) cbws⟩) :=
    if_pos rfl
  refine ensures_bind.mpr ?_
  rw [closeUsbDevice_eq (dev_ne_null d), ensures_call hclose]
  exact ensures_ret.mpr (ensures_ret.mpr ⟨rfl, rfl, List.nil_append _⟩)

theorem boot_loads_byte : Ensures (serve 0) (start [byteCbw, typedCbw 1])
    (amlLibusbBl2Boot (fun _ => [7]) (List.replicate 512 0) 2 (.dev 0) 1 [[]]) fun ret l =>
      ret = 0 ∧ l.phase = .ended ∧ l.loaded = [(byteCbw, [7])] := by
  have hw : Wanted [7] byteCbw :=
    ⟨byteCbw_length, ⟨by decide, by decide⟩, by decide, by decide, by decide⟩
  exact boot_loads [byteCbw] (fun _ => [7]) (by rw [List.length_replicate]) (by decide)
    (typedCbw_length 1) (by unfold End; decide) (List.forall_mem_singleton.mpr hw) (by decide)

end Session

end AmlogicUpdate.Loader

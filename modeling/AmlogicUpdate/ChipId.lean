import AmlogicUpdate.ChipPage

/-!
`chipid`: what of the identification that is printed came from the device.

The buffers for the replies start with whatever was in memory, and of the three replies only the
one to the register read is looked at for an error before it is used; none is looked at for its
length.
-/

namespace AmlogicUpdate.ChipId

open Interaction CData Usb AmlLibusb UsbRomDrv Wire ChipCommands ChipPage
open Update (malloc)

/-! ### Replies -/

/-- What was received, if there was no error. -/
def received {n : ℕ} (r : InResult n) : Option Bytes :=
  if r.status.isNone then some r.data.1 else none

/-- The request of a control transfer to the host, and the reply to it. -/
def answer : Event → Option (ℕ × Option Bytes)
  | ⟨.controlIn _ s _, r⟩ => some (s.bRequest, received r)
  | _ => none

def answers (t : Trace) : List (ℕ × Option Bytes) := t.filterMap answer

/-- An identification that is not refused has its four bytes, a page comes without an error and
has the bytes up to the 32nd, and a register read without an error has all twelve. -/
structure Whole (req : ℕ) (reply : Option Bytes) : Prop where
  identify : req = amReqIdentifyHost → ∀ d, reply = some d → d.all (· = 0) = false → 4 ≤ d.length
  page : req = amReqChipInfo → ∃ d, reply = some d ∧ 32 ≤ d.length
  register : req = amReqReadMem → ∀ d, reply = some d → 12 ≤ d.length

/-- The replies to the run are whole. -/
def Complete (t : Trace) : Prop := ∀ x ∈ answers t, Whole x.1 x.2

/-- What is printed came from the device, and so did all that was looked at to choose where to
read it. -/
structure Sound (t : Trace) (ret : ℤ) (chipID : Bytes) : Prop where
  received : ret = 0 → ∃ d,
    ((amReqChipInfo, some d) ∈ answers t ∧ 32 ≤ d.length ∧ chipID = slice d 20 12) ∨
      ((amReqReadMem, some d) ∈ answers t ∧ 12 ≤ d.length ∧ chipID = d.take 12)
  identified : ret ≠ -855 → ∃ d, (amReqIdentifyHost, some d) ∈ answers t ∧ 4 ≤ d.length

lemma whole_identify {reply : Option Bytes} : Whole amReqIdentifyHost reply ↔
    ∀ d, reply = some d → d.all (· = 0) = false → 4 ≤ d.length :=
  ⟨fun h => h.identify rfl,
    fun h => ⟨fun _ => h, fun he => absurd he (by decide), fun he => absurd he (by decide)⟩⟩

lemma whole_page {reply : Option Bytes} :
    Whole amReqChipInfo reply ↔ ∃ d, reply = some d ∧ 32 ≤ d.length :=
  ⟨fun h => h.page rfl,
    fun h => ⟨fun he => absurd he (by decide), fun _ => h, fun he => absurd he (by decide)⟩⟩

lemma whole_register {reply : Option Bytes} :
    Whole amReqReadMem reply ↔ ∀ d, reply = some d → 12 ≤ d.length :=
  ⟨fun h => h.register rfl,
    fun h => ⟨fun he => absurd he (by decide), fun he => absurd he (by decide), fun _ => h⟩⟩

/-! ### The three requests -/

section Requests

variable {t : Trace}

lemma identify_eq {dev : Device} (hdev : dev ≠ .invalid) (hd : Handle) (buf : Bytes) {len : ℕ}
    (hlen : len ≤ 8) (bytesReturned : ℕ) :
    usbDeviceIoControl ⟨dev, some hd, amEpIn, amEpOut⟩ .identifyHost none 0 (some buf) len
        bytesReturned =
      .call (.controlIn hd ⟨0xC0, amReqIdentifyHost, 0, 0, len⟩ 5000) fun r : InResult len =>
        .ret (ioctlResult ⟨some hd, none, some (blit buf 0 r.data.1), 0, len, bytesReturned⟩
          (usbControlResult r.status r.data.1.length)) := by
  have hreq : amReqIdentifyHost % 2 ^ 8 = amReqIdentifyHost := rfl
  have hzero : u16 0 = 0 := rfl
  have hsize : u16 (len : ℕ) = len := by
    rw [u16_natCast, Nat.mod_eq_of_lt (by omega)]
  simp only [usbDeviceIoControl, hdev, if_false, ioctlIdentifyHostHandler, if_neg
    (Nat.not_lt.mpr hlen)]
  rw [usbControlMsg_in hd hreq hzero hzero hsize]
  rfl

lemma ioctlResult_sent (ctrl : UsbDevIoCtrl) (n : ℕ) :
    ioctlResult ctrl n = (1, { ctrl with bytesReturned := n }) := by
  rw [ioctlResult, if_neg (by omega)]
  rfl

lemma amlUsbIdentifyHost_runs {rom : AmlUsbRomRW} (hlen : rom.bufferLen = 4)
    {r : ℤ × AmlUsbRomRW} (hr : Runs (amlUsbIdentifyHost rom) t r) :
    (r.1 ≠ 0 ∧ ∀ x ∈ answers t, x = (amReqIdentifyHost, none)) ∨
      (r.1 = 0 ∧ rom.device ≠ .null ∧ ∃ d : Bytes, d.length ≤ 4 ∧
        answers t = [(amReqIdentifyHost, some d)] ∧ r.2.buffer = blit rom.buffer 0 d ∧
          r.2.dataSize = d.length) := by
  obtain ⟨dev, bufferLen, buffer, dataSize, address⟩ := rom
  obtain rfl : bufferLen = 4 := hlen
  dsimp only
  unfold amlUsbIdentifyHost at hr
  by_cases hnull : dev = .null
  · rw [hnull, openUsbDevice_null] at hr
    obtain ⟨rfl, rfl⟩ := runs_ret.mp hr
    exact .inl ⟨by simp, by simp [answers]⟩
  obtain ⟨hd, b, t', rfl, hin, rfl⟩ := runs_opened hnull (fun drv =>
    usbDeviceIoControl drv .identifyHost none 0 (some buffer) 4 dataSize) (fun _ => rfl) hr
  by_cases hdev : dev = .invalid
  · subst hdev
    obtain ⟨rfl, rfl⟩ := runs_ret.mp hin
    exact .inl ⟨by simp, by simp [answers, answer]⟩
  rw [identify_eq hdev hd buffer (by decide), runs_call] at hin
  obtain ⟨reply, t₁, rfl, hin⟩ := hin
  obtain ⟨rfl, rfl⟩ := runs_ret.mp hin
  have hanswers : answers ([⟨.libusbOpen dev, some hd⟩] ++ [⟨.controlIn hd ⟨0xC0, amReqIdentifyHost,
      0, 0, 4⟩ 5000, reply⟩] ++ [⟨.libusbClose hd, ()⟩]) = [(amReqIdentifyHost, received reply)] :=
    rfl
  have hneg := usbControlResult_neg reply.status reply.data.1.length
  rw [hanswers]
  cases hstatus : reply.status with
  | some e =>
    rw [hstatus] at hneg
    have hlow := hneg.mpr rfl
    have hreply : received reply = none := by rw [received, hstatus]; rfl
    exact .inl ⟨by simp [ioctlResult, hlow], fun x hx => by rwa [hreply, List.mem_singleton] at hx⟩
  | none =>
    have hreply : received reply = some reply.data.1 := by rw [received, hstatus]; rfl
    have hres : usbControlResult none reply.data.1.length = reply.data.1.length := rfl
    rw [hres, ioctlResult_sent]
    exact .inr ⟨rfl, hnull, reply.data.1, reply.data.2, by rw [hreply], rfl, rfl⟩

/-- An identification that was accepted came from the device and is not zero. -/
lemma identifyHost_runs {junk : ℕ → UInt8} {rom : AmlUsbRomRW} {r : ℤ × Bytes}
    (hr : Runs (updateSubCmdIdentifyHost junk rom 4 (some (malloc junk 16))) t r) :
    (r.1 ≠ 0 ∧ Complete t) ∨
      (r.1 = 0 ∧ rom.device ≠ .null ∧ ∃ d, answers t = [(amReqIdentifyHost, some d)] ∧
        d.all (· = 0) = false) := by
  unfold updateSubCmdIdentifyHost at hr
  rw [if_neg (by decide)] at hr
  obtain ⟨⟨ret, rom'⟩, t₁, t₂, rfl, hid, hr⟩ := runs_bind.mp hr
  dsimp only at hr
  rcases amlUsbIdentifyHost_runs rfl hid with ⟨hret, hanswers⟩ |
    ⟨hret, hdev, d, hd, hanswers, hbuf, hsize⟩
  · rw [if_pos hret] at hr
    obtain ⟨rfl, rfl⟩ := runs_ret.mp hr
    refine .inl ⟨by simp, fun x hx => ?_⟩
    rw [List.append_nil] at hx
    rw [hanswers x hx]
    exact whole_identify.mpr fun d hd => by cases hd
  rw [if_neg (not_not.mpr hret)] at hr
  dsimp only at hbuf hsize
  have hsent : (rom'.buffer.take rom'.dataSize).take 4 = d := by
    rw [hbuf, hsize, blit_zero, List.take_left, List.take_of_length_le hd]
  rw [hsent] at hr
  cases hzero : d.all (· = 0) with
  | true =>
    rw [hzero, if_pos rfl] at hr
    obtain ⟨rfl, rfl⟩ := runs_ret.mp hr
    refine .inl ⟨by simp, fun x hx => ?_⟩
    rw [List.append_nil, hanswers, List.mem_singleton] at hx
    rw [hx]
    refine whole_identify.mpr fun d' hd' hne => ?_
    rw [← Option.some.inj hd', hzero] at hne
    cases hne
  | false =>
    rw [hzero, if_neg Bool.false_ne_true] at hr
    obtain ⟨rfl, rfl⟩ := runs_ret.mp hr
    rw [List.append_nil]
    exact .inr ⟨rfl, hdev, d, hanswers, hzero⟩

/-- One transfer of twelve bytes. -/
lemma register_runs {dev : Device} {addr : ℕ} {buf : Bytes} {r : ℤ × Bytes} (hd : dev ≠ .null)
    (hr : Runs (amlLibusbCtrlRdWr dev addr buf 12 true 5000) t r) :
    ∃ reply : InResult 12, answers t = [(amReqReadMem, received reply)] ∧
      r = (if reply.status.isSome then -646 else 0, blit buf 0 reply.data.1) := by
  obtain ⟨h, s, t', rfl, hloop, rfl⟩ := runs_opened hd
    (fun drv => iterate (ctrlRdWrTurn drv.handle 12 true 5000) 13 ⟨0, 0, addr, buf⟩)
    (fun _ => rfl) hr
  have hmsg := usbControlMsg_readMem h addr buf (by decide : 12 ≤ 64) 5000
  rw [iterate] at hloop
  obtain ⟨l, t₁, t₂, rfl, hturn, hrest⟩ := runs_bind.mp hloop
  change Runs (usbControlMsg (some h) vendorIn amReqReadMem (addr / 2 ^ 16 : ℕ) (addr % 2 ^ 16 : ℕ)
    buf (12 : ℕ) 5000 >>= _) _ _ at hturn
  obtain ⟨_, t₃, t₄, rfl, hin, hturn⟩ := runs_bind.mp hturn
  rw [hmsg] at hin
  obtain ⟨reply, t₅, rfl, hret⟩ := runs_call.mp hin
  obtain ⟨rfl, rfl⟩ := runs_ret.mp hret
  dsimp only at hturn
  have hneg := usbControlResult_neg reply.status reply.data.1.length
  refine ⟨reply, ?_⟩
  by_cases hlow : usbControlResult reply.status reply.data.1.length < 0
  · rw [if_pos hlow] at hturn
    obtain ⟨rfl, rfl⟩ := runs_ret.mp hturn
    obtain ⟨rfl, rfl⟩ := runs_ret.mp hrest
    refine ⟨rfl, ?_⟩
    rw [if_pos (hneg.mp hlow)]
    dsimp only
    rw [if_pos hlow, List.take_zero, List.nil_append]
  · rw [if_neg hlow] at hturn
    obtain ⟨rfl, rfl⟩ := runs_ret.mp hturn
    -- the second turn finds nothing left
    obtain ⟨rfl, rfl⟩ := runs_ret.mp hrest
    refine ⟨rfl, ?_⟩
    rw [if_neg fun h => hlow (hneg.mpr h)]
    dsimp only
    rw [if_neg hlow, List.take_zero, List.nil_append]

lemma page_runs {dev : Device} {buf : Bytes} {r : ℤ × Bytes} (hd : dev ≠ .null)
    (hr : Runs (amlLibusbGetChipinfo dev buf 40 1 8000) t r) :
    ∃ reply : InResult 40, answers t = [(amReqChipInfo, received reply)] ∧
      r.2 = blit buf 0 reply.data.1 := by
  obtain ⟨h, page, rfl, rfl⟩ := getChipinfo_runs hd (by decide) hr
  exact ⟨page, rfl, rfl⟩

end Requests

/-! ### The identification -/

lemma answers_append (t u : Trace) : answers (t ++ u) = answers t ++ answers u :=
  List.filterMap_append

lemma slice_received {p : Bytes} (h : 32 ≤ p.length) (buf : Bytes) :
    slice (blit buf 0 p) 20 12 = slice p 20 12 := by
  rw [blit_zero, slice, slice, List.drop_append_of_le_length (by omega),
    List.take_append_of_le_length (by rw [List.length_drop]; omega)]

/-- What a run comes to after an identification that was accepted: one request more, or none. -/
lemma getChipid_runs {junk : ℕ → UInt8} {rom : AmlUsbRomRW} {t : Trace} {r : ℤ × Bytes}
    (hr : Runs (updateSubCmdGetChipid junk rom) t r) :
    (r.1 = -855 ∧ Complete t) ∨
      ∃ d, d.all (· = 0) = false ∧
        ((r.1 ≠ 0 ∧ r.1 ≠ -855 ∧ answers t = [(amReqIdentifyHost, some d)]) ∨
          (∃ page : InResult 40, r = (0, slice (blit (malloc junk 40) 0 page.data.1) 20 12) ∧
            answers t = [(amReqIdentifyHost, some d), (amReqChipInfo, received page)]) ∨
          ∃ reply : InResult 12,
            r = (if reply.status.isSome then (-908, [])
              else (0, (blit (malloc junk 16) 0 reply.data.1).take 12)) ∧
            answers t = [(amReqIdentifyHost, some d), (amReqReadMem, received reply)]) := by
  obtain ⟨⟨ret, id⟩, t₁, t₂, rfl, hid, hr⟩ := runs_bind.mp hr
  dsimp only at hr
  rcases identifyHost_runs hid with ⟨hret, hcomplete⟩ | ⟨hret, hdev, d, hanswers, hzero⟩
  · rw [if_pos hret] at hr
    obtain ⟨rfl, rfl⟩ := runs_ret.mp hr
    rw [List.append_nil]
    exact .inl ⟨rfl, hcomplete⟩
  rw [if_neg (not_not.mpr hret)] at hr
  refine .inr ⟨d, hzero, ?_⟩
  simp only [answers_append, hanswers, List.cons_append, List.nil_append, List.cons.injEq, true_and]
  generalize i32 (u32 (charVal (id.getD 1 0)) ||| u32 (charVal (id.getD 0 0) * 2 ^ 8) : ℕ) = idVer
    at hr
  split_ifs at hr with hstage hversion hpage
  · obtain ⟨rfl, rfl⟩ := runs_ret.mp hr
    exact .inl ⟨by decide, by decide, rfl⟩
  · obtain ⟨rfl, rfl⟩ := runs_ret.mp hr
    exact .inl ⟨by decide, by decide, rfl⟩
  · obtain ⟨⟨n, buf⟩, t₃, t₄, rfl, hin, hr⟩ := runs_bind.mp hr
    obtain ⟨rfl, rfl⟩ := runs_ret.mp hr
    obtain ⟨page, hpage, hbuf⟩ := page_runs hdev hin
    dsimp only at hbuf
    rw [List.append_nil, hpage, hbuf]
    exact .inr (.inl ⟨page, rfl, rfl⟩)
  · obtain ⟨⟨n, buf⟩, t₃, t₄, rfl, hin, hr⟩ := runs_bind.mp hr
    obtain ⟨reply, hreply, he⟩ := register_runs hdev hin
    obtain ⟨rfl, rfl⟩ := Prod.mk.inj he
    refine .inr (.inr ⟨reply, ?_⟩)
    cases hstatus : reply.status.isSome with
    | true =>
      rw [hstatus] at hr
      obtain ⟨rfl, rfl⟩ := runs_ret.mp hr
      rw [List.append_nil, hreply]
      exact ⟨rfl, rfl⟩
    | false =>
      rw [hstatus] at hr
      obtain ⟨rfl, rfl⟩ := runs_ret.mp hr
      rw [List.append_nil, hreply]
      exact ⟨rfl, rfl⟩

section Sound

variable {t : Trace} {d : Bytes} {req : ℕ} {reply : Option Bytes}

lemma whole_accepted (hzero : d.all (· = 0) = false) :
    Whole amReqIdentifyHost (some d) ↔ 4 ≤ d.length := by
  rw [whole_identify]
  exact ⟨fun h => h d rfl hzero, fun h d' hd' _ => Option.some.inj hd' ▸ h⟩

/-- The identification in a history that begins with it and has no other. -/
lemma identified_iff {rest : List (ℕ × Option Bytes)}
    (ht : answers t = (amReqIdentifyHost, some d) :: rest)
    (hrest : ∀ x ∈ rest, x.1 ≠ amReqIdentifyHost) :
    (∃ d', (amReqIdentifyHost, some d') ∈ answers t ∧ 4 ≤ d'.length) ↔ 4 ≤ d.length := by
  rw [ht]
  constructor
  · rintro ⟨d', hmem, hlen⟩
    rcases List.mem_cons.mp hmem with he | hmem
    · rwa [← Option.some.inj (Prod.mk.inj he).2]
    · exact absurd rfl (hrest _ hmem)
  · exact fun hlen => ⟨d, List.mem_cons_self, hlen⟩

/-- The reply to the second request. -/
lemma mem_second (ht : answers t = [(amReqIdentifyHost, some d), (req, reply)]) {req' : ℕ}
    (hreq : req' ≠ amReqIdentifyHost) (p : Bytes) :
    (req', some p) ∈ answers t ↔ req' = req ∧ reply = some p := by
  rw [ht]
  simp [hreq, eq_comm]

lemma complete_pair (ht : answers t = [(amReqIdentifyHost, some d), (req, reply)]) :
    Complete t ↔ Whole amReqIdentifyHost (some d) ∧ Whole req reply := by
  rw [Complete, ht]
  simp

lemma sound_page {page : InResult 40} (hzero : d.all (· = 0) = false) (buf : Bytes)
    (ht : answers t = [(amReqIdentifyHost, some d), (amReqChipInfo, received page)]) :
    Sound t 0 (slice (blit buf 0 page.data.1) 20 12) ↔ Complete t := by
  have hid := identified_iff ht (by simp [amReqChipInfo, amReqIdentifyHost])
  rw [complete_pair ht, whole_accepted hzero, whole_page]
  constructor
  · intro h
    refine ⟨hid.mp (h.identified (by decide)), ?_⟩
    obtain ⟨p, ⟨hmem, hlen, -⟩ | ⟨hmem, -⟩⟩ := h.received rfl
    · exact ⟨p, ((mem_second ht (by decide) p).mp hmem).2, hlen⟩
    · exact absurd ((mem_second ht (by decide) p).mp hmem).1 (by decide)
  · rintro ⟨hfour, p, hp, hlen⟩
    refine ⟨fun _ => ⟨p, .inl ⟨(mem_second ht (by decide) p).mpr ⟨rfl, hp⟩, hlen, ?_⟩⟩,
      fun _ => hid.mpr hfour⟩
    have hdata : page.data.1 = p := by
      unfold received at hp
      split_ifs at hp
      exact Option.some.inj hp
    rw [hdata, slice_received hlen]

lemma sound_register {reply : InResult 12} (hzero : d.all (· = 0) = false) (buf : Bytes)
    {ret : ℤ} {chipID : Bytes} (he : (ret, chipID) = if reply.status.isSome then (-908, [])
      else (0, (blit buf 0 reply.data.1).take 12))
    (ht : answers t = [(amReqIdentifyHost, some d), (amReqReadMem, received reply)]) :
    Sound t ret chipID ↔ Complete t := by
  have hid := identified_iff ht (by simp [amReqReadMem, amReqIdentifyHost])
  rw [complete_pair ht, whole_accepted hzero, whole_register]
  cases hstatus : reply.status with
  | some e =>
    have hreply : received reply = none := by rw [received, hstatus]; rfl
    rw [hstatus] at he
    obtain ⟨rfl, rfl⟩ := Prod.mk.inj he
    constructor
    · exact fun h => ⟨hid.mp (h.identified (by decide)), fun p hp => by
        rw [hreply] at hp
        cases hp⟩
    · exact fun h => ⟨fun hret => absurd hret (by decide), fun _ => hid.mpr h.1⟩
  | none =>
    have hreply : received reply = some reply.data.1 := by rw [received, hstatus]; rfl
    rw [hstatus] at he
    obtain ⟨rfl, rfl⟩ := Prod.mk.inj he
    constructor
    · intro h
      refine ⟨hid.mp (h.identified (by decide)), fun p hp => ?_⟩
      obtain ⟨p', ⟨hmem, -⟩ | ⟨hmem, hlen, -⟩⟩ := h.received rfl
      · exact absurd ((mem_second ht (by decide) p').mp hmem).1 (by decide)
      · rw [((mem_second ht (by decide) p').mp hmem).2] at hp
        rwa [← Option.some.inj hp]
    · rintro ⟨hfour, hlen⟩
      refine ⟨fun _ => ⟨reply.data.1, .inr ⟨(mem_second ht (by decide) _).mpr ⟨rfl, hreply⟩,
        hlen _ hreply, ?_⟩⟩, fun _ => hid.mpr hfour⟩
      rw [blit_zero, List.take_append_of_le_length (hlen _ hreply)]

end Sound

/-- **What `chipid` says of the chip came from the device exactly if** the replies were whole. -/
theorem chipid_sound_iff (junk : ℕ → UInt8) (rom : AmlUsbRomRW) {t : Trace} {ret : ℤ}
    {chipID : Bytes} (hr : Runs (updateSubCmdGetChipid junk rom) t (ret, chipID)) :
    Sound t ret chipID ↔ Complete t := by
  rcases getChipid_runs hr with ⟨hret, hcomplete⟩ | ⟨d, hzero, hcases⟩
  · obtain rfl : ret = -855 := hret
    exact iff_of_true ⟨fun h => absurd h (by decide), fun h => absurd rfl h⟩ hcomplete
  rcases hcases with ⟨hne, hid, ht⟩ | ⟨page, he, ht⟩ | ⟨reply, he, ht⟩
  · -- the chip was refused
    have hfour := identified_iff ht fun x hx => absurd hx List.not_mem_nil
    have hcomplete : Complete t ↔ 4 ≤ d.length := by
      rw [Complete, ht, List.forall_mem_singleton, whole_accepted hzero]
    rw [hcomplete]
    exact ⟨fun h => hfour.mp (h.identified hid),
      fun h => ⟨fun hret => absurd hret hne, fun _ => hfour.mpr h⟩⟩
  · obtain ⟨rfl, rfl⟩ := Prod.mk.inj he
    exact sound_page hzero _ ht
  · exact sound_register hzero _ he ht

/-! ### A chip -/

def chipReply (n : ℕ) : Option Bytes → InResult n
  | some d => ⟨none, d.take n, by
    rw [List.length_take]
    exact Nat.min_le_left _ _⟩
  | none => ⟨some .io, [], Nat.zero_le _⟩

/-- A chip with an identification, and with the same reply to everything else. -/
def chipAnswers (identity reply : Option Bytes) (_ : Trace) : (o : Op) → Option (Resp o)
  | .libusbOpen _ => some (some (0 : ℕ))
  | .libusbClose _ => some ()
  | .controlIn _ s _ =>
    some (chipReply s.wLength (if s.bRequest = amReqIdentifyHost then identity else reply))
  | _ => none

def chipRom : AmlUsbRomRW := ⟨.dev 0, 0, [], 0, 0⟩
def chipPage : Bytes := List.replicate 40 7

set_option maxRecDepth 10000 in
lemma chip_page : ∃ t, Runs (updateSubCmdGetChipid (fun _ => 0) chipRom) t
    (0, List.replicate 12 7) ∧
      answers t = [(amReqIdentifyHost, some [2, 3, 0, 0]), (amReqChipInfo, some chipPage)] :=
  ⟨_, exec_recorded (chipAnswers (some [2, 3, 0, 0]) (some chipPage)) rfl, rfl⟩

theorem chipid_sound_iff_page : ∃ t,
    Runs (updateSubCmdGetChipid (fun _ => 0) chipRom) t (0, List.replicate 12 7) ∧
      Sound t 0 (List.replicate 12 7) := by
  obtain ⟨t, hr, ht⟩ := chip_page
  refine ⟨t, hr, (chipid_sound_iff _ _ hr).mpr ((complete_pair ht).mpr ⟨?_, ?_⟩)⟩
  · exact (whole_accepted (by decide)).mpr (by decide)
  · exact whole_page.mpr ⟨chipPage, rfl, by decide⟩

set_option maxRecDepth 10000 in
/-- A page that does not come is printed all the same, and one byte of identification is taken
for four. -/
theorem chipid_not_sound :
    (∃ t, Runs (updateSubCmdGetChipid (fun _ => 0) chipRom) t (0, List.replicate 12 0) ∧
      answers t = [(amReqIdentifyHost, some [2, 3, 0, 0]), (amReqChipInfo, none)]) ∧
    (∃ t, Runs (updateSubCmdGetChipid (fun _ => 0) chipRom) t (0, List.replicate 12 7) ∧
      answers t = [(amReqIdentifyHost, some [2]), (amReqReadMem, some (List.replicate 12 7))]) ∧
    ¬ ∀ junk rom t ret chipID, Runs (updateSubCmdGetChipid junk rom) t (ret, chipID) →
      Sound t ret chipID := by
  have hfailed : ∃ t, Runs (updateSubCmdGetChipid (fun _ => 0) chipRom) t
      (0, List.replicate 12 0) ∧
        answers t = [(amReqIdentifyHost, some [2, 3, 0, 0]), (amReqChipInfo, none)] :=
    ⟨_, exec_recorded (chipAnswers (some [2, 3, 0, 0]) none) rfl, rfl⟩
  refine ⟨hfailed, ⟨_, exec_recorded (chipAnswers (some [2]) (some chipPage)) rfl, rfl⟩,
    fun h => ?_⟩
  obtain ⟨t, hr, ht⟩ := hfailed
  obtain ⟨p, ⟨hmem, -⟩ | ⟨hmem, -⟩⟩ := (h _ _ _ _ _ hr).received rfl
  · exact absurd ((mem_second ht (by decide) p).mp hmem).2 (by simp)
  · exact absurd ((mem_second ht (by decide) p).mp hmem).1 (by decide)

end AmlogicUpdate.ChipId

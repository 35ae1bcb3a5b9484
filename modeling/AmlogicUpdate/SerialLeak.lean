import AmlogicUpdate.SerialReply

/-!
Whether the reply to one command shows in what is made of the next.

`aml_get_sn` and `aml_set_sn` send two commands with one buffer for the replies to both, and a
status read takes two fields of its request out of the buffer it reads into.
-/

namespace AmlogicUpdate.SerialLeak

open Interaction CData Usb AmlLibusb UsbRomDrv Update Wire Scan Host Mwrite CommandText Serial
  SerialReply

/-! ### Two runs -/

/-- An event without the two fields of a request that can come out of a buffer. -/
def blank : Ev HostResp → Ev HostResp
  | ⟨.inl (.controlIn h s timeout), r⟩ =>
    ⟨.inl (.controlIn h { s with wValue := 0, wIndex := 0 } timeout), r⟩
  | e => e

/-- The value and the index of each status read. -/
def statFields (t : HostTrace) : List (ℕ × ℕ) := t.filterMap fun e => match e.1 with
  | .inl (.controlIn _ s _) =>
    if s.bRequest = amReqTplStat then some (s.wValue, s.wIndex) else none
  | _ => none

/-- The bytes each status read was answered with. -/
def replies (t : HostTrace) : List Bytes := t.filterMap fun
  | ⟨.inl (.controlIn _ s _), r⟩ =>
    have r : InResult s.wLength := r
    if s.bRequest = amReqTplStat then some r.data.1 else none
  | _ => none

/-- The buffer after them. -/
def overlay (b : Bytes) (t : HostTrace) : Bytes := (replies t).foldl (fun b d => blit b 0 d) b

/-- Answered alike after `t` and `t'`, the two programs read the status with the same fields and
come to the same result. -/
def Independent {α β : Type} (out : α → β) (p p' : HostProgram α) (t t' : HostTrace) : Prop :=
  ∀ u u' r r', Runs p (t ++ u) r → Runs p' (t' ++ u') r' → u.map blank = u'.map blank →
    statFields u = statFields u' ∧ out r = out r'

lemma blank_answer (o : HostOp) (r r' : HostResp o) (h : blank ⟨o, r⟩ = blank ⟨o, r'⟩) :
    r = r' := by
  cases o with
  | inl o =>
    cases o
    all_goals exact eq_of_heq (Sigma.mk.inj h).2
  | inr q => exact eq_of_heq (Sigma.mk.inj h).2

@[simp] lemma overlay_nil (b : Bytes) : overlay b [] = b := rfl

lemma overlay_append (b : Bytes) (t u : HostTrace) :
    overlay b (t ++ u) = overlay (overlay b t) u := by
  rw [overlay, replies, List.filterMap_append, List.foldl_append]
  rfl

/-! ### The buffer of an exchange -/

section Exchange

variable {dev : Device} {cmd b b' : Bytes} {retry : ℤ}

lemma readStatus_overlay {t : Trace} {r : ℤ × AmlUsbRomRW}
    (hr : Runs (amlUsbReadStatus ⟨dev, 64, b, 0, 0⟩) t r) :
    r.2.buffer = overlay b (t.map leftEv) := by
  unfold amlUsbReadStatus at hr
  by_cases hnull : dev = .null
  · rw [hnull, openUsbDevice_null] at hr
    obtain ⟨rfl, rfl⟩ := runs_ret.mp hr
    rfl
  obtain ⟨hd, x, t', rfl, hin, rfl⟩ := runs_opened hnull (fun drv =>
    usbDeviceIoControl drv .tplStatus (some b) 4 (some b) 64 0) (fun _ => rfl) hr
  by_cases hdev : dev = .invalid
  · subst hdev
    obtain ⟨rfl, rfl⟩ := runs_ret.mp hin
    rfl
  rw [tplStatus_eq hdev, runs_call] at hin
  obtain ⟨res, t₁, rfl, hin⟩ := hin
  obtain ⟨rfl, rfl⟩ := runs_ret.mp hin
  rfl

/-- No control transfer from the device. -/
def Outward : Op → Prop
  | .controlIn .. => False
  | _ => True

lemma replies_outward {t : Trace} (h : ∀ e ∈ t, Outward e.1) : replies (t.map leftEv) = [] := by
  rw [replies, List.filterMap_eq_nil_iff]
  intro e he
  obtain ⟨⟨o, r⟩, hmem, rfl⟩ := List.mem_map.mp he
  have ho := h _ hmem
  cases o
  case controlIn => exact ho.elim
  all_goals rfl

lemma tplCmd_overlay {buf : Bytes} {t : Trace} {r : ℤ × AmlUsbRomRW}
    (hr : Runs (amlUsbTplCmd ⟨dev, 68, buf, 0, 0⟩) t r) : overlay b (t.map leftEv) = b := by
  have hplain : Plain Outward := ⟨fun _ => trivial, fun _ => trivial, trivial⟩
  have hcalls := @amlUsbTplCmd_calls _ hplain ⟨dev, 68, buf, 0, 0⟩ rfl fun _ => trivial
  rw [overlay, replies_outward fun e he => hcalls.event hr he]
  rfl

lemma sendCommandTurn_overlay {s : ℤ × Bytes} {t : Trace} {l : Loop (ℤ × Bytes) (ℤ × Bytes)}
    (hr : Runs (sendCommandTurn dev s) t l) :
    l = .next (s.1 - 1, overlay s.2 (t.map leftEv)) ∨
      ∃ ret, (ret = 0 ∨ ret = -1) ∧ l = .done (ret, overlay s.2 (t.map leftEv)) := by
  unfold sendCommandTurn at hr
  split_ifs at hr
  · obtain ⟨⟨ret, rom⟩, t₁, t₂, rfl, hread, hrest⟩ := runs_bind.mp hr
    have hbuf := readStatus_overlay hread
    dsimp only at hrest hbuf
    split_ifs at hrest
    · obtain ⟨rfl, rfl⟩ := runs_ret.mp hrest
      exact .inr ⟨0, .inl rfl, by rw [List.append_nil, hbuf]⟩
    · obtain ⟨rfl, rfl⟩ := runs_ret.mp hrest
      exact .inl (by rw [List.append_nil, hbuf])
  · obtain ⟨rfl, rfl⟩ := runs_ret.mp hr
    exact .inr ⟨-1, .inr rfl, rfl⟩

/-- Each turn puts its reply on top. -/
lemma sendCommandLoop_overlay {n : ℕ} {t : Trace} {r : ℤ × Bytes}
    (hr : Runs (iterate (sendCommandTurn dev) n (retry, b)) t r) :
    (r.1 = 0 ∨ r.1 = -1) ∧ r.2 = overlay b (t.map leftEv) := by
  have hall := runs_iterate (I := fun s h => s.2 = overlay b (h.map leftEv)) (h := [])
    (Q := fun r h => (r.1 = 0 ∨ r.1 = -1) ∧ r.2 = overlay b (h.map leftEv)) ?next ?done rfl hr
  · exact hall
  case next =>
    intro s h t s' hs hturn
    rcases sendCommandTurn_overlay hturn with he | ⟨ret, -, he⟩
    · cases he
      rw [List.map_append, overlay_append, ← hs]
    · cases he
  case done =>
    intro s h t r' hs hturn
    rcases sendCommandTurn_overlay hturn with he | ⟨ret, hret, he⟩
    · cases he
    · cases he
      exact ⟨hret, by rw [List.map_append, overlay_append, ← hs]⟩

/-- An exchange leaves the buffer with its replies on top, those of failed reads as well. -/
lemma sendCommand_overlay {t : HostTrace} {r : ℤ × Bytes}
    (hr : Runs (amlSendCommand dev cmd retry b) t r) :
    (r.1 = 0 ∨ r.1 = -1) ∧ r.2 = overlay b t := by
  unfold amlSendCommand at hr
  split_ifs at hr with hlong hbuf
  · obtain ⟨rfl, rfl⟩ := runs_ret.mp hr
    exact ⟨.inr rfl, rfl⟩
  · obtain ⟨e, -⟩ := runs_call.mp hr
    exact e.elim
  obtain ⟨x, t₁, t₂, rfl, husb, hrest⟩ := runs_bind.mp hr
  obtain ⟨u, rfl, htpl⟩ := runs_left.mp husb
  rw [overlay_append, tplCmd_overlay htpl]
  dsimp only at hrest
  split_ifs at hrest
  · obtain ⟨u', rfl, hloop⟩ := runs_left.mp hrest
    exact sendCommandLoop_overlay hloop
  · obtain ⟨rfl, rfl⟩ := runs_ret.mp hrest
    exact ⟨.inr rfl, rfl⟩

/-- The two buffers under the same replies. -/
def Under (b b' s s' : Bytes) : Prop :=
  ∃ d : Bytes, d.length ≤ 64 ∧ s = blit b 0 d ∧ s' = blit b' 0 d

lemma under_refl (b b' : Bytes) : Under b b' b b' :=
  ⟨[], by simp, by rw [blit_zero]; rfl, by rw [blit_zero]; rfl⟩

lemma Under.trans {s s' x x' : Bytes} (h : Under b b' s s') (hx : Under s s' x x') :
    Under b b' x x' := by
  obtain ⟨d, hd, rfl, rfl⟩ := h
  obtain ⟨e, he, rfl, rfl⟩ := hx
  refine ⟨e ++ d.drop e.length, ?_, blit_blit b d e, blit_blit b' d e⟩
  rw [List.length_append, List.length_drop]
  omega

lemma Under.getU16 {s s' : Bytes} (h : Under b b' s s') (hb : ∀ i < 4, getU8 b i = getU8 b' i)
    {i : ℕ} (hi : i < 3) : getU16 s i = getU16 s' i := by
  obtain ⟨d, -, rfl, rfl⟩ := h
  have hbyte : ∀ j < 4, getU8 (blit b 0 d) j = getU8 (blit b' 0 d) j := by
    intro j hj
    rw [getU8_overlay, getU8_overlay, hb j hj]
  rw [CData.getU16, CData.getU16, hbyte i (by omega), hbyte (i + 1) (by omega)]

/-- Status reads with the same fields go in step. -/
lemma readStatus_lockstep {s s' : Bytes} (hvalue : getU16 s 0 = getU16 s' 0)
    (hindex : getU16 s 2 = getU16 s' 2) :
    Lockstep (fun _ => True) (fun r r' => r.1 = r'.1 ∧ Under s s' r.2.buffer r'.2.buffer)
      (amlUsbReadStatus ⟨dev, 64, s, 0, 0⟩) (amlUsbReadStatus ⟨dev, 64, s', 0, 0⟩) := by
  unfold amlUsbReadStatus
  by_cases hnull : dev = .null
  · rw [hnull, openUsbDevice_null]
    exact .ret ⟨rfl, under_refl s s'⟩
  rw [openUsbDevice_eq hnull]
  refine .call fun handle _ => ?_
  have hin : Lockstep (fun _ => True) (fun r r' => r.1 = r'.1 ∧
      Under s s' (r.2.outBuf.getD s) (r'.2.outBuf.getD s'))
      (usbDeviceIoControl ⟨dev, handle, amEpIn, amEpOut⟩ .tplStatus (some s) 4 (some s) 64 0)
      (usbDeviceIoControl ⟨dev, handle, amEpIn, amEpOut⟩ .tplStatus (some s') 4 (some s') 64
        0) := by
    by_cases hdev : dev = .invalid
    · subst hdev
      exact .ret ⟨rfl, under_refl s s'⟩
    cases handle with
    | none =>
      simp only [usbDeviceIoControl, hdev, if_false, ioctlTplStatusHandler, ioctlTplStatusHandlerEx]
      exact .call fun e _ => e.elim
    | some hd =>
      rw [tplStatus_eq hdev, tplStatus_eq hdev, hvalue, hindex]
      exact .call fun r _ => .ret ⟨rfl, r.data.1, r.data.2, rfl, rfl⟩
  refine hin.bind fun r r' hr => .bind_same _ fun _ => .ret ⟨?_, hr.2⟩
  rw [hr.1]

/-- An exchange on buffers with the same request fields goes in step. -/
lemma sendCommand_lockstep (hb : ∀ i < 4, getU8 b i = getU8 b' i) :
    Lockstep (fun _ => True) (fun r r' => r.1 = r'.1 ∧ Under b b' r.2 r'.2)
      (amlSendCommand dev cmd retry b) (amlSendCommand dev cmd retry b') := by
  have hturn : ∀ s s' : ℤ × Bytes, s.1 = s'.1 ∧ Under b b' s.2 s'.2 →
      Lockstep (fun _ => True) (Lockstep.Turns (fun s s' => s.1 = s'.1 ∧ Under b b' s.2 s'.2)
        (fun r r' => r.1 = r'.1 ∧ Under b b' r.2 r'.2))
        (sendCommandTurn dev s) (sendCommandTurn dev s') := by
    rintro ⟨n, s⟩ ⟨n', s'⟩ ⟨hn, hs⟩
    obtain rfl : n = n' := hn
    refine .ite (fun _ => ?_) fun _ => .ret (.done ⟨rfl, hs⟩)
    refine (readStatus_lockstep (hs.getU16 hb (by decide)) (hs.getU16 hb (by decide))).bind
      fun r r' hr => ?_
    refine .ite_iff (by rw [hr.1]) (fun _ => ?_) fun _ => ?_
    · exact .ret (.done ⟨rfl, hs.trans hr.2⟩)
    · exact .ret (.next ⟨rfl, hs.trans hr.2⟩)
  unfold amlSendCommand
  refine .ite (fun _ => .ret ⟨rfl, under_refl b b'⟩) fun _ => .ite (fun _ => ?_) fun _ => ?_
  · exact .call fun e _ => e.elim
  · refine .bind_same _ fun x => .ite (fun _ => ?_) fun _ => .ret ⟨rfl, under_refl b b'⟩
    have hloop : Lockstep (fun _ => True) (fun r r' => r.1 = r'.1 ∧ Under b b' r.2 r'.2)
        (iterate (sendCommandTurn dev) (retry.toNat + 1) (retry, b))
        (iterate (sendCommandTurn dev) (retry.toNat + 1) (retry, b')) :=
      .iterate hturn _ ⟨rfl, under_refl b b'⟩
    exact hloop.left

/-- The exchange with a board that takes the command and replies to it at once. -/
def exchange (n : ℕ) (cmd b : Bytes) (d : { l : Bytes // l.length ≤ 64 }) : Trace :=
  [⟨.libusbOpen (.dev n), some (0 : ℕ)⟩,
    ⟨tplRequest 0 (textBuf 125 cmd), (⟨none, Fin.last 64⟩ : OutResult 64)⟩,
    ⟨.libusbClose (0 : ℕ), ()⟩,
    ⟨.libusbOpen (.dev n), some (0 : ℕ)⟩,
    ⟨.controlIn (0 : ℕ) ⟨0xC0, amReqTplStat, getU16 b 0, getU16 b 2, 64⟩ 60000,
      (⟨none, d⟩ : InResult 64)⟩,
    ⟨.libusbClose (0 : ℕ), ()⟩]

lemma tplCmd_exchange (n : ℕ) (buf : Bytes) :
    Runs (amlUsbTplCmd ⟨.dev n, 68, buf, 0, 0⟩) [⟨.libusbOpen (.dev n), some (0 : ℕ)⟩,
      ⟨tplRequest 0 buf, (⟨none, Fin.last 64⟩ : OutResult 64)⟩, ⟨.libusbClose (0 : ℕ), ()⟩]
      (0, ⟨.dev n, 68, buf, 64, 0⟩) := by
  unfold amlUsbTplCmd
  rw [openUsbDevice_eq (dev_ne_null n), Prog.call_bind]
  refine runs_call.mpr ⟨some (0 : ℕ), _, rfl, ?_⟩
  simp only [Prog.ret_bind]
  rw [if_neg one_ne_zero, tplCmd_eq (dev_ne_invalid n), Prog.call_bind]
  refine runs_call.mpr ⟨(⟨none, Fin.last 64⟩ : OutResult 64), _, rfl, ?_⟩
  rw [Prog.ret_bind, closeUsbDevice_eq (dev_ne_null n), Prog.call_bind]
  exact runs_call.mpr ⟨(), [], rfl, .ret _⟩

lemma readStatus_exchange (n : ℕ) (cmd b : Bytes) (d : { l : Bytes // l.length ≤ 64 }) :
    Runs (amlUsbReadStatus ⟨.dev n, 64, b, 0, 0⟩) ((exchange n cmd b d).drop 3)
      (0, ⟨.dev n, 64, blit b 0 d.1, 0, 0⟩) := by
  unfold amlUsbReadStatus
  rw [openUsbDevice_eq (dev_ne_null n), Prog.call_bind]
  refine runs_call.mpr ⟨some (0 : ℕ), _, rfl, ?_⟩
  simp only [Prog.ret_bind]
  rw [if_neg one_ne_zero, tplStatus_eq (dev_ne_invalid n), Prog.call_bind]
  refine runs_call.mpr ⟨(⟨none, d⟩ : InResult 64), _, rfl, ?_⟩
  rw [Prog.ret_bind, closeUsbDevice_eq (dev_ne_null n), Prog.call_bind]
  exact runs_call.mpr ⟨(), [], rfl, .ret _⟩

lemma sendCommand_exchange (hcmd : cmd.length ≤ 125) (hretry : 0 < retry) (n : ℕ)
    (d : { l : Bytes // l.length ≤ 64 }) :
    Runs (amlSendCommand (.dev n) cmd retry b) ((exchange n cmd b d).map leftEv)
      (0, blit b 0 d.1) := by
  rw [amlSendCommand_eq hcmd]
  refine runs_bind.mpr ⟨_, _, _, rfl, runs_left.mpr ⟨(exchange n cmd b d).take 3, rfl,
    tplCmd_exchange n (textBuf 125 cmd)⟩, ?_⟩
  rw [if_pos rfl]
  refine runs_left.mpr ⟨(exchange n cmd b d).drop 3, rfl, runs_iterate_done ?_⟩
  unfold sendCommandTurn
  rw [if_pos hretry]
  exact runs_bind.mpr ⟨_, _, [], (List.append_nil _).symm, readStatus_exchange n cmd b d, .ret _⟩

/-- **An exchange keeps to itself exactly on buffers that agree.** -/
theorem exchange_iff {β γ : Type} {obs : Bytes → β} {out : ℤ × Bytes → γ} (hobs : Observes obs)
    (hcmd : cmd.length ≤ 125) (hretry : 0 < retry)
    (hserial : ∀ s s', out (0, s) = out (0, s') ↔ obs (serialOf s) = obs (serialOf s'))
    (hfail : ∀ s s', out (-1, s) = out (-1, s')) (n : ℕ) :
    Independent out (amlSendCommand (.dev n) cmd retry b) (amlSendCommand (.dev n) cmd retry b')
      [] [] ↔ Agrees obs b b' := by
  refine ⟨fun h => (agrees_iff hobs b b').mpr ?_, fun h u u' r r' hr hr' hblank => ?_⟩
  · -- the same answer in a run from each of the buffers
    have hpair : ∀ d : { l : Bytes // l.length ≤ 64 },
        [(getU16 b 0, getU16 b 2)] = [(getU16 b' 0, getU16 b' 2)] ∧
          obs (serialOf (blit b 0 d.1)) = obs (serialOf (blit b' 0 d.1)) := by
      intro d
      have hboth := h _ _ _ _ (sendCommand_exchange hcmd hretry n d)
        (sendCommand_exchange hcmd hretry n d) rfl
      exact ⟨hboth.1, (hserial _ _).mp hboth.2⟩
    refine ⟨?_, fun d hd => (hpair ⟨d, hd⟩).2⟩
    have hfields := (hpair ⟨[], by simp⟩).1
    rw [List.singleton_inj, Prod.mk.injEq] at hfields
    have hvalue := getU8_of_getU16 hfields.1
    have hindex := getU8_of_getU16 hfields.2
    intro i hi
    obtain rfl | rfl | rfl | rfl : i = 0 ∨ i = 1 ∨ i = 2 ∨ i = 3 := by omega
    · exact hvalue.1
    · exact hvalue.2
    · exact hindex.1
    · exact hindex.2
  · obtain ⟨x, hx, hret, d, hd, hs, hs'⟩ :=
      (sendCommand_lockstep h.fields).runs (fun _ _ => trivial) hr
    obtain rfl := hx.trace_eq blank_answer hr' hblank
    obtain rfl := hx.unique hr'
    refine ⟨rfl, ?_⟩
    obtain ⟨ret, s⟩ := r
    obtain ⟨ret', s'⟩ := x
    dsimp only at hret hs hs'
    subst hret hs hs'
    rcases (sendCommand_overlay hr).1 with hz | hm
    · dsimp only at hz
      rw [hz]
      exact (hserial _ _).mpr (h.unseen hobs hd)
    · dsimp only at hm
      rw [hm]
      exact hfail _ _

end Exchange

/-! ### The two routines -/

/-- What `amlGetSn` makes of its second exchange. -/
def getSnResult (r : ℤ × Bytes) : ℤ × Bytes :=
  if r.1 < 0 then (-1, r.2)
  else if (scanReply r.2).1 ≠ strSuccess ∨ (scanReply r.2).2.2 ≠ 2 then (0, r.2)
  else ((scanReply r.2).2.1.length, blit (blit r.2 0 (List.replicate 8 0)) 0 (scanReply r.2).2.1)

/-- What `amlSetSn` makes of it. -/
def setSnResult (r : ℤ × Bytes) : ℤ :=
  if r.1 < 0 then -1
  else if (scanReply r.2).1 ≠ strSuccess then 0 else (scanReply r.2).2.1.length

/-- The length, and as many bytes. -/
def returned (r : ℤ × Bytes) : ℤ × Bytes := (r.1, r.2.take r.1.toNat)

lemma getSn_returned (s : Bytes) :
    returned (getSnResult (0, s)) = (((serialOf s).length : ℤ), serialOf s) := by
  unfold getSnResult
  rw [if_neg (lt_irrefl 0)]
  by_cases hnone : (scanReply s).1 ≠ strSuccess ∨ (scanReply s).2.2 ≠ 2
  · rw [if_pos hnone, (scanReply_none s).mp hnone]
    rfl
  · rw [if_neg hnone, scanReply_second (not_not.mp fun h => hnone (.inl h)), returned, blit_zero]
    simp

lemma setSn_result (s : Bytes) : setSnResult (0, s) = (serialOf s).length := by
  unfold setSnResult
  rw [if_neg (lt_irrefl 0)]
  by_cases hfirst : (scanReply s).1 = strSuccess
  · rw [if_neg (not_not.mpr hfirst), scanReply_second hfirst]
  · rw [if_pos hfirst, serialOf_other hfirst]
    rfl

section Routines

variable {target usid b b' : Bytes} {t v u : HostTrace} {dev : Device} {x : ℤ × Bytes}

/-- Runs that are those of another program, the result taken further. -/
lemma independent_iff {α β γ : Type} {out : β → γ} {g : α → β} {p p' : HostProgram β}
    {q q' : HostProgram α} {t t' : HostTrace}
    (h : ∀ u r, Runs p (t ++ u) r ↔ Runs (q >>= fun a => .ret (g a)) u r)
    (h' : ∀ u r, Runs p' (t' ++ u) r ↔ Runs (q' >>= fun a => .ret (g a)) u r) :
    Independent out p p' t t' ↔ Independent (fun a => out (g a)) q q' [] [] := by
  have hmap : ∀ (q : HostProgram α) u a, Runs q u a → Runs (q >>= fun a => .ret (g a)) u (g a) :=
    fun q u a hq => runs_bind.mpr ⟨a, u, [], (List.append_nil u).symm, hq, .ret _⟩
  refine ⟨fun hp u u' r r' hr hr' hblank => ?_, fun hq u u' r r' hr hr' hblank => ?_⟩
  · exact hp u u' _ _ ((h u _).mpr (hmap q u r hr)) ((h' u' _).mpr (hmap q' u' r' hr')) hblank
  · obtain ⟨a, u₁, u₂, rfl, ha, hret⟩ := runs_bind.mp ((h u r).mp hr)
    obtain ⟨a', u₁', u₂', rfl, ha', hret'⟩ := runs_bind.mp ((h' u' r').mp hr')
    obtain ⟨rfl, rfl⟩ := runs_ret.mp hret
    obtain ⟨rfl, rfl⟩ := runs_ret.mp hret'
    rw [List.append_nil, List.append_nil] at hblank ⊢
    exact hq u₁ u₁' a a' ha ha' hblank

lemma commandDevice_dev (hdev : Runs (commandDevice target) t dev) (hnull : dev ≠ .null) :
    ∃ n, dev = .dev n := by
  obtain ⟨found, t₁, t₂, rfl, hscan, hrest⟩ := runs_bind.mp hdev
  obtain ⟨busses, t', rfl, hfound⟩ := runs_call.mp hscan
  rw [(runs_ret.mp hfound).2] at hrest
  rcases amlGetDeviceHandle_cases target busses with hnone | ⟨n, hdevice⟩
  · rw [hnone, if_pos rfl] at hrest
    exact absurd (runs_ret.mp hrest).2 hnull
  · rw [hdevice, if_neg (dev_ne_null _)] at hrest
    obtain ⟨z, t₃, t₄, rfl, -, hresult⟩ := runs_bind.mp hrest
    dsimp only at hresult
    split_ifs at hresult
    · exact absurd (runs_ret.mp hresult).2 hnull
    · exact absurd (runs_ret.mp hresult).2 hnull
    · exact ⟨_, (runs_ret.mp hresult).2⟩

lemma getSn_after (hdev : Runs (commandDevice target) t dev) (hnull : dev ≠ .null)
    (hv : Runs (amlSendCommand dev strWriteVersion 50 b) v x) (u : HostTrace) (r : ℤ × Bytes) :
    Runs (amlGetSn target b) (t ++ v ++ u) r ↔
      Runs (amlSendCommand dev strReadUsid 50 (overlay b v) >>= fun y => .ret (getSnResult y)) u
        r := by
  unfold amlGetSn
  rw [List.append_assoc, hdev.bind_iff, if_neg hnull, hv.bind_iff]
  obtain ⟨ret, s⟩ := x
  obtain rfl : s = overlay b v := (sendCommand_overlay hv).2
  have hlast : ∀ y : ℤ × Bytes, (if y.1 < 0 then (pure (-1, y.2) : HostProgram (ℤ × Bytes)) else
      if (scanReply y.2).1 ≠ strSuccess ∨ (scanReply y.2).2.2 ≠ 2 then pure (0, y.2)
      else pure ((scanReply y.2).2.1.length,
        blit (blit y.2 0 (List.replicate 8 0)) 0 (scanReply y.2).2.1)) = .ret (getSnResult y) := by
    intro y
    unfold getSnResult
    split_ifs
    · rfl
    · rfl
    · rfl
  exact iff_of_eq (congrArg
    (fun f => Runs (amlSendCommand dev strReadUsid 50 (overlay b v) >>= f) u r) (funext hlast))

lemma setSn_after (hdev : Runs (commandDevice target) t dev) (hnull : dev ≠ .null)
    (hv : Runs (amlSendCommand dev strWriteVersion 50 b) v x) (hlen : usid.length ≤ 108)
    (u : HostTrace) (r : ℤ) :
    Runs (amlSetSn b target usid) (t ++ v ++ u) r ↔
      Runs (amlSendCommand dev (strWriteUsid ++ usid) 50 (overlay b v) >>= fun y =>
        .ret (setSnResult y)) u r := by
  unfold amlSetSn
  rw [List.append_assoc, hdev.bind_iff, if_neg hnull]
  dsimp only
  rw [if_neg (by rw [serial_length]; omega), hv.bind_iff]
  obtain ⟨ret, s⟩ := x
  obtain rfl : s = overlay b v := (sendCommand_overlay hv).2
  have hlast : ∀ y : ℤ × Bytes, (if y.1 < 0 then (pure (-1) : HostProgram ℤ) else
      if (scanReply y.2).1 ≠ strSuccess then pure 0
      else pure (scanReply y.2).2.1.length) = .ret (setSnResult y) := by
    intro y
    unfold setSnResult
    split_ifs
    · rfl
    · rfl
    · rfl
  exact iff_of_eq (congrArg (fun f => Runs (amlSendCommand dev (strWriteUsid ++ usid) 50
    (overlay b v) >>= f) u r) (funext hlast))

/-- A serial too long for the command is refused, or written past a buffer. -/
lemma setSn_long (hdev : Runs (commandDevice target) t dev) (hnull : dev ≠ .null)
    (hv : Runs (amlSendCommand dev strWriteVersion 50 b) v x) (hlen : 108 < usid.length) {r : ℤ}
    (hr : Runs (amlSetSn b target usid) (t ++ v ++ u) r) : u = [] ∧ r = -1 := by
  unfold amlSetSn at hr
  rw [List.append_assoc, hdev.bind_iff, if_neg hnull] at hr
  dsimp only at hr
  split_ifs at hr
  · obtain ⟨e, -⟩ := runs_call.mp hr
    exact e.elim
  rw [hv.bind_iff, amlSendCommand, if_pos (by rw [serial_length]; omega)] at hr
  exact runs_ret.mp hr

/-- **What the first reply left is seen in the second exchange**, unless the buffers it was read
into agree: in the requests, in a label or a serial that a short reply does not reach. -/
theorem serial_independent_iff {v' : HostTrace} {x' : ℤ × Bytes}
    (hdev : Runs (commandDevice target) t dev) (hnull : dev ≠ .null)
    (hv : Runs (amlSendCommand dev strWriteVersion 50 b) v x)
    (hv' : Runs (amlSendCommand dev strWriteVersion 50 b') v' x') :
    (Independent returned (amlGetSn target b) (amlGetSn target b') (t ++ v) (t ++ v') ↔
      Agrees (id : Bytes → Bytes) (overlay b v) (overlay b' v')) ∧
    (Independent id (amlSetSn b target usid) (amlSetSn b' target usid) (t ++ v) (t ++ v') ↔
      108 < usid.length ∨ Agrees (List.length : Bytes → ℕ) (overlay b v) (overlay b' v')) := by
  obtain ⟨n, rfl⟩ := commandDevice_dev hdev hnull
  refine ⟨?_, ?_⟩
  · rw [independent_iff (getSn_after hdev hnull hv) (getSn_after hdev hnull hv')]
    refine exchange_iff observes_serial (by decide) (by decide) (fun s s' => ?_) (fun s s' => rfl) n
    rw [getSn_returned, getSn_returned, Prod.mk.injEq]
    exact ⟨And.right, fun h => ⟨congrArg (fun l : Bytes => (l.length : ℤ)) h, h⟩⟩
  by_cases hlen : 108 < usid.length
  · refine iff_of_true (fun u u' r r' hr hr' _ => ?_) (.inl hlen)
    obtain ⟨rfl, rfl⟩ := setSn_long hdev hnull hv hlen hr
    obtain ⟨rfl, rfl⟩ := setSn_long hdev hnull hv' hlen hr'
    exact ⟨rfl, rfl⟩
  · rw [or_iff_right hlen,
      independent_iff (setSn_after hdev hnull hv (by omega))
        (setSn_after hdev hnull hv' (by omega))]
    refine exchange_iff observes_length (by rw [serial_length]; omega) (by decide) (fun s s' => ?_)
      (fun s s' => rfl) n
    rw [setSn_result, setSn_result]
    exact Int.natCast_inj

end Routines

/-- Replies to the first command, and one to the second that ends behind its parenthesis. -/
def versionReply : { l : Bytes // l.length ≤ 64 } := ⟨strLabel ++ [49, 41], by decide⟩
def versionFailed : { l : Bytes // l.length ≤ 64 } :=
  ⟨ascii ['f', 'a', 'i', 'l', 'e', 'd', ':', '(', '1', '2', '3', ')'], by decide⟩
def serialReply : { l : Bytes // l.length ≤ 64 } := ⟨strLabel, by decide⟩

/-- The buffer for the serial as `main` has it. -/
def serialBuf : Bytes := List.replicate 512 0

/-- A reply that ends where the parenthesis of `versionReply` stands. -/
def versionOpen : { l : Bytes // l.length ≤ 64 } := ⟨strLabel ++ [49], by decide⟩

set_option maxRecDepth 10000 in
lemma versionOpen_agrees :
    Agrees (id : Bytes → Bytes) (blit serialBuf 0 versionReply.1)
      (blit serialBuf 0 versionOpen.1) := by
  have hserial : ∀ k < 65, 9 ≤ k →
      serialPart ((blit serialBuf 0 versionReply.1).drop k) =
        serialPart ((blit serialBuf 0 versionOpen.1).drop k) := by
    decide
  exact ⟨by decide, fun k hk => .inl ((by decide : ∀ k ≤ 8,
    (strLabel.drop k <+: (blit serialBuf 0 versionReply.1).drop k ↔
      strLabel.drop k <+: (blit serialBuf 0 versionOpen.1).drop k)) k hk),
    fun k h₉ hk => hserial k (by omega) h₉⟩

/-- Two replies that differ leave buffers that agree, and the second exchanges are the same. -/
theorem serial_independent_iff_board : ∃ t, versionReply ≠ versionOpen ∧
    Independent returned (amlGetSn boardName serialBuf) (amlGetSn boardName serialBuf)
      (t ++ (exchange 10 strWriteVersion serialBuf versionReply).map leftEv)
      (t ++ (exchange 10 strWriteVersion serialBuf versionOpen).map leftEv) ∧
    Independent id (amlSetSn serialBuf boardName [65]) (amlSetSn serialBuf boardName [65])
      (t ++ (exchange 10 strWriteVersion serialBuf versionReply).map leftEv)
      (t ++ (exchange 10 strWriteVersion serialBuf versionOpen).map leftEv) := by
  obtain ⟨t, hdev⟩ := commandDevice_board
  have hboth : _ ∧ (Independent id (amlSetSn serialBuf boardName [65])
      (amlSetSn serialBuf boardName [65]) _ _ ↔ _) := serial_independent_iff hdev (dev_ne_null 10)
    (sendCommand_exchange (b := serialBuf) (by decide) (by decide) 10 versionReply)
    (sendCommand_exchange (b := serialBuf) (by decide) (by decide) 10 versionOpen)
  have hagrees := versionOpen_agrees
  refine ⟨t, by decide, hboth.1.mpr hagrees, hboth.2.mpr (.inr ?_)⟩
  exact ⟨hagrees.fields, hagrees.label, fun k h₉ hk => congrArg List.length
    (hagrees.serial k h₉ hk)⟩

/-- A serial of one character is reported after one of the replies, of two after the other. -/
theorem version_leaks : ∃ t u u' r r',
    Runs (commandDevice boardName) t (.dev 10) ∧
    Runs (amlGetSn boardName serialBuf)
      (t ++ (exchange 10 strWriteVersion serialBuf versionReply).map leftEv ++ u) r ∧
    Runs (amlGetSn boardName serialBuf)
      (t ++ (exchange 10 strWriteVersion serialBuf versionFailed).map leftEv ++ u') r' ∧
    u.map blank = u'.map blank ∧ statFields u = [(0x7573, 0x6363)] ∧
    statFields u' = [(0x6166, 0x6C69)] ∧ returned r = (1, [49]) ∧ returned r' = (2, [50, 51]) := by
  obtain ⟨t, hdev⟩ := commandDevice_board
  have hnull := dev_ne_null 10
  have hrun : ∀ d : { l : Bytes // l.length ≤ 64 }, Runs (amlGetSn boardName serialBuf)
      (t ++ (exchange 10 strWriteVersion serialBuf d).map leftEv ++
        (exchange 10 strReadUsid (blit serialBuf 0 d.1) serialReply).map leftEv)
      (getSnResult (0, blit (blit serialBuf 0 d.1) 0 serialReply.1)) := by
    intro d
    have hv := @sendCommand_exchange strWriteVersion serialBuf 50 (by decide) (by decide) 10 d
    have hsecond := @sendCommand_exchange strReadUsid (blit serialBuf 0 d.1) 50 (by decide)
      (by decide) 10 serialReply
    refine (getSn_after hdev hnull hv _ _).mpr (runs_bind.mpr ⟨_, _, [], ?_, hsecond, .ret _⟩)
    rw [List.append_nil]
  refine ⟨t, _, _, _, _, hdev, hrun versionReply, hrun versionFailed, rfl, rfl, rfl, ?_, ?_⟩
  · rw [getSn_returned]
    rfl
  · rw [getSn_returned]
    rfl

end AmlogicUpdate.SerialLeak

import AmlogicUpdate.Media

/-!
Bulk commands: a text sent as a control request and a reply read from the bulk endpoint,
after any number of busy replies.
-/

namespace AmlogicUpdate.BulkCmd

open Interaction CData Usb AmlLibusb UsbRomDrv Wire Media

/-- The request number `IOCTL_BULK_CMD_1` stands for. -/
def amReqBulkCmd : ℕ := 0x34

/-- The bytes handed to the device with a control request. -/
def sentBytes : Op → Bytes
  | .controlOut _ _ data _ => data
  | _ => []

def isBusy34 : Event → Bool := isReply fun b => strBusy34.isPrefixOf b
def isSuccess : Event → Bool := isReply fun b => strSuccess.isPrefixOf b

/-- What may happen while a command is being carried out. -/
def Waits (w : Trace) : Prop := ∀ e ∈ w, isBusy34 e ∨ (clockOf e).isSome

/-- A command that begins with `text` was accepted, and the first reply that is not busy says
that it succeeded. -/
def Obeyed (text : Bytes) (t : Trace) : Prop :=
  ∃ h₀ e w e' h₁, t = h₀ ++ [e] ++ w ++ [e'] ++ h₁ ∧ requestAccepted amReqBulkCmd e ∧
    text <+: sentBytes e.1 ∧ Waits w ∧ isSuccess e'

lemma Obeyed.mono {text text' : Bytes} {t : Trace} (ho : Obeyed text t) (h : text' <+: text) :
    Obeyed text' t := by
  obtain ⟨h₀, e, w, e', h₁, ht, hacc, htext, hw, hs⟩ := ho
  exact ⟨h₀, e, w, e', h₁, ht, hacc, h.trans htext, hw, hs⟩

/-- No control request to the device but one with the number `req` and the bytes `data`. -/
def Only (req : ℕ) (data : Bytes) (_ : Trace) (o : Op) : Prop :=
  ∀ h s d timeout, o = .controlOut h s d timeout → s.bRequest = req ∧ d = data

/-- A call that is no request at all. -/
lemma only_of_silent {req : ℕ} {data : Bytes} {h : Trace} {o : Op}
    (ho : ∀ req, isRequest req o = false) : Only req data h o := by
  rintro hd s d timeout rfl
  have hreq := ho s.bRequest
  simp [isRequest] at hreq

/-! ### Waiting for the reply -/

lemma strBusy34_length : strBusy34.length = 11 := rfl

lemma strncmp_busy34 (buf : Bytes) : strncmp buf strBusy34 11 = 0 ↔ strBusy34 <+: buf :=
  strncmp_eq_zero (by decide) buf

lemma strncmp_success (buf : Bytes) : strncmp buf strSuccess 7 = 0 ↔ strSuccess <+: buf :=
  strncmp_eq_zero (by decide) buf

lemma isBusy34_iff {e : Event} {b : Bytes} (he : reply e = some b) (hb : 11 ≤ b.length) :
    isBusy34 e = true ↔ strBusy34 <+: b := by simp [isBusy34, isReply_some he, hb]

lemma isSuccess_iff {e : Event} {b : Bytes} (he : reply e = some b) (hb : 11 ≤ b.length) :
    isSuccess e = true ↔ strSuccess <+: b := by simp [isSuccess, isReply_some he, hb]

lemma not_success_of_busy {buf : Bytes} (h : strBusy34 <+: buf) : ¬ strSuccess <+: buf := by
  intro hs
  have hp : strSuccess <+: strBusy34 := List.prefix_of_prefix_length_le hs h (by decide)
  revert hp
  decide

/-- A read is too short to be looked at, or only what it brought is looked at. -/
lemma bulkRead_cases (hd : Handle) (buf : Bytes) (r : InResult 0x200) :
    ((if usbBulkIo r.status r.data.1.length < 0 then -1
        else usbBulkIo r.status r.data.1.length) < (strBusy34.length : ℤ) ∧
      isBusy34 ⟨.bulkIn hd amEpIn 0x200 30000, r⟩ = false ∧
      isSuccess ⟨.bulkIn hd amEpIn 0x200 30000, r⟩ = false) ∨
    (¬ (if usbBulkIo r.status r.data.1.length < 0 then -1
        else usbBulkIo r.status r.data.1.length) < (strBusy34.length : ℤ) ∧
      (strBusy34 <+: blit buf 0 r.data.1 ↔ isBusy34 ⟨.bulkIn hd amEpIn 0x200 30000, r⟩) ∧
      (strSuccess <+: blit buf 0 r.data.1 ↔ isSuccess ⟨.bulkIn hd amEpIn 0x200 30000, r⟩)) := by
  have hreply := reply_in hd amEpIn 0x200 30000 r
  have hcases := usbBulkIo_cases r.status r.data.1.length
  generalize (⟨.bulkIn hd amEpIn 0x200 30000, r⟩ : Event) = e at hreply ⊢
  generalize r.data.1 = data at hreply hcases ⊢
  generalize usbBulkIo r.status data.length = io at hreply hcases ⊢
  rw [strBusy34_length]
  by_cases hneg : io < 0
  · -- an error is no reply
    rw [if_neg (by omega)] at hreply
    left
    simp [if_pos hneg, isBusy34, isSuccess, isReply, hreply]
  have hio : io = data.length := hcases.resolve_right hneg
  rw [if_pos (by omega)] at hreply
  rw [if_neg hneg]
  by_cases hshort : data.length < 11
  · left
    refine ⟨by omega, ?_, ?_⟩
    · simp [isBusy34, isReply_some hreply, Nat.not_le.mpr hshort]
    · simp [isSuccess, isReply_some hreply, Nat.not_le.mpr hshort]
  · right
    have hlong : 11 ≤ data.length := by omega
    have hle : strSuccess.length ≤ data.length := Nat.le_trans (by decide) hlong
    exact ⟨by omega, (prefix_blit (p := strBusy34) hlong).trans (isBusy34_iff hreply hlong).symm,
      (prefix_blit hle).trans (isSuccess_iff hreply hlong).symm⟩

/-- The invariant of the polling loop that began after `base`. -/
structure Waiting (base : Trace) (start : ℤ) (s : BulkPoll) (h : Trace) : Prop where
  success : s.success = true
  time : s.curTime = start ∨ strBusy34 <+: s.buf
  waits : ∃ w, h = base ++ w ∧ Waits w

/-- A polling that ends with a success was ended by a reply that says so. -/
def Answered (base h : Trace) (s : BulkPoll) : Prop :=
  s.success = true → strSuccess <+: s.buf →
    ∃ w e, h = base ++ w ++ [e] ∧ Waits w ∧ isSuccess e

section Poll

variable {base h : Trace} {start : ℤ} {s : BulkPoll} {G : Trace → Op → Prop}

lemma bulkPollTurn_keeps (hG : ∀ h hd ep n timeout, G h (.bulkIn hd ep n timeout))
    (hclock : ∀ h, G h .clock) {dev : Device} (hdev : dev ≠ .invalid) (hd : Handle)
    (hw : Waiting base start s h) :
    Sat G (fun h' l => l.Sat (Waiting base start) (Answered base) h') h
      (bulkPollTurn ⟨dev, some hd, amEpIn, amEpOut⟩ start s) := by
  obtain ⟨hsucc, htime, w, hh, hw⟩ := hw
  unfold bulkPollTurn
  by_cases hlt : s.curTime - start < 20 * 60 * 1000
  swap
  · -- the time is up while the device is still busy
    rw [if_neg hlt]
    have hbusy : strBusy34 <+: s.buf := htime.resolve_left (by omega)
    exact fun _ hs => absurd hs (not_success_of_busy hbusy)
  rw [if_pos hlt]
  refine keeps_bind.mpr ?_
  rw [readBulkUsb_eq hdev]
  refine ⟨hG _ _ _ _ _, fun r => ?_⟩
  simp only [keeps_ret]
  rcases bulkRead_cases hd s.buf r with ⟨hshort, -, -⟩ | ⟨hlong, hbusy, hanswer⟩
  · rw [if_pos hshort]
    exact fun h => by cases h
  rw [if_neg hlong, strBusy34_length]
  by_cases hb : strBusy34 <+: blit s.buf 0 r.data.1
  · -- busy: the clock is read and the wait goes on
    rw [if_neg (not_not.mpr ((strncmp_busy34 _).mpr hb))]
    refine ⟨hclock _, fun c : ℤ => ⟨hsucc, .inr hb, w ++ [⟨.bulkIn hd amEpIn 0x200 30000, r⟩,
      ⟨.clock, c⟩], ?_, ?_⟩⟩
    · rw [hh]
      simp
    · intro x hx
      simp only [List.mem_append, List.mem_cons, List.not_mem_nil, or_false] at hx
      rcases hx with hx | rfl | rfl
      · exact hw x hx
      · exact .inl (hbusy.mp hb)
      · exact .inr rfl
  · rw [if_pos fun hz => hb ((strncmp_busy34 _).mp hz)]
    exact fun _ hs => ⟨w, _, by rw [hh], hw, hanswer.mp hs⟩

lemma bulkPolls_keeps (hG : ∀ h hd ep n timeout, G h (.bulkIn hd ep n timeout))
    (hclock : ∀ h, G h .clock) {dev : Device} (hdev : dev ≠ .invalid) (hd : Handle) (turns : ℕ)
    (hw : Waiting base start s h) :
    Sat G (Answered base) h
      (iterate (bulkPollTurn ⟨dev, some hd, amEpIn, amEpOut⟩ start) turns s) :=
  sat_iterate (fun _ _ hw => bulkPollTurn_keeps hG hclock hdev hd hw) hw

end Poll

/-! ### The command -/

/-- The request for a command of 68 bytes. -/
lemma bulkCmd1_eq {dev : Device} (hdev : dev ≠ .invalid) (hd : Handle) (buf : Bytes)
    (bytesReturned timeout : ℕ) :
    usbDeviceIoControlEx ⟨dev, some hd, amEpIn, amEpOut⟩ .bulkCmd1 (some buf) 68 none 0
        bytesReturned timeout =
      .call (.controlOut hd ⟨0x40, amReqBulkCmd, 0, 2, 64⟩ (buf.take 64) 50000)
        fun r : OutResult 64 => .ret (ioctlResult ⟨some hd, some buf, none, 68, 0, bytesReturned⟩
          (usbControlResult r.status r.actual)) := by
  have hr : 0x34 % 2 ^ 8 = amReqBulkCmd := rfl
  have hv : u16 0 = 0 := rfl
  have hi : u16 2 = 2 := rfl
  have hn : u16 64 = 64 := rfl
  simp only [usbDeviceIoControlEx, hdev, if_false, ioctlBulkCmdHandler]
  rw [usbControlMsg_out hd hr hv hi hn rfl]
  rfl

lemma bulkCmd1_none {dev : Device} (hdev : dev ≠ .invalid) (buf : Bytes)
    (bytesReturned timeout : ℕ) :
    usbDeviceIoControlEx ⟨dev, none, amEpIn, amEpOut⟩ .bulkCmd1 (some buf) 68 none 0
        bytesReturned timeout = segfault := by
  simp [usbDeviceIoControlEx, hdev, ioctlBulkCmdHandler, usbControlMsg]

lemma ioctlResult_fst (ctrl : UsbDevIoCtrl) (status : Option LibusbError) (n : ℕ) :
    (ioctlResult ctrl (usbControlResult status n)).1 = if status.isSome then 0 else 1 := by
  simp only [ioctlResult, usbControlResult_neg]

/-- The request that carries the command, and what the device made of it. -/
abbrev commandEvent (hd : Handle) (buf : Bytes) (r : OutResult 64) : Event :=
  ⟨.controlOut hd ⟨0x40, amReqBulkCmd, 0, 2, 64⟩ (buf.take 64) 50000, r⟩

/-- Where the command can come to its end: at a device that is not there, at one that does not
take the request, and after the polling. -/
lemma amlUsbBulkCmd_sat {G : Trace → Op → Prop} {Q : Trace → ℤ × AmlUsbRomRW → Prop} (turns : ℕ)
    (rom : AmlUsbRomRW) (hsilent : ∀ h o, (∀ req, isRequest req o = false) → G h o)
    (hsend : ∀ h hd r, G h (commandEvent hd rom.buffer r).1) (hnull : Q [] (-926, rom))
    (hrefused : ∀ handle hd rom',
      Q ([⟨.libusbOpen rom.device, handle⟩] ++ [⟨.libusbClose hd, ()⟩]) (-2, rom'))
    (herror : ∀ hd r hc rom', Q ([⟨.libusbOpen rom.device, some hd⟩] ++
      [commandEvent hd rom.buffer r] ++ [⟨.libusbClose hc, ()⟩]) (-2, rom'))
    (hpolls : rom.device ≠ .invalid → ∀ hd r start,
      requestAccepted amReqBulkCmd (commandEvent hd rom.buffer r) = true →
      Sat G (fun h p => ∀ hc rom', Q (h ++ [⟨.libusbClose hc, ()⟩])
          (if p.success ∧ strncmp p.buf strSuccess 7 = 0 then 0 else -2, rom'))
        ([⟨.libusbOpen rom.device, some hd⟩] ++ [commandEvent hd rom.buffer r] ++
          [⟨.clock, start⟩])
        (iterate (bulkPollTurn ⟨rom.device, some hd, amEpIn, amEpOut⟩ start) turns
          ⟨start, true, List.replicate 0x200 0⟩)) :
    Sat G Q [] (amlUsbBulkCmd turns rom) := by
  obtain ⟨dev, bufferLen, buffer, dataSize, address⟩ := rom
  dsimp only at hsend hrefused herror hpolls
  unfold amlUsbBulkCmd
  by_cases hdevice : dev = .null
  · subst hdevice
    exact hnull
  rw [openUsbDevice_eq hdevice]
  refine ⟨hsilent _ _ fun _ => rfl, fun handle => ?_⟩
  by_cases hdev : dev = .invalid
  · -- the request is refused before it is made
    subst hdev
    exact keeps_closing hdevice (fun _ => hsilent _ _ fun _ => rfl) fun _ _ =>
      ⟨hsilent _ _ fun _ => rfl, hrefused _ _ _⟩
  refine keeps_bind.mpr (keeps_ret.mpr ?_)
  dsimp only
  rw [if_neg one_ne_zero]
  by_cases hlen : bufferLen = 68
  swap
  · -- a command of another length likewise
    rw [usbDeviceIoControlEx, if_neg hdev]
    simp only [ioctlBulkCmdHandler, ne_eq, hlen, not_false_eq_true, if_true]
    exact keeps_closing hdevice (fun _ => hsilent _ _ fun _ => rfl) fun _ _ =>
      ⟨hsilent _ _ fun _ => rfl, hrefused _ _ _⟩
  subst hlen
  refine keeps_bind.mpr ?_
  cases handle with
  | none =>
    rw [bulkCmd1_none hdev]
    exact keeps_segfault.mpr (hsilent _ _ fun _ => rfl)
  | some hd =>
    rw [bulkCmd1_eq hdev]
    refine ⟨hsend _ hd ⟨none, 0⟩, fun r => ?_⟩
    rw [keeps_ret, ioctlResult_fst]
    cases hstatus : r.status with
    | some err =>
      exact keeps_closing hdevice (fun _ => hsilent _ _ fun _ => rfl) fun _ _ =>
        ⟨hsilent _ _ fun _ => rfl, herror _ _ _ _⟩
    | none =>
      have haccepted : requestAccepted amReqBulkCmd (commandEvent hd buffer r) = true := by
        simp [requestAccepted, hstatus]
      rw [Option.isSome_none, if_neg Bool.false_ne_true, if_neg one_ne_zero]
      refine ⟨hsilent _ _ fun _ => rfl, fun start : ℤ => ?_⟩
      refine keeps_bind.mpr (keeps_ret.mpr ?_)
      refine keeps_bind.mpr (Keeps.mono (hpolls hdev hd r start haccepted) fun h' p hp => ?_)
      exact keeps_closing hdevice (fun _ => hsilent _ _ fun _ => rfl) fun _ _ =>
        ⟨hsilent _ _ fun _ => rfl, hp _ _⟩

/-- The only request to the device is the command, and a result 0 means that it was obeyed. -/
lemma amlUsbBulkCmd_keeps (turns : ℕ) (rom : AmlUsbRomRW) :
    Sat (Only amReqBulkCmd (rom.buffer.take 64))
      (fun t r => r.1 = 0 → Obeyed (rom.buffer.take 64) t ∧
        ∃ t' hd, t = t' ++ [⟨.libusbClose hd, ()⟩]) [] (amlUsbBulkCmd turns rom) := by
  have hcommand : ∀ h hd r, Only amReqBulkCmd (rom.buffer.take 64) h
      (commandEvent hd rom.buffer r).1 := by
    rintro _ _ _ _ _ _ _ ⟨⟩
    exact ⟨rfl, rfl⟩
  refine amlUsbBulkCmd_sat turns rom (fun _ _ => only_of_silent) hcommand (fun hz => by cases hz)
    (fun _ _ _ hz => by cases hz) (fun _ _ _ _ hz => by cases hz) fun hdev hd r start hacc => ?_
  have hw : Waiting ([⟨.libusbOpen rom.device, some hd⟩] ++ [commandEvent hd rom.buffer r]) start
      ⟨start, true, List.replicate 0x200 0⟩
      ([⟨.libusbOpen rom.device, some hd⟩] ++ [commandEvent hd rom.buffer r] ++
        [⟨.clock, start⟩]) := by
    refine ⟨rfl, .inl rfl, [⟨.clock, start⟩], rfl, ?_⟩
    intro x hx
    rw [List.mem_singleton.mp hx]
    exact .inr rfl
  have hpolls := bulkPolls_keeps (G := Only amReqBulkCmd (rom.buffer.take 64))
    (fun _ _ _ _ _ => only_of_silent fun _ => rfl) (fun _ => only_of_silent fun _ => rfl) hdev
    hd turns hw
  refine hpolls.mono fun h' p hp hc rom' hz => ?_
  have hok : p.success ∧ strncmp p.buf strSuccess 7 = 0 := by
    by_contra hne
    rw [if_neg hne] at hz
    cases hz
  obtain ⟨w, e', hh, hwait, hs⟩ := hp hok.1 ((strncmp_success _).mp hok.2)
  refine ⟨⟨[⟨.libusbOpen rom.device, some hd⟩], _, w, e', [⟨.libusbClose hc, ()⟩], ?_, hacc,
    List.prefix_rfl, hwait, hs⟩, h', hc, rfl⟩
  exact congrArg (· ++ [(⟨.libusbClose hc, ()⟩ : Event)]) hh

end AmlogicUpdate.BulkCmd

import AmlogicUpdate.Host
import AmlogicUpdate.CommandText

/-!
`scan.cpp`: commands to the later boot stage, and the serial number in the fuses.

The text of a command goes through buffers of 256 and of 128 bytes before 64 of its bytes are
sent. A text of 64 to 125 characters passes the one length check and goes out cut, and the
serial is put into its buffer before there is a check.
-/

namespace AmlogicUpdate.Serial

open Interaction CData Usb AmlLibusb UsbRomDrv Update Wire Scan Host Mwrite CommandText

/-! ### `aml_send_command` -/

/-- The command in its buffer, the marker set. -/
def commandBuf (cmd : Bytes) : Bytes := blit (blit (List.replicate 128 0) 0 cmd) 66 [1]

/-- A turn of the wait for the reply, from the tries left and the buffer. -/
def sendCommandTurn (dev : Device) (s : ℤ × Bytes) :
    Program (Loop (ℤ × Bytes) (ℤ × Bytes)) :=
  if 0 < s.1 then do
    let (ret, rom) ← amlUsbReadStatus ⟨dev, 64, s.2, 0, 0⟩
    if ret = 0 then pure (.done (0, rom.buffer)) else pure (.next (s.1 - 1, rom.buffer))
  else pure (.done (-1, s.2))

/-- The result and the buffer for the reply. -/
def amlSendCommand (dev : Device) (cmd : Bytes) (retry : ℤ) (reply : Bytes) :
    HostProgram (ℤ × Bytes) :=
  if 125 < cmd.length then pure (-1, reply)
  -- `memcpy` into 128 bytes
  else if 128 < cmd.length then overrun
  else do
    let (ret, _) ← usb (amlUsbTplCmd ⟨dev, 68, commandBuf cmd, 0, 0⟩)
    if ret = 0 then usb (iterate (sendCommandTurn dev) (retry.toNat + 1) (retry, reply))
    else pure (-1, reply)

/-! ### `aml_get_sn` and `aml_set_sn` -/

def strWriteVersion : Bytes :=
  ascii ['e', 'f', 'u', 's', 'e', ' ', 'w', 'r', 'i', 't', 'e', ' ', 'v', 'e', 'r', 's', 'i',
    'o', 'n']
def strReadUsid : Bytes :=
  ascii ['e', 'f', 'u', 's', 'e', ' ', 'r', 'e', 'a', 'd', ' ', 'u', 's', 'i', 'd']
def strWriteUsid : Bytes :=
  ascii ['e', 'f', 'u', 's', 'e', ' ', 'w', 'r', 'i', 't', 'e', ' ', 'u', 's', 'i', 'd', ' ']

/-- `sscanf` with `"%[^:]:(%[^)])"`: the two fields, and how many were assigned. -/
def scanReply (s : Bytes) : Bytes × Bytes × ℤ :=
  let s := s.takeWhile (· ≠ 0)
  let tmp1 := s.takeWhile (· ≠ 58)
  if s = [] then ([], [], -1)
  else if tmp1 = [] then ([], [], 0)
  else match s.drop tmp1.length with
    | 58 :: 40 :: rest =>
      let tmp2 := rest.takeWhile (· ≠ 41)
      (tmp1, tmp2, if tmp2 = [] then 1 else 2)
    | _ => (tmp1, [], 1)

example : scanReply (strSuccess ++ [58, 40, 65, 66, 41, 0]) = (strSuccess, [65, 66], 2) := by
  decide

/-- The device of that name, if it is in the stage that knows the commands. -/
def commandDevice (targetDevice : Bytes) : HostProgram Device := do
  let dev ← getDeviceHandle worldCup targetDevice
  if dev = .null then pure .null
  else do
    let (ret, rom) ← usb (amlUsbIdentifyHost ⟨dev, 4, List.replicate 4 0, 0, 0⟩)
    if ret ≠ 0 then pure .null
    else if getU8 rom.buffer 3 ≠ 16 then pure .null
    else pure dev

/-- The result and the serial. -/
def amlGetSn (targetDevice usid : Bytes) : HostProgram (ℤ × Bytes) := do
  let dev ← commandDevice targetDevice
  if dev = .null then pure (-1, usid)
  else do
    let (_, usid) ← amlSendCommand dev strWriteVersion 50 usid
    let (ret, usid) ← amlSendCommand dev strReadUsid 50 usid
    if ret < 0 then pure (-1, usid)
    else
      let (tmp1, tmp2, n) := scanReply usid
      if tmp1 ≠ strSuccess ∨ n ≠ 2 then pure (0, usid)
      else pure (tmp2.length, blit (blit usid 0 (List.replicate 8 0)) 0 tmp2)

/-- `src` is what the uninitialised buffer for the replies holds. -/
def amlSetSn (src targetDevice usid : Bytes) : HostProgram ℤ := do
  let dev ← commandDevice targetDevice
  if dev = .null then pure (-1)
  else
    let cmd := strWriteUsid ++ usid
    -- `sprintf` into 256 bytes, the terminating zero included
    if 256 < cmd.length + 1 then overrun
    else do
      let (_, src) ← amlSendCommand dev strWriteVersion 50 src
      let (ret, src) ← amlSendCommand dev cmd 50 src
      if ret < 0 then pure (-1)
      else
        let (tmp1, tmp2, _) := scanReply src
        if tmp1 ≠ strSuccess then pure 0 else pure tmp2.length

/-! ### What is sent of a text -/

/-- Nothing is written past a buffer, every command sent is one of the texts in whole, and a
result other than -1 means that the one text was sent. -/
structure Sends {α : Type} (p : HostProgram α) (result : α → ℤ) (text : Bytes)
    (texts : List Bytes) : Prop where
  within : ∀ t, ¬ Issues p t (.inr .overrun)
  whole : ∀ t o, Issues p t (.inl o) → isRequest amReqTplCmd o →
    ∃ x ∈ texts, Carries amReqTplCmd x o
  sent : ∀ t r, Runs p t r → result r ≠ -1 → ∃ e ∈ lefts t, Carries amReqTplCmd text e.1

/-- The calls of such a program. -/
def Whole (texts : List Bytes) : HostOp → Prop
  | .inl o => isRequest amReqTplCmd o → ∃ x ∈ texts, Carries amReqTplCmd x o
  | .inr q => q ≠ .overrun

lemma whole_plain (texts : List Bytes) : Plain fun o => Whole texts (.inl o) :=
  ⟨fun _ => nofun, fun _ => nofun, nofun⟩

lemma commandBuf_eq {cmd : Bytes} (h : cmd.length ≤ 125) : commandBuf cmd = textBuf 125 cmd := by
  rw [textBuf, List.take_of_length_le h]
  rfl

section Sends

variable {texts : List Bytes} {cmd : Bytes} {dev : Device} {retry : ℤ} {reply : Bytes}

lemma amlSendCommand_eq (h : cmd.length ≤ 125) (dev : Device) (retry : ℤ) (reply : Bytes) :
    amlSendCommand dev cmd retry reply =
      usb (amlUsbTplCmd ⟨dev, 68, textBuf 125 cmd, 0, 0⟩) >>= fun r =>
        if r.1 = 0 then usb (iterate (sendCommandTurn dev) (retry.toNat + 1) (retry, reply))
        else .ret (-1, reply) := by
  rw [amlSendCommand, if_neg (by omega), if_neg (by omega), commandBuf_eq h]
  rfl

/-- A command that fits is sent in whole, one that is refused is not sent. -/
lemma amlSendCommand_calls (hcmd : cmd.length ≤ 125 → cmd.length ≤ 63 ∧ cmd ∈ texts) :
    Calls (Whole texts) (amlSendCommand dev cmd retry reply) := by
  by_cases hlong : 125 < cmd.length
  · rw [amlSendCommand, if_pos hlong]
    trivial
  obtain ⟨hfits, hmem⟩ := hcmd (by omega)
  rw [amlSendCommand_eq (by omega)]
  refine calls_bind (calls_left (amlUsbTplCmd_calls (whole_plain texts) rfl fun hd _ => ?_))
    fun r => ?_
  · exact ⟨cmd, hmem, (tplRequest_carries (by decide) hd).mpr hfits⟩
  split_ifs
  · refine calls_left (calls_iterate (fun s => ?_) _ _)
    unfold sendCommandTurn
    split_ifs
    · refine calls_bind (amlUsbReadStatus_calls (whole_plain texts) (fun _ _ _ => nofun) _)
        fun r => ?_
      dsimp only
      split_ifs
      · trivial
      · trivial
    · trivial
  · trivial

lemma amlSendCommand_sent (hcmd : cmd.length ≤ 125 → cmd.length ≤ 63) {t : HostTrace}
    {r : ℤ × Bytes} (hr : Runs (amlSendCommand dev cmd retry reply) t r) (hret : r.1 ≠ -1) :
    ∃ e ∈ lefts t, Carries amReqTplCmd cmd e.1 := by
  by_cases hlong : 125 < cmd.length
  · rw [amlSendCommand, if_pos hlong] at hr
    obtain ⟨-, rfl⟩ := runs_ret.mp hr
    exact absurd rfl hret
  rw [amlSendCommand_eq (by omega)] at hr
  obtain ⟨⟨ret, rom⟩, t₁, t₂, rfl, husb, hrest⟩ := runs_bind.mp hr
  obtain ⟨u, rfl, htpl⟩ := runs_left.mp husb
  dsimp only at hrest
  by_cases hz : ret = 0
  · -- the request was accepted, so it was made
    obtain ⟨-, ⟨e, he, hacc, -⟩, -⟩ := amlUsbTplCmd_accepted rfl htpl hz
    have hcalls := @amlUsbTplCmd_calls _ (whole_plain [cmd]) ⟨dev, 68, textBuf 125 cmd, 0, 0⟩
      rfl fun hd _ => ⟨cmd, List.mem_singleton_self _,
        (tplRequest_carries (by decide) hd).mpr (hcmd (by omega))⟩
    obtain ⟨x, hx, hcarries⟩ := hcalls.event htpl he (requestAccepted_isRequest hacc)
    rw [List.mem_singleton.mp hx] at hcarries
    exact ⟨e, by simp [he], hcarries⟩
  · rw [if_neg hz] at hrest
    obtain ⟨-, rfl⟩ := runs_ret.mp hrest
    exact absurd rfl hret

/-- Up to 125 characters are sent to any device that opens. -/
lemma amlSendCommand_issues (cmd : Bytes) (retry : ℤ) (reply : Bytes) (h : cmd.length ≤ 125)
    (n : ℕ) (hd : Handle) :
    Issues (amlSendCommand (.dev n) cmd retry reply) [⟨.inl (.libusbOpen (.dev n)), some hd⟩]
      (.inl (tplRequest hd (textBuf 125 cmd))) := by
  have htpl := amlUsbTplCmd_issues ⟨.dev n, 68, textBuf 125 cmd, 0, 0⟩ rfl (dev_ne_null n)
    (dev_ne_invalid n) hd
  have husb : Issues (usb (amlUsbTplCmd ⟨.dev n, 68, textBuf 125 cmd, 0, 0⟩))
      [⟨.inl (.libusbOpen (.dev n)), some hd⟩] (.inl (tplRequest hd (textBuf 125 cmd))) :=
    issues_left.mpr ⟨_, _, rfl, rfl, htpl⟩
  rw [amlSendCommand_eq h]
  exact husb.bind _

end Sends

/-! ### The serial -/

section Serial

variable {src target usid : Bytes} {t : HostTrace}

lemma commandDevice_calls (texts : List Bytes) (target : Bytes) :
    Calls (Whole texts) (commandDevice target) := by
  refine calls_bind ⟨nofun, fun _ => trivial⟩ fun dev => ?_
  split_ifs
  · trivial
  refine calls_bind (calls_left (amlUsbIdentifyHost_calls (whole_plain texts) (fun _ _ _ => nofun)
    _)) fun r => ?_
  dsimp only
  split_ifs
  · trivial
  · trivial
  · trivial

lemma serial_length (usid : Bytes) : (strWriteUsid ++ usid).length = usid.length + 17 := by
  rw [List.length_append]
  exact Nat.add_comm _ _

/-- A serial is cut only between the two limits on its command. -/
lemma serial_fits (h : usid.length ≤ 46 ∨ (109 ≤ usid.length ∧ usid.length ≤ 238))
    (hlen : (strWriteUsid ++ usid).length ≤ 125) : (strWriteUsid ++ usid).length ≤ 63 := by
  rw [serial_length] at hlen ⊢
  omega

lemma amlSetSn_calls (h : usid.length ≤ 46 ∨ (109 ≤ usid.length ∧ usid.length ≤ 238))
    (src target : Bytes) :
    Calls (Whole [strWriteVersion, strWriteUsid ++ usid]) (amlSetSn src target usid) := by
  refine calls_bind (commandDevice_calls _ target) fun dev => ?_
  by_cases hnull : dev = .null
  · rw [if_pos hnull]
    trivial
  rw [if_neg hnull]
  dsimp only
  rw [if_neg (by rw [serial_length]; omega)]
  refine calls_bind (amlSendCommand_calls fun _ => ⟨by decide, by simp⟩) fun r => ?_
  refine calls_bind (amlSendCommand_calls fun hlen => ⟨serial_fits h hlen, by simp⟩) fun r' => ?_
  split_ifs
  · trivial
  · trivial
  · trivial

lemma amlSetSn_sent (h : usid.length ≤ 46 ∨ (109 ≤ usid.length ∧ usid.length ≤ 238)) {r : ℤ}
    (hr : Runs (amlSetSn src target usid) t r) (hret : r ≠ -1) :
    ∃ e ∈ lefts t, Carries amReqTplCmd (strWriteUsid ++ usid) e.1 := by
  obtain ⟨dev, t₁, t₂, rfl, -, hr⟩ := runs_bind.mp hr
  by_cases hnull : dev = .null
  · rw [if_pos hnull] at hr
    exact absurd (runs_ret.mp hr).2 hret
  rw [if_neg hnull, if_neg (by rw [serial_length]; omega)] at hr
  obtain ⟨⟨ret₁, src₁⟩, t₃, t₄, rfl, -, hr⟩ := runs_bind.mp hr
  obtain ⟨⟨ret₂, src₂⟩, t₅, t₆, rfl, hsend, hr⟩ := runs_bind.mp hr
  dsimp only at hr
  have hne : ret₂ ≠ -1 := by
    rintro rfl
    rw [if_pos (by decide)] at hr
    exact hret (runs_ret.mp hr).2
  obtain ⟨e, he, hcarries⟩ := amlSendCommand_sent (serial_fits h) hsend hne
  exact ⟨e, by simp [he], hcarries⟩

end Serial

/-! ### A board -/

def board : List UsbBus := [⟨1, [⟨10, amlIdVendor, amlIdProduce, 5⟩]⟩]
def boardName : Bytes := deviceName 1 5

/-- A reply of up to 64 bytes. -/
def boardReply (n : ℕ) : Bytes := (strSuccess ++ [58, 40, 65, 41, 0]).take n

/-- The board takes everything and reports the stage that knows the commands. -/
def boardAnswers (_ : HostTrace) : (o : HostOp) → Option (HostResp o)
  | .inl (.libusbOpen _) => some (some (0 : ℕ))
  | .inl (.libusbClose _) => some ()
  | .inl (.controlOut _ s _ _) => some ⟨none, Fin.last s.wLength⟩
  | .inl (.controlIn _ s _) =>
    if s.bRequest = amReqIdentifyHost then
      some ⟨none, ([0, 0, 0, 16] : Bytes).take s.wLength, by
        rw [List.length_take]; exact Nat.min_le_left _ _⟩
    else some ⟨none, boardReply s.wLength, by
      rw [boardReply, List.length_take]; exact Nat.min_le_left _ _⟩
  | .inr .scan => some board
  | _ => none

set_option maxRecDepth 10000 in
lemma commandDevice_board : ∃ t, Runs (commandDevice boardName) t (.dev 10) :=
  ⟨_, exec_recorded boardAnswers rfl⟩

set_option maxRecDepth 10000 in
lemma writeVersion_board : ∃ t r, Runs (amlSendCommand (.dev 10) strWriteVersion 50 []) t r :=
  ⟨_, _, exec_recorded boardAnswers rfl⟩

/-- A serial that passes the length check is sent to the board, as far as it goes. -/
lemma amlSetSn_issues (usid : Bytes) (h : usid.length ≤ 108) :
    ∃ t, Issues (amlSetSn [] boardName usid) t
      (.inl (tplRequest 0 (textBuf 125 (strWriteUsid ++ usid)))) := by
  obtain ⟨t₁, hdev⟩ := commandDevice_board
  obtain ⟨t₂, r, hversion⟩ := writeVersion_board
  have hserial := amlSendCommand_issues (strWriteUsid ++ usid) 50 r.2
    (by rw [serial_length]; omega) 10 0
  refine ⟨t₁ ++ (t₂ ++ [⟨.inl (.libusbOpen (.dev 10)), some (0 : Handle)⟩]),
    hdev.issues_bind ?_⟩
  rw [if_neg (dev_ne_null 10), if_neg (by rw [serial_length]; omega)]
  exact hversion.issues_bind (hserial.bind _)

/-- A longer one is not checked before it is put into the buffer for it. -/
lemma amlSetSn_overrun {usid : Bytes} (h : 239 ≤ usid.length) :
    ∃ t, Issues (amlSetSn [] boardName usid) t (.inr .overrun) := by
  obtain ⟨t₁, hdev⟩ := commandDevice_board
  refine ⟨t₁ ++ [], hdev.issues_bind ?_⟩
  rw [if_neg (dev_ne_null 10), if_pos (by rw [serial_length]; omega)]
  exact issues_call.mpr (.inl ⟨rfl, rfl⟩)

/-- A command for a serial says `usid` where the other says `version`. -/
lemma not_carries_serial {usid : Bytes} (h : 47 ≤ usid.length) {x : Bytes}
    (hx : x ∈ [strWriteVersion, strWriteUsid ++ usid]) (hd : Handle) :
    ¬ Carries amReqTplCmd x (tplRequest hd (textBuf 125 (strWriteUsid ++ usid))) := by
  intro hcarries
  have hserial := textBuf_prefix (n := 125) (List.prefix_append strWriteUsid usid) (by decide)
    (by decide)
  simp only [List.mem_cons, List.not_mem_nil, or_false] at hx
  rcases hx with rfl | rfl
  · have hversion := (List.prefix_append strWriteVersion [0]).trans hcarries.2.2.2
    have hboth := List.prefix_of_prefix_length_le hserial hversion (by decide)
    exact absurd hboth (by decide)
  · have hle := (tplRequest_carries (by decide) hd).mp hcarries
    rw [serial_length] at hle
    omega

lemma sends_command_iff (cmd : Bytes) :
    (∀ dev retry reply, Sends (amlSendCommand dev cmd retry reply) Prod.fst cmd [cmd]) ↔
      cmd.length ≤ 63 ∨ 125 < cmd.length := by
  refine ⟨fun h => ?_, fun h dev retry reply => ?_⟩
  · by_contra hlen
    have hissues := amlSendCommand_issues cmd 0 [] (by omega) 0 0
    obtain ⟨x, hx, hcarries⟩ := (h (.dev 0) 0 []).whole _ _ hissues rfl
    rw [List.mem_singleton.mp hx] at hcarries
    exact absurd ((tplRequest_carries (by decide) 0).mp hcarries) (by omega)
  · have hcalls : Calls (Whole [cmd]) (amlSendCommand dev cmd retry reply) :=
      amlSendCommand_calls fun hlen => ⟨by omega, List.mem_singleton_self _⟩
    exact ⟨fun t hi => hcalls.issues hi rfl, fun t o hi => hcalls.issues hi,
      fun t r hr => amlSendCommand_sent (fun hlen => by omega) hr⟩

lemma sends_serial_iff (usid : Bytes) :
    (∀ src target, Sends (amlSetSn src target usid) id (strWriteUsid ++ usid)
      [strWriteVersion, strWriteUsid ++ usid]) ↔
        usid.length ≤ 46 ∨ (109 ≤ usid.length ∧ usid.length ≤ 238) := by
  refine ⟨fun h => ?_, fun h src target => ?_⟩
  · by_contra hlen
    by_cases hlong : 239 ≤ usid.length
    · obtain ⟨t, hissues⟩ := amlSetSn_overrun hlong
      exact (h [] boardName).within t hissues
    · obtain ⟨t, hissues⟩ := amlSetSn_issues usid (by omega)
      obtain ⟨x, hx, hcarries⟩ := (h [] boardName).whole _ _ hissues rfl
      exact not_carries_serial (by omega) hx 0 hcarries
  · have hcalls := amlSetSn_calls h src target
    exact ⟨fun t hi => hcalls.issues hi rfl, fun t o hi => hcalls.issues hi,
      fun t r hr => amlSetSn_sent h hr⟩

/-- **A command is sent in whole exactly outside a range of lengths**, and a serial outside two:
one where it is cut, one where it is written past its buffer. -/
theorem sends_iff (cmd usid : Bytes) :
    ((∀ dev retry reply, Sends (amlSendCommand dev cmd retry reply) Prod.fst cmd [cmd]) ↔
      cmd.length ≤ 63 ∨ 125 < cmd.length) ∧
    ((∀ src target, Sends (amlSetSn src target usid) id (strWriteUsid ++ usid)
      [strWriteVersion, strWriteUsid ++ usid]) ↔
        usid.length ≤ 46 ∨ (109 ≤ usid.length ∧ usid.length ≤ 238)) :=
  ⟨sends_command_iff cmd, sends_serial_iff usid⟩

def longSerial : Bytes := List.replicate 47 65

set_option maxRecDepth 10000 in
/-- A serial of 47 characters is reported as written without its last one. -/
theorem longSerial_truncated :
    (∃ t, Runs (amlSetSn [] boardName longSerial) t 1) ∧
      ¬ Sends (amlSetSn [] boardName longSerial) id (strWriteUsid ++ longSerial)
        [strWriteVersion, strWriteUsid ++ longSerial] := by
  refine ⟨⟨_, exec_recorded boardAnswers rfl⟩, fun h => ?_⟩
  obtain ⟨t, hissues⟩ := amlSetSn_issues longSerial (by decide)
  obtain ⟨x, hx, hcarries⟩ := h.whole t _ hissues rfl
  exact not_carries_serial (by decide) hx 0 hcarries

end AmlogicUpdate.Serial

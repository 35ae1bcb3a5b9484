import AmlogicUpdate.Mwrite

/-!
Commands that are texts: a buffer of 128 bytes with the text in it, a mark behind the text, and
the first 64 bytes as what is sent.

The four bytes behind those 64 are the value and the index of a TPL command. A text of more than
63 characters goes out without its end, one of more than 64 changes the request as well.
-/

namespace AmlogicUpdate.CommandText

open Interaction CData Usb AmlLibusb UsbRomDrv Update Wire BulkCmd Mwrite

/-! ### Texts on the wire -/

/-- The 64 bytes have the whole text and a zero behind it. -/
def Payload (text data : Bytes) : Prop := data.length = 64 ∧ text ++ [0] <+: data

/-- A request with the whole text; the one kind of it has a value and an index as well. -/
def Carries (req : ℕ) (text : Bytes) : Op → Prop
  | .controlOut _ s data _ =>
    s.bRequest = req ∧ (req = amReqTplCmd → s.wValue = 0 ∧ s.wIndex = 1) ∧ Payload text data
  | _ => False

/-- The buffer with as much of the text as is copied, and the mark. -/
def textBuf (n : ℕ) (text : Bytes) : Bytes :=
  blit (blit (List.replicate 128 0) 0 (text.take n)) 66 [1]

def tplRequest (hd : Handle) (buf : Bytes) : Op :=
  .controlOut hd ⟨0x40, amReqTplCmd, getU16 buf 64, getU16 buf 66, 64⟩ (buf.take 64) 50000

lemma Payload.length_le {text data : Bytes} (h : Payload text data) : text.length ≤ 63 := by
  have hle := h.2.length_le
  rw [List.length_append, List.length_singleton, h.1] at hle
  omega

/-- A text with room behind it, zeros around the mark. -/
lemma textBuf_eq {n : ℕ} {text : Bytes} (hn : 63 ≤ n) (h : text.length ≤ 63) :
    textBuf n text = (text ++ List.replicate (64 - text.length) 0) ++ (0 :: 0 :: 1 ::
      List.replicate 61 0) := by
  have htake : text.take n = text := List.take_of_length_le (by omega)
  have hsplit : List.replicate (128 - text.length) (0 : UInt8) =
      List.replicate (66 - text.length) 0 ++ List.replicate 62 0 := by
    rw [← List.replicate_add]
    congr 1
    omega
  have hzeros : List.replicate (66 - text.length) (0 : UInt8) =
      List.replicate (64 - text.length) 0 ++ [0, 0] := by
    rw [show 66 - text.length = 64 - text.length + 2 by omega, List.replicate_add]
    rfl
  rw [textBuf, htake, blit_zero, List.drop_replicate, hsplit, ← List.append_assoc,
    blit_append _ _ _ (by simp; omega), hzeros]
  simp [List.replicate]

lemma textBuf_take {n : ℕ} {text : Bytes} (hn : 63 ≤ n) (h : text.length ≤ 63) :
    (textBuf n text).take 64 = text ++ List.replicate (64 - text.length) 0 := by
  have hlen : (text ++ List.replicate (64 - text.length) (0 : UInt8)).length = 64 := by
    simp
    omega
  rw [textBuf_eq hn h]
  exact List.take_left' hlen

/-- What is sent begins as the text does. -/
lemma textBuf_prefix {n : ℕ} {text start : Bytes} (h : start <+: text) (hn : start.length ≤ n)
    (hlen : start.length ≤ 64) : start <+: (textBuf n text).take 64 := by
  have htake : start <+: text.take n := List.prefix_take_iff.mpr ⟨h, hn⟩
  have hbuf : start <+: blit (List.replicate 128 0) 0 (text.take n) := by
    rw [blit_zero]
    exact htake.trans (List.prefix_append _ _)
  refine List.prefix_take_iff.mpr ⟨?_, hlen⟩
  unfold textBuf
  generalize blit (List.replicate 128 0) 0 (text.take n) = buf at hbuf ⊢
  rw [blit, List.append_assoc]
  exact (List.prefix_take_iff.mpr ⟨hbuf, by omega⟩).trans (List.prefix_append _ _)

lemma textBuf_payload {n : ℕ} {text : Bytes} (hn : 63 ≤ n) :
    Payload text ((textBuf n text).take 64) ↔ text.length ≤ 63 := by
  refine ⟨Payload.length_le, fun h => ?_⟩
  rw [textBuf_take hn h]
  refine ⟨by simp; omega, List.replicate (63 - text.length) 0, ?_⟩
  rw [show 64 - text.length = 63 - text.length + 1 by omega, List.append_assoc]
  rfl

/-- A text that fits is carried, with the value and the index of the mark. -/
lemma tplRequest_carries {n : ℕ} {text : Bytes} (hn : 63 ≤ n) (hd : Handle) :
    Carries amReqTplCmd text (tplRequest hd (textBuf n text)) ↔ text.length ≤ 63 := by
  refine ⟨fun h => h.2.2.length_le, fun h => ⟨rfl, fun _ => ?_, (textBuf_payload hn).mpr h⟩⟩
  have hlen : (text ++ List.replicate (64 - text.length) (0 : UInt8)).length = 64 := by
    simp
    omega
  have hword : ∀ k, getU8 (textBuf n text) (64 + k) =
      getU8 (0 :: 0 :: 1 :: List.replicate 61 0) k := by
    intro k
    have happend := getU8_append_right (text ++ List.replicate (64 - text.length) 0)
      (0 :: 0 :: 1 :: List.replicate 61 0) k
    rwa [hlen, ← textBuf_eq hn h] at happend
  refine ⟨?_, ?_⟩
  · change getU8 _ (64 + 0) + 2 ^ 8 * getU8 _ (64 + 1) = 0
    rw [hword, hword]
    rfl
  · change getU8 _ (64 + 2) + 2 ^ 8 * getU8 _ (64 + 3) = 1
    rw [hword, hword]
    rfl

lemma Carries.length_le {req : ℕ} {text : Bytes} {o : Op} (h : Carries req text o) :
    text.length ≤ 63 := by
  cases o
  case controlOut => exact h.2.2.length_le
  all_goals exact h.elim

/-! ### The calls of a routine -/

/-- Opening and closing a device is allowed, and so is not getting it. -/
structure Plain (G : Op → Prop) : Prop where
  opens : ∀ dev, G (.libusbOpen dev)
  closes : ∀ hd, G (.libusbClose hd)
  null : G .nullHandle

section Calls

variable {G : Op → Prop} (hG : Plain G)
include hG

lemma calls_segfault {α : Type} : Calls G (segfault : Program α) :=
  ⟨hG.null, fun e : Empty => e.elim⟩

lemma calls_openUsbDevice (drv : AmlUsbDrv) : Calls G (openUsbDevice drv) := by
  unfold openUsbDevice
  split_ifs
  · trivial
  · exact ⟨hG.opens _, fun _ => trivial⟩

lemma calls_closeUsbDevice (drv : AmlUsbDrv) : Calls G (closeUsbDevice drv) := by
  unfold closeUsbDevice
  split_ifs
  · trivial
  · cases drv.handle with
    | none => exact calls_bind (calls_segfault hG) fun _ => trivial
    | some hd => exact ⟨hG.closes hd, fun _ => trivial⟩

/-- The usual routine: what it does between opening the device and closing it. -/
lemma calls_session {α β : Type} {dev : Device} {F : ℕ × AmlUsbDrv → Program β}
    (fail : β) (inner : AmlUsbDrv → Program α) (g : α → β)
    (hF : ∀ ok drv, F (ok, drv) = if ok = 0 then .ret fail else
      inner drv >>= fun r => closeUsbDevice drv >>= fun _ => .ret (g r))
    (hin : ∀ drv, Calls G (inner drv)) : Calls G (openUsbDevice ⟨dev, none, 0, 0⟩ >>= F) := by
  refine calls_bind (calls_openUsbDevice hG _) fun ⟨ok, drv⟩ => ?_
  rw [hF]
  split_ifs
  · trivial
  · exact calls_bind (hin drv) fun r => calls_bind (calls_closeUsbDevice hG drv) fun _ => trivial

lemma calls_controlIn (handle : Option Handle) (req : ℕ) (wValue wIndex : ℤ) (bytes : Bytes)
    (size timeout : ℤ) (hin : ∀ hd s timeout, G (.controlIn hd s timeout)) :
    Calls G (usbControlMsg handle vendorIn req wValue wIndex bytes size timeout) := by
  cases handle with
  | none => exact calls_segfault hG
  | some hd => exact ⟨hin _ _ _, fun _ => trivial⟩

lemma amlUsbTplCmd_calls {rom : AmlUsbRomRW} (hlen : rom.bufferLen = 68)
    (htpl : ∀ hd, G (tplRequest hd rom.buffer)) : Calls G (amlUsbTplCmd rom) := by
  refine calls_session hG _ (fun drv => usbDeviceIoControl drv .tplCmd (some rom.buffer)
    rom.bufferLen none 0 rom.dataSize) _ (fun _ _ => rfl) fun drv => ?_
  obtain ⟨dev, handle, readEp, writeEp⟩ := drv
  by_cases hdev : dev = .invalid
  · subst hdev
    trivial
  rw [hlen]
  cases handle with
  | none =>
    simp only [usbDeviceIoControl, hdev, if_false, ioctlTplCmdHandler]
    exact calls_bind (calls_segfault hG) fun _ => trivial
  | some hd =>
    change Calls G (usbDeviceIoControl ⟨dev, some hd, amEpIn, amEpOut⟩ .tplCmd
      (some rom.buffer) 68 none 0 rom.dataSize)
    rw [tplCmd_eq hdev]
    exact ⟨htpl hd, fun _ => trivial⟩

variable (hin : ∀ hd s timeout, G (.controlIn hd s timeout))
include hin

lemma amlUsbReadStatus_calls (rom : AmlUsbRomRW) : Calls G (amlUsbReadStatus rom) := by
  refine calls_session hG _ (fun drv => usbDeviceIoControl drv .tplStatus (some rom.buffer) 4
    (some rom.buffer) rom.bufferLen rom.dataSize) _ (fun _ _ => rfl) fun drv => ?_
  simp only [usbDeviceIoControl, ioctlTplStatusHandler, ioctlTplStatusHandlerEx]
  split_ifs
  · trivial
  · trivial
  · exact calls_bind (calls_controlIn hG _ _ _ _ _ _ _ hin) fun _ => trivial

lemma amlUsbIdentifyHost_calls (rom : AmlUsbRomRW) : Calls G (amlUsbIdentifyHost rom) := by
  refine calls_session hG _ (fun drv => usbDeviceIoControl drv .identifyHost none 0
    (some rom.buffer) rom.bufferLen rom.dataSize) _ (fun _ _ => rfl) fun drv => ?_
  simp only [usbDeviceIoControl, ioctlIdentifyHostHandler]
  split_ifs
  · trivial
  · trivial
  · exact calls_bind (calls_controlIn hG _ _ _ _ _ _ _ hin) fun _ => trivial

omit hG hin in
lemma amlUsbBulkCmd_calls {turns : ℕ} {rom : AmlUsbRomRW}
    (hcmd : ∀ o, (∀ h s d timeout, o = .controlOut h s d timeout →
      s.bRequest = amReqBulkCmd ∧ d = rom.buffer.take 64) → G o) :
    Calls G (amlUsbBulkCmd turns rom) :=
  ((amlUsbBulkCmd_keeps turns rom).weaken fun _ _ honly => hcmd _ honly).calls

lemma amlReadMedia_calls (hbulk : ∀ hd ep n timeout, G (.bulkIn hd ep n timeout))
    (rom : AmlUsbRomRW) : Calls G (amlReadMedia rom) := by
  have hcmd : ∀ drv, Calls G (readMediaCmd drv 0 rom.bufferLen 0 0 0 5000) := by
    intro drv
    refine calls_bind ?_ fun _ => trivial
    simp only [usbDeviceIoControlEx]
    split_ifs
    · trivial
    · exact calls_bind (calls_controlIn hG _ _ _ _ _ _ _ hin) fun _ => trivial
  have hread : ∀ drv buf, Calls G (usbReadFile drv buf rom.bufferLen 0) := by
    intro drv buf
    unfold usbReadFile
    split_ifs
    · trivial
    cases drv.handle with
    | none => exact calls_bind (calls_segfault hG) fun _ => trivial
    | some hd => exact ⟨hbulk _ _ _ _, fun _ => trivial⟩
  refine calls_bind (calls_openUsbDevice hG _) fun opened => ?_
  obtain ⟨ok, drv⟩ := opened
  dsimp only
  split_ifs
  · trivial
  refine calls_bind (hcmd drv) fun ret => ?_
  split_ifs
  · exact calls_bind (calls_closeUsbDevice hG drv) fun _ => trivial
  refine calls_bind (hread drv _) fun r => calls_bind (calls_closeUsbDevice hG drv) fun _ => ?_
  split_ifs
  · trivial
  · trivial
  · trivial

end Calls

/-- A TPL command is sent to any device that opens. -/
lemma amlUsbTplCmd_issues (rom : AmlUsbRomRW) (hlen : rom.bufferLen = 68)
    (hnull : rom.device ≠ .null) (hdev : rom.device ≠ .invalid) (hd : Handle) :
    Issues (amlUsbTplCmd rom) [⟨.libusbOpen rom.device, some hd⟩] (tplRequest hd rom.buffer) := by
  unfold amlUsbTplCmd
  rw [openUsbDevice_eq hnull, Prog.call_bind, hlen]
  refine issues_call.mpr (.inr ⟨some hd, [], rfl, ?_⟩)
  simp only [Prog.ret_bind]
  rw [if_neg one_ne_zero, tplCmd_eq hdev]
  exact issues_call.mpr (.inl ⟨rfl, rfl⟩)

lemma amlUsbBulkCmd_issues (turns : ℕ) (rom : AmlUsbRomRW) (hlen : rom.bufferLen = 68)
    (hnull : rom.device ≠ .null) (hdev : rom.device ≠ .invalid) (hd : Handle) :
    Issues (amlUsbBulkCmd turns rom) [⟨.libusbOpen rom.device, some hd⟩]
      (.controlOut hd ⟨0x40, amReqBulkCmd, 0, 2, 64⟩ (rom.buffer.take 64) 50000) := by
  unfold amlUsbBulkCmd
  rw [openUsbDevice_eq hnull, Prog.call_bind, hlen]
  refine issues_call.mpr (.inr ⟨some hd, [], rfl, ?_⟩)
  simp only [Prog.ret_bind]
  rw [if_neg one_ne_zero, bulkCmd1_eq hdev]
  exact issues_call.mpr (.inl ⟨rfl, rfl⟩)

end AmlogicUpdate.CommandText

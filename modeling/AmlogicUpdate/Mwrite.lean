import AmlogicUpdate.Announce
import AmlogicUpdate.BulkCmd

/-!
`mwrite`: announcing an image to the boot loader, writing it block by block, and having the
boot loader report on it and, if a file says how, verify it.

A run is cut into the parts its steps leave in the trace. A result 0 also comes from a
refused announcement and from a verify file that cannot be opened.
-/

namespace AmlogicUpdate.Mwrite

open Interaction CData Usb AmlLibusb UsbRomDrv Update Wire Media BulkCmd

/-! ### What is claimed of a run -/

/-- What a status request that did not fail has brought. -/
def statusReply : Event → Option Bytes
  | ⟨.controlIn _ s _, r⟩ =>
    have r : InResult s.wLength := r
    if s.bRequest = amReqTplStat ∧ r.status.isNone then some r.data.1 else none
  | _ => none

/-- The announcement of an image was accepted. -/
def Announced (argv : List Bytes) (image : Bytes) (t : Trace) : Prop :=
  ∃ e ∈ t, requestAccepted amReqTplCmd e ∧
    sentBytes e.1 = (snprintf128 (downloadText argv image.length)).take 64

/-- The boot loader is ready for it. -/
def Ready (t : Trace) : Prop := ∃ e ∈ t, ∃ b, statusReply e = some b ∧ strSuccess <+: b

/-- Every block of the image was acknowledged, and nothing but the image was sent. -/
structure Acknowledged (image : Bytes) (t : Trace) : Prop where
  all : acks t = blockCount image.length
  permitted : ∀ h e h', t = h ++ e :: h' → Permitted image h e.1

/-- The verify file was opened and the command it holds was obeyed. -/
def Verified (files : Files) (path : Bytes) (t : Trace) : Prop :=
  ∃ n k h, t = [⟨.fopen path false, true⟩, ⟨.fread 0x79 n, k⟩] ++ h ∧
    Obeyed ((strVerify ++ (files path).take (k : Fin (min 0x79 n + 1))).take 64) h

/-- The image was announced, written, reported on and, if that is asked for, verified, in this
order. -/
def Flashed (files : Files) (argv : List Bytes) (argc : ℤ) (t : Trace) : Prop :=
  ∃ t₁ t₂ t₃ t₄ t₅, t = t₁ ++ (t₂ ++ (t₃ ++ (t₄ ++ t₅))) ∧
    files (argv.getD 0 []) ≠ [] ∧ Announced argv (files (argv.getD 0 [])) t₁ ∧ Ready t₂ ∧
    Acknowledged (files (argv.getD 0 [])) t₃ ∧ Obeyed strGetStatus t₄ ∧
    (4 < argc → Verified files (argv.getD 4 []) t₅)

/-- There is a device, it does not refuse the announcement, and the verify file can be opened. -/
structure Unhindered (dev : Device) (argv : List Bytes) (argc : ℤ) (t : Trace) : Prop where
  device : dev ≠ .null ∧ dev ≠ .invalid
  announced : ∀ e ∈ t, isRequest amReqTplCmd e.1 → requestAccepted amReqTplCmd e
  opened : 4 < argc → ∀ h, t ≠ h ++ [⟨.fopen (argv.getD 4 []) false, false⟩]

/-! ### The ways to a result 0 -/

/-- The announcement was refused, or there was nobody to make it to. -/
def Unannounced (dev : Device) (t : Trace) : Prop :=
  (∀ e ∈ t, requestAccepted amReqTplCmd e = false) ∧
    (dev = .null ∨ dev = .invalid ∨ ∃ e ∈ t, isRequest amReqTplCmd e.1)

/-- A bulk command asks for the status, if there is one. -/
def AsksStatus (e : Event) : Prop := isRequest amReqBulkCmd e.1 → strGetStatus <+: sentBytes e.1

/-- The verify file could not be opened. -/
def Unverified (argv : List Bytes) (argc : ℤ) (t : Trace) : Prop :=
  4 < argc ∧ (∃ h, t = h ++ [⟨.fopen (argv.getD 4 []) false, false⟩]) ∧ ∀ e ∈ t, AsksStatus e

section Ways

variable {files : Files} {dev : Device} {argv : List Bytes} {argc : ℤ} {t : Trace}

lemma Unannounced.cons {e : Event} (hr : Unannounced dev t)
    (he : requestAccepted amReqTplCmd e = false) : Unannounced dev (e :: t) := by
  refine ⟨fun x hx => ?_, hr.2.imp_right (.imp_right ?_)⟩
  · rcases List.mem_cons.mp hx with rfl | hx
    · exact he
    · exact hr.1 x hx
  · rintro ⟨x, hx, hreq⟩
    exact ⟨x, List.mem_cons_of_mem _ hx, hreq⟩

lemma Unannounced.not_flashed (hr : Unannounced dev t) : ¬ Flashed files argv argc t := by
  rintro ⟨t₁, t₂, t₃, t₄, t₅, rfl, -, ⟨e, he, hacc, -⟩, -⟩
  rw [hr.1 e (List.mem_append_left _ he)] at hacc
  cases hacc

lemma Unannounced.hindered (hr : Unannounced dev t) : ¬ Unhindered dev argv argc t := by
  rintro ⟨⟨hnull, hinvalid⟩, hann, -⟩
  rcases hr.2 with h | h | ⟨e, he, hreq⟩
  · exact hnull h
  · exact hinvalid h
  · have hacc := hann e he hreq
    rw [hr.1 e he] at hacc
    cases hacc

lemma requestAccepted_isRequest {req : ℕ} {e : Event} (h : requestAccepted req e) :
    isRequest req e.1 := by
  obtain ⟨o, r⟩ := e
  cases o
  case controlOut h' s d timeout =>
    simp only [requestAccepted, Bool.and_eq_true] at h
    exact h.1
  all_goals cases h

lemma Unverified.not_flashed (hu : Unverified argv argc t) : ¬ Flashed files argv argc t := by
  rintro ⟨t₁, t₂, t₃, t₄, t₅, rfl, -, -, -, -, -, hver⟩
  obtain ⟨n, k, h, rfl, h₀, e, w, e', h₁, rfl, hacc, htext, -⟩ := hver hu.1
  have hask := hu.2.2 e (by simp) (requestAccepted_isRequest hacc)
  have hv : (strVerify ++ (files (argv.getD 4 [])).take k).take 64 =
      strVerify ++ ((files (argv.getD 4 [])).take k).take 57 := by
    rw [List.take_append]
    rfl
  rw [hv] at htext
  obtain ⟨l, hl⟩ := htext
  obtain ⟨l', hl'⟩ := hask
  rw [← hl] at hl'
  cases hl'

lemma Unverified.hindered (hu : Unverified argv argc t) : ¬ Unhindered dev argv argc t := by
  rintro ⟨-, -, hopened⟩
  obtain ⟨h, rfl⟩ := hu.2.1
  exact hopened hu.1 h rfl

end Ways

/-! ### The steps -/

/-- The request for a TPL command of 68 bytes. -/
lemma tplCmd_eq {dev : Device} (hdev : dev ≠ .invalid) (hd : Handle) (buf : Bytes)
    (bytesReturned : ℕ) :
    usbDeviceIoControl ⟨dev, some hd, amEpIn, amEpOut⟩ .tplCmd (some buf) 68 none 0
        bytesReturned =
      .call (.controlOut hd ⟨0x40, amReqTplCmd, getU16 buf 64, getU16 buf 66, 64⟩ (buf.take 64)
        50000) fun r : OutResult 64 =>
          .ret (ioctlResult ⟨some hd, some buf, none, 68, 0, bytesReturned⟩
            (usbControlResult r.status r.actual)) := by
  have hr : amReqTplCmd % 2 ^ 8 = amReqTplCmd := rfl
  have hv : u16 (getU16 buf 64 : ℕ) = getU16 buf 64 := by
    rw [u16_natCast, Nat.mod_eq_of_lt (getU16_lt _ _)]
  have hi : u16 (getU16 buf 66 : ℕ) = getU16 buf 66 := by
    rw [u16_natCast, Nat.mod_eq_of_lt (getU16_lt _ _)]
  have hn : u16 64 = 64 := rfl
  simp only [usbDeviceIoControl, hdev, if_false, ioctlTplCmdHandler]
  rw [usbControlMsg_out hd hr hv hi hn rfl]
  rfl

/-- A TPL command is one request, or none on no device. -/
lemma amlUsbTplCmd_runs {rom : AmlUsbRomRW} (hlen : rom.bufferLen = 68) {t : Trace}
    {r : ℤ × AmlUsbRomRW} (hr : Runs (amlUsbTplCmd rom) t r) :
    (r.1 ≠ 0 ∧ t = [] ∧ rom.device = .null) ∨
      (r.1 ≠ 0 ∧ rom.device = .invalid ∧
        ∃ hd, t = [⟨.libusbOpen rom.device, some hd⟩, ⟨.libusbClose hd, ()⟩]) ∨
      (rom.device ≠ .null ∧ rom.device ≠ .invalid ∧ ∃ hd s res, s.bRequest = amReqTplCmd ∧
        (r.1 = 0 ↔ requestAccepted amReqTplCmd
          ⟨.controlOut hd s (rom.buffer.take 64) 50000, res⟩) ∧
        t = [⟨.libusbOpen rom.device, some hd⟩,
          ⟨.controlOut hd s (rom.buffer.take 64) 50000, res⟩, ⟨.libusbClose hd, ()⟩]) := by
  obtain ⟨dev, bufferLen, buffer, dataSize, address⟩ := rom
  obtain rfl : bufferLen = 68 := hlen
  dsimp only
  unfold amlUsbTplCmd at hr
  by_cases hnull : dev = .null
  · rw [hnull, openUsbDevice_null] at hr
    obtain ⟨rfl, rfl⟩ := runs_ret.mp hr
    exact .inl ⟨by simp, rfl, hnull⟩
  obtain ⟨hd, b, t', rfl, hin, rfl⟩ := runs_opened hnull (fun drv =>
    usbDeviceIoControl drv .tplCmd (some buffer) 68 none 0 dataSize) (fun _ => rfl) hr
  right
  by_cases hdev : dev = .invalid
  · subst hdev
    obtain ⟨rfl, rfl⟩ := runs_ret.mp hin
    exact .inl ⟨by simp, rfl, hd, rfl⟩
  rw [tplCmd_eq hdev, runs_call] at hin
  obtain ⟨res, t₁, rfl, hin⟩ := hin
  obtain ⟨rfl, rfl⟩ := runs_ret.mp hin
  refine .inr ⟨hnull, hdev, hd, _, res, rfl, ?_, rfl⟩
  rw [ioctlResult_fst]
  cases hstatus : res.status <;> simp [requestAccepted, hstatus]

/-- An announcement that is refused. -/
lemma amlUsbTplCmd_refused {rom : AmlUsbRomRW} (hlen : rom.bufferLen = 68) {t : Trace}
    {r : ℤ × AmlUsbRomRW} (hr : Runs (amlUsbTplCmd rom) t r) (hret : r.1 ≠ 0) :
    Unannounced rom.device t := by
  rcases amlUsbTplCmd_runs hlen hr with ⟨-, rfl, hnull⟩ | ⟨-, hinv, hd, rfl⟩ |
    ⟨-, -, hd, s, res, hs, hacc, rfl⟩
  · exact ⟨nofun, .inl hnull⟩
  · refine ⟨fun e he => ?_, .inr (.inl hinv)⟩
    simp only [List.mem_cons, List.not_mem_nil, or_false] at he
    rcases he with rfl | rfl
    · rfl
    · rfl
  · refine ⟨fun e he => ?_, .inr (.inr ⟨_, List.mem_cons_of_mem _ List.mem_cons_self, ?_⟩)⟩
    · simp only [List.mem_cons, List.not_mem_nil, or_false] at he
      rcases he with rfl | rfl | rfl
      · rfl
      · exact Bool.eq_false_iff.mpr fun h => hret (hacc.mpr h)
      · rfl
    · simp [isRequest, hs]

/-- An announcement that is accepted. -/
lemma amlUsbTplCmd_accepted {rom : AmlUsbRomRW} (hlen : rom.bufferLen = 68) {t : Trace}
    {r : ℤ × AmlUsbRomRW} (hr : Runs (amlUsbTplCmd rom) t r) (hret : r.1 = 0) :
    (rom.device ≠ .null ∧ rom.device ≠ .invalid) ∧
      (∃ e ∈ t, requestAccepted amReqTplCmd e ∧ sentBytes e.1 = rom.buffer.take 64) ∧
      ∀ e ∈ t, (isRequest amReqTplCmd e.1 → requestAccepted amReqTplCmd e) ∧ AsksStatus e := by
  rcases amlUsbTplCmd_runs hlen hr with ⟨hne, -⟩ | ⟨hne, -⟩ |
    ⟨hnull, hinv, hd, s, res, hs, hacc, rfl⟩
  · exact absurd hret hne
  · exact absurd hret hne
  refine ⟨⟨hnull, hinv⟩, ⟨_, List.mem_cons_of_mem _ List.mem_cons_self, hacc.mp hret, rfl⟩,
    fun e he => ?_⟩
  simp only [List.mem_cons, List.not_mem_nil, or_false] at he
  rcases he with rfl | rfl | rfl
  · exact ⟨(fun h => by cases h), fun h => by cases h⟩
  · refine ⟨fun _ => hacc.mp hret, fun hb => ?_⟩
    rw [isRequest, hs] at hb
    cases hb
  · exact ⟨(fun h => by cases h), fun h => by cases h⟩

/-- A text without zeros is not found in the zeros behind a reply. -/
lemma prefix_of_zeros {text b : Bytes} {n : ℕ} (htext : 0 ∉ text)
    (h : text <+: b ++ List.replicate n 0) : text <+: b := by
  induction text generalizing b with
  | nil => exact List.nil_prefix
  | cons c text ih =>
    cases b with
    | nil =>
      have hc : c ∈ List.replicate n 0 := h.subset List.mem_cons_self
      exact absurd (List.eq_of_mem_replicate hc ▸ List.mem_cons_self) htext
    | cons x b =>
      obtain ⟨hx, hrest⟩ := List.cons_prefix_cons.mp h
      exact List.cons_prefix_cons.mpr
        ⟨hx, ih (fun hc => htext (List.mem_cons_of_mem _ hc)) hrest⟩

lemma tplStatus_eq {dev : Device} (hdev : dev ≠ .invalid) (hd : Handle) (buf : Bytes)
    (bytesReturned : ℕ) :
    usbDeviceIoControl ⟨dev, some hd, amEpIn, amEpOut⟩ .tplStatus (some buf) 4 (some buf) 64
        bytesReturned =
      .call (.controlIn hd ⟨0xC0, amReqTplStat, getU16 buf 0, getU16 buf 2, 64⟩ 60000)
        fun r : InResult 64 => .ret (if r.status.isSome then 0 else 1,
          ⟨some hd, some buf, some (blit buf 0 r.data.1), 4, 64, bytesReturned⟩) := by
  have hr : amReqTplStat % 2 ^ 8 = amReqTplStat := rfl
  have hv : u16 (getU16 buf 0 : ℕ) = getU16 buf 0 := by
    rw [u16_natCast, Nat.mod_eq_of_lt (getU16_lt _ _)]
  have hi : u16 (getU16 buf 2 : ℕ) = getU16 buf 2 := by
    rw [u16_natCast, Nat.mod_eq_of_lt (getU16_lt _ _)]
  have hn : u16 64 = 64 := rfl
  have hcond : ¬ (4 ≠ 4 ∨ 64 ≠ 64) := by decide
  simp only [usbDeviceIoControl, hdev, if_false, ioctlTplStatusHandler, ioctlTplStatusHandlerEx,
    if_neg hcond]
  rw [usbControlMsg_in hd hr hv hi hn]
  simp only [Prog.call_bind, Prog.ret_bind, usbControlResult_neg, Prog.pure_eq_ret]
  rfl

/-- A status read without an error: the reply is at the start of the buffer. -/
lemma amlUsbReadStatus_runs {rom : AmlUsbRomRW} (hlen : rom.bufferLen = 64) {t : Trace}
    {r : ℤ × AmlUsbRomRW} (hr : Runs (amlUsbReadStatus rom) t r) (hret : r.1 = 0) :
    ∃ e b, e ∈ t ∧ statusReply e = some b ∧ r.2.buffer = blit rom.buffer 0 b ∧
      ∀ x ∈ t, ∀ req, isRequest req x.1 = false := by
  obtain ⟨dev, bufferLen, buffer, dataSize, address⟩ := rom
  obtain rfl : bufferLen = 64 := hlen
  dsimp only
  unfold amlUsbReadStatus at hr
  by_cases hnull : dev = .null
  · rw [hnull, openUsbDevice_null] at hr
    obtain ⟨rfl, rfl⟩ := runs_ret.mp hr
    simp at hret
  obtain ⟨hd, b, t', rfl, hin, rfl⟩ := runs_opened hnull (fun drv =>
    usbDeviceIoControl drv .tplStatus (some buffer) 4 (some buffer) 64 dataSize) (fun _ => rfl) hr
  by_cases hdev : dev = .invalid
  · subst hdev
    obtain ⟨rfl, rfl⟩ := runs_ret.mp hin
    simp at hret
  rw [tplStatus_eq hdev, runs_call] at hin
  obtain ⟨res, t₁, rfl, hin⟩ := hin
  obtain ⟨rfl, rfl⟩ := runs_ret.mp hin
  have hstatus : res.status = none := by
    cases hst : res.status with
    | none => rfl
    | some err => simp [hst] at hret
  refine ⟨_, res.data.1, List.mem_append_left _ (List.mem_append_right _ List.mem_cons_self),
    ?_, rfl,
    ?_⟩
  · simp [statusReply, hstatus]
  · intro x hx req
    simp only [List.mem_append, List.mem_cons, List.not_mem_nil, or_false] at hx
    rcases hx with (rfl | rfl) | rfl
    · rfl
    · rfl
    · rfl

/-- No announcement, and a bulk command only to ask for the status. -/
def Writes (e : Event) : Prop := isRequest amReqTplCmd e.1 = false ∧ AsksStatus e

lemma isRequest_iff {req : ℕ} {o : Op} :
    isRequest req o ↔ ∃ h s d timeout, o = .controlOut h s d timeout ∧ s.bRequest = req := by
  cases o <;> simp [isRequest]

/-- Nothing but requests to write media goes out while the image is written. -/
lemma writeMediaFile_runs {files : Files} {junk : ℕ → UInt8} {turns : ℕ} {rom : AmlUsbRomRW}
    {filename : Bytes} {t : Trace} (hr : Runs (writeMediaFile files junk turns rom filename) t 0) :
    Acknowledged (files filename) t ∧ ∀ e ∈ t, Writes e := by
  have hkeeps := writeMediaFile_keeps files junk turns rom filename
  obtain ⟨ok, hopen, hret⟩ := writeMediaFile_opens hr
  obtain rfl : ok = true := by
    cases ok with
    | false => exact absurd (hret rfl) (by decide)
    | true => rfl
  refine ⟨⟨(hkeeps.runs hr hopen).mp rfl, ?_⟩, ?_⟩
  · rintro h e h' rfl
    exact hkeeps.issues hr.issues
  · intro e he
    obtain ⟨h', hper⟩ := hkeeps.event hr he
    have hreq : ∀ req, isRequest req e.1 → req = amReqWriteMedia := by
      intro req hreq
      obtain ⟨_, s, _, _, ho, rfl⟩ := isRequest_iff.mp hreq
      exact (hper.header _ _ _ _ ho).2.2.2.1
    refine ⟨?_, ?_⟩
    · by_contra hne
      rw [Bool.not_eq_false] at hne
      exact absurd (hreq _ hne) (by decide)
    · intro hb
      exact absurd (hreq _ hb) (by decide)

/-- The 64 bytes of a command begin as the buffer does. -/
lemma commandRom_begins (rom : AmlUsbRomRW) {text buf : Bytes} (h : text <+: buf)
    (hlen : text.length ≤ 64) : text <+: (commandRom rom buf).buffer.take 64 := by
  have htake : text <+: buf.take 66 := List.prefix_take_iff.mpr ⟨h, by omega⟩
  have hblit : (commandRom rom buf).buffer = buf.take 66 ++ ([1] ++ buf.drop 67) :=
    List.append_assoc _ _ _
  rw [List.prefix_take_iff, hblit]
  exact ⟨htake.trans (List.prefix_append _ _), hlen⟩

lemma commandRom_take (rom : AmlUsbRomRW) {buf : Bytes} (h : 66 ≤ buf.length) :
    (commandRom rom buf).buffer.take 64 = buf.take 64 := by
  have hlen : 64 ≤ (buf.take 66).length := by rw [List.length_take]; omega
  have hblit : blit buf 66 [1] = buf.take 66 ++ ([1] ++ buf.drop 67) := List.append_assoc _ _ _
  have hbuf : (commandRom rom buf).buffer = blit buf 66 [1] := rfl
  rw [hbuf, hblit, List.take_append_of_le_length hlen, List.take_take]
  rfl

/-- A bulk command that succeeds was obeyed, and is the only request made. -/
lemma amlUsbBulkCmd_runs {turns : ℕ} {rom : AmlUsbRomRW} {t : Trace} {r : ℤ × AmlUsbRomRW}
    (hr : Runs (amlUsbBulkCmd turns rom) t r) (hret : r.1 = 0) :
    Obeyed (rom.buffer.take 64) t ∧ (∃ t' hd, t = t' ++ [⟨.libusbClose hd, ()⟩]) ∧
      ∀ e ∈ t, isRequest amReqTplCmd e.1 = false ∧
        (isRequest amReqBulkCmd e.1 → sentBytes e.1 = rom.buffer.take 64) := by
  have hkeeps := amlUsbBulkCmd_keeps turns rom
  obtain ⟨hobeyed, hclose⟩ := hkeeps.runs hr hret
  refine ⟨hobeyed, hclose, fun e he => ?_⟩
  obtain ⟨h', honly⟩ := hkeeps.event hr he
  refine ⟨?_, ?_⟩
  · by_contra hne
    rw [Bool.not_eq_false] at hne
    obtain ⟨_, s, _, _, ho, hs⟩ := isRequest_iff.mp hne
    rw [(honly _ _ _ _ ho).1] at hs
    exact absurd hs (by decide)
  · intro hb
    obtain ⟨_, s, _, _, ho, hs⟩ := isRequest_iff.mp hb
    rw [ho]
    exact (honly _ _ _ _ ho).2

/-! ### The run -/

section Run

variable {files : Files} {junk : ℕ → UInt8} {turns : ℕ} {rom : AmlUsbRomRW} {argv : List Bytes}
  {argc : ℤ} {t : Trace}

/-- The verification returns 0 when it was made, and when its file could not be opened. -/
lemma mwriteVerify_runs {path : Bytes} (hr : Runs (mwriteVerify files turns rom path) t 0) :
    t = [⟨.fopen path false, false⟩] ∨
      (Verified files path t ∧ (∃ t' hd, t = t' ++ [⟨.libusbClose hd, ()⟩]) ∧
        ∀ e ∈ t, isRequest amReqTplCmd e.1 = false) := by
  unfold mwriteVerify at hr
  simp only [fopenRead, Prog.call_bind, Prog.ret_bind] at hr
  rw [runs_call] at hr
  obtain ⟨ok, t₁, rfl, hr⟩ := hr
  cases (ok : Bool) with
  | false =>
    left
    obtain ⟨rfl, -⟩ := runs_ret.mp hr
    rfl
  | true =>
    right
    simp only [reduceIte, fread, Prog.call_bind, Prog.ret_bind, Nat.sub_zero] at hr
    rw [runs_call] at hr
    obtain ⟨k, t₂, rfl, hr⟩ := hr
    obtain ⟨⟨ret, rom'⟩, t₃, t₄, rfl, hbulk, hr⟩ := runs_bind.mp hr
    obtain ⟨rfl, hret⟩ := runs_ret.mp hr
    have hz : ret = 0 := by
      by_contra hne
      rw [if_pos hne] at hret
      cases hret
    obtain ⟨hobeyed, ⟨t', hd, rfl⟩, hreq⟩ := amlUsbBulkCmd_runs hbulk hz
    have htext : strVerify ++ (files path).take k <+:
        blit (strcpy (List.replicate 128 0) strVerify) 7 (slice (files path) 0 k) := by
      have hlen : 7 = strVerify.length := rfl
      rw [strcpy, blit_zero, List.append_assoc, blit_append strVerify _ _ hlen]
      exact List.prefix_append _ _
    rw [List.append_nil]
    refine ⟨⟨_, k, _, rfl, hobeyed.mono ?_⟩, ⟨_ :: _ :: t', hd, rfl⟩, fun e he => ?_⟩
    · exact commandRom_begins rom ((List.take_prefix _ _).trans htext)
        (by rw [List.length_take]; exact Nat.min_le_left _ _)
    · rcases List.mem_cons.mp he with rfl | he
      · rfl
      · rcases List.mem_cons.mp he with rfl | he
        · rfl
        · exact (hreq e he).1

/-- What the steps after the announcement leave in the trace. -/
lemma mwriteData_runs (hr : Runs (mwriteData files junk turns argv argc rom) t 0) :
    ∃ t₂ t₃ t₄ t₅, t = t₂ ++ (t₃ ++ (t₄ ++ t₅)) ∧ Ready t₂ ∧
      Acknowledged (files (argv.getD 0 [])) t₃ ∧ Obeyed strGetStatus t₄ ∧
      (∀ e ∈ t₂ ++ (t₃ ++ t₄), Writes e) ∧
      ((argc ≤ 4 ∧ t₅ = []) ∨
        (4 < argc ∧ ∃ rom', Runs (mwriteVerify files turns rom' (argv.getD 4 [])) t₅ 0)) := by
  unfold mwriteData at hr
  obtain ⟨⟨ret, rom₂⟩, t₂, t', rfl, hstatus, hr⟩ := runs_bind.mp hr
  dsimp only at hr
  by_cases hret : ret ≠ 0
  · rw [if_pos hret] at hr
    simp at hr
  rw [if_neg hret] at hr
  obtain ⟨e, b, he, hreply, hbuf, hquiet⟩ := amlUsbReadStatus_runs rfl hstatus (not_not.mp hret)
  by_cases hsuccess : strncmp rom₂.buffer strSuccess 7 ≠ 0
  · rw [if_pos hsuccess] at hr
    simp at hr
  rw [if_neg hsuccess] at hr
  have hready : strSuccess <+: b := by
    have hs := (strncmp_success _).mp (not_not.mp hsuccess)
    rw [show rom₂.buffer = _ from hbuf, blit_zero, List.drop_replicate] at hs
    exact prefix_of_zeros (by decide) hs
  obtain ⟨ret, t₃, t'', rfl, hmedia, hr⟩ := runs_bind.mp hr
  by_cases hret : ret ≠ 0
  · rw [if_pos hret] at hr
    simp at hr
  rw [if_neg hret] at hr
  rw [not_not.mp hret] at hmedia
  obtain ⟨hack, hwrites⟩ := writeMediaFile_runs hmedia
  obtain ⟨⟨ret, rom₃⟩, t₄, t₅, rfl, hbulk, hr⟩ := runs_bind.mp hr
  dsimp only at hr
  by_cases hret : ret ≠ 0
  · rw [if_pos hret] at hr
    simp at hr
  rw [if_neg hret] at hr
  obtain ⟨hobeyed, -, hreq⟩ := amlUsbBulkCmd_runs hbulk (not_not.mp hret)
  have htext : strGetStatus <+:
      (commandRom rom₂ (strcpy rom₂.buffer strGetStatus)).buffer.take 64 := by
    refine commandRom_begins rom₂ ?_ (by decide)
    rw [strcpy, blit_zero, List.append_assoc]
    exact List.prefix_append _ _
  refine ⟨t₂, t₃, t₄, t₅, rfl, ⟨e, he, b, hreply, hready⟩, hack, hobeyed.mono htext, ?_, ?_⟩
  · intro x hx
    simp only [List.mem_append] at hx
    rcases hx with hx | hx | hx
    · have hno := hquiet x hx
      refine ⟨hno _, fun hb => ?_⟩
      rw [hno] at hb
      cases hb
    · exact hwrites x hx
    · refine ⟨(hreq x hx).1, fun hb => ?_⟩
      rw [(hreq x hx).2 hb]
      exact htext
  · by_cases hargc : argc ≤ 4
    · rw [if_pos hargc] at hr
      exact .inl ⟨hargc, (runs_ret.mp hr).1⟩
    · rw [if_neg hargc] at hr
      exact .inr ⟨by omega, _, hr⟩

/-- What an announcement that was accepted leaves in the trace decides nothing later on. -/
lemma mwriteData_ends {dev : Device} {t₁ t' : Trace} (hdev : dev ≠ .null ∧ dev ≠ .invalid)
    (hne : files (argv.getD 0 []) ≠ []) (hann : Announced argv (files (argv.getD 0 [])) t₁)
    (hall : ∀ e ∈ t₁, (isRequest amReqTplCmd e.1 → requestAccepted amReqTplCmd e) ∧ AsksStatus e)
    (hr : Runs (mwriteData files junk turns argv argc rom) t' 0) :
    Unverified argv argc (t₁ ++ t') ∨
      (Flashed files argv argc (t₁ ++ t') ∧ Unhindered dev argv argc (t₁ ++ t')) := by
  obtain ⟨t₂, t₃, t₄, t₅, rfl, hready, hack, hobeyed, hwrites, hverify⟩ := mwriteData_runs hr
  -- the announcement is the only TPL command, wherever the run ends
  have honce : (∀ e ∈ t₅, isRequest amReqTplCmd e.1 = false) →
      ∀ e ∈ t₁ ++ (t₂ ++ (t₃ ++ (t₄ ++ t₅))),
        isRequest amReqTplCmd e.1 → requestAccepted amReqTplCmd e := by
    intro h₅ e he hreq
    rcases List.mem_append.mp he with he | he
    · exact (hall e he).1 hreq
    have hno : isRequest amReqTplCmd e.1 = false := by
      rw [← List.append_assoc t₃, ← List.append_assoc t₂] at he
      rcases List.mem_append.mp he with he | he
      · exact (hwrites e he).1
      · exact h₅ e he
    rw [hno] at hreq
    cases hreq
  rcases hverify with ⟨hargc, rfl⟩ | ⟨hargc, rom', hverify⟩
  · right
    refine ⟨⟨t₁, t₂, t₃, t₄, [], rfl, hne, hann, hready, hack, hobeyed, fun h => ?_⟩, hdev,
      honce fun e he => absurd he List.not_mem_nil, fun h => ?_⟩
    · omega
    · omega
  rcases mwriteVerify_runs hverify with rfl | ⟨hver, ⟨t', hd, rfl⟩, hreq⟩
  · left
    refine ⟨hargc, ⟨t₁ ++ (t₂ ++ (t₃ ++ t₄)), by simp⟩, fun e he => ?_⟩
    rcases List.mem_append.mp he with he | he
    · exact (hall e he).2
    rw [← List.append_assoc t₃, ← List.append_assoc t₂] at he
    rcases List.mem_append.mp he with he | he
    · exact (hwrites e he).2
    · rw [List.mem_singleton.mp he]
      intro hreq
      cases hreq
  · right
    refine ⟨⟨t₁, t₂, t₃, t₄, _, rfl, hne, hann, hready, hack, hobeyed, fun _ => hver⟩, hdev,
      honce hreq, fun _ h he => ?_⟩
    have hlast := congrArg List.getLast? he
    simp [List.getLast?_append] at hlast

/-- A run that returns 0 has done everything, or was let off at one of two places. -/
lemma doCmdMwrtie_cases (hr : Runs (doCmdMwrtie files junk turns argv argc rom) t 0) :
    Unannounced rom.device t ∨ Unverified argv argc t ∨
      (Flashed files argv argc t ∧ Unhindered rom.device argv argc t) := by
  unfold doCmdMwrtie at hr
  simp only [fopenRead, Prog.call_bind, Prog.ret_bind] at hr
  rw [runs_call] at hr
  obtain ⟨ok, t₁, rfl, hr⟩ := hr
  cases (ok : Bool) with
  | false => simp at hr
  | true =>
  simp only [reduceIte] at hr
  by_cases hsize : (files (argv.getD 0 [])).length = 0
  · rw [if_pos hsize] at hr
    simp at hr
  rw [if_neg hsize] at hr
  obtain ⟨⟨ret, rom₁⟩, t₁, t', rfl, htpl, hrest⟩ := runs_bind.mp hr
  dsimp only at hrest
  by_cases hret : ret ≠ 0
  · -- the announcement was refused
    rw [if_pos hret] at hrest
    obtain ⟨rfl, -⟩ := runs_ret.mp hrest
    rw [List.append_nil]
    exact .inl ((amlUsbTplCmd_refused rfl htpl hret).cons rfl)
  rw [if_neg hret] at hrest
  obtain ⟨hdev, ⟨e, he, hacc, hsent⟩, hall⟩ := amlUsbTplCmd_accepted rfl htpl (not_not.mp hret)
  have hann : Announced argv (files (argv.getD 0 []))
      (⟨.fopen (argv.getD 0 []) false, true⟩ :: t₁) := by
    refine ⟨e, List.mem_cons_of_mem _ he, hacc, ?_⟩
    rw [hsent, commandRom_take]
    rw [snprintf128, blit_length] <;> simp
  have hne : files (argv.getD 0 []) ≠ [] := fun h => hsize (by rw [h]; rfl)
  refine .inr (mwriteData_ends hdev hne hann (fun x hx => ?_) hrest)
  rcases List.mem_cons.mp hx with rfl | hx
  · exact ⟨(fun hreq => by cases hreq), fun hreq => by cases hreq⟩
  · exact hall x hx

/-- **`mwrite` returns 0 for a written image exactly when nothing hindered it** at the two places
where the result is still the 0 it began with. -/
theorem flashed_iff_unhindered (hr : Runs (doCmdMwrtie files junk turns argv argc rom) t 0) :
    Flashed files argv argc t ↔ Unhindered rom.device argv argc t := by
  rcases doCmdMwrtie_cases hr with hun | hun | ⟨hflash, hfree⟩
  · exact iff_of_false hun.not_flashed hun.hindered
  · exact iff_of_false hun.not_flashed hun.hindered
  · exact iff_of_true hflash hfree

end Run

/-! ### Three runs -/

/-- A reply of up to 64 bytes that says that a command succeeded. -/
def successReply (n : ℕ) : Bytes := (strSuccess ++ List.replicate 57 0).take n

lemma successReply_length (n : ℕ) : (successReply n).length ≤ n := by
  rw [successReply, List.length_take]
  exact Nat.min_le_left _ _

/-- The answers of a device that takes everything, the announcement answered with `status`;
only files with an empty name can be opened if `verify` is not set. -/
def mwriteAnswers (status : Option LibusbError) (verify : Bool) (_ : Trace) :
    (o : Op) → Option (Resp o)
  | .libusbOpen _ => some (some (0 : ℕ))
  | .libusbClose _ => some ()
  | .fopen path _ => some (verify || path.isEmpty)
  | .fread want avail => some (Fin.last (min want avail))
  | .clock => some (0 : ℤ)
  | .controlOut _ s _ _ => some ⟨if s.bRequest = amReqTplCmd then status else none, Fin.last _⟩
  | .controlIn _ s _ => some ⟨none, successReply s.wLength, successReply_length _⟩
  | .bulkOut _ _ _ n _ => some ⟨none, Fin.last n⟩
  | .bulkIn _ _ n _ =>
    if h : n = 256 then some ⟨none, Media.okReply, Media.okReply_fits h⟩
    else some ⟨none, successReply n, successReply_length n⟩
  | _ => none

/-- The image is the one byte 7, and so is the verify file. -/
def byteMwrite (argc : ℤ) : Program ℤ :=
  doCmdMwrtie (fun _ => [7]) (fun _ => 0) 1 [[], [], [], [], [1]] argc ⟨.dev 0, 0, [], 0, 0⟩

set_option maxRecDepth 10000 in
lemma byteMwrite_flashes : ∃ t, Runs (byteMwrite 5) t 0 ∧
    (t.all fun e => !isRequest amReqTplCmd e.1 || requestAccepted amReqTplCmd e) = true ∧
    (t.getLast?.map Sigma.fst) = some (.libusbClose 0) :=
  ⟨_, exec_recorded (mwriteAnswers none true) rfl, rfl, rfl⟩

theorem flashed_iff_unhindered_byte :
    ∃ t, Flashed (fun _ => [7]) [[], [], [], [], [1]] 5 t := by
  obtain ⟨t, hr, hall, hlast⟩ := byteMwrite_flashes
  refine ⟨t, (flashed_iff_unhindered hr).mpr ⟨⟨nofun, nofun⟩, fun e he hreq => ?_, ?_⟩⟩
  · have h := List.all_eq_true.mp hall e he
    simpa [hreq] using h
  · rintro - h rfl
    simp at hlast

set_option maxRecDepth 10000 in
lemma byteMwrite_refused : ∃ t, Runs (byteMwrite 4) t 0 ∧
    (t.all fun e => !requestAccepted amReqTplCmd e) = true ∧
    (t.any fun e => isRequest amReqTplCmd e.1) = true :=
  ⟨_, exec_recorded (mwriteAnswers (some .pipe) true) rfl, rfl, rfl⟩

set_option maxRecDepth 10000 in
lemma byteMwrite_unverified : ∃ t, Runs (byteMwrite 5) t 0 ∧
    (t.all fun e => !isRequest amReqBulkCmd e.1 || strGetStatus.isPrefixOf (sentBytes e.1)) =
      true ∧ t.getLast? = some ⟨.fopen [1] false, false⟩ :=
  ⟨_, exec_recorded (mwriteAnswers none false) rfl, rfl, rfl⟩

/-- The device refuses the announcement, or the verify file is not there: 0 all the same. -/
theorem zero_not_flashed :
    (∃ t, Runs (byteMwrite 4) t 0 ∧
      ¬ Flashed (fun _ => [7]) [[], [], [], [], [1]] 4 t) ∧
    (∃ t, Runs (byteMwrite 5) t 0 ∧
      ¬ Flashed (fun _ => [7]) [[], [], [], [], [1]] 5 t) := by
  refine ⟨?_, ?_⟩
  · obtain ⟨t, hr, hall, hany⟩ := byteMwrite_refused
    have hun : Unannounced (.dev 0) t := by
      refine ⟨fun e he => ?_, .inr (.inr (List.any_eq_true.mp hany))⟩
      simpa using List.all_eq_true.mp hall e he
    exact ⟨t, hr, hun.not_flashed⟩
  · obtain ⟨t, hr, hall, hlast⟩ := byteMwrite_unverified
    refine ⟨t, hr, Unverified.not_flashed ⟨by decide, ?_, fun e he hreq => ?_⟩⟩
    · obtain ⟨h, hh⟩ := List.getLast?_eq_some_iff.mp hlast
      exact ⟨h, hh⟩
    · have h := List.all_eq_true.mp hall e he
      simpa [hreq] using h

end AmlogicUpdate.Mwrite

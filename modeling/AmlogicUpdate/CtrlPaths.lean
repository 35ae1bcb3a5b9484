import AmlogicUpdate.Wire
import AmlogicUpdate.Update

/-!
The same memory through three pieces of code: `Aml_Libusb_Ctrl_RdWr`, the loops over the
handlers, and the `cwr` command.

Each of them is compared with one recursion over the pieces of the memory, against a device
that answers the `k`-th control transfer the same way whoever asks.
-/

namespace AmlogicUpdate.CtrlPaths

open Interaction CData Usb AmlLibusb UsbRomDrv Update Wire

/-! ### A scripted device -/

/-- The handles it is opened with, and the outcome of each control transfer for any length
asked for. -/
structure Script where
  handle : ℕ → Handle
  outcome : ℕ → (n : ℕ) → OutResult n
  reply : ℕ → (n : ℕ) → InResult n

/-- The setup packet of a control transfer with the data sent. -/
def sentBy : Event → Option (Setup × Bytes)
  | ⟨.controlOut _ s data _, _⟩ => some (s, data)
  | ⟨.controlIn _ s _, _⟩ => some (s, [])
  | _ => none

/-- The control transfers of a trace. -/
def sent (t : Trace) : List (Setup × Bytes) := t.filterMap sentBy

/-- The device always opens, and the files can be read. -/
def Script.answer (sc : Script) (t : Trace) : (o : Op) → Option (Resp o)
  | .libusbOpen _ => some (some (sc.handle t.length))
  | .libusbClose _ => some ()
  | .controlOut _ s _ _ => some (sc.outcome (sent t).length s.wLength)
  | .controlIn _ s _ => some (sc.reply (sent t).length s.wLength)
  | .fopen _ _ => some true
  | .fread want avail => some (Fin.last (min want avail))
  | _ => none

/-- The scripted device, with what has happened so far as its state. -/
abbrev Script.world (sc : Script) : Trace → (o : Op) → Option (Resp o × Trace) :=
  recorded sc.answer

/-- Both programs return, after the same control transfers, with related results. -/
def Agree {α β : Type} (sc : Script) (R : α → β → Prop) (p : Program α) (q : Program β) : Prop :=
  ∃ a t b t', exec sc.world [] p = some (a, t) ∧ exec sc.world [] q = some (b, t') ∧
    sent t = sent t' ∧ R a b

lemma sent_snoc_some {t : Trace} {e : Event} {x : Setup × Bytes} (he : sentBy e = some x) :
    sent (t ++ [e]) = sent t ++ [x] := by
  simp [sent, he]

lemma sent_snoc_none {t : Trace} {e : Event} (he : sentBy e = none) :
    sent (t ++ [e]) = sent t := by
  simp [sent, he]

/-! ### The recursion they follow -/

/-- One request for `c` bytes: what is sent, whether it fails, and the buffer after it. -/
def request (sc : Script) (doRead : Bool) (k addr off c : ℕ) (buf : Bytes) :
    (Setup × Bytes) × Bool × Bytes :=
  if doRead then
    ((memSetup true addr c, []), (sc.reply k c).status.isSome,
      buf.take off ++ blit (buf.drop off) 0 (sc.reply k c).data.1)
  else ((memSetup false addr c, (buf.drop off).take c), (sc.outcome k c).status.isSome, buf)

/-- The requests for `n` bytes, `k` having been made before; whether all succeed; the buffer. -/
def requests (sc : Script) (doRead : Bool) (k addr off n : ℕ) (buf : Bytes) :
    List (Setup × Bytes) × Bool × Bytes :=
  if n = 0 then ([], true, buf)
  else
    let c := min n 64
    let x := request sc doRead k addr off c buf
    if x.2.1 then ([x.1], false, x.2.2)
    else
      let y := requests sc doRead (k + 1) ((addr + c) % 2 ^ 32) (off + c) (n - c) x.2.2
      (x.1 :: y.1, y.2)
termination_by n
decreasing_by omega

/-- With `t` behind, and `n` bytes still to be moved, the whole comes to `goal`. -/
def Ahead (sc : Script) (doRead : Bool) (goal : List (Setup × Bytes) × Bool × Bytes)
    (addr off n : ℕ) (buf : Bytes) (t : Trace) : Prop :=
  (sent t ++ (requests sc doRead (sent t).length addr off n buf).1,
    (requests sc doRead (sent t).length addr off n buf).2) = goal

section Ahead

variable {sc : Script} {doRead : Bool} {goal : List (Setup × Bytes) × Bool × Bytes}
  {addr off n : ℕ} {buf : Bytes} {t : Trace} {e : Event}

lemma Ahead.silent (ha : Ahead sc doRead goal addr off n buf t) (he : sentBy e = none) :
    Ahead sc doRead goal addr off n buf (t ++ [e]) := by
  rw [Ahead, sent_snoc_none he]
  exact ha

lemma Ahead.finish (ha : Ahead sc doRead goal addr off 0 buf t) : (sent t, true, buf) = goal := by
  rw [Ahead, requests, if_pos rfl, List.append_nil] at ha
  exact ha

/-- A request that fails is the last. -/
lemma Ahead.fails (ha : Ahead sc doRead goal addr off n buf t) (hn : n ≠ 0)
    {x : (Setup × Bytes) × Bool × Bytes}
    (hx : request sc doRead (sent t).length addr off (min n 64) buf = x) (hf : x.2.1 = true)
    (he : sentBy e = some x.1) : (sent (t ++ [e]), false, x.2.2) = goal := by
  rw [Ahead, requests, if_neg hn] at ha
  simp only [hx, hf, if_true] at ha
  rw [sent_snoc_some he]
  exact ha

/-- After one that does not, the rest is ahead. -/
lemma Ahead.next (ha : Ahead sc doRead goal addr off n buf t) (hn : n ≠ 0)
    {x : (Setup × Bytes) × Bool × Bytes}
    (hx : request sc doRead (sent t).length addr off (min n 64) buf = x) (hf : x.2.1 = false)
    (he : sentBy e = some x.1) :
    Ahead sc doRead goal ((addr + min n 64) % 2 ^ 32) (off + min n 64) (n - min n 64) x.2.2
      (t ++ [e]) := by
  rw [Ahead, requests, if_neg hn] at ha
  simp only [hx, hf, Bool.false_eq_true, if_false] at ha
  rw [Ahead, sent_snoc_some he, List.length_append, List.length_singleton, List.append_assoc]
  exact ha

end Ahead

/-! ### The loops follow it -/

/-- What a program that makes the request leaves, `bad` being what its caller takes for a
failure. -/
def Makes (x : (Setup × Bytes) × Bool × Bytes) (off : ℕ) (buf : Bytes) (t : Trace) {α : Type}
    (bad : α → Prop) (r : α × Bytes) (t' : Trace) : Prop :=
  ∃ e, t' = t ++ [e] ∧ sentBy e = some x.1 ∧ (bad r.1 ↔ x.2.1 = true) ∧
    buf.take off ++ r.2 = x.2.2

variable {sc : Script}

lemma controlMsg_makes (h : Handle) (doRead : Bool) (addr off : ℕ) (buf : Bytes) {c : ℕ}
    (hc : c ≤ 64) (timeout : ℤ) (t : Trace) :
    Ensures sc.world t
      (usbControlMsg (some h) (if doRead then vendorIn else usbTypeVendor)
        (if doRead then amReqReadMem else amReqWriteMem) (addr / 2 ^ 16 : ℕ)
        (addr % 2 ^ 16 : ℕ) (buf.drop off) c timeout)
      (Makes (request sc doRead (sent t).length addr off c buf) off buf t (· < 0)) := by
  cases doRead with
  | true =>
    simp only [if_true]
    rw [usbControlMsg_readMem h addr _ hc timeout]
    refine (ensures_call rfl).mpr (ensures_ret.mpr ?_)
    exact ⟨_, rfl, rfl, usbControlResult_neg _ _, rfl⟩
  | false =>
    simp only [Bool.false_eq_true, if_false]
    rw [usbControlMsg_writeMem h addr _ hc timeout]
    refine (ensures_call rfl).mpr (ensures_ret.mpr ?_)
    exact ⟨_, rfl, rfl, usbControlResult_neg _ _, List.take_append_drop off buf⟩

lemma rwCtrlUsb_makes {dev : Device} (hdev : dev ≠ .invalid) (h : Handle) (doRead : Bool)
    (addr off : ℕ) (buf : Bytes) {c : ℕ} (h₀ : 0 < c) (hc : c ≤ 64) (t : Trace) :
    Ensures sc.world t
      (rwCtrlUsb ⟨dev, some h, amEpIn, amEpOut⟩ addr (buf.drop off) c doRead)
      (Makes (request sc doRead (sent t).length addr off c buf) off buf t (· = 0)) := by
  have hbad : ∀ b : Bool, (if b then 0 else 1) = 0 ↔ b = true := by decide
  cases doRead with
  | true =>
    rw [rwCtrlUsb_read_eq hdev h addr _ h₀ hc]
    refine (ensures_call rfl).mpr (ensures_ret.mpr ?_)
    exact ⟨_, rfl, rfl, hbad _, rfl⟩
  | false =>
    rw [rwCtrlUsb_write_eq hdev h addr _ hc]
    refine (ensures_call rfl).mpr (ensures_ret.mpr ?_)
    exact ⟨_, rfl, rfl, hbad _, List.take_append_drop off buf⟩

variable {goal : List (Setup × Bytes) × Bool × Bytes}

/-- The loop of `Aml_Libusb_Ctrl_RdWr`. -/
lemma ctrlRdWrTurn_ensures (h : Handle) (len : ℕ) (doRead : Bool) (timeout : ℤ)
    {s : CtrlRdWr} {t : Trace} (hbound : s.processed ≤ len) (hret : 0 ≤ s.ret)
    (ha : Ahead sc doRead goal s.addr s.processed (len - s.processed) s.buf t) :
    Ensures sc.world t (ctrlRdWrTurn (some h) len doRead timeout s) fun l t' => match l with
      | .next s' => (s'.processed ≤ len ∧ 0 ≤ s'.ret ∧
          Ahead sc doRead goal s'.addr s'.processed (len - s'.processed) s'.buf t') ∧
          len - s'.processed < len - s.processed
      | .done s' => (sent t', decide (0 ≤ s'.ret), s'.buf) = goal := by
  unfold ctrlRdWrTurn
  by_cases hlt : (s.processed : ℤ) < len
  · have hn : len - s.processed ≠ 0 := by omega
    have hc : (min ((len : ℤ) - s.processed) 64).toNat = min (len - s.processed) 64 := by omega
    rw [if_pos hlt, hc]
    refine ensures_bind.mpr ((controlMsg_makes h doRead s.addr s.processed s.buf (by omega)
      timeout t).mono ?_)
    rintro r _ ⟨e, rfl, he, hbad, hbuf⟩
    by_cases hneg : r.1 < 0
    · rw [if_pos hneg, Prog.pure_eq_ret, ensures_ret]
      have hfin := ha.fails hn rfl (hbad.mp hneg) he
      have hret' : decide (0 ≤ r.1) = false := decide_eq_false (by omega)
      dsimp only
      rw [hret', hbuf]
      exact hfin
    · rw [if_neg hneg, Prog.pure_eq_ret, ensures_ret]
      have hok := Bool.eq_false_iff.mpr fun h => hneg (hbad.mpr h)
      have hnext := ha.next hn rfl hok he
      rw [← hbuf, Nat.sub_sub] at hnext
      refine ⟨⟨?_, ?_, hnext⟩, ?_⟩
      · dsimp only; omega
      · dsimp only; omega
      · dsimp only; omega
  · rw [if_neg hlt, Prog.pure_eq_ret, ensures_ret]
    have hz : len - s.processed = 0 := by omega
    rw [hz] at ha
    have hret' : decide (0 ≤ s.ret) = true := decide_eq_true hret
    dsimp only
    rw [hret']
    exact ha.finish

/-- The loops over the handlers. -/
lemma memCtrTurn_ensures {dev : Device} (hdev : dev ≠ .invalid) (h : Handle) (doRead : Bool)
    {s : MemCtr} {t : Trace}
    (ha : Ahead sc doRead goal s.address s.off s.remain s.buffer t) :
    Ensures sc.world t (memCtrTurn ⟨dev, some h, amEpIn, amEpOut⟩ doRead s) fun l t' =>
      match l with
      | .next s' => Ahead sc doRead goal s'.address s'.off s'.remain s'.buffer t' ∧
          s'.remain < s.remain
      | .done s' => (sent t', decide (s'.remain = 0), s'.buffer) = goal := by
  simp only [memCtrTurn, controlUsb_eq]
  by_cases hpos : 0 < s.remain
  · have hn : s.remain ≠ 0 := by omega
    rw [if_pos hpos]
    refine ensures_bind.mpr ((rwCtrlUsb_makes hdev h doRead s.address s.off s.buffer
      (by omega) (by omega) t).mono ?_)
    rintro r _ ⟨e, rfl, he, hbad, hbuf⟩
    by_cases hz : r.1 = 0
    · rw [if_pos hz, Prog.pure_eq_ret, ensures_ret]
      have hfin := ha.fails hn rfl (hbad.mp hz) he
      dsimp only
      rw [decide_eq_false hn, hbuf]
      exact hfin
    · rw [if_neg hz, Prog.pure_eq_ret, ensures_ret]
      have hok := Bool.eq_false_iff.mpr fun h => hz (hbad.mpr h)
      have hnext := ha.next hn rfl hok he
      rw [← hbuf] at hnext
      refine ⟨hnext, ?_⟩
      dsimp only; omega
  · rw [if_neg hpos, Prog.pure_eq_ret, ensures_ret]
    have hz : s.remain = 0 := by omega
    rw [hz] at ha
    dsimp only
    rw [decide_eq_true hz]
    exact ha.finish

/-! ### The routines -/

variable (sc)

/-- The opening and the closing of the device are not seen. -/
lemma sentBy_open (dev : Device) (handle : Option Handle) :
    sentBy ⟨.libusbOpen dev, handle⟩ = none := rfl
lemma sentBy_close (h : Handle) : sentBy ⟨.libusbClose h, ()⟩ = none := rfl

lemma ahead_open (doRead : Bool) (addr n : ℕ) (buf : Bytes) (dev : Device)
    (h : Handle) :
    Ahead sc doRead (requests sc doRead 0 addr 0 n buf) addr 0 n buf
      [⟨.libusbOpen dev, some h⟩] := rfl

lemma ctrlRdWr_ensures (d addr : ℕ) (buf : Bytes) (len : ℕ) (doRead : Bool) (timeout : ℤ) :
    Ensures sc.world [] (amlLibusbCtrlRdWr (.dev d) addr buf len doRead timeout) fun r t =>
      (sent t, decide (r.1 = 0), r.2) = requests sc doRead 0 addr 0 len buf := by
  refine ensures_opened (dev_ne_null d) (fun drv => iterate (ctrlRdWrTurn drv.handle len doRead
    timeout) ((len : ℤ).toNat + 1) ⟨0, 0, addr, buf⟩) (fun _ => rfl) rfl ?_
  have hahead := ahead_open sc doRead addr len buf (.dev d) (sc.handle 0)
  refine (ensures_iterate (I := fun s t => s.processed ≤ len ∧ 0 ≤ s.ret ∧
      Ahead sc doRead (requests sc doRead 0 addr 0 len buf) s.addr s.processed
        (len - s.processed) s.buf t) (μ := fun s => len - s.processed)
    (Q := fun s t => (sent t, decide (0 ≤ s.ret), s.buf) =
      requests sc doRead 0 addr 0 len buf) ?_ ⟨Nat.zero_le _, le_rfl, hahead⟩ ?_).mono ?_
  · intro s t ⟨hbound, hret, ha⟩
    refine (ctrlRdWrTurn_ensures _ len doRead timeout hbound hret ha).mono fun l t' hl => ?_
    cases l <;> exact hl
  · dsimp only; omega
  · intro s t hs
    refine ⟨_, rfl, ?_⟩
    have hiff : decide ((if s.ret < 0 then (-646 : ℤ) else 0) = 0) = decide (0 ≤ s.ret) := by
      split_ifs with hneg <;> simp <;> omega
    rw [hiff, sent_snoc_none (sentBy_close _)]
    exact hs

lemma memCtr_ensures {dev : Device} (hdev : dev ≠ .invalid) (h : Handle) (addr : ℕ)
    (buf : Bytes) (len : ℕ) (doRead : Bool) :
    Ensures sc.world [⟨.libusbOpen dev, some h⟩]
      (iterate (memCtrTurn ⟨dev, some h, amEpIn, amEpOut⟩ doRead) (len + 1) ⟨len, 0, addr, buf⟩)
      fun s t => (sent t, decide (s.remain = 0), s.buffer) =
        requests sc doRead 0 addr 0 len buf := by
  refine ensures_iterate (I := fun s t => Ahead sc doRead (requests sc doRead 0 addr 0 len buf)
    s.address s.off s.remain s.buffer t) (μ := MemCtr.remain) ?_
    (ahead_open sc doRead addr len buf dev h) (Nat.lt_succ_self len)
  intro s t ha
  refine (memCtrTurn_ensures hdev h doRead ha).mono fun l t' hl => ?_
  cases l <;> exact hl

lemma readMemCtr_ensures (d len : ℕ) (buf : Bytes) (dataSize addr : ℕ) :
    Ensures sc.world [] (amlUsbReadMemCtr ⟨Device.dev d, len, buf, dataSize, addr⟩) fun r t =>
      (sent t, decide (r.1 = 0), r.2.buffer) = requests sc true 0 addr 0 len buf := by
  refine ensures_opened (dev_ne_null d) (fun drv => iterate (memCtrTurn drv true) (len + 1)
    ⟨len, 0, addr, buf⟩) (fun _ => rfl) rfl ?_
  refine (memCtr_ensures sc (dev_ne_invalid d) (sc.handle 0) addr buf len true).mono
    fun s t hs => ?_
  refine ⟨_, rfl, ?_⟩
  have hiff : decide ((if s.remain = 0 then (0 : ℤ) else -1) = 0) = decide (s.remain = 0) := by
    split_ifs with hz <;> simp [hz]
  rw [hiff, sent_snoc_none (sentBy_close _)]
  exact hs

lemma writeMemCtr_ensures (d len : ℕ) (buf : Bytes) (dataSize addr : ℕ) :
    Ensures sc.world [] (amlUsbWriteMemCtr ⟨Device.dev d, len, buf, dataSize, addr⟩) fun r t =>
      (sent t, decide (r.1 = 1)) = ((requests sc false 0 addr 0 len buf).1,
        (requests sc false 0 addr 0 len buf).2.1) := by
  refine ensures_opened (dev_ne_null d) (fun drv => iterate (memCtrTurn drv false) (len + 1)
    ⟨len, 0, addr, buf⟩) (fun _ => rfl) rfl ?_
  refine (memCtr_ensures sc (dev_ne_invalid d) (sc.handle 0) addr buf len false).mono
    fun s t hs => ?_
  refine ⟨_, rfl, ?_⟩
  have hiff : decide ((if s.remain = 0 then (1 : ℤ) else 0) = 1) = decide (s.remain = 0) := by
    split_ifs with hz <;> simp [hz]
  rw [hiff, sent_snoc_none (sentBy_close _), ← hs]

/-! ### The `cwr` command -/

lemma ctrlWr_result {c : ℕ} (r : OutResult c) :
    (if (if usbControlResult r.status r.actual < 0 then 0 else 1) ≠ 0 then (0 : ℤ) else -2) = 0 ↔
      r.status.isSome = false := by
  have hneg := usbControlResult_neg r.status r.actual
  cases hs : r.status.isSome with
  | true => simp [hneg.mpr hs]
  | false =>
    have hpos : ¬ usbControlResult r.status r.actual < 0 := fun h => by
      rw [hneg.mp h] at hs; cases hs
    simp [hpos]

/-- The device opened, asked for `c` bytes behind the address in the buffer, and closed. -/
lemma ctrlWr_ensures (rom : AmlUsbRomRW) {d : ℕ} (hdev : rom.device = .dev d) {addr c : ℕ}
    {data rest : Bytes} (hbuf : rom.buffer = le32 addr ++ (data ++ rest))
    (hdata : data.length = c) (hlen : rom.bufferLen = c + 4) (hc : c ≤ 64) (t : Trace) :
    Ensures sc.world t (amlUsbCtrlWr rom) fun r t' => ∃ e₀ e e₁,
      t' = t ++ [e₀] ++ [e] ++ [e₁] ∧ sentBy e₀ = none ∧ sentBy e₁ = none ∧
      sentBy e = some (memSetup false addr c, data) ∧
      (r.1 = 0 ↔ (sc.outcome (sent t).length c).status.isSome = false) ∧
      r.2.device = rom.device ∧ r.2.address = rom.address := by
  have hnull : rom.device ≠ .null := by rw [hdev]; exact dev_ne_null d
  have hinv : rom.device ≠ .invalid := by rw [hdev]; exact dev_ne_invalid d
  refine ensures_opened hnull (fun drv => usbDeviceIoControlEx drv .writeMem (some rom.buffer)
    rom.bufferLen none 0 rom.dataSize 5000) (fun _ => rfl) rfl ?_
  rw [hbuf, hlen, ctrlWr_eq hinv _ addr rest hdata hc]
  refine (ensures_call rfl).mpr (ensures_ret.mpr ⟨_, rfl, _, _, _, rfl, rfl, rfl, rfl, ?_, rfl,
    rfl⟩)
  have hk : sent (t ++ [⟨.libusbOpen rom.device, some (sc.handle t.length)⟩]) = sent t :=
    sent_snoc_none (sentBy_open _ _)
  rw [← hk]
  exact ctrlWr_result _

/-- The invariant of the loop of `cwr` over a file that holds `data`. -/
structure CwrInv (sc : Script) (goal : List (Setup × Bytes) × Bool × Bytes) (data : Bytes) (d : ℕ)
    (s : Write) (t : Trace) : Prop where
  ahead : Ahead sc false goal s.rom.address s.file.pos s.transferSize data t
  content : s.file.content = data
  left : s.file.pos + s.transferSize = data.length
  device : s.rom.device = .dev d
  room : 8 ≤ s.buf.length

/-- A read gets what is asked for as far as the file goes. -/
lemma ensures_fread {f : File} {n : ℕ} (hn : n ≤ f.content.length - f.pos) {t : Trace}
    {Q : Bytes × File → Trace → Prop}
    (hQ : ∀ e, sentBy e = none →
      Q (slice f.content f.pos n, { f with pos := f.pos + n }) (t ++ [e])) :
    Ensures sc.world t (fread f n) Q := by
  refine (ensures_call rfl).mpr (ensures_ret.mpr ?_)
  have hlast : ((Fin.last (min n (f.content.length - f.pos)) : Fin _) : ℕ) = n := by
    rw [Fin.val_last]; omega
  rw [hlast]
  exact hQ _ rfl

lemma cwrTurn_ensures {data : Bytes} {d : ℕ} {s : Write} {t : Trace}
    (hI : CwrInv sc goal data d s t) :
    Ensures sc.world t (writeTurn true s) fun l t' => match l with
      | .next s' => CwrInv sc goal data d s' t' ∧ s'.transferSize < s.transferSize
      | .done ret => (sent t', decide (ret = 0)) = (goal.1, goal.2.1) := by
  obtain ⟨ha, hcontent, hleft, hdev, hroom⟩ := hI
  unfold writeTurn
  by_cases hn : s.transferSize = 0
  · rw [if_neg (not_not.mpr hn), Prog.pure_eq_ret, ensures_ret]
    rw [hn] at ha
    rw [← ha.finish]
    rfl
  rw [if_pos hn]
  simp only [if_true]
  have hc : min s.transferSize 64 ≤ 64 := by omega
  have hslice : (slice s.file.content s.file.pos (min s.transferSize 64)).length =
      min s.transferSize 64 := by
    rw [slice_length, hcontent]; omega
  refine ensures_bind.mpr (ensures_fread sc (by rw [hcontent]; omega) fun e₀ he₀ => ?_)
  rw [if_neg (not_not.mpr hslice), ensures_bind, ensures_bind]
  have hmake := ctrlWr_ensures sc
    { s.rom with
      buffer := (setU32 (blit s.buf 8 (slice s.file.content s.file.pos (min s.transferSize 64)))
        4 s.rom.address).drop 4
      bufferLen := min s.transferSize 64 + 4 }
    hdev (ctrlWr_buffer s.rom.address hroom) hslice rfl hc (t ++ [e₀])
  refine hmake.mono ?_
  rintro r _ ⟨e₁, e, e₂, rfl, he₁, he₂, he, hret, hdev', haddr'⟩
  simp only [Prog.pure_eq_ret, ensures_ret]
  -- the opening, the closing and the read of the file are not seen
  have hk : sent (t ++ [e₀]) = sent t := sent_snoc_none he₀
  rw [hk] at hret
  have ha' := (ha.silent he₀).silent he₁
  have hk' : sent (t ++ [e₀] ++ [e₁]) = sent t := (sent_snoc_none he₁).trans hk
  by_cases hz : r.1 = 0
  · rw [if_neg (not_not.mpr hz), ensures_ret]
    have hnext := (ha'.next hn rfl (by rw [hk']; exact hret.mp hz)
      (by rw [he, ← hcontent]; rfl)).silent he₂
    rw [← haddr'] at hnext
    refine ⟨⟨hnext, hcontent, ?_, hdev'.trans hdev, ?_⟩, ?_⟩
    · dsimp only; omega
    · dsimp only
      simp only [setU32, blit, List.length_append, List.length_take, le32_length]
      omega
    · dsimp only; omega
  · rw [if_pos hz, ensures_ret]
    have hf := Bool.eq_true_of_not_eq_false fun h => hz (hret.mpr h)
    have hfin := ha'.fails hn rfl (by rw [hk']; exact hf) (by rw [he, ← hcontent]; rfl)
    rw [← hfin, sent_snoc_none he₂]
    rfl

/-- The whole command, over a file shorter than two gigabytes. -/
lemma cwr_ensures (files : Files) (junk : ℕ → UInt8) (seqNum : ℕ) {rom : AmlUsbRomRW} {d : ℕ}
    (hdev : rom.device = .dev d) {argv : List Bytes} {data : Bytes} {addr : ℕ}
    (hfile : files (argv.getD 0 []) = data) (hsize : data.length < 2 ^ 31)
    (haddr : u32 (strtoul (argv.getD 1 []) 0) = addr) :
    Ensures sc.world [] (updateSubCmdReadWrite files junk seqNum rom cmdCwr argv 2) fun r t =>
      (sent t, decide (r = 0)) = ((requests sc false 0 addr 0 data.length data).1,
        (requests sc false 0 addr 0 data.length data).2.1) := by
  have hu : u32 data.length = data.length := by rw [u32_natCast]; omega
  rw [updateSubCmdReadWrite_write files junk seqNum rom (.inr rfl) argv le_rfl (by omega)
    (by omega),
    hfile, hu, haddr]
  refine (ensures_call rfl).mpr ?_
  rw [if_pos rfl, show decide (cmdCwr ≠ cmdWrite) = true by decide]
  refine ensures_iterate (I := CwrInv sc (requests sc false 0 addr 0 data.length data)
    data d) (μ := Write.transferSize) ?_ ?_
    (Nat.lt_succ_self _)
  · intro s t hI
    refine (cwrTurn_ensures sc hI).mono fun l t' hl => ?_
    cases l <;> exact hl
  · refine ⟨rfl, rfl, Nat.zero_add _, hdev, ?_⟩
    rw [malloc_length]
    omega

/-- **The control-endpoint paths agree.** For every address, every byte string shorter than two
gigabytes and every sequence of outcomes, the three ways of writing make the same control
transfers and agree on success, and so do the two ways of reading, which fill the buffer alike. -/
theorem paths_agree (sc : Script) (d addr : ℕ) {data : Bytes} (hsize : data.length < 2 ^ 31)
    (files : Files) (junk : ℕ → UInt8) (seqNum dataSize : ℕ) {rom : AmlUsbRomRW}
    (hdev : rom.device = .dev d) {argv : List Bytes} (hfile : files (argv.getD 0 []) = data)
    (haddr : u32 (strtoul (argv.getD 1 []) 0) = addr) (timeout : ℤ) :
    (Agree sc (fun r r' => r.1 = 0 ↔ r'.1 = 1)
        (amlLibusbCtrlRdWr (.dev d) addr data data.length false timeout)
        (amlUsbWriteMemCtr ⟨.dev d, data.length, data, dataSize, addr⟩) ∧
      Agree sc (fun r r' => r.1 = 1 ↔ r' = 0)
        (amlUsbWriteMemCtr ⟨.dev d, data.length, data, dataSize, addr⟩)
        (updateSubCmdReadWrite files junk seqNum rom cmdCwr argv 2)) ∧
      Agree sc (fun r r' => (r.1 = 0 ↔ r'.1 = 0) ∧ r.2 = r'.2.buffer)
        (amlLibusbCtrlRdWr (.dev d) addr data data.length true timeout)
        (amlUsbReadMemCtr ⟨.dev d, data.length, data, dataSize, addr⟩) := by
  obtain ⟨r₁, t₁, he₁, h₁⟩ := ctrlRdWr_ensures sc d addr data data.length false timeout
  obtain ⟨r₂, t₂, he₂, h₂⟩ := writeMemCtr_ensures sc d data.length data dataSize addr
  obtain ⟨r₃, t₃, he₃, h₃⟩ := cwr_ensures sc files junk seqNum hdev hfile hsize haddr
  obtain ⟨r₄, t₄, he₄, h₄⟩ := ctrlRdWr_ensures sc d addr data data.length true timeout
  obtain ⟨r₅, t₅, he₅, h₅⟩ := readMemCtr_ensures sc d data.length data dataSize addr
  obtain ⟨hs₁, hr₁⟩ := Prod.mk.inj h₁
  obtain ⟨hs₂, hr₂⟩ := Prod.mk.inj h₂
  obtain ⟨hs₃, hr₃⟩ := Prod.mk.inj h₃
  obtain ⟨hs₄, hrest₄⟩ := Prod.mk.inj h₄
  obtain ⟨hs₅, hrest₅⟩ := Prod.mk.inj h₅
  obtain ⟨hr₄, hb₄⟩ := Prod.mk.inj hrest₄
  obtain ⟨hr₅, hb₅⟩ := Prod.mk.inj hrest₅
  have hr₁ := (Prod.mk.inj hr₁).1
  refine ⟨⟨?_, ?_⟩, ?_⟩
  · exact ⟨r₁, t₁, r₂, t₂, he₁, he₂, hs₁.trans hs₂.symm, decide_eq_decide.mp (hr₁.trans hr₂.symm)⟩
  · exact ⟨r₂, t₂, r₃, t₃, he₂, he₃, hs₂.trans hs₃.symm, decide_eq_decide.mp (hr₂.trans hr₃.symm)⟩
  · exact ⟨r₄, t₄, r₅, t₅, he₄, he₅, hs₄.trans hs₅.symm,
      decide_eq_decide.mp (hr₄.trans hr₅.symm), hb₄.trans hb₅.symm⟩

/-- A device that takes everything and gives nothing. -/
def plainScript : Script where
  handle _ := 0
  outcome _ n := ⟨none, Fin.last n⟩
  reply _ n := ⟨none, [], Nat.zero_le n⟩

theorem paths_agree_one :
    (Agree plainScript (fun r r' => r.1 = 0 ↔ r'.1 = 1)
        (amlLibusbCtrlRdWr (.dev 0) 0x10 [7] 1 false 0)
        (amlUsbWriteMemCtr ⟨.dev 0, 1, [7], 0, 0x10⟩) ∧
      Agree plainScript (fun r r' => r.1 = 1 ↔ r' = 0)
        (amlUsbWriteMemCtr ⟨.dev 0, 1, [7], 0, 0x10⟩)
        (updateSubCmdReadWrite (fun _ => [7]) (fun _ => 0) 0 ⟨.dev 0, 0, [], 0, 0⟩ cmdCwr
          [[], ascii ['0', 'x', '1', '0']] 2)) ∧
      Agree plainScript (fun r r' => (r.1 = 0 ↔ r'.1 = 0) ∧ r.2 = r'.2.buffer)
        (amlLibusbCtrlRdWr (.dev 0) 0x10 [7] 1 true 0)
        (amlUsbReadMemCtr ⟨.dev 0, 1, [7], 0, 0x10⟩) :=
  paths_agree plainScript 0 0x10 (by decide) (fun _ => [7]) (fun _ => 0) 0 0 rfl rfl (by decide) 0

end AmlogicUpdate.CtrlPaths

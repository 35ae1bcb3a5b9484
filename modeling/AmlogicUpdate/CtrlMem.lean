import AmlogicUpdate.Wire

/-!
Memory through the control endpoint: what the four routines for it report.

The handlers reduce the number of bytes a control transfer moved to a yes or no, and the
loops go on by what they asked for. So a report of success says that no transfer failed, not
that none was short.
-/

namespace AmlogicUpdate.CtrlMem

open Interaction CData Usb AmlLibusb UsbRomDrv Wire

/-! ### What control transfers move -/

/-- `n` addresses from `addr` on; after the last one comes the first. -/
def region (addr n : ℕ) : List ℕ := (List.range n).map fun i => (addr + i) % 2 ^ 32

/-- The setup packet of a control transfer, and the result of `usb_control_msg`. -/
def control : Event → Option (Setup × ℤ)
  | ⟨.controlOut _ s _ _, r⟩ =>
    have r : OutResult s.wLength := r
    some (s, usbControlResult r.status r.actual)
  | ⟨.controlIn _ s _, r⟩ =>
    have r : InResult s.wLength := r
    some (s, usbControlResult r.status r.data.1.length)
  | _ => none

/-- The memory a control transfer moved. -/
def moved (e : Event) : List ℕ :=
  match control e with
  | some (s, n) => region (s.wValue * 2 ^ 16 + s.wIndex) n.toNat
  | none => []

/-- A control transfer that was answered with an error. -/
def failed (e : Event) : Prop := ∃ s n, control e = some (s, n) ∧ n < 0

/-- A control transfer that moved all it was asked for, or something else. -/
def full (e : Event) : Prop := ∀ s n, control e = some (s, n) → n = s.wLength

/-- Success is only reported for an opened device of which the whole memory asked for has been
moved, in order. -/
def Sound (ok : Prop) (addr size : ℕ) (t : Trace) : Prop :=
  ok → (∃ dev h, (⟨.libusbOpen dev, some h⟩ : Event) ∈ t) ∧ region addr size <+: t.flatMap moved

@[simp] lemma region_length (addr n : ℕ) : (region addr n).length = n := by simp [region]

lemma region_mod (addr n : ℕ) : region (addr % 2 ^ 32) n = region addr n := by
  simp only [region]
  refine List.map_congr_left fun i _ => ?_
  omega

lemma region_add (addr n m : ℕ) : region addr (n + m) = region addr n ++ region (addr + n) m := by
  simp only [region, List.range_add, List.map_append, List.map_map]
  congr 1
  refine List.map_congr_left fun i _ => ?_
  simp only [Function.comp_apply, Nat.add_assoc]

/-! ### Progress of a loop -/

/-- `n` bytes from `addr` on have been asked for, without an error. -/
structure Progress (addr n : ℕ) (h : Trace) : Prop where
  fine : ∀ e ∈ h, ¬ failed e
  whole : (∀ e ∈ h, full e) → h.flatMap moved = region addr n
  bound : (h.flatMap moved).length ≤ n
  short : (∃ e ∈ h, ¬ full e) → (h.flatMap moved).length < n

lemma Progress.silent {addr n : ℕ} {h : Trace} (hp : Progress addr n h) {e : Event}
    (he : control e = none) : Progress addr n (h ++ [e]) := by
  have hm : moved e = [] := by rw [moved, he]
  have hfull : full e := by intro s n h; rw [he] at h; cases h
  have hmoved : (h ++ [e]).flatMap moved = h.flatMap moved := by simp [hm]
  refine ⟨?_, ?_, ?_, ?_⟩
  · intro e' he'
    rcases List.mem_append.mp he' with h' | h'
    · exact hp.fine e' h'
    · obtain rfl := List.mem_singleton.mp h'
      rintro ⟨s, n, h'', -⟩
      rw [he] at h''; cases h''
  · intro hw
    rw [hmoved]
    exact hp.whole fun e' h' => hw e' (List.mem_append_left _ h')
  · rw [hmoved]; exact hp.bound
  · rintro ⟨e', he', hne⟩
    rw [hmoved]
    rcases List.mem_append.mp he' with h' | h'
    · exact hp.short ⟨e', h', hne⟩
    · obtain rfl := List.mem_singleton.mp h'
      exact absurd hfull hne

/-- A request for the next bytes that is not answered with an error. -/
lemma Progress.request {addr n : ℕ} {h : Trace} (hp : Progress addr n h) {e : Event} {s : Setup}
    {m : ℤ} (he : control e = some (s, m)) (h₀ : 0 ≤ m) (hm : m ≤ s.wLength)
    (haddr : s.wValue * 2 ^ 16 + s.wIndex = (addr + n) % 2 ^ 32) :
    Progress addr (n + s.wLength) (h ++ [e]) := by
  have hmoved : (h ++ [e]).flatMap moved = h.flatMap moved ++ region (addr + n) m.toNat := by
    rw [List.flatMap_append, List.flatMap_singleton, moved, he]
    simp only [haddr, region_mod]
  have hfull : full e ↔ m = s.wLength := by
    constructor
    · intro h'; exact h' s m he
    · intro h' s' m' he'
      rw [he] at he'
      obtain ⟨rfl, rfl⟩ := Prod.mk.inj (Option.some.inj he')
      exact h'
  have hb := hp.bound
  refine ⟨?_, ?_, ?_, ?_⟩
  · intro e' he'
    rcases List.mem_append.mp he' with h' | h'
    · exact hp.fine e' h'
    · obtain rfl := List.mem_singleton.mp h'
      rintro ⟨s', m', he'', hneg⟩
      rw [he] at he''
      obtain ⟨rfl, rfl⟩ := Prod.mk.inj (Option.some.inj he'')
      omega
  · intro hw
    have hme := hfull.mp (hw e (by simp))
    rw [hmoved, hp.whole fun e' h' => hw e' (List.mem_append_left _ h'), hme, Int.toNat_natCast,
      region_add]
  · rw [hmoved, List.length_append, region_length]; omega
  · rintro ⟨e', he', hne⟩
    rw [hmoved, List.length_append, region_length]
    rcases List.mem_append.mp he' with h' | h'
    · have := hp.short ⟨e', h', hne⟩; omega
    · obtain rfl := List.mem_singleton.mp h'
      have : m ≠ s.wLength := fun h => hne (hfull.mpr h)
      omega

/-- How a routine is left: with success and everything asked for, with failure after an error,
or with failure and nothing asked for. -/
inductive Outcome (ok : Prop) (addr size : ℕ) (h : Trace) : Prop
  | asked (hok : ok) (hp : Progress addr size h)
  | broken (hok : ¬ ok) (hf : ∃ e ∈ h, failed e)
  | nothing (hok : ¬ ok) (hp : Progress addr 0 h)

lemma Outcome.silent {ok : Prop} {addr size : ℕ} {h : Trace} (ho : Outcome ok addr size h)
    {e : Event} (he : control e = none) : Outcome ok addr size (h ++ [e]) := by
  cases ho with
  | asked hok hp => exact .asked hok (hp.silent he)
  | broken hok hf =>
    obtain ⟨e', he', hf⟩ := hf
    exact .broken hok ⟨e', List.mem_append_left _ he', hf⟩
  | nothing hok hp => exact .nothing hok (hp.silent he)

/-- What a request for `len` bytes ends with, from the number its caller looks at. -/
def Requested (addr n len : ℕ) (ok : Prop) (h : Trace) : Prop :=
  (ok ∧ Progress addr (n + len) h) ∨ (¬ ok ∧ ∃ e ∈ h, failed e)

lemma Requested.silent {addr n len : ℕ} {ok : Prop} {h : Trace}
    (hr : Requested addr n len ok h) {e : Event} (he : control e = none) :
    Requested addr n len ok (h ++ [e]) := by
  rcases hr with ⟨hok, hp⟩ | ⟨hok, e', he', hf⟩
  · exact .inl ⟨hok, hp.silent he⟩
  · exact .inr ⟨hok, e', List.mem_append_left _ he', hf⟩

section Turns

variable {addr n : ℕ} {h : Trace}

end Turns

/-! ### The four routines -/

section Rom

variable {rom : AmlUsbRomRW} (hdev : rom.device ≠ .null) {t : Trace} {r : ℤ × AmlUsbRomRW}
include hdev

end Rom

/-- A routine for memory on the control endpoint, with its arguments. -/
inductive Routine
  | ctrlRdWr (dev : Device) (addr : ℕ) (buf : Bytes) (len : ℤ) (doRead : Bool) (timeout : ℤ)
  | readMemCtr (rom : AmlUsbRomRW)
  | writeMemCtr (rom : AmlUsbRomRW)
  | ctrlWr (rom : AmlUsbRomRW)

namespace Routine

/-- Whether the result stands for success. -/
def run : Routine → Program Bool
  | ctrlRdWr dev addr buf len doRead timeout =>
    amlLibusbCtrlRdWr dev addr buf len doRead timeout >>= fun r => .ret (r.1 = 0)
  | readMemCtr rom => amlUsbReadMemCtr rom >>= fun r => .ret (r.1 = 0)
  | writeMemCtr rom => amlUsbWriteMemCtr rom >>= fun r => .ret (r.1 = 1)
  | ctrlWr rom => amlUsbCtrlWr rom >>= fun r => .ret (r.1 = 0)

/-- The address of the memory asked for. -/
def addr : Routine → ℕ
  | ctrlRdWr _ addr _ _ _ _ => addr
  | readMemCtr rom => rom.address
  | writeMemCtr rom => rom.address
  | ctrlWr rom => getU32 rom.buffer 0

/-- The number of bytes asked for. -/
def size : Routine → ℕ
  | ctrlRdWr _ _ _ len _ _ => len.toNat
  | readMemCtr rom => rom.bufferLen
  | writeMemCtr rom => rom.bufferLen
  | ctrlWr rom => rom.bufferLen - 4

end Routine

lemma ctrlRdWr_null (addr : ℕ) (buf : Bytes) (len : ℤ) (doRead : Bool) (timeout : ℤ) :
    amlLibusbCtrlRdWr .null addr buf len doRead timeout = .ret (-645, buf) := by
  rw [amlLibusbCtrlRdWr, openUsbDevice_null]; rfl

end AmlogicUpdate.CtrlMem

import AmlogicUpdate.CtrlMem
import AmlogicUpdate.MemFiles
import AmlogicUpdate.ReadMedia

/-!
What a result 0 of the commands that move data is worth: `read`, `dump` and `rreg` to a file,
`write` and `cwr` from one.

A loop moves what it counts, in order, up to control transfers that were short. It counts in 32
bits, it does not need its file to have opened, and what the file took does not reach the result.
Of the transfers that go wrong it gives up on those that carry its data and fail; one that is short
it takes for done, or goes on with the rest, and a start command that is refused it sends again.
-/

namespace AmlogicUpdate.DataCommands

open Interaction CData Usb AmlLibusb UsbRomDrv Update Wire ReadMedia
open MemFiles (Reader)
open CtrlMem (control)
open AmlogicUpdate.LargeMem (calls_largeRound amlUsbReadLargeMem_runs amlUsbWriteLargeMem_runs)

/-! ### Views -/

/-- The bytes the device gave in a control transfer from it. -/
def answered : Event → Bytes
  | ⟨.controlIn _ s _, r⟩ =>
    have r : InResult s.wLength := r
    r.data.1.take (usbControlResult r.status r.data.1.length).toNat
  | _ => []

/-- The bytes the device took in a control transfer to it. -/
def taken : Event → Bytes
  | ⟨.controlOut _ s data _, r⟩ =>
    have r : OutResult s.wLength := r
    data.take (usbControlResult r.status r.actual).toNat
  | _ => []

/-- A control transfer moved all it was asked for, if it is one. -/
def fullControl (e : Event) : Bool :=
  match control e with
  | some (s, n) => n = s.wLength
  | none => true

/-- Bulk transfers that are short are followed by others for the rest. -/
def anyTransfer (_ : Event) : Bool := true

@[simp] lemma all_anyTransfer (t : Trace) : t.all anyTransfer = true :=
  List.all_eq_true.mpr fun _ _ => rfl

/-- A transfer that moved less than it was asked for and was not reported as an error. -/
def short (e : Event) : Bool := (outcome e).any fun x => 0 ≤ x.1 && x.1 < x.2

/-- A transfer moved all it was asked for, and a write stored all it was given. -/
def complete (e : Event) : Bool := carried e && fullWrite e

/-- What a command lets pass, moving its data over the bulk endpoints or not: what is short, and
with bulk transfers the failure of a start command. -/
def overlooked (bulk : Bool) (e : Event) : Bool :=
  short e || !fullWrite e || (bulk && !isBulk e.1 && failed e)

/-- What it gives up on: the failure of a transfer that carries its data. -/
def heeded (bulk : Bool) (e : Event) : Bool := failed e && (!bulk || isBulk e.1)

/-- Nothing has happened that the command gives up on. -/
def Calm (bulk : Bool) (t : Trace) : Prop := ∀ e ∈ t, heeded bulk e = false

lemma outcome_le {e : Event} {x : ℤ × ℕ} (h : outcome e = some x) : x.1 ≤ x.2 := by
  have hout : ∀ {n : ℕ} (r : OutResult n), ((r.actual : ℕ) : ℤ) ≤ n := fun r => by
    have := r.actual.2
    omega
  have hin : ∀ {n : ℕ} (r : InResult n), ((r.data.1.length : ℕ) : ℤ) ≤ n := fun r => by
    have := r.data.2
    omega
  unfold outcome at h
  split at h
  · obtain rfl := Option.some.inj h
    exact (usbBulkIo_le _ _).trans (hout _)
  · obtain rfl := Option.some.inj h
    exact (usbBulkIo_le _ _).trans (hin _)
  · obtain rfl := Option.some.inj h
    exact (usbControlResult_le _ _).trans (hout _)
  · obtain rfl := Option.some.inj h
    exact (usbControlResult_le _ _).trans (hin _)
  · cases h

lemma complete_eq (e : Event) : complete e = (!short e && !failed e && fullWrite e) := by
  cases h : outcome e with
  | none => simp [complete, carried, short, failed, h]
  | some x =>
    have hle := outcome_le h
    have hx : decide (x.1 = x.2) =
        (!(decide (0 ≤ x.1) && decide (x.1 < x.2)) && !decide (x.1 < 0)) := by
      rw [Bool.eq_iff_iff]
      simp only [decide_eq_true_eq, Bool.and_eq_true, Bool.not_eq_true', Bool.and_eq_false_iff,
        decide_eq_false_iff_not]
      omega
    simp only [complete, carried, short, failed, h, Option.all_some, Option.any_some, hx]

/-- An event is as it should be unless it is overlooked or given up on. -/
lemma complete_iff (bulk : Bool) (e : Event) :
    complete e = true ↔ overlooked bulk e = false ∧ heeded bulk e = false := by
  rw [complete_eq, overlooked, heeded]
  cases short e <;> cases failed e <;> cases fullWrite e <;> cases bulk <;>
    cases isBulk e.1 <;> decide

/-- In a run without failures the command gives up on, what is overlooked is all that can be
amiss. -/
lemma Calm.complete_iff {bulk : Bool} {t : Trace} (h : Calm bulk t) :
    t.all complete = true ↔ ∀ e ∈ t, overlooked bulk e = false := by
  rw [List.all_eq_true]
  refine forall₂_congr fun e he => ?_
  rw [DataCommands.complete_iff bulk, h e he]
  exact and_iff_left rfl

lemma complete_fullWrite (e : Event) (h : complete e = true) : fullWrite e = true :=
  (Bool.and_eq_true _ _ ▸ h).2

lemma complete_fullControl (e : Event) (h : complete e = true) : fullControl e = true := by
  have hcount := (Bool.and_eq_true _ _ ▸ h).1
  obtain ⟨o, r⟩ := e
  cases o
  case controlIn => simpa [fullControl, CtrlMem.control, carried, outcome] using hcount
  case controlOut => simpa [fullControl, CtrlMem.control, carried, outcome] using hcount
  all_goals rfl

lemma calm_nil (bulk : Bool) : Calm bulk [] := nofun

lemma Calm.append {bulk : Bool} {h t : Trace} (hh : Calm bulk h) (ht : Calm bulk t) :
    Calm bulk (h ++ t) := by
  intro e he
  rcases List.mem_append.mp he with he | he
  · exact hh e he
  · exact ht e he

lemma calm_single {bulk : Bool} {e : Event} (h : heeded bulk e = false) : Calm bulk [e] := by
  intro e' he
  obtain rfl := List.mem_singleton.mp he
  exact h

/-- What is no transfer cannot fail. -/
lemma heeded_other {bulk : Bool} {e : Event} (h : outcome e = none) : heeded bulk e = false := by
  rw [heeded, failed, h]
  rfl

lemma calm_clock {bulk : Bool} {t : Trace} (h : ∀ e ∈ t, e.1 = .clock) : Calm bulk t := by
  rintro ⟨o, r⟩ he
  obtain rfl : o = .clock := h _ he
  exact heeded_other rfl

lemma calm_unbroken {t : Trace} (h : LargeMem.Unbroken t) : Calm true t := by
  intro e he
  cases hbulk : isBulk e.1 with
  | false => simp [heeded, hbulk]
  | true => simp [heeded, h e he hbulk]

lemma mirrors_any {view : Event → Bytes} {data : Bytes} {t : Trace} (h : t.flatMap view = data) :
    Mirrors anyTransfer view data t := by
  refine ⟨fun _ => h, fun hall => ?_⟩
  rw [all_anyTransfer] at hall
  cases hall

/-! ### What was read and kept -/

/-- What a file is offered of some data, if there is a file. -/
def offered (save : Bool) (data : Bytes) : Bytes := if save then data else []

lemma offered_append (save : Bool) (data data' : Bytes) :
    offered save (data ++ data') = offered save data ++ offered save data' := by
  cases save <;> rfl

/-- A part of a run has read `n` bytes, and offered them to the file. -/
def Reading (bulk : Bool) (view : Event → Bytes) (whole : Event → Bool) (save : Bool) (n : ℕ)
    (t : Trace) : Prop :=
  Calm bulk t ∧ ∃ data, data.length = n ∧ Mirrors whole view data t ∧
    Mirrors fullWrite written (offered save data) t

section Reading

variable {bulk : Bool} {view : Event → Bytes} {whole : Event → Bool} {save : Bool} {n m : ℕ}
  {h t : Trace}

lemma reading_nil : Reading bulk view whole save 0 [] :=
  ⟨calm_nil bulk, [], rfl, mirrors_nil, by cases save <;> exact mirrors_nil⟩

lemma Reading.append (hh : Reading bulk view whole save n h)
    (ht : Reading bulk view whole save m t) : Reading bulk view whole save (n + m) (h ++ t) := by
  obtain ⟨hcalm, data, hn, hv, hw⟩ := hh
  obtain ⟨hcalm', data', hm, hv', hw'⟩ := ht
  refine ⟨hcalm.append hcalm', data ++ data', by rw [List.length_append, hn, hm], hv.append hv', ?_⟩
  rw [offered_append]
  exact hw.append hw'

/-- A part that only reads, and the write of what it has read. -/
lemma Reading.of_quiet {data : Bytes} (hcalm : Calm bulk t) (hview : Mirrors whole view data t)
    (hquiet : ∀ e ∈ t, Quiet e.1) (hn : data.length = n) :
    Reading bulk view whole false n t := by
  refine ⟨hcalm, data, hn, hview, mirrors_silent fun e he => written_of_not_fwrite (hquiet e he)⟩

lemma Reading.write {data : Bytes} (hcalm : Calm bulk t) (hview : Mirrors whole view data t)
    (hquiet : ∀ e ∈ t, Quiet e.1) (hn : data.length = n) (k : Fin (data.length + 1))
    (hsilent : view ⟨.fwrite data, k⟩ = [] ∧ whole ⟨.fwrite data, k⟩ = true) :
    Reading bulk view whole true n (t ++ [⟨.fwrite data, k⟩]) ∧
      ((t ++ [(⟨.fwrite data, k⟩ : Event)]).all fullWrite = true ↔ (k : ℕ) = n) := by
  have hnone : t.flatMap written = [] ∧ t.all fullWrite = true := flatMap_written hquiet
  have hfull : fullWrite ⟨.fwrite data, k⟩ = true ↔ (k : ℕ) = n := by
    simp only [fullWrite, decide_eq_true_eq, Fin.ext_iff, Fin.val_last, hn]
  have hall : (t ++ [(⟨.fwrite data, k⟩ : Event)]).all fullWrite = true ↔ (k : ℕ) = n := by
    rw [List.all_append, hnone.2, Bool.true_and, List.all_cons, List.all_nil, Bool.and_true, hfull]
  have hgot : (t ++ [(⟨.fwrite data, k⟩ : Event)]).flatMap written = data.take k := by
    rw [List.flatMap_append, hnone.1]
    exact List.append_nil _
  have hone : Mirrors whole view [] [⟨.fwrite data, k⟩] :=
    mirrors_silent fun e he => by
      obtain rfl := List.mem_singleton.mp he
      exact hsilent
  refine ⟨⟨hcalm.append (calm_single (heeded_other rfl)), data, hn, ?_, ?_, fun hshort => ?_⟩, hall⟩
  · have happend := hview.append hone
    rwa [List.append_nil] at happend
  · intro h
    rw [hgot, hall.mp h, ← hn, List.take_length]
    rfl
  · have hne : (k : ℕ) ≠ n := fun he => by
      rw [hall.mpr he] at hshort
      cases hshort
    have hk := k.2
    rw [hgot, List.length_take, offered, if_pos rfl]
    omega

/-- The clock is read in between, for the display. -/
lemma Reading.clock (hread : Reading bulk delivered anyTransfer save n h)
    (hclock : ∀ e ∈ t, e.1 = .clock) :
    Reading bulk delivered anyTransfer save n (h ++ t) := by
  obtain ⟨-, hdelivered, hwritten, hfull⟩ := clock_unseen hclock
  refine hread.append (m := 0) ⟨calm_clock hclock, [], rfl, mirrors_any hdelivered, ?_⟩
  have hnone : Mirrors fullWrite written [] t :=
    mirrors_silent fun e he =>
      ⟨List.flatMap_eq_nil_iff.mp hwritten e he, List.all_eq_true.mp hfull e he⟩
  cases save <;> exact hnone

end Reading

/-! ### `read` and `dump` -/

lemma quiet_plain : CommandText.Plain Quiet := ⟨fun _ => nofun, fun _ => nofun, nofun⟩

lemma usbControlMsg_quiet (handle : Option Handle) (bmRequestType bRequest : ℕ)
    (wValue wIndex : ℤ) (bytes : Bytes) (size timeout : ℤ) :
    Calls Quiet (usbControlMsg handle bmRequestType bRequest wValue wIndex bytes size timeout) := by
  cases handle with
  | none => exact CommandText.calls_segfault quiet_plain
  | some hd => exact calls_ite (fun _ => ⟨nofun, fun _ => trivial⟩) fun _ =>
    ⟨nofun, fun _ => trivial⟩

lemma readBulkUsb_quiet (drv : AmlUsbDrv) (buf : Bytes) (len : ℕ) :
    Calls Quiet (readBulkUsb drv buf len) := by
  refine calls_bind ?_ fun _ => trivial
  unfold usbReadFile
  refine calls_ite (fun _ => trivial) fun _ => calls_bind ?_ fun _ => trivial
  cases drv.handle with
  | none => exact CommandText.calls_segfault quiet_plain
  | some hd => exact ⟨nofun, fun _ => trivial⟩

lemma amlUsbReadLargeMem_quiet (seqNum : ℕ) (rom : AmlUsbRomRW) :
    Calls Quiet (amlUsbReadLargeMem seqNum rom) := by
  refine calls_bind (CommandText.calls_openUsbDevice quiet_plain _) fun ⟨ok, drv⟩ => ?_
  refine calls_ite (fun _ => trivial) fun _ => calls_bind (calls_iterate (fun s => ?_) _ _) fun s =>
    calls_bind (CommandText.calls_closeUsbDevice quiet_plain drv) fun _ => trivial
  exact calls_largeRound
    (fun _ _ _ => calls_bind (calls_usbDeviceIoControl (usbControlMsg_quiet _) _ _ _ _ _ _)
      fun _ => calls_ret _)
    (fun _ _ _ => calls_bind (readBulkUsb_quiet _ _ _) fun _ => calls_ret _) _ s

/-- How a turn ends: the way out, a failure, or a piece that was read and offered to the file. -/
inductive DumpTurn (save : Bool) (s : Dump) (t : Trace) : Loop Dump (Bool × ℤ) → Prop
  | finished (hsize : s.transferSize = 0) (ht : t = []) : DumpTurn save s t (.done (true, 0))
  | failed {ret : ℤ} (hret : ret ≠ 0) : DumpTurn save s t (.done (false, ret))
  | piece {n : ℕ} {s' : Dump} (hread : Reading true delivered anyTransfer save n t)
      (hsize : n + s'.transferSize = s.transferSize)
      (hbuf : s'.rom.buffer.length = s.rom.buffer.length) : DumpTurn save s t (.next s')
  | full {n : ℕ} (hread : Reading true delivered anyTransfer save n t) (hsize : n ≤ s.transferSize)
      (hshort : t.all fullWrite = false) : DumpTurn save s t (.done (true, -648))

lemma u32_sub {n k : ℕ} (hn : n < 2 ^ 32) (hk : k ≤ n) : k + u32 ((n : ℤ) - k) = n := by
  unfold u32
  omega

lemma dumpTurn_runs {isDump save : Bool} {s : Dump} {t : Trace} {l : Loop Dump (Bool × ℤ)}
    (hbuf : 0x10000 ≤ s.rom.buffer.length) (hsize : s.transferSize < 2 ^ 32)
    (hr : Runs (dumpTurn isDump save s) t l) : DumpTurn save s t l := by
  unfold dumpTurn at hr
  by_cases hz : s.transferSize = 0
  · rw [if_neg (not_not.mpr hz)] at hr
    obtain ⟨ht, rfl⟩ := runs_ret.mp hr
    exact .finished hz ht
  rw [if_pos hz] at hr
  dsimp only at hr
  have hbulk : ∀ k, k = (if isDump = true ∧ 0x10000 ≤ s.transferSize then 0x10000
      else if isDump = true ∧ 0x1000 ≤ s.transferSize then 0x1000
      else min s.transferSize 0x200) → k ≤ 0x10000 ∧ k ≤ s.transferSize := by
    rintro k rfl
    split_ifs <;> omega
  generalize hk : (if isDump = true ∧ 0x10000 ≤ s.transferSize then 0x10000
      else if isDump = true ∧ 0x1000 ≤ s.transferSize then 0x1000
      else min s.transferSize 0x200) = k at hr
  obtain ⟨h₁, hle⟩ := hbulk k hk.symm
  obtain ⟨⟨ret, rom, seqNum⟩, t₁, t₂, rfl, hread, hrest⟩ := runs_bind.mp hr
  dsimp only at hrest
  by_cases hret : ret = 0
  swap
  · rw [if_pos hret] at hrest
    obtain ⟨-, rfl⟩ := runs_ret.mp hrest
    exact .failed (by decide)
  rw [if_neg (not_not.mpr hret)] at hrest
  have hquiet : ∀ e ∈ t₁, Quiet e.1 := fun e he => (amlUsbReadLargeMem_quiet _ _).event hread he
  obtain ⟨hdata, hlen, hmoved, hunbroken⟩ :=
    amlUsbReadLargeMem_runs _ (by dsimp only; omega) hread hret
  have hcalm := calm_unbroken hunbroken
  dsimp only at hdata hlen hmoved
  by_cases hempty : rom.dataSize = 0
  · rw [if_pos hempty] at hrest
    obtain ⟨-, rfl⟩ := runs_ret.mp hrest
    exact .failed (by decide)
  rw [if_neg hempty] at hrest
  have hpiece : (rom.buffer.take k).length = k := by rw [List.length_take]; omega
  have hleft : k + u32 ((s.transferSize : ℤ) - rom.dataSize) = s.transferSize := by
    rw [hdata]
    exact u32_sub hsize hle
  cases save with
  | false =>
    simp only [Bool.false_eq_true, if_false, Prog.pure_eq_ret, Prog.ret_bind, ne_eq,
      not_true_eq_false] at hrest
    obtain ⟨rfl, rfl⟩ := runs_ret.mp hrest
    rw [List.append_nil]
    exact .piece (.of_quiet hcalm (mirrors_any hmoved) hquiet hpiece) hleft hlen
  | true =>
    simp only [if_true, fwrite, Prog.call_bind, Prog.ret_bind] at hrest
    obtain ⟨w, t₃, rfl, hend⟩ := runs_call.mp hrest
    obtain ⟨hreading, hfull⟩ := Reading.write hcalm (mirrors_any hmoved) hquiet hpiece w ⟨rfl, rfl⟩
    by_cases hw : (w : Fin ((rom.buffer.take k).length + 1)).val = k
    · rw [if_neg (not_not.mpr hw)] at hend
      obtain ⟨info, t₄, t₅, rfl, hshown, hnext⟩ := runs_bind.mp hend
      obtain ⟨rfl, rfl⟩ := runs_ret.mp hnext
      have hclock : ∀ e ∈ t₄, e.1 = .clock := fun e he =>
        (s.info.updateProgress_calls _).event hshown he
      rw [List.append_nil, List.append_cons]
      exact .piece (hreading.clock hclock) hleft hlen
    · rw [if_pos hw] at hend
      obtain ⟨rfl, rfl⟩ := runs_ret.mp hend
      exact .full hreading hle (by rw [← Bool.not_eq_true, hfull]; exact hw)

/-- Between the turns of `read` and `dump`. -/
structure Dumping (save : Bool) (total : ℕ) (s : Dump) (h : Trace) : Prop where
  read : ∃ n, Reading true delivered anyTransfer save n h ∧ n + s.transferSize = total
  buffer : 0x10000 ≤ s.rom.buffer.length

/-- What a loop has read when it is left: all of it, unless the file took too little. -/
def HasRead (bulk : Bool) (view : Event → Bytes) (whole : Event → Bool) (save : Bool) (total : ℕ)
    (t : Trace) : Prop :=
  ∃ n ≤ total, Reading bulk view whole save n t ∧ (t.all fullWrite = true → n = total)

lemma dumpLoop_runs {isDump save : Bool} {turns : ℕ} {s : Dump} {t : Trace} {r : Bool × ℤ}
    (hbuf : 0x10000 ≤ s.rom.buffer.length) (hsize : s.transferSize < 2 ^ 32)
    (hr : Runs (iterate (dumpTurn isDump save) turns s) t r) (hzero : r.1 = true ∨ r.2 = 0) :
    HasRead true delivered anyTransfer save s.transferSize t := by
  refine runs_iterate (I := Dumping save s.transferSize)
    (Q := fun r h => r.1 = true ∨ r.2 = 0 →
      HasRead true delivered anyTransfer save s.transferSize h)
    (fun s₁ h t' s₂ hI hnext => ?_) (fun s₁ h t' b hI hdone hb => ?_) (h := [])
    ⟨⟨0, reading_nil, Nat.zero_add _⟩, hbuf⟩ hr hzero
  · obtain ⟨⟨n, hread, htotal⟩, hbuf'⟩ := hI
    cases dumpTurn_runs hbuf' (by omega) hnext with
    | piece hread' hsize' hlen => exact ⟨⟨_, hread.append hread', by omega⟩, by omega⟩
  · obtain ⟨⟨n, hread, htotal⟩, hbuf'⟩ := hI
    cases dumpTurn_runs hbuf' (by omega) hdone with
    | finished hz ht =>
      subst ht
      rw [List.append_nil]
      exact ⟨n, by omega, hread, fun _ => by omega⟩
    | failed hret => exact absurd hb (by simpa using hret)
    | full hread' hsize' hshort =>
      refine ⟨_, by omega, hread.append hread', fun hall => ?_⟩
      rw [List.all_append, hshort, Bool.and_false] at hall
      cases hall

/-! ### `rreg` -/

lemma usbControlResult_eq {status : Option LibusbError} {n : ℕ}
    (h : 0 ≤ usbControlResult status n) :
    usbControlResult status n = n := by
  cases status with
  | none => rfl
  | some e => exact absurd (compatErr_neg e) (Int.not_lt.mpr h)

/-- An answer that was not an error fills its part of the buffer, unless it is short. -/
lemma answered_mirrors (hd : Handle) {s : Setup} (timeout : ℤ) (r : InResult s.wLength)
    {buf : Bytes}
    (hok : 0 ≤ usbControlResult r.status r.data.1.length) (hbuf : s.wLength ≤ buf.length) :
    Mirrors fullControl answered ((blit buf 0 r.data.1).take s.wLength)
      [⟨.controlIn hd s timeout, r⟩] := by
  have hres := usbControlResult_eq hok
  have hgot : ([⟨.controlIn hd s timeout, r⟩] : Trace).flatMap answered = r.data.1 := by
    simp only [List.flatMap_singleton, answered, hres, Int.toNat_natCast, List.take_length]
  have hwhole : ([⟨.controlIn hd s timeout, r⟩] : Trace).all fullControl = true ↔
      r.data.1.length = s.wLength := by
    simp [fullControl, CtrlMem.control, hres]
  have hle : (r.data.1).length ≤ s.wLength := r.data.2
  rw [blit_zero]
  refine ⟨fun h => ?_, fun h => ?_⟩
  · rw [hgot, List.take_left' (hwhole.mp h)]
  · have hne : r.data.1.length ≠ s.wLength := fun he => by
      rw [hwhole.mpr he] at h
      cases h
    rw [hgot, List.length_take, List.length_append, List.length_drop]
    omega

/-- Between the requests of a read of `len` bytes into a buffer of `size`. -/
structure Answering (len size : ℕ) (s : CtrlRdWr) (h : Trace) : Prop where
  calm : Calm false h
  read : Mirrors fullControl answered (s.buf.take s.processed) h
  bound : s.processed ≤ len
  buffer : s.buf.length = size

lemma ctrlRdWrTurn_next {hd : Handle} {len size : ℕ} {timeout : ℤ} {s s' : CtrlRdWr} {h t : Trace}
    (hsize : len ≤ size) (hI : Answering len size s h)
    (hr : Runs (ctrlRdWrTurn (some hd) len true timeout s) t (.next s')) :
    Answering len size s' (h ++ t) := by
  obtain ⟨hcalm, hread, hbound, hbuf⟩ := hI
  unfold ctrlRdWrTurn at hr
  by_cases hlt : (s.processed : ℤ) < len
  swap
  · rw [if_neg hlt] at hr
    cases (runs_ret.mp hr).2
  rw [if_pos hlt] at hr
  dsimp only at hr
  have hchunk : (min ((len : ℤ) - s.processed) 64).toNat ≤ 64 ∧
      s.processed + (min ((len : ℤ) - s.processed) 64).toNat ≤ len := by omega
  generalize (min ((len : ℤ) - s.processed) 64).toNat = n at hchunk hr
  simp only [if_true] at hr
  obtain ⟨_, t₁, t₂, rfl, hmsg, hrest⟩ := runs_bind.mp hr
  rw [usbControlMsg_readMem hd s.addr _ hchunk.1 timeout] at hmsg
  obtain ⟨res, t', rfl, hret⟩ := runs_call.mp hmsg
  obtain ⟨rfl, rfl⟩ := runs_ret.mp hret
  dsimp only at hrest
  by_cases hneg : usbControlResult res.status res.data.1.length < 0
  · rw [if_pos hneg] at hrest
    cases (runs_ret.mp hrest).2
  rw [if_neg hneg] at hrest
  obtain ⟨rfl, he⟩ := runs_ret.mp hrest
  obtain rfl := Loop.next.inj he
  have hdrop : n ≤ (s.buf.drop s.processed).length := by rw [List.length_drop]; omega
  have hone : Mirrors fullControl answered ((blit (s.buf.drop s.processed) 0 res.data.1).take n)
      [⟨.controlIn hd (memSetup true s.addr n) timeout, res⟩] :=
    answered_mirrors hd timeout res (Int.not_lt.mp hneg) hdrop
  have hdata : (res.data.1).length ≤ n := res.data.2
  have htake : (s.buf.take s.processed).length = s.processed := by rw [List.length_take]; omega
  refine ⟨hcalm.append (calm_single ?_), ?_, ?_, ?_⟩
  · simp [heeded, failed, outcome, hneg]
  · dsimp only
    rw [List.take_append, htake, List.take_take, Nat.min_eq_right (Nat.le_add_right _ _),
      Nat.add_sub_cancel_left]
    exact hread.append hone
  · exact hchunk.2
  · dsimp only
    rw [List.length_append, blit_length (by omega), htake, List.length_drop]
    omega

lemma ctrlRdWrTurn_done {handle : Option Handle} {len : ℤ} {timeout : ℤ} {s s' : CtrlRdWr}
    {t : Trace} (hr : Runs (ctrlRdWrTurn handle len true timeout s) t (.done s'))
    (hret : 0 ≤ s'.ret) :
    t = [] ∧ s' = s ∧ len ≤ s.processed := by
  unfold ctrlRdWrTurn at hr
  by_cases hlt : (s.processed : ℤ) < len
  swap
  · rw [if_neg hlt] at hr
    obtain ⟨ht, he⟩ := runs_ret.mp hr
    exact ⟨ht, Loop.done.inj he, Int.not_lt.mp hlt⟩
  rw [if_pos hlt] at hr
  obtain ⟨r, t₁, t₂, rfl, -, hrest⟩ := runs_bind.mp hr
  dsimp only at hrest
  by_cases hneg : r.1 < 0
  · rw [if_pos hneg] at hrest
    obtain rfl := Loop.done.inj (runs_ret.mp hrest).2
    exact absurd hneg (Int.not_lt.mpr hret)
  · rw [if_neg hneg] at hrest
    cases (runs_ret.mp hrest).2

/-- A read through the control endpoint that reports success. -/
lemma ctrlRdWr_runs {dev : Device} {addr len : ℕ} {buf : Bytes} {timeout : ℤ} {t : Trace}
    {r : ℤ × Bytes} (hlen : len ≤ buf.length)
    (hr : Runs (amlLibusbCtrlRdWr dev addr buf len true timeout) t r) (hret : r.1 = 0) :
    Calm false t ∧ Mirrors fullControl answered (r.2.take len) t ∧ r.2.length = buf.length := by
  by_cases hdev : dev = .null
  · rw [hdev, CtrlMem.ctrlRdWr_null] at hr
    obtain ⟨-, rfl⟩ := runs_ret.mp hr
    simp at hret
  obtain ⟨hd, s, t', rfl, hloop, rfl⟩ := runs_opened hdev
    (fun drv => iterate (ctrlRdWrTurn drv.handle len true timeout) ((len : ℤ).toNat + 1)
      ⟨0, 0, addr, buf⟩) (fun _ => rfl) hr
  have hI : Answering len buf.length ⟨0, 0, addr, buf⟩ [] :=
    ⟨calm_nil _, mirrors_nil, Nat.zero_le _, rfl⟩
  have hend := runs_iterate (Q := fun s h => 0 ≤ s.ret → Calm false h ∧
      Mirrors fullControl answered (s.buf.take len) h ∧ s.buf.length = buf.length)
    (fun _ _ _ _ hI hnext => ctrlRdWrTurn_next hlen hI hnext)
    (fun s₁ h t' s₂ hI hdone hpos => ?_) hI hloop
  · have hpos : 0 ≤ s.ret := by
      by_contra hneg
      simp [if_pos (Int.not_le.mp hneg)] at hret
    obtain ⟨hcalm, hread, hbuf⟩ := hend hpos
    have hcalm' : ∀ e : Event, outcome e = none → Calm false [e] :=
      fun e he => calm_single (heeded_other he)
    refine ⟨((hcalm' ⟨.libusbOpen dev, some hd⟩ rfl).append hcalm).append
      (hcalm' ⟨.libusbClose hd, ()⟩ rfl), ?_, hbuf⟩
    have hsilent : ∀ e : Event, control e = none → answered e = [] →
        Mirrors fullControl answered [] [e] := fun e hc ha => mirrors_silent fun e' he => by
      obtain rfl := List.mem_singleton.mp he
      exact ⟨ha, by rw [fullControl, hc]⟩
    have hopen := hsilent ⟨.libusbOpen dev, some hd⟩ rfl rfl
    have hclose := hsilent ⟨.libusbClose hd, ()⟩ rfl rfl
    have happend := (hopen.append hread).append hclose
    rwa [List.append_nil, List.nil_append] at happend
  · obtain ⟨rfl, rfl, hle⟩ := ctrlRdWrTurn_done hdone hpos
    obtain ⟨hcalm, hread, hbound, hbuf⟩ := hI
    rw [List.append_nil]
    have hall : s₂.processed = len := by omega
    rw [← hall]
    exact ⟨hcalm, hread, hbuf⟩

lemma amlLibusbCtrlRdWr_quiet (dev : Device) (addr : ℕ) (buf : Bytes) (len : ℤ) (doRead : Bool)
    (timeout : ℤ) : Calls Quiet (amlLibusbCtrlRdWr dev addr buf len doRead timeout) := by
  refine calls_bind (CommandText.calls_openUsbDevice quiet_plain _) fun ⟨ok, drv⟩ => ?_
  refine calls_ite (fun _ => trivial) fun _ => calls_bind (calls_iterate (fun s => ?_) _ _) fun s =>
    calls_bind (CommandText.calls_closeUsbDevice quiet_plain drv) fun _ => trivial
  refine calls_ite (fun _ => calls_bind (usbControlMsg_quiet _ _ _ _ _ _ _ _) fun r => ?_)
    fun _ => trivial
  exact calls_ite (fun _ => trivial) fun _ => trivial

lemma rregTurn_next {dev : Device} {save : Bool} {total : ℕ} {s s' : Rreg} {t : Trace}
    (hbuf : 0x100000 ≤ s.buf.length) (hstream : s.readStream = none)
    (hr : Runs (rregTurn dev true save total s) t (.next s')) :
    ∃ n, Reading false answered fullControl save n t ∧ s'.offset = s.offset + n ∧
      s'.offset ≤ total ∧
      s'.buf.length = s.buf.length ∧ s'.readStream = none := by
  obtain ⟨offset, addr, ret₀, buf, stream⟩ := s
  dsimp only at hbuf hstream
  subst hstream
  unfold rregTurn at hr
  by_cases hlt : offset < total
  swap
  · rw [if_neg hlt] at hr
    cases (runs_ret.mp hr).2
  rw [if_pos hlt] at hr
  dsimp only at hr
  have hbulk : min (total - offset) 0x100000 ≤ 0x100000 ∧
      offset + min (total - offset) 0x100000 ≤ total := by omega
  generalize min (total - offset) 0x100000 = n at hbulk hr
  rw [Prog.pure_eq_ret, Prog.ret_bind] at hr
  obtain ⟨⟨ret, buf'⟩, t₁, t₂, rfl, hread, hrest⟩ := runs_bind.mp hr
  dsimp only at hrest
  by_cases hret : ret = 0
  swap
  · rw [if_pos hret] at hrest
    cases (runs_ret.mp hrest).2
  rw [if_neg (not_not.mpr hret)] at hrest
  have hfits : n ≤ buf.length := by omega
  obtain ⟨hcalm, hmoved, hlen⟩ := ctrlRdWr_runs hfits hread hret
  dsimp only at hmoved hlen
  have hquiet : ∀ e ∈ t₁, Quiet e.1 :=
    fun e he => (amlLibusbCtrlRdWr_quiet _ _ _ _ _ _).event hread he
  have hpiece : (buf'.take n).length = n := by rw [List.length_take]; omega
  cases save with
  | false =>
    simp only [Bool.true_and, Bool.false_eq_true, if_false, Prog.pure_eq_ret, Prog.ret_bind]
      at hrest
    obtain ⟨rfl, he⟩ := runs_ret.mp hrest
    obtain rfl := Loop.next.inj he
    rw [List.append_nil]
    exact ⟨n, .of_quiet hcalm hmoved hquiet hpiece, rfl, hbulk.2, hlen, rfl⟩
  | true =>
    simp only [Bool.true_and, if_true, fwrite, Prog.call_bind, Prog.ret_bind] at hrest
    obtain ⟨w, t₃, rfl, hend⟩ := runs_call.mp hrest
    obtain ⟨rfl, he⟩ := runs_ret.mp hend
    obtain rfl := Loop.next.inj he
    obtain ⟨hreading, -⟩ := Reading.write hcalm hmoved hquiet hpiece w ⟨rfl, rfl⟩
    exact ⟨n, hreading, rfl, hbulk.2, hlen, rfl⟩

lemma rregTurn_done {dev : Device} {save : Bool} {total : ℕ} {s : Rreg} {t : Trace}
    (hr : Runs (rregTurn dev true save total s) t (.done 0)) : t = [] ∧ total ≤ s.offset := by
  unfold rregTurn at hr
  by_cases hlt : s.offset < total
  swap
  · rw [if_neg hlt] at hr
    exact ⟨(runs_ret.mp hr).1, Nat.not_lt.mp hlt⟩
  rw [if_pos hlt] at hr
  obtain ⟨s₁, t₁, t₂, -, -, hrest⟩ := runs_bind.mp hr
  obtain ⟨⟨ret, buf⟩, t₃, t₄, -, -, hend⟩ := runs_bind.mp hrest
  dsimp only at hend
  by_cases hret : ret ≠ 0
  · rw [if_pos hret] at hend
    exact absurd (Loop.done.inj (runs_ret.mp hend).2).symm hret
  · rw [if_neg hret] at hend
    obtain ⟨_, t₅, t₆, -, -, hnext⟩ := runs_bind.mp hend
    cases (runs_ret.mp hnext).2

/-- Between the turns of `rreg`. -/
structure Registers (save : Bool) (total : ℕ) (s : Rreg) (h : Trace) : Prop where
  read : Reading false answered fullControl save s.offset h
  bound : s.offset ≤ total
  buffer : 0x100000 ≤ s.buf.length
  stream : s.readStream = none

lemma rregLoop_runs {dev : Device} {save : Bool} {total turns : ℕ} {s : Rreg} {t : Trace}
    (hI : Registers save total s [])
    (hr : Runs (iterate (rregTurn dev true save total) turns s) t 0) :
    HasRead false answered fullControl save total t := by
  have hend := runs_iterate (Q := fun r h => r = 0 →
    HasRead false answered fullControl save total h)
    (fun s₁ h t' s₂ hI hnext => ?_) (fun s₁ h t' r hI hdone hz => ?_) hI hr rfl
  · exact hend
  · obtain ⟨hread, -, hbuf, hstream⟩ := hI
    obtain ⟨n, hread', hoff, hbound, hlen, hstream'⟩ := rregTurn_next hbuf hstream hnext
    exact ⟨hoff ▸ hread.append hread', hbound, by omega, hstream'⟩
  · subst hz
    obtain ⟨hread, hbound, -, -⟩ := hI
    obtain ⟨rfl, hle⟩ := rregTurn_done hdone
    rw [List.append_nil]
    have hall : s₁.offset = total := by omega
    exact ⟨s₁.offset, hbound, hread, fun _ => hall⟩

/-! ### `write` and `cwr` -/

/-- The commands that send a file. -/
inductive Writer
  | write | cwr

namespace Writer

/-- The bytes the device took. -/
def view : Writer → Event → Bytes
  | write => accepted
  | cwr => taken

/-- Transfers that are not followed by others for the rest are whole. -/
def whole : Writer → Event → Bool
  | write => anyTransfer
  | cwr => fullControl

def isCwr : Writer → Bool
  | write => false
  | cwr => true

/-- The data goes over the bulk endpoints. -/
def bulk (writer : Writer) : Bool := !writer.isCwr

lemma silent (writer : Writer) {e : Event} (hbulk : accepted e = []) (htaken : taken e = [])
    (hcontrol : control e = none) : Mirrors writer.whole writer.view [] [e] := by
  refine mirrors_silent fun e' he => ?_
  obtain rfl := List.mem_singleton.mp he
  cases writer with
  | write => exact ⟨hbulk, rfl⟩
  | cwr => exact ⟨htaken, by rw [whole, fullControl, hcontrol]⟩

lemma whole_of_complete (writer : Writer) {t : Trace} (h : t.all complete = true) :
    t.all writer.whole = true := by
  cases writer with
  | write => exact all_anyTransfer t
  | cwr =>
    exact List.all_eq_true.mpr fun e he => complete_fullControl e (List.all_eq_true.mp h e he)

end Writer

/-- A request that was not refused took its data, unless it was short. -/
lemma taken_mirrors (hd : Handle) {s : Setup} {data : Bytes} (timeout : ℤ) (r : OutResult s.wLength)
    (hok : 0 ≤ usbControlResult r.status r.actual) (hdata : data.length = s.wLength) :
    Mirrors fullControl taken data [⟨.controlOut hd s data timeout, r⟩] := by
  have hres := usbControlResult_eq hok
  have hgot : ([⟨.controlOut hd s data timeout, r⟩] : Trace).flatMap taken =
      data.take r.actual := by
    simp only [List.flatMap_singleton, taken, hres, Int.toNat_natCast]
  have hwhole : ([⟨.controlOut hd s data timeout, r⟩] : Trace).all fullControl = true ↔
      (r.actual : ℕ) = s.wLength := by
    simp [fullControl, CtrlMem.control, hres]
  have hle : (r.actual : ℕ) < s.wLength + 1 := r.actual.2
  refine ⟨fun h => ?_, fun h => ?_⟩
  · rw [hgot, hwhole.mp h, ← hdata, List.take_length]
  · have hne : (r.actual : ℕ) ≠ s.wLength := fun he => by
      rw [hwhole.mpr he] at h
      cases h
    rw [hgot, List.length_take]
    omega

/-- A request of `AmlUsbCtrlWr` that reports success. -/
lemma ctrlWr_runs {rom : AmlUsbRomRW} {addr n : ℕ} {data rest : Bytes} {t : Trace}
    {r : ℤ × AmlUsbRomRW} (hbuf : rom.buffer = le32 addr ++ (data ++ rest))
    (hdata : data.length = n)
    (hlen : rom.bufferLen = n + 4) (hn : n ≤ 64) (hr : Runs (amlUsbCtrlWr rom) t r)
    (hret : r.1 = 0) : Calm false t ∧ Mirrors fullControl taken data t := by
  by_cases hdev : rom.device = .null
  · rw [amlUsbCtrlWr, hdev, openUsbDevice_null] at hr
    obtain ⟨-, rfl⟩ := runs_ret.mp hr
    simp at hret
  obtain ⟨hd, b, t', rfl, hreq, rfl⟩ := runs_opened hdev
    (fun drv => usbDeviceIoControlEx drv .writeMem (some rom.buffer) rom.bufferLen none 0
      rom.dataSize 5000) (fun _ => rfl) hr
  dsimp only at hret
  by_cases hinv : rom.device = .invalid
  · rw [usbDeviceIoControlEx, if_pos hinv] at hreq
    obtain ⟨-, rfl⟩ := runs_ret.mp hreq
    simp at hret
  rw [hbuf, hlen, ctrlWr_eq hinv hd addr rest hdata hn] at hreq
  obtain ⟨res, t₁, rfl, hend⟩ := runs_call.mp hreq
  obtain ⟨rfl, rfl⟩ := runs_ret.mp hend
  have hok : 0 ≤ usbControlResult res.status res.actual := by
    by_contra hneg
    simp [ioctlResult, if_pos (Int.not_le.mp hneg)] at hret
  have hopen := Writer.cwr.silent (e := ⟨.libusbOpen rom.device, some hd⟩) rfl rfl rfl
  have hclose := Writer.cwr.silent (e := ⟨.libusbClose hd, ()⟩) rfl rfl rfl
  have happend := (hopen.append (taken_mirrors hd 50000 res hok hdata)).append hclose
  rw [List.append_nil, List.nil_append] at happend
  refine ⟨?_, happend⟩
  have hcalm : ∀ e : Event, heeded false e = false → Calm false [e] := fun e he => calm_single he
  refine ((hcalm _ (heeded_other rfl)).append (hcalm _ ?_)).append (hcalm _ (heeded_other rfl))
  simp [heeded, failed, outcome, hok]

/-- What the two commands make of one piece. -/
lemma piece_runs (writer : Writer) {rom : AmlUsbRomRW} {buf piece : Bytes} {n seqNum : ℕ}
    {t : Trace}
    {r : ℤ × AmlUsbRomRW × Bytes × ℕ} (hbuf : buf.length = 0x10008) (hpiece : piece.length = n)
    (hn : n ≤ if writer.isCwr then 0x40 else 0x10000)
    (hr : Runs (if writer.isCwr then do
        let buf' := setU32 (blit buf 8 piece) 4 rom.address
        let (ret, rom) ← amlUsbCtrlWr { rom with buffer := buf'.drop 4, bufferLen := n + 4 }
        pure (ret, rom, buf', seqNum)
      else do
        let (ret, rom, seqNum) ← amlUsbWriteLargeMem seqNum
          { rom with buffer := (blit buf 8 piece).drop 8, bufferLen := n }
        pure (ret, rom, blit buf 8 piece, seqNum)) t r) (hret : r.1 = 0) :
    Calm writer.bulk t ∧ Mirrors writer.whole writer.view piece t ∧
      r.2.2.1.length = 0x10008 := by
  have hblit : (blit buf 8 piece).length = 0x10008 := by
    rw [blit_length, hbuf]
    split_ifs at hn <;> omega
  cases writer with
  | cwr =>
    simp only [Writer.isCwr, if_true] at hn hr
    obtain ⟨⟨ret, rom'⟩, t₁, t₂, rfl, hsend, hend⟩ := runs_bind.mp hr
    obtain ⟨rfl, rfl⟩ := runs_ret.mp hend
    rw [List.append_nil]
    obtain ⟨hcalm, hsent⟩ :=
      ctrlWr_runs (ctrlWr_buffer rom.address (by omega)) hpiece rfl hn hsend hret
    refine ⟨hcalm, hsent, ?_⟩
    dsimp only
    rw [setU32, blit_length, hblit]
    rw [le32_length]
    omega
  | write =>
    simp only [Writer.isCwr, Bool.false_eq_true, if_false] at hn hr
    obtain ⟨⟨ret, rom', seqNum'⟩, t₁, t₂, rfl, hsend, hend⟩ := runs_bind.mp hr
    obtain ⟨rfl, rfl⟩ := runs_ret.mp hend
    rw [List.append_nil]
    have hdrop : (blit buf 8 piece).drop 8 = piece ++ buf.drop (8 + piece.length) :=
      blit_drop (by omega)
    have hfits : n ≤ ((blit buf 8 piece).drop 8).length := by rw [List.length_drop]; omega
    obtain ⟨hsent, hunbroken⟩ := amlUsbWriteLargeMem_runs _ hfits hsend hret
    dsimp only at hsent
    rw [hdrop, List.take_left' hpiece] at hsent
    exact ⟨calm_unbroken hunbroken, mirrors_any hsent, hblit⟩

/-- How a turn ends: the way out, a failure, or the next bytes of the file sent. -/
inductive WriteTurn (writer : Writer) (s : Write) (t : Trace) : Loop Write ℤ → Prop
  | finished (hsize : s.transferSize = 0) (ht : t = []) : WriteTurn writer s t (.done 0)
  | failed {ret : ℤ} (hret : ret ≠ 0) : WriteTurn writer s t (.done ret)
  | piece {n : ℕ} {s' : Write} (hcalm : Calm writer.bulk t)
      (hlen : (slice s.file.content s.file.pos n).length = n)
      (hsent : Mirrors writer.whole writer.view (slice s.file.content s.file.pos n) t)
      (hsize : n + s'.transferSize = s.transferSize)
      (hfile : s'.file = { s.file with pos := s.file.pos + n })
      (hbuf : s'.buf.length = 0x10008) : WriteTurn writer s t (.next s')

lemma writeTurn_runs {writer : Writer} {s : Write} {t : Trace} {l : Loop Write ℤ}
    (hbuf : s.buf.length = 0x10008) (hr : Runs (writeTurn writer.isCwr s) t l) :
    WriteTurn writer s t l := by
  unfold writeTurn at hr
  by_cases hz : s.transferSize = 0
  · rw [if_neg (not_not.mpr hz)] at hr
    obtain ⟨ht, rfl⟩ := runs_ret.mp hr
    exact .finished hz ht
  rw [if_pos hz] at hr
  dsimp only at hr
  have hbulk : min s.transferSize (if writer.isCwr then 0x40 else 0x10000) ≤ s.transferSize ∧
      min s.transferSize (if writer.isCwr then 0x40 else 0x10000) ≤
        if writer.isCwr then 0x40 else 0x10000 := by
    split_ifs <;> omega
  generalize min s.transferSize (if writer.isCwr then 0x40 else 0x10000) = n at hbulk hr
  simp only [fread, Prog.call_bind, Prog.ret_bind] at hr
  obtain ⟨k, t₁, rfl, hrest⟩ := runs_call.mp hr
  have hsilent : Mirrors writer.whole writer.view []
      [⟨.fread n (s.file.content.length - s.file.pos), k⟩] := writer.silent rfl rfl rfl
  have hk : (k : Fin (min n (s.file.content.length - s.file.pos) + 1)).val ≤ n :=
    (Nat.lt_succ_iff.mp k.2).trans (Nat.min_le_left _ _)
  generalize (k : Fin (min n (s.file.content.length - s.file.pos) + 1)).val = m at hk hrest
  by_cases hlen : (slice s.file.content s.file.pos m).length = n
  swap
  · rw [if_pos hlen] at hrest
    obtain ⟨-, rfl⟩ := runs_ret.mp hrest
    exact .failed (by decide)
  rw [if_neg (not_not.mpr hlen)] at hrest
  obtain ⟨⟨ret, rom, buf, seqNum⟩, t₂, t₃, rfl, hsend, hend⟩ := runs_bind.mp hrest
  dsimp only at hend
  by_cases hret : ret = 0
  swap
  · rw [if_pos hret] at hend
    obtain ⟨-, rfl⟩ := runs_ret.mp hend
    exact .failed (by decide)
  rw [if_neg (not_not.mpr hret)] at hend
  obtain ⟨rfl, rfl⟩ := runs_ret.mp hend
  obtain ⟨hcalm, hsent, hbuf'⟩ := piece_runs writer hbuf hlen hbulk.2 hsend hret
  obtain rfl : m = n := by
    rw [slice_length] at hlen
    omega
  have happend := hsilent.append hsent
  rw [List.append_nil]
  exact .piece ((calm_single (heeded_other rfl)).append hcalm) hlen happend
    (Nat.add_sub_cancel' hbulk.1) rfl hbuf'

/-- Between the turns of `write` and `cwr` of `total` bytes of a file from a position on. -/
structure Sending (writer : Writer) (content : Bytes) (pos total : ℕ) (s : Write) (h : Trace) :
    Prop where
  calm : Calm writer.bulk h
  sent : ∃ n, n + s.transferSize = total ∧ s.file = ⟨content, pos + n⟩ ∧
    (slice content pos n).length = n ∧ Mirrors writer.whole writer.view (slice content pos n) h
  buffer : s.buf.length = 0x10008

lemma writeLoop_runs {writer : Writer} {turns : ℕ} {s : Write} {t : Trace}
    (hbuf : s.buf.length = 0x10008) (hr : Runs (iterate (writeTurn writer.isCwr) turns s) t 0) :
    Calm writer.bulk t ∧
      (slice s.file.content s.file.pos s.transferSize).length = s.transferSize ∧
      Mirrors writer.whole writer.view (slice s.file.content s.file.pos s.transferSize) t := by
  refine runs_iterate (I := Sending writer s.file.content s.file.pos s.transferSize)
    (Q := fun r h => r = 0 → Calm writer.bulk h ∧
      (slice s.file.content s.file.pos s.transferSize).length = s.transferSize ∧
        Mirrors writer.whole writer.view (slice s.file.content s.file.pos s.transferSize) h)
    (fun s₁ h t' s₂ hI hnext => ?_) (fun s₁ h t' r hI hdone hz => ?_) (h := [])
    ⟨calm_nil _, ⟨0, Nat.zero_add _, rfl, ?_, ?_⟩, hbuf⟩ hr rfl
  · obtain ⟨hcalm, ⟨n, htotal, hfile, hlen, hsent⟩, hbuf'⟩ := hI
    cases writeTurn_runs hbuf' hnext with
    | @piece k _ hcalm' hlen' hsent' hsize hfile' hbuf'' =>
      rw [hfile] at hlen' hsent' hfile'
      have happend := slice_append_slice s.file.content s.file.pos n k
      refine ⟨hcalm.append hcalm', ⟨n + k, by omega, ?_, ?_, ?_⟩, hbuf''⟩
      · rw [hfile', Nat.add_assoc]
      · rw [← happend, List.length_append, hlen, hlen']
      · rw [← happend]
        exact hsent.append hsent'
  · subst hz
    obtain ⟨hcalm, ⟨n, htotal, hfile, hlen, hsent⟩, hbuf'⟩ := hI
    cases writeTurn_runs hbuf' hdone with
    | finished hsize ht =>
      subst ht
      obtain rfl : n = s.transferSize := by omega
      rw [List.append_nil]
      exact ⟨hcalm, hlen, hsent⟩
    | failed hret => exact absurd rfl hret
  · rw [slice_zero]
    rfl
  · rw [slice_zero]
    exact mirrors_nil

/-! ### The commands -/

/-- The file a reader is to save to. -/
def saveFile (argv : List Bytes) (argc : ℤ) : Option Bytes :=
  if argc ≤ 2 then none else some (argv.getD 2 [])

/-- The run opens the file to save to. -/
def Opened (path : Bytes) (t : Trace) : Prop := ∃ t', t = ⟨.fopen path true, true⟩ :: t'

/-- All that was asked for has been read, and is in the file, if there is one; no transfer and no
write has failed or was partial. -/
structure Saved (view : Event → Bytes) (file : Option Bytes) (size : ℕ) (t : Trace) : Prop where
  received : (t.flatMap view).length = size
  stored : ∀ path ∈ file, Opened path t ∧ t.flatMap written = t.flatMap view
  complete : t.all complete = true

/-- The device took the bytes of the file from `skip` on, `n` of them, and no transfer has failed or
was partial. -/
structure Put (view : Event → Bytes) (content : Bytes) (skip : ℕ) (n : ℤ) (t : Trace) : Prop where
  length : ((t.flatMap view).length : ℤ) = n
  bytes : t.flatMap view = slice content skip n.toNat
  complete : t.all complete = true

/-- What the opening of the file to save to, if there is one, leaves. -/
def Opening (file : Option Bytes) (save : Bool) (t : Trace) : Prop :=
  match file with
  | none => save = false ∧ t = []
  | some path => t = [⟨.fopen path true, save⟩]

/-- Of what a loop has read, the count and the copy in the file are right exactly when the count
fits its counter and nothing was short. -/
lemma HasRead.iff {bulk : Bool} {view : Event → Bytes} {whole : Event → Bool} {save : Bool}
    {size : ℕ} {t : Trace} (hread : HasRead bulk view whole save (size % 2 ^ 32) t) :
    ((t.flatMap view).length = size ∧ (save = true → t.flatMap written = t.flatMap view)) ↔
      size < 2 ^ 32 ∧ t.all whole = true ∧ (save = true → t.all fullWrite = true) := by
  obtain ⟨n, hle, ⟨-, data, rfl, hview, hwritten⟩, hall⟩ := hread
  constructor
  · rintro ⟨hsize, hstored⟩
    have hlen := hview.length_le
    have hwhole : t.all whole = true := hview.whole_of_length_le (by omega)
    refine ⟨by omega, hwhole, ?_⟩
    rintro rfl
    exact hwritten.iff.mp ((hstored rfl).trans (hview.full hwhole))
  · rintro ⟨hsize, hwhole, hfull⟩
    have hfull' : t.all fullWrite = true := by
      cases save with
      | true => exact hfull rfl
      | false => exact hwritten.whole_of_length_le (Nat.zero_le _)
    rw [hview.full hwhole]
    refine ⟨by rw [hall hfull']; omega, ?_⟩
    rintro rfl
    exact hwritten.full hfull'

lemma HasRead.calm {bulk : Bool} {view : Event → Bytes} {whole : Event → Bool} {save : Bool} {n : ℕ}
    {t : Trace} (hread : HasRead bulk view whole save n t) : Calm bulk t := by
  obtain ⟨-, -, ⟨hcalm, -⟩, -⟩ := hread
  exact hcalm

lemma HasRead.after {bulk : Bool} {view : Event → Bytes} {whole : Event → Bool} {save : Bool}
    {n : ℕ} {e : Event} {t : Trace} (hread : HasRead bulk view whole save n t)
    (hcalm : heeded bulk e = false) (hview : view e = [] ∧ whole e = true)
    (hwritten : written e = [] ∧ fullWrite e = true) :
    HasRead bulk view whole save n (e :: t) := by
  obtain ⟨k, hle, hk, hall⟩ := hread
  have hone : Reading bulk view whole save 0 [e] := by
    have hsilent : ∀ {view : Event → Bytes} {whole : Event → Bool}, view e = [] ∧ whole e = true →
        Mirrors whole view [] [e] := fun h => mirrors_silent fun e' he => by
      obtain rfl := List.mem_singleton.mp he
      exact h
    exact ⟨calm_single hcalm, [], rfl, hsilent hview, by cases save <;> exact hsilent hwritten⟩
  refine ⟨k, hle, Nat.zero_add k ▸ hone.append hk, fun h => hall ?_⟩
  rw [List.all_cons, Bool.and_eq_true] at h
  exact h.2

/-- The same of a loop and the opening of its file. -/
lemma HasRead.opened_iff {bulk : Bool} {view : Event → Bytes} {whole : Event → Bool}
    {file : Option Bytes} {save : Bool} {size : ℕ} {t₁ t₂ : Trace} (hopen : Opening file save t₁)
    (hsilent : ∀ path ok, view ⟨.fopen path true, ok⟩ = [] ∧ whole ⟨.fopen path true, ok⟩ = true)
    (hread : HasRead bulk view whole save (size % 2 ^ 32) t₂) :
    Calm bulk (t₁ ++ t₂) ∧
      ((((t₁ ++ t₂).flatMap view).length = size ∧ ∀ path ∈ file,
          Opened path (t₁ ++ t₂) ∧ (t₁ ++ t₂).flatMap written = (t₁ ++ t₂).flatMap view) ↔
        size < 2 ^ 32 ∧ (t₁ ++ t₂).all whole ∧
          ∀ path ∈ file, Opened path (t₁ ++ t₂) ∧ (t₁ ++ t₂).all fullWrite) := by
  cases file with
  | none =>
    obtain ⟨rfl, rfl⟩ := hopen
    have hiff := hread.iff
    simp only [Bool.false_eq_true, false_implies, and_true] at hiff
    refine ⟨hread.calm, fun h => ?_, ?_⟩
    · obtain ⟨hsize, hwhole⟩ := hiff.mp h.1
      exact ⟨hsize, hwhole, nofun⟩
    · rintro ⟨hsize, hwhole, -⟩
      exact ⟨hiff.mpr ⟨hsize, hwhole⟩, nofun⟩
  | some path =>
    obtain rfl : t₁ = [⟨.fopen path true, save⟩] := hopen
    have hafter := hread.after (heeded_other rfl) (hsilent path save) ⟨rfl, rfl⟩
    have hiff := hafter.iff
    refine ⟨hafter.calm, ?_⟩
    cases save with
    | false =>
      have hnot : ¬ Opened path ([⟨.fopen path true, false⟩] ++ t₂) := by
        rintro ⟨t', he⟩
        simp at he
      exact ⟨fun h => absurd (h.2 path rfl).1 hnot,
        fun h => absurd (h.2.2 path rfl).1 hnot⟩
    | true =>
      have hopened : Opened path ([⟨.fopen path true, true⟩] ++ t₂) := ⟨t₂, rfl⟩
      constructor
      · rintro ⟨hreceived, hstored⟩
        obtain ⟨hsize, hwhole, hfull⟩ := hiff.mp ⟨hreceived, fun _ => (hstored path rfl).2⟩
        refine ⟨hsize, hwhole, fun path' he => ?_⟩
        obtain rfl := Option.some.inj he
        exact ⟨hopened, hfull rfl⟩
      · rintro ⟨hsize, hwhole, hfull⟩
        obtain ⟨hreceived, hstored⟩ := hiff.mpr ⟨hsize, hwhole, fun _ => (hfull path rfl).2⟩
        refine ⟨hreceived, fun path' he => ?_⟩
        obtain rfl := Option.some.inj he
        exact ⟨hopened, hstored rfl⟩

/-- Where nothing was overlooked, every transfer and every write was whole. -/
lemma HasRead.saved_iff {bulk : Bool} {view : Event → Bytes} {whole : Event → Bool}
    {file : Option Bytes} {save : Bool} {size : ℕ} {t₁ t₂ : Trace} (hopen : Opening file save t₁)
    (hsilent : ∀ path ok, view ⟨.fopen path true, ok⟩ = [] ∧ whole ⟨.fopen path true, ok⟩ = true)
    (hwhole : ∀ e, complete e = true → whole e = true)
    (hread : HasRead bulk view whole save (size % 2 ^ 32) t₂) :
    Saved view file size (t₁ ++ t₂) ↔ size < 2 ^ 32 ∧ (∀ path ∈ file, Opened path (t₁ ++ t₂)) ∧
      ∀ e ∈ t₁ ++ t₂, overlooked bulk e = false := by
  obtain ⟨hcalm, hiff⟩ := hread.opened_iff hopen hsilent
  constructor
  · rintro ⟨hreceived, hstored, hcomplete⟩
    obtain ⟨hsize, -, hfull⟩ := hiff.mp ⟨hreceived, hstored⟩
    exact ⟨hsize, fun path hp => (hfull path hp).1, hcalm.complete_iff.mp hcomplete⟩
  · rintro ⟨hsize, hopened, hover⟩
    have hcomplete := hcalm.complete_iff.mpr hover
    have hall : ∀ p : Event → Bool, (∀ e, complete e = true → p e = true) →
        (t₁ ++ t₂).all p = true := fun p hp =>
      List.all_eq_true.mpr fun e he => hp e (List.all_eq_true.mp hcomplete e he)
    obtain ⟨hreceived, hstored⟩ := hiff.mpr ⟨hsize, hall whole hwhole, fun path hp =>
      ⟨hopened path hp, hall fullWrite complete_fullWrite⟩⟩
    exact ⟨hreceived, hstored, hcomplete⟩

/-- The bytes the device gave. -/
def readerView : Reader → Event → Bytes
  | .rreg => answered
  | _ => delivered

def readerWhole : Reader → Event → Bool
  | .rreg => fullControl
  | _ => anyTransfer

/-- The data comes over the bulk endpoints. -/
def readerBulk : Reader → Bool
  | .rreg => false
  | _ => true

lemma opening_runs {argv : List Bytes} {argc : ℤ} {save : Bool} {t : Trace}
    (hr : Runs (if argc ≤ 2 then pure false else fopenWrite (argv.getD 2 [])) t save) :
    Opening (saveFile argv argc) save t := by
  unfold saveFile
  by_cases h : argc ≤ 2
  · rw [if_pos h] at hr ⊢
    obtain ⟨rfl, rfl⟩ := runs_ret.mp hr
    exact ⟨rfl, rfl⟩
  · rw [if_neg h] at hr ⊢
    obtain ⟨ok, t', rfl, hend⟩ := runs_call.mp hr
    obtain ⟨rfl, rfl⟩ := runs_ret.mp hend
    rfl

/-- A reader that reports success, from the opening of its file on. -/
lemma reader_runs {reader : Reader} {files : Files} {junk : ℕ → UInt8} {seqNum : ℕ}
    {rom : AmlUsbRomRW} {argv : List Bytes} {argc : ℤ} {t : Trace}
    (hr : Runs (reader.run files junk seqNum rom argv argc) t 0) :
    ∃ save t₁ t₂, t = t₁ ++ t₂ ∧ Opening (saveFile argv argc) save t₁ ∧
      HasRead (readerBulk reader) (readerView reader) (readerWhole reader) save
        (strtoul (argv.getD 0 []) 0 % 2 ^ 32) t₂ := by
  have hsize : u32 (strtoul (argv.getD 0 []) 0) = strtoul (argv.getD 0 []) 0 % 2 ^ 32 :=
    u32_natCast _
  have hdump : ∀ cmd, cmd = cmdRead ∨ cmd = cmdDump →
      Runs (updateSubCmdReadWrite files junk seqNum rom cmd argv argc) t 0 →
      ∃ save t₁ t₂, t = t₁ ++ t₂ ∧ Opening (saveFile argv argc) save t₁ ∧
        HasRead true delivered anyTransfer save (strtoul (argv.getD 0 []) 0 % 2 ^ 32) t₂ := by
    intro cmd hcmd hr
    have hwreg : cmd ≠ cmdWreg := by rintro rfl; revert hcmd; decide
    unfold updateSubCmdReadWrite at hr
    by_cases hargs : argc ≤ 1
    · rw [if_pos hargs] at hr
      cases (runs_ret.mp hr).2
    rw [if_neg hargs] at hr
    dsimp only at hr
    rw [if_neg hwreg, if_pos hcmd, hsize] at hr
    obtain ⟨save, t₁, t₂, rfl, hopen, hrest⟩ := runs_bind.mp hr
    obtain ⟨⟨ok, ret⟩, t₃, t₄, rfl, hloop, hend⟩ := runs_bind.mp hrest
    obtain ⟨rfl, hz⟩ := runs_ret.mp hend
    rw [List.append_nil]
    refine ⟨save, t₁, t₃, rfl, opening_runs hopen, ?_⟩
    refine dumpLoop_runs ?_ (Nat.mod_lt _ (by norm_num)) hloop ?_
    · dsimp only
      rw [malloc_length]
      omega
    · cases ok with
      | true => exact .inl rfl
      | false => exact .inr hz.symm
  cases reader with
  | read => exact hdump cmdRead (.inl rfl) hr
  | dump => exact hdump cmdDump (.inr rfl) hr
  | rreg =>
    change Runs (updateSubCmdRunAndRreg files junk rom cmdRreg argv argc) t 0 at hr
    unfold updateSubCmdRunAndRreg at hr
    by_cases hargs : argc ≤ 0
    · rw [if_pos hargs] at hr
      cases (runs_ret.mp hr).2
    rw [if_neg hargs] at hr
    by_cases hargs' : cmdRreg ≠ cmdRun ∧ argc ≤ 1
    · rw [if_pos hargs'] at hr
      cases (runs_ret.mp hr).2
    rw [if_neg hargs'] at hr
    dsimp only at hr
    rw [if_neg (by decide : ¬ cmdRreg = cmdRun), hsize] at hr
    obtain ⟨save, t₁, t₂, rfl, hopen, hloop⟩ := runs_bind.mp hr
    rw [if_pos rfl] at hloop
    refine ⟨save, t₁, t₂, rfl, opening_runs hopen, rregLoop_runs
      ⟨reading_nil, Nat.zero_le _, ?_, rfl⟩
      hloop⟩
    dsimp only
    rw [malloc_length]

namespace Writer

def cmd : Writer → Bytes
  | write => cmdWrite
  | cwr => cmdCwr

def run (writer : Writer) (files : Files) (junk : ℕ → UInt8) (seqNum : ℕ) (rom : AmlUsbRomRW)
    (argv : List Bytes) (argc : ℤ) : Program ℤ :=
  updateSubCmdReadWrite files junk seqNum rom writer.cmd argv argc

end Writer

/-- The size and the number of bytes to skip, as they are given. -/
def sizeArg (argv : List Bytes) (argc : ℤ) : ℕ := if argc ≤ 2 then 0 else strtoul (argv.getD 2 []) 0
def skipArg (argv : List Bytes) (argc : ℤ) : ℕ := if argc ≤ 3 then 0 else strtoul (argv.getD 3 []) 0

/-- The number of bytes to send: the size if it is not 0, else what is left of the file. -/
def sendCount (content : Bytes) (size skip : ℕ) : ℤ :=
  if size ≠ 0 then size else (content.length : ℤ) - skip

/-- The number of bytes to send, as it is counted. -/
def sendSize (content : Bytes) (size skip : ℕ) : ℕ :=
  if size % 2 ^ 32 = 0 then u32 ((content.length : ℤ) - (skip % 2 ^ 32 : ℕ)) else size % 2 ^ 32

/-- The count is one of 32 bits, and skipping in 32 bits leads to the same bytes. -/
def Countable (content : Bytes) (size skip : ℕ) : Prop :=
  0 ≤ sendCount content size skip ∧ sendCount content size skip < 2 ^ 32 ∧
    slice content skip (sendCount content size skip).toNat =
      slice content (skip % 2 ^ 32) (sendCount content size skip).toNat

instance (content : Bytes) (size skip : ℕ) : Decidable (Countable content size skip) :=
  inferInstanceAs (Decidable (_ ∧ _ ∧ _))

lemma sendSize_eq {content : Bytes} {size skip : ℕ} (h₀ : 0 ≤ sendCount content size skip)
    (h₁ : sendCount content size skip < 2 ^ 32) :
    (sendSize content size skip : ℤ) = sendCount content size skip := by
  unfold sendCount at *
  unfold sendSize u32
  split_ifs at * <;> omega

lemma sendSize_lt (content : Bytes) (size skip : ℕ) : sendSize content size skip < 2 ^ 32 := by
  unfold sendSize
  split_ifs
  · exact u32_lt _
  · exact Nat.mod_lt _ (by norm_num)

/-- A writer that reports success. -/
lemma writer_runs {writer : Writer} {files : Files} {junk : ℕ → UInt8} {seqNum : ℕ}
    {rom : AmlUsbRomRW} {argv : List Bytes} {argc : ℤ} {t : Trace} {content : Bytes} {size skip : ℕ}
    (hcontent : files (argv.getD 0 []) = content) (hsize : sizeArg argv argc = size)
    (hskip : skipArg argv argc = skip)
    (hr : Runs (writer.run files junk seqNum rom argv argc) t 0) :
    Calm writer.bulk t ∧
      (slice content (skip % 2 ^ 32) (sendSize content size skip)).length =
        sendSize content size skip ∧
      Mirrors writer.whole writer.view
        (slice content (skip % 2 ^ 32) (sendSize content size skip)) t := by
  have h₁ : writer.cmd ≠ cmdWreg := by cases writer <;> decide
  have h₂ : ¬ (writer.cmd = cmdRead ∨ writer.cmd = cmdDump) := by cases writer <;> decide
  have h₃ : writer.cmd = cmdWrite ∨ writer.cmd = cmdCwr := by cases writer <;> decide
  have hcwr : decide (writer.cmd ≠ cmdWrite) = writer.isCwr := by cases writer <;> decide
  have hsize' : (if argc ≤ 2 then 0 else u32 (simpleStrtoul (argv.getD 2 []) 0)) =
      size % 2 ^ 32 := by
    rw [← hsize, sizeArg]
    split_ifs
    · rfl
    · exact u32_natCast _
  have hskip' : (if argc ≤ 3 then 0 else u32 (simpleStrtoul (argv.getD 3 []) 0)) =
      skip % 2 ^ 32 := by
    rw [← hskip, skipArg]
    split_ifs
    · rfl
    · exact u32_natCast _
  unfold Writer.run updateSubCmdReadWrite at hr
  by_cases hargs : argc ≤ 1
  · rw [if_pos hargs] at hr
    cases (runs_ret.mp hr).2
  rw [if_neg hargs] at hr
  dsimp only at hr
  rw [if_neg h₁, if_neg h₂, if_pos h₃] at hr
  obtain ⟨stream, t₁, t₂, rfl, hopen, hloop⟩ := runs_bind.mp hr
  obtain ⟨ok, t₃, rfl, hend⟩ := runs_call.mp hopen
  obtain ⟨rfl, rfl⟩ := runs_ret.mp hend
  cases ok with
  | false =>
    cases (runs_ret.mp hloop).2
  | true =>
    have hseek : ∀ f : File, fseekSet f (skip % 2 ^ 32 : ℕ) = { f with pos := skip % 2 ^ 32 } :=
      fun f => if_pos (Int.natCast_nonneg _)
    simp only [if_true, hsize', hskip', hcontent, hcwr, hseek] at hloop
    obtain ⟨hcalm, hlen, hsent⟩ := writeLoop_runs (by dsimp only; rw [malloc_length]) hloop
    have hfopen := writer.silent (e := ⟨.fopen (argv.getD 0 []) false, true⟩) rfl rfl rfl
    exact ⟨(calm_single (heeded_other rfl)).append hcalm, hlen, hfopen.append hsent⟩

/-- **When a result 0 is worth what it says.** A reader that returns 0 has read and saved all that
was asked for, with no failed or partial transfer or write on the way, exactly when the count fits
32 bits, the file opened if one was named, and nothing the command overlooks went wrong. A writer
that returns 0 has sent the bytes asked for, likewise, exactly when the count is not negative and
fits 32 bits, the bytes to skip lead to the same place modulo 2 ^ 32, and nothing it overlooks went
wrong. -/
theorem moved_iff (files : Files) (junk : ℕ → UInt8) (seqNum : ℕ) (rom : AmlUsbRomRW)
    (argv : List Bytes) (argc : ℤ) :
    (∀ (reader : Reader) t, Runs (reader.run files junk seqNum rom argv argc) t 0 →
      (Saved (readerView reader) (saveFile argv argc) (strtoul (argv.getD 0 []) 0) t ↔
        strtoul (argv.getD 0 []) 0 < 2 ^ 32 ∧ (∀ path ∈ saveFile argv argc, Opened path t) ∧
          ∀ e ∈ t, overlooked (readerBulk reader) e = false)) ∧
    ∀ (writer : Writer) t, Runs (writer.run files junk seqNum rom argv argc) t 0 →
      (Put writer.view (files (argv.getD 0 [])) (skipArg argv argc)
          (sendCount (files (argv.getD 0 [])) (sizeArg argv argc) (skipArg argv argc)) t ↔
        Countable (files (argv.getD 0 [])) (sizeArg argv argc) (skipArg argv argc) ∧
          ∀ e ∈ t, overlooked writer.bulk e = false) := by
  refine ⟨fun reader t hr => ?_, ?_⟩
  · obtain ⟨save, t₁, t₂, rfl, hopen, hread⟩ := reader_runs hr
    refine hread.saved_iff hopen (fun path ok => ?_) fun e he => ?_
    · cases reader <;> exact ⟨rfl, rfl⟩
    · cases reader with
      | rreg => exact complete_fullControl e he
      | read => rfl
      | dump => rfl
  · intro writer t hr
    obtain ⟨hcalm, hlen, hsent⟩ := writer_runs rfl rfl rfl hr
    generalize files (argv.getD 0 []) = content at hlen hsent ⊢
    generalize sizeArg argv argc = size at hlen hsent ⊢
    generalize skipArg argv argc = skip at hlen hsent ⊢
    have hlt := sendSize_lt content size skip
    have hle := hsent.length_le
    constructor
    · intro h
      have hcount := h.length
      have heq : (sendSize content size skip : ℤ) = sendCount content size skip :=
        sendSize_eq (by omega) (by omega)
      have hwhole : t.all writer.whole = true := hsent.whole_of_length_le (by omega)
      refine ⟨⟨by omega, by omega, ?_⟩, hcalm.complete_iff.mp h.complete⟩
      rw [← h.bytes, hsent.full hwhole, ← heq, Int.toNat_natCast]
    · rintro ⟨⟨h₀, h₁, hbytes⟩, hover⟩
      have heq := sendSize_eq h₀ h₁
      have hcomplete := hcalm.complete_iff.mpr hover
      have hall := hsent.full (writer.whole_of_complete hcomplete)
      refine ⟨by rw [hall, hlen, heq], ?_, hcomplete⟩
      rw [hbytes, hall, ← heq, Int.toNat_natCast]

/-! ### One byte -/

/-- A device that takes and gives what it is asked for, and a file that does the same; or they take
nothing, or the device refuses the first transfer. -/
def dataAnswers (takes refuses : Bool) (t : Trace) : (o : Op) → Option (Resp o)
  | .libusbOpen _ => some (some (0 : ℕ))
  | .libusbClose _ => some ()
  | .fopen _ _ => some true
  | .fread _ _ => some (Fin.last _)
  | .controlOut _ _ _ _ =>
    some ⟨if refuses && t.all fun e => (outcome e).isNone then some .io else none,
      if takes then Fin.last _ else ⟨0, Nat.succ_pos _⟩⟩
  | .bulkIn _ _ n _ => some ⟨none, List.replicate n 7, Nat.le_of_eq List.length_replicate⟩
  | .fwrite _ => some (if takes then Fin.last _ else ⟨0, Nat.succ_pos _⟩)
  | .clock => some (0 : ℤ)
  | _ => none

def byteRead : Program ℤ :=
  Reader.read.run (fun _ => []) (fun _ => 0) 0 ⟨.dev 0, 0, [], 0, 0⟩
    [ascii ['1'], ascii ['0'], []] 3

def byteWrite : Program ℤ :=
  Writer.cwr.run (fun _ => [7]) (fun _ => 0) 0 ⟨.dev 0, 0, [], 0, 0⟩ [[], ascii ['0']] 2

set_option maxRecDepth 10000 in
theorem moved_iff_byte :
    (∃ t, Runs byteRead t 0 ∧ Saved delivered (some []) 1 t) ∧
      ∃ t, Runs byteWrite t 0 ∧ Put taken [7] 0 1 t := by
  have hread : ∃ t, Runs byteRead t 0 ∧ Opened [] t ∧
      t.all (fun e => !overlooked true e) = true :=
    ⟨_, exec_recorded (dataAnswers true false) rfl, ⟨_, rfl⟩, rfl⟩
  have hwrite : ∃ t, Runs byteWrite t 0 ∧ t.all (fun e => !overlooked false e) = true :=
    ⟨_, exec_recorded (dataAnswers true false) rfl, rfl⟩
  have hnone : ∀ {bulk : Bool} {t : Trace}, t.all (fun e => !overlooked bulk e) = true →
      ∀ e ∈ t, overlooked bulk e = false := fun h e he =>
    Bool.not_eq_true' _ ▸ List.all_eq_true.mp h e he
  obtain ⟨t, hr, hopen, hover⟩ := hread
  obtain ⟨t', hr', hover'⟩ := hwrite
  refine ⟨⟨t, hr, ((moved_iff _ _ _ _ _ _).1 .read t hr).mpr ⟨by decide, ?_, hnone hover⟩⟩,
    t', hr', ((moved_iff _ _ _ _ _ _).2 .cwr t' hr').mpr ⟨by decide, hnone hover'⟩⟩
  intro path he
  obtain rfl := Option.some.inj he
  exact hopen

set_option maxRecDepth 10000 in
/-- A file that takes nothing, a device that refuses the start command once, and a device that takes
nothing. -/
theorem moved_nothing :
    (∃ t, Runs byteRead t 0 ∧ ¬ (t.flatMap written = t.flatMap delivered)) ∧
      (∃ t, Runs byteRead t 0 ∧ ∃ e ∈ t, failed e = true) ∧
      (∃ t, Runs byteRead t 0 ∧ ¬ Saved delivered (some []) 1 t) ∧
      ∃ t, Runs byteWrite t 0 ∧ ¬ Put taken [7] 0 1 t := by
  have hread : ∃ t, Runs byteRead t 0 ∧ t.flatMap written = [] ∧ t.flatMap delivered = [7] :=
    ⟨_, exec_recorded (dataAnswers false false) rfl, rfl, rfl⟩
  have hretry : ∃ t, Runs byteRead t 0 ∧ t.any failed = true :=
    ⟨_, exec_recorded (dataAnswers true true) rfl, rfl⟩
  have hwrite : ∃ t, Runs byteWrite t 0 ∧ t.flatMap taken = [] :=
    ⟨_, exec_recorded (dataAnswers false false) rfl, rfl⟩
  obtain ⟨t, hr, hwritten, hdelivered⟩ := hread
  obtain ⟨t', hr', htaken⟩ := hwrite
  obtain ⟨t₀, hr₀, hfailed⟩ := hretry
  have hlost : ¬ (t.flatMap written = t.flatMap delivered) := by
    rw [hwritten, hdelivered]
    nofun
  refine ⟨⟨t, hr, hlost⟩, ⟨t₀, hr₀, List.any_eq_true.mp hfailed⟩,
    ⟨t, hr, fun h => hlost (h.stored [] rfl).2⟩, t', hr', fun h => ?_⟩
  have hlength := h.length
  rw [htaken] at hlength
  cases hlength

end AmlogicUpdate.DataCommands

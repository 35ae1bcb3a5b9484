import AmlogicUpdate.TextCommands

/-!
The upload of `mread`: media read in pieces of 64 KiB, each saved before the next is asked for.

The count of what remains is signed and the length of a request is not, so that the loop is
sound for sizes that are not negative. What the file took of a piece is not looked at.
-/

namespace AmlogicUpdate.ReadMedia

open Interaction CData Usb AmlLibusb UsbRomDrv Update Wire TextCommands

/-! ### One piece -/

lemma written_of_not_fwrite {e : Event} (h : ∀ data, e.1 ≠ .fwrite data) :
    written e = [] ∧ fullWrite e = true := by
  obtain ⟨o, r⟩ := e
  cases o
  case fwrite data => exact absurd rfl (h data)
  all_goals exact ⟨rfl, rfl⟩

/-- What the events of a transfer are not. -/
def Quiet (o : Op) : Prop := (∀ data, o ≠ .fwrite data)

lemma amlReadMedia_quiet (rom : AmlUsbRomRW) : Calls Quiet (amlReadMedia rom) :=
  CommandText.amlReadMedia_calls ⟨fun _ => nofun, fun _ => nofun, nofun⟩ (fun _ _ _ => nofun)
    (fun _ _ _ _ => nofun) rom

lemma flatMap_written {t : Trace} (h : ∀ e ∈ t, Quiet e.1) :
    t.flatMap written = [] ∧ t.all fullWrite := by
  refine ⟨List.flatMap_eq_nil_iff.mpr fun e he => (written_of_not_fwrite (h e he)).1, ?_⟩
  exact List.all_eq_true.mpr fun e he => (written_of_not_fwrite (h e he)).2

lemma readMediaCmd_eq {dev : Device} (hdev : dev ≠ .invalid) (hd : Handle)
    (readEp writeEp len : ℕ) : ∃ s, ∃ k : InResult s.wLength → ℕ,
      readMediaCmd ⟨dev, some hd, readEp, writeEp⟩ 0 len 0 0 0 5000 =
        .call (.controlIn hd s 5000) fun r => .ret (k r) := by
  simp only [readMediaCmd, rwMediaCmd, usbDeviceIoControlEx, hdev, if_false, if_true]
  exact ⟨_, _, rfl⟩

/-- A request for a piece that is not refused. -/
lemma readMediaCmd_runs {dev : Device} {handle : Option Handle} {readEp writeEp len : ℕ} {t : Trace}
    {ret : ℕ} (hr : Runs (readMediaCmd ⟨dev, handle, readEp, writeEp⟩ 0 len 0 0 0 5000) t ret)
    (hret : ret ≠ 0) : dev ≠ .invalid ∧ (∃ hd, handle = some hd) ∧ t.flatMap delivered = [] := by
  by_cases hdev : dev = .invalid
  · simp only [readMediaCmd, rwMediaCmd, usbDeviceIoControlEx, hdev, if_true] at hr
    exact absurd (runs_ret.mp hr).2 hret
  cases handle with
  | none =>
    simp only [readMediaCmd, rwMediaCmd, usbDeviceIoControlEx, hdev, if_false, if_true] at hr
    obtain ⟨e, -⟩ := runs_call.mp hr
    exact e.elim
  | some hd =>
    obtain ⟨s, k, he⟩ := readMediaCmd_eq hdev hd readEp writeEp len
    rw [he] at hr
    obtain ⟨r, t₃, rfl, hk⟩ := runs_call.mp hr
    obtain ⟨rfl, -⟩ := runs_ret.mp hk
    exact ⟨hdev, ⟨hd, rfl⟩, rfl⟩

/-- A piece that was read is all that was asked for, and what the device gave. -/
lemma amlReadMedia_runs {rom : AmlUsbRomRW} {t : Trace} {r : ℤ × AmlUsbRomRW}
    (hr : Runs (amlReadMedia rom) t r) (hret : r.1 = 0) :
    r.2.dataSize = rom.bufferLen ∧ (t.flatMap delivered).length = rom.bufferLen ∧
      r.2.buffer.take rom.bufferLen = t.flatMap delivered ∧
      (rom.bufferLen ≤ rom.buffer.length → r.2.buffer.length = rom.buffer.length) := by
  unfold amlReadMedia at hr
  by_cases hnull : rom.device = .null
  · rw [hnull, openUsbDevice_null] at hr
    obtain ⟨-, rfl⟩ := runs_ret.mp hr
    simp at hret
  rw [openUsbDevice_eq hnull, Prog.call_bind, runs_call] at hr
  obtain ⟨handle, t₁, rfl, hopened⟩ := hr
  simp only [Prog.ret_bind, one_ne_zero, if_false] at hopened
  obtain ⟨ret, t₂, t₃, rfl, hcmd, hread⟩ := runs_bind.mp hopened
  by_cases hz : ret = 0
  · rw [if_pos hz] at hread
    obtain ⟨-, -, t₄, -, -, hclose⟩ := runs_bind.mp hread
    obtain ⟨-, rfl⟩ := runs_ret.mp hclose
    simp at hret
  obtain ⟨hdev, ⟨hd, rfl⟩, hsilent⟩ := readMediaCmd_runs hcmd hz
  rw [if_neg hz, usbReadFile_eq hdev, Prog.call_bind, runs_call] at hread
  obtain ⟨res, t₄, rfl, hclose⟩ := hread
  rw [Prog.ret_bind, closeUsbDevice_eq hnull, Prog.call_bind, runs_call] at hclose
  obtain ⟨_, t₅, rfl, hend⟩ := hclose
  rw [Prog.ret_bind] at hend
  have hio := usbBulkIo_cases res.status res.data.1.length
  dsimp only at hend
  by_cases hneg : usbBulkIo res.status res.data.1.length < 0
  · rw [if_pos hneg, if_pos rfl] at hend
    obtain ⟨-, rfl⟩ := runs_ret.mp hend
    simp at hret
  rw [if_neg hneg, if_neg one_ne_zero] at hend
  by_cases hshort : rom.bufferLen ≠ (usbBulkIo res.status res.data.1.length).toNat
  · rw [if_pos hshort] at hend
    obtain ⟨-, rfl⟩ := runs_ret.mp hend
    simp at hret
  rw [if_neg hshort] at hend
  obtain ⟨rfl, rfl⟩ := runs_ret.mp hend
  have hlen : res.data.1.length = rom.bufferLen := by omega
  have htotal : delivered ⟨.bulkIn hd amEpIn rom.bufferLen 30000, res⟩ = res.data.1 := by
    refine List.take_of_length_le ?_
    omega
  have hflat : (⟨.libusbOpen rom.device, some hd⟩ :: (t₂ ++ ⟨.bulkIn hd amEpIn rom.bufferLen 30000,
      res⟩ :: [⟨.libusbClose hd, ()⟩]) : Trace).flatMap delivered = res.data.1 := by
    rw [List.flatMap_cons, List.flatMap_append, hsilent, List.flatMap_cons, htotal]
    exact List.append_nil _
  rw [hflat]
  have hcount : (usbBulkIo res.status res.data.1.length).toNat = rom.bufferLen := by omega
  dsimp only
  rw [hcount]
  generalize res.data.1 = data at hlen ⊢
  refine ⟨rfl, hlen, ?_, fun hle => ?_⟩
  · rw [blit_zero, List.take_left' hlen]
  · have hzero : (blit rom.buffer 0 (List.replicate rom.bufferLen 0)).length = rom.buffer.length :=
      blit_length (by rw [List.length_replicate]; omega)
    rw [blit_length (by omega), hzero]

/-! ### The loop -/

/-- The states the loop gets to at the start of a turn. -/
inductive Reached (save : Bool) (s₀ : Upload) : Upload → Prop
  | start : Reached save s₀ s₀
  | turn {s s' : Upload} {t : Trace} (h : Reached save s₀ s)
      (hr : Runs (uploadTurn save s) t (.next s')) : Reached save s₀ s'

/-- What the loop begins with. -/
def upload (junk : ℕ → UInt8) (rom : AmlUsbRomRW) (size : ℤ) : Upload :=
  ⟨size, { rom with buffer := malloc junk 0x10000 }, .new (size % 2 ^ 64).toNat⟩

/-- A turn that another follows has moved one piece, and offered it to the file. -/
lemma uploadTurn_next {save : Bool} {s s' : Upload} {t : Trace}
    (hr : Runs (uploadTurn save s) t (.next s')) :
    s.size ≠ 0 ∧ s'.size = s.size - (uploadRequest s).bufferLen ∧
      (t.flatMap delivered).length = (uploadRequest s).bufferLen ∧
      ((uploadRequest s).bufferLen ≤ s.rom.buffer.length →
        s'.rom.buffer.length = s.rom.buffer.length) ∧
      if save then ∃ k, k ≤ (t.flatMap delivered).length ∧
        t.flatMap written = (t.flatMap delivered).take k ∧
        (t.all fullWrite = true ↔ k = (t.flatMap delivered).length)
      else t.flatMap written = [] ∧ t.all fullWrite = true := by
  unfold uploadTurn at hr
  by_cases hsize : s.size ≠ 0
  swap
  · rw [if_neg hsize] at hr
    cases (runs_ret.mp hr).2
  rw [if_pos hsize] at hr
  obtain ⟨⟨ret, rom⟩, t₁, t₂, rfl, hread, hrest⟩ := runs_bind.mp hr
  dsimp only at hrest
  by_cases hret : ret ≠ 0
  · rw [if_pos hret] at hrest
    cases (runs_ret.mp hrest).2
  rw [if_neg hret] at hrest
  obtain ⟨hdata, hlen, htake, hbuf⟩ := amlReadMedia_runs hread (not_not.mp hret)
  obtain ⟨hwritten, hfull⟩ := flatMap_written fun e he => (amlReadMedia_quiet _).event hread he
  dsimp only at hdata htake hbuf
  cases save with
  | false =>
    obtain ⟨rfl, he⟩ := runs_ret.mp hrest
    obtain rfl := Loop.next.inj he
    rw [List.append_nil]
    exact ⟨hsize, by rw [hdata], hlen, hbuf, hwritten, hfull⟩
  | true =>
    simp only [if_true, fwrite, Prog.call_bind, Prog.ret_bind] at hrest
    obtain ⟨k, t₃, rfl, hshown⟩ := runs_call.mp hrest
    obtain ⟨info, t₄, t₅, rfl, hprogress, hend⟩ := runs_bind.mp hshown
    obtain ⟨rfl, he⟩ := runs_ret.mp hend
    obtain rfl := Loop.next.inj he
    obtain ⟨-, hclock₁, hclock₂, hclock₃⟩ :=
      clock_unseen fun e he => (s.info.updateProgress_calls _).event hprogress he
    rw [List.append_nil]
    have hpiece : rom.buffer.take rom.dataSize = t₁.flatMap delivered := by rw [hdata, htake]
    refine ⟨hsize, by rw [hdata], ?_⟩
    clear hrest hend hr hshown hprogress
    generalize rom.buffer.take rom.dataSize = data at k hpiece ⊢
    subst hpiece
    have hsilent : (t₁ ++ (⟨.fwrite (t₁.flatMap delivered), k⟩ : Event) :: t₄).flatMap delivered =
        t₁.flatMap delivered := by
      rw [List.flatMap_append, List.flatMap_cons, hclock₁, List.append_nil]
      exact List.append_nil _
    rw [hsilent, if_pos rfl]
    refine ⟨hlen, hbuf, (k : Fin ((t₁.flatMap delivered).length + 1)), Nat.lt_succ_iff.mp k.2,
      ?_, ?_⟩
    · rw [List.flatMap_append, hwritten, List.flatMap_cons, hclock₂]
      exact List.append_nil _
    · rw [List.all_append, hfull, Bool.true_and, List.all_cons, hclock₃, Bool.and_true]
      simp only [fullWrite, decide_eq_true_eq, Fin.ext_iff, Fin.val_last]

/-- The file has what the device gave, if every write was a full one, and else less. -/
abbrev Kept (h : Trace) : Prop := Mirrors fullWrite written (h.flatMap delivered) h

lemma Kept.append {h t : Trace} (hh : Kept h) (ht : Kept t) : Kept (h ++ t) := by
  rw [Kept, List.flatMap_append]
  exact Mirrors.append hh ht

lemma uploadTurn_kept {s s' : Upload} {t : Trace} (hr : Runs (uploadTurn true s) t (.next s')) :
    Kept t := by
  obtain ⟨-, -, -, -, k, hk, hwritten, hfull⟩ := uploadTurn_next hr
  refine ⟨fun h => ?_, fun h => ?_⟩
  · rw [hwritten, hfull.mp h, List.take_length]
  · have hne : k ≠ (t.flatMap delivered).length := fun he => by
      rw [hfull.mpr he] at h
      cases h
    rw [hwritten, List.length_take]
    omega

/-- Between the turns: what has come, and what of it was kept. -/
structure Receiving (save : Bool) (size : ℤ) (s : Upload) (h : Trace) : Prop where
  received : (h.flatMap delivered).length + s.size = size
  kept : save = true → Kept h

lemma Receiving.next {save : Bool} {size : ℤ} {s s' : Upload} {h t : Trace}
    (hI : Receiving save size s h) (hr : Runs (uploadTurn save s) t (.next s')) :
    Receiving save size s' (h ++ t) := by
  obtain ⟨-, hsize, hlen, -⟩ := uploadTurn_next hr
  refine ⟨?_, ?_⟩
  · rw [List.flatMap_append, List.length_append, hsize, ← hI.received]
    omega
  · rintro rfl
    exact (hI.kept rfl).append (uploadTurn_kept hr)

lemma uploadTurn_done {save : Bool} {s : Upload} {t : Trace}
    (hr : Runs (uploadTurn save s) t (.done 0)) : s.size = 0 ∧ t = [] := by
  unfold uploadTurn at hr
  by_cases hsize : s.size ≠ 0
  swap
  · rw [if_neg hsize] at hr
    exact ⟨not_not.mp hsize, (runs_ret.mp hr).1⟩
  rw [if_pos hsize] at hr
  obtain ⟨⟨ret, rom⟩, t₁, t₂, rfl, -, hrest⟩ := runs_bind.mp hr
  dsimp only at hrest
  by_cases hret : ret ≠ 0
  · rw [if_pos hret] at hrest
    exact absurd (Loop.done.inj (runs_ret.mp hrest).2).symm hsize
  rw [if_neg hret] at hrest
  obtain ⟨k, -, t₄, -, -, hend⟩ := runs_bind.mp hrest
  cases (runs_ret.mp hend).2

/-- A loop that leaves nothing has received everything. -/
lemma uploadLoop_runs {save : Bool} {turns : ℕ} {s : Upload} {t : Trace}
    (hr : Runs (iterate (uploadTurn save) turns s) t 0) :
    (t.flatMap delivered).length = s.size ∧ (save = true → Kept t) := by
  have hloop := runs_iterate (I := Receiving save s.size)
    (Q := fun b h => b = 0 → (h.flatMap delivered).length = s.size ∧ (save = true → Kept h))
    (fun _ _ _ _ hI hnext => hI.next hnext) (fun s' h t' b hI hdone hb => ?_) (h := [])
    ⟨by simp, fun _ => mirrors_nil⟩ hr rfl
  · exact hloop
  · subst hb
    obtain ⟨hz, rfl⟩ := uploadTurn_done hdone
    rw [List.append_nil]
    refine ⟨?_, hI.kept⟩
    rw [← hI.received, hz, add_zero]

/-! ### The sizes -/

/-- In every state of the loop: the request fits its buffer, and the count of what remains goes
down without passing 0. -/
structure Paced (save : Bool) (s₀ : Upload) : Prop where
  request : ∀ s, Reached save s₀ s → s.size ≠ 0 → 1 ≤ (uploadRequest s).bufferLen ∧
    (uploadRequest s).bufferLen ≤ 0x10000 ∧
    (uploadRequest s).bufferLen ≤ (uploadRequest s).buffer.length
  remaining : ∀ s, Reached save s₀ s → 0 ≤ s.size
  decreases : ∀ s t s', Reached save s₀ s → Runs (uploadTurn save s) t (.next s') →
    s'.size < s.size

/-- The upload of that many bytes is paced, and it ends. -/
structure Sound (junk : ℕ → UInt8) (rom : AmlUsbRomRW) (filename : Option Bytes) (size : ℤ) :
    Prop where
  paced : Paced filename.isSome (upload junk rom size)
  ends : ∃ turns, Returns (readMediaFile junk turns rom filename size)

/-- Exactly what was asked for has come, and is in the file in order. -/
structure Exact (filename : Option Bytes) (size : ℤ) (t : Trace) : Prop where
  received : (t.flatMap delivered).length = size
  stored : filename.isSome → t.flatMap written = t.flatMap delivered

lemma request_bounds {z : ℤ} (h : 0 < z) :
    1 ≤ u32 (min z 0x10000) ∧ u32 (min z 0x10000) ≤ 0x10000 ∧ (u32 (min z 0x10000) : ℤ) ≤ z := by
  unfold u32
  omega

/-- A turn from a count that is not negative. -/
lemma uploadTurn_size {save : Bool} {s s' : Upload} {t : Trace} (hs : 0 ≤ s.size)
    (hr : Runs (uploadTurn save s) t (.next s')) : 0 ≤ s'.size ∧ s'.size < s.size := by
  obtain ⟨hne, hsize, -⟩ := uploadTurn_next hr
  obtain ⟨h₁, -, h₂⟩ := request_bounds (z := s.size) (by omega)
  have hlen : (uploadRequest s).bufferLen = u32 (min s.size 0x10000) := rfl
  rw [hsize, hlen]
  omega

lemma reached_sound {junk : ℕ → UInt8} {rom : AmlUsbRomRW} {size : ℤ} (hsize : 0 ≤ size)
    {save : Bool} {s : Upload} (h : Reached save (upload junk rom size) s) :
    0 ≤ s.size ∧ s.rom.buffer.length = 0x10000 := by
  induction h with
  | start =>
    refine ⟨hsize, ?_⟩
    rw [upload, malloc_length]
  | @turn s s' t _ hr ih =>
    obtain ⟨hne, -, -, hbuf, -⟩ := uploadTurn_next hr
    obtain ⟨-, hle, -⟩ := request_bounds (z := s.size) (by omega)
    refine ⟨(uploadTurn_size ih.1 hr).1, ?_⟩
    rw [hbuf (by rw [ih.2]; exact hle), ih.2]

lemma paced_of_nonneg (junk : ℕ → UInt8) (rom : AmlUsbRomRW) {size : ℤ} (hsize : 0 ≤ size)
    (save : Bool) : Paced save (upload junk rom size) := by
  refine ⟨fun s hs hne => ?_, fun s hs => (reached_sound hsize hs).1,
    fun s t s' hs hr => (uploadTurn_size (reached_sound hsize hs).1 hr).2⟩
  obtain ⟨hnonneg, hbuf⟩ := reached_sound hsize hs
  obtain ⟨h₁, h₂, -⟩ := request_bounds (z := s.size) (by omega)
  have hbuf' : (uploadRequest s).buffer.length = 0x10000 := hbuf
  rw [hbuf']
  exact ⟨h₁, h₂, h₂⟩

lemma returns_readMediaCmd (drv : AmlUsbDrv) (len : ℕ) :
    Returns (readMediaCmd drv 0 len 0 0 0 5000) := by
  obtain ⟨dev, handle, readEp, writeEp⟩ := drv
  by_cases hdev : dev = .invalid
  · simp [readMediaCmd, rwMediaCmd, usbDeviceIoControlEx, hdev]
  cases handle with
  | none =>
    simp only [readMediaCmd, rwMediaCmd, usbDeviceIoControlEx, hdev, if_false, if_true]
    exact fun e : Empty => e.elim
  | some hd =>
    obtain ⟨s, k, he⟩ := readMediaCmd_eq hdev hd readEp writeEp len
    rw [he]
    exact fun _ => trivial

lemma returns_openUsbDevice (drv : AmlUsbDrv) : Returns (openUsbDevice drv) :=
  returns_ite trivial fun _ => trivial

lemma returns_closeUsbDevice (drv : AmlUsbDrv) : Returns (closeUsbDevice drv) := by
  refine returns_ite trivial ?_
  cases drv.handle with
  | none => exact fun e : Empty => e.elim
  | some hd => exact fun _ => trivial

lemma returns_amlReadMedia (rom : AmlUsbRomRW) : Returns (amlReadMedia rom) := by
  refine returns_bind (returns_openUsbDevice _) fun t drv _ => returns_ite trivial ?_
  refine returns_bind (returns_readMediaCmd _ _) fun t ret _ => returns_ite ?_ ?_
  · exact returns_bind (returns_closeUsbDevice _) fun _ _ _ => trivial
  · refine returns_bind (returns_usbReadFile _ _ _ _) fun t r _ => ?_
    exact returns_bind (returns_closeUsbDevice _) fun _ _ _ =>
      returns_ite trivial (returns_ite trivial trivial)

lemma returns_uploadTurn (save : Bool) (s : Upload) : Returns (uploadTurn save s) := by
  refine returns_ite ?_ trivial
  refine returns_bind (returns_amlReadMedia _) fun t r _ => returns_ite trivial ?_
  cases save with
  | false => trivial
  | true =>
    exact returns_bind (fun _ => s.info.updateProgress_returns _) fun _ _ _ => trivial

/-- A size that is not negative is used up. -/
lemma readMediaFile_ends (junk : ℕ → UInt8) (rom : AmlUsbRomRW) (filename : Option Bytes)
    {size : ℤ} (hsize : 0 ≤ size) :
    Returns (readMediaFile junk (size.toNat + 1) rom filename size) := by
  have hloop : ∀ save, Returns (
      iterate (uploadTurn save) (size.toNat + 1) (upload junk rom size) >>=
      fun size => (pure (if size ≠ 0 then -1 else 0) : Program ℤ)) := by
    intro save
    refine returns_bind ?_ fun _ _ _ => trivial
    refine returns_iterate (I := fun s => 0 ≤ s.size) (μ := fun s => s.size.toNat)
      (fun s _ => returns_uploadTurn save s) (fun s t s' hs hr => ?_) hsize (Nat.lt_succ_self _)
    obtain ⟨hnonneg, hlt⟩ := uploadTurn_size hs hr
    refine ⟨hnonneg, ?_⟩
    omega
  cases filename with
  | none => exact hloop false
  | some path =>
    intro ok
    cases (ok : Bool) with
    | false => trivial
    | true => exact hloop true

/-- **The upload is paced and ends exactly for sizes that are not negative**, and a result 0 means
a complete file exactly when no write was short. -/
theorem upload_iff (junk : ℕ → UInt8) (rom : AmlUsbRomRW) (filename : Option Bytes) (size : ℤ) :
    (Sound junk rom filename size ↔ 0 ≤ size) ∧
      ∀ turns t, Runs (readMediaFile junk turns rom filename size) t 0 →
        (Exact filename size t ↔ (filename.isSome → t.all fullWrite)) := by
  refine ⟨⟨fun h => h.paced.remaining _ .start, fun h =>
    ⟨paced_of_nonneg junk rom h _, _, readMediaFile_ends junk rom filename h⟩⟩, ?_⟩
  intro turns t hr
  have hloop : ∀ {save t' r}, Runs (iterate (uploadTurn save) turns (upload junk rom size) >>=
      fun size => (pure (if size ≠ 0 then -1 else 0) : Program ℤ)) t' r → r = 0 →
        (t'.flatMap delivered).length = size ∧ (save = true → Kept t') := by
    rintro save t' r hr rfl
    obtain ⟨b, t₁, t₂, rfl, hb, hend⟩ := runs_bind.mp hr
    obtain ⟨rfl, hz⟩ := runs_ret.mp hend
    obtain rfl : b = 0 := by
      by_contra hne
      rw [if_pos hne] at hz
      cases hz
    rw [List.append_nil]
    exact uploadLoop_runs hb
  cases filename with
  | none =>
    obtain ⟨hreceived, -⟩ := hloop hr rfl
    exact ⟨fun _ => nofun, fun _ => ⟨hreceived, nofun⟩⟩
  | some path =>
    obtain ⟨ok, t', rfl, hrest⟩ := runs_call.mp hr
    cases (ok : Bool) with
    | false => cases (runs_ret.mp hrest).2
    | true =>
      obtain ⟨hreceived, hkept⟩ := hloop hrest rfl
      have hiff := (hkept rfl).iff
      exact ⟨fun h _ => hiff.mp (h.stored rfl), fun h => ⟨hreceived, fun _ => hiff.mpr (h rfl)⟩⟩

/-! ### One byte -/

/-- A device that delivers, and a file that takes everything or nothing. -/
def uploadAnswers (takes : Bool) (_ : Trace) : (o : Op) → Option (Resp o)
  | .libusbOpen _ => some (some (0 : ℕ))
  | .libusbClose _ => some ()
  | .fopen _ _ => some true
  | .clock => some (0 : ℤ)
  | .controlIn _ _ _ => some ⟨none, [], Nat.zero_le _⟩
  | .bulkIn _ _ n _ => some ⟨none, List.replicate n 7, (List.length_replicate).le⟩
  | .fwrite _ => some (if takes then Fin.last _ else 0)
  | _ => none

def byteUpload : Program ℤ :=
  readMediaFile (fun _ => 0) 2 ⟨.dev 0, 0, [], 0, 0⟩ (some []) 1

set_option maxRecDepth 10000 in
theorem upload_iff_byte : ∃ t, Runs byteUpload t 0 ∧ Exact (some []) 1 t := by
  have hruns : ∃ t, Runs byteUpload t 0 ∧ t.all fullWrite = true :=
    ⟨_, exec_recorded (uploadAnswers true) rfl, rfl⟩
  obtain ⟨t, hr, hfull⟩ := hruns
  exact ⟨t, hr, ((upload_iff _ _ _ _).2 2 t hr).mpr fun _ => hfull⟩

set_option maxRecDepth 10000 in
/-- A file that takes nothing, and a size of -1: a request for 4 GiB into 64 KiB. -/
theorem upload_unsound :
    (∃ t, Runs byteUpload t 0 ∧ ¬ Exact (some []) 1 t) ∧
      strtoll (ascii ['-', '1']) 0 = -1 ∧
      (uploadRequest (upload (fun _ => 0) ⟨.dev 0, 0, [], 0, 0⟩ (-1))).bufferLen = 2 ^ 32 - 1 ∧
      ¬ Sound (fun _ => 0) ⟨.dev 0, 0, [], 0, 0⟩ none (-1) := by
  have hruns : ∃ t, Runs byteUpload t 0 ∧ t.flatMap written = [] ∧ t.flatMap delivered = [7] :=
    ⟨_, exec_recorded (uploadAnswers false) rfl, rfl, rfl⟩
  obtain ⟨t, hr, hwritten, hdelivered⟩ := hruns
  refine ⟨⟨t, hr, fun h => ?_⟩, by decide, rfl, fun h => ?_⟩
  · have hstored := h.stored rfl
    rw [hwritten, hdelivered] at hstored
    cases hstored
  · exact absurd (h.paced.request _ .start (by decide)).2.1 (by decide)

end AmlogicUpdate.ReadMedia

import AmlogicUpdate.UsbRomDrv

/-!
What crosses the wire: the views of a trace that statements about the tool are made in, and
the calls the building blocks come down to on an open device.
-/

namespace AmlogicUpdate.Wire

open Interaction CData Usb AmlLibusb UsbRomDrv

/-! ### Views of a trace -/

/-- The bytes the device took in a bulk transfer to it. -/
def accepted : Event → Bytes
  | ⟨.bulkOut _ _ data n _, r⟩ =>
    have r : OutResult n := r
    data.take (usbBulkIo r.status r.actual).toNat
  | _ => []

/-- The bytes the device gave in a bulk transfer from it. -/
def delivered : Event → Bytes
  | ⟨.bulkIn _ _ n _, r⟩ =>
    have r : InResult n := r
    r.data.1.take (usbBulkIo r.status r.data.1.length).toNat
  | _ => []

/-- The bytes a file took. -/
def written : Event → Bytes
  | ⟨.fwrite data, k⟩ => data.take (k : Fin (data.length + 1))
  | _ => []

/-- What was to be written was, if it is a write. -/
def fullWrite : Event → Bool
  | ⟨.fwrite data, k⟩ => (k : Fin (data.length + 1)) = Fin.last _
  | _ => true

/-- What a transfer came to, and the length that was asked for. -/
def outcome : Event → Option (ℤ × ℕ)
  | ⟨.bulkOut _ _ _ n _, r⟩ =>
    have r : OutResult n := r
    some (usbBulkIo r.status r.actual, n)
  | ⟨.bulkIn _ _ n _, r⟩ =>
    have r : InResult n := r
    some (usbBulkIo r.status r.data.1.length, n)
  | ⟨.controlOut _ s _ _, r⟩ =>
    have r : OutResult s.wLength := r
    some (usbControlResult r.status r.actual, s.wLength)
  | ⟨.controlIn _ s _, r⟩ =>
    have r : InResult s.wLength := r
    some (usbControlResult r.status r.data.1.length, s.wLength)
  | _ => none

/-- A transfer moved all it was asked for, if the event is one. -/
def carried (e : Event) : Bool := (outcome e).all fun x => x.1 = x.2

/-- A transfer that was reported as an error. -/
def failed (e : Event) : Bool := (outcome e).any fun x => x.1 < 0

/-- A bulk transfer, in either direction. -/
def isBulk : Op → Bool
  | .bulkOut .. => true
  | .bulkIn .. => true
  | _ => false

/-- A control transfer to the device with the request number `req`. -/
def isRequest (req : ℕ) : Op → Bool
  | .controlOut _ s _ _ => s.bRequest = req
  | _ => false

/-- A control transfer to the device with the request number `req`, not answered with an
error. -/
def requestAccepted (req : ℕ) : Event → Bool
  | ⟨.controlOut _ s _ _, r⟩ =>
    have r : OutResult s.wLength := r
    s.bRequest = req && r.status.isNone
  | _ => false

/-- The device was opened each time it was asked for. -/
def opens (t : Trace) : Prop :=
  ∀ dev, ∀ r : Resp (.libusbOpen dev), (⟨.libusbOpen dev, r⟩ : Event) ∈ t →
    (r : Option Handle) ≠ none

/-- Readings of the clock are in none of the views. -/
lemma clock_unseen {t : Trace} (h : ∀ e ∈ t, e.1 = .clock) :
    t.flatMap accepted = [] ∧ t.flatMap delivered = [] ∧ t.flatMap written = [] ∧
      t.all fullWrite = true := by
  simp only [List.flatMap_eq_nil_iff, List.all_eq_true]
  have hview : ∀ e ∈ t, accepted e = [] ∧ delivered e = [] ∧ written e = [] ∧
      fullWrite e = true := by
    rintro ⟨o, r⟩ he
    obtain rfl : o = .clock := h _ he
    exact ⟨rfl, rfl, rfl, rfl⟩
  exact ⟨fun e he => (hview e he).1, fun e he => (hview e he).2.1, fun e he => (hview e he).2.2.1,
    fun e he => (hview e he).2.2.2⟩

/-! ### Results of transfers -/

lemma usbBulkIo_neg {status : Option LibusbError} {n : ℕ} (h : usbBulkIo status n < 0) :
    (usbBulkIo status n).toNat = 0 := by omega

/-- A transfer either fails or reports what it moved. -/
lemma usbBulkIo_cases (status : Option LibusbError) (n : ℕ) :
    usbBulkIo status n = n ∨ usbBulkIo status n < 0 := by
  unfold usbBulkIo
  split
  · exact .inl rfl
  · split
    · exact .inl rfl
    · exact .inr (compatErr_neg _)
  · exact .inr (compatErr_neg _)

lemma usbBulkIo_le (status : Option LibusbError) (n : ℕ) : usbBulkIo status n ≤ n := by
  rcases usbBulkIo_cases status n with h | h <;> omega

lemma usbControlResult_neg (status : Option LibusbError) (n : ℕ) :
    usbControlResult status n < 0 ↔ status.isSome := by
  cases status with
  | none => simp [usbControlResult]
  | some e => simpa [usbControlResult] using compatErr_neg e

lemma usbControlResult_le (status : Option LibusbError) (n : ℕ) :
    usbControlResult status n ≤ n := by
  cases status with
  | none => exact le_rfl
  | some e =>
    have h : usbControlResult (some e) n < 0 := compatErr_neg e
    omega

/-! ### Opening and closing -/

@[simp] lemma segfault_bind {α β : Type} (f : α → Program β) :
    (segfault >>= f) = segfault := by
  rw [segfault, Prog.call_bind]
  congr 1; funext e; exact e.elim

lemma keeps_segfault {α : Type} {S : Trace → Prop} {G : Trace → Op → Prop}
    {Q : Trace → α → Prop} {h : Trace} : Keeps S G Q h segfault ↔ G h .nullHandle :=
  ⟨fun hs => hs.1, fun hg => ⟨hg, fun e => e.elim⟩⟩

lemma returns_segfault {α : Type} : Returns (segfault : Program α) := fun e => e.elim

lemma openUsbDevice_null (readEp writeEp : ℕ) :
    openUsbDevice ⟨.null, none, readEp, writeEp⟩ = .ret (0, ⟨.null, none, readEp, writeEp⟩) := by
  simp [openUsbDevice]

lemma openUsbDevice_eq {dev : Device} (h : dev ≠ .null) (readEp writeEp : ℕ) :
    openUsbDevice ⟨dev, none, readEp, writeEp⟩ =
      .call (.libusbOpen dev) fun handle => .ret (1, ⟨dev, handle, amEpIn, amEpOut⟩) := by
  simp [openUsbDevice, usbOpen, h]

lemma closeUsbDevice_eq {dev : Device} (h : dev ≠ .null) (handle : Handle)
    (readEp writeEp : ℕ) :
    closeUsbDevice ⟨dev, some handle, readEp, writeEp⟩ =
      .call (.libusbClose handle) fun _ => .ret (1, ⟨dev, none, readEp, writeEp⟩) := by
  simp [closeUsbDevice, usbClose, h]

lemma closeUsbDevice_none {drv : AmlUsbDrv} (hd : drv.device ≠ .null)
    (hh : drv.handle = none) : closeUsbDevice drv = segfault := by
  simp [closeUsbDevice, usbClose, hd, hh]

lemma closeUsbDevice_some {drv : AmlUsbDrv} {h : Handle} (hd : drv.device ≠ .null)
    (hh : drv.handle = some h) :
    closeUsbDevice drv = .call (.libusbClose h) fun _ => .ret (1, { drv with handle := none }) := by
  simp [closeUsbDevice, usbClose, hd, hh]

/-- The way out of a routine: closing the handle it has, then the result. -/
lemma keeps_closing {α : Type} {S : Trace → Prop} {G : Trace → Op → Prop}
    {Q : Trace → α → Prop} {t : Trace} {drv : AmlUsbDrv} {a : α} (hd : drv.device ≠ .null)
    (hnull : drv.handle = none → G t .nullHandle)
    (hclose : ∀ h, drv.handle = some h →
      G t (.libusbClose h) ∧ Q (t ++ [⟨.libusbClose h, ()⟩]) a) :
    Keeps S G Q t (closeUsbDevice drv >>= fun _ => .ret a) := by
  cases hh : drv.handle with
  | none =>
    rw [closeUsbDevice_none hd hh, segfault_bind, keeps_segfault]
    exact hnull hh
  | some h =>
    rw [closeUsbDevice_some hd hh]
    exact ⟨(hclose h hh).1, fun _ => (hclose h hh).2⟩

section Opened

variable {α β : Type} {dev : Device} (hd : dev ≠ .null) {readEp writeEp : ℕ}
  {F : ℕ × AmlUsbDrv → Program α} (inner : AmlUsbDrv → Program β) {g : β → α}
  (hF : ∀ handle, F (1, ⟨dev, handle, amEpIn, amEpOut⟩) =
    inner ⟨dev, handle, amEpIn, amEpOut⟩ >>= fun b =>
      closeUsbDevice ⟨dev, handle, amEpIn, amEpOut⟩ >>= fun _ => .ret (g b))
include hd hF

/-- The usual routine returns only when its device was opened; it closes it at the end. -/
lemma runs_opened {t : Trace} {a : α}
    (hr : Runs (openUsbDevice ⟨dev, none, readEp, writeEp⟩ >>= F) t a) :
    ∃ h b t', t = [⟨.libusbOpen dev, some h⟩] ++ t' ++ [⟨.libusbClose h, ()⟩] ∧
      Runs (inner ⟨dev, some h, amEpIn, amEpOut⟩) t' b ∧ a = g b := by
  rw [openUsbDevice_eq hd, Prog.call_bind, runs_call] at hr
  obtain ⟨handle, t₁, rfl, hr⟩ := hr
  rw [Prog.ret_bind, hF] at hr
  obtain ⟨b, t₂, t₃, rfl, hb, hc⟩ := runs_bind.mp hr
  cases handle with
  | none =>
    rw [closeUsbDevice_none hd rfl, segfault_bind, segfault, runs_call] at hc
    obtain ⟨r, -⟩ := hc
    exact r.elim
  | some h =>
    rw [closeUsbDevice_eq hd, Prog.call_bind, runs_call] at hc
    obtain ⟨_, t₄, rfl, hc⟩ := hc
    obtain ⟨rfl, rfl⟩ := runs_ret.mp hc
    exact ⟨h, b, t₂, by simp, hb, rfl⟩

/-- What the routine can come to once its device is opened. -/
lemma can_opened {Q : α → Prop} (h : Handle)
    (hin : Can (fun b => Q (g b)) (inner ⟨dev, some h, amEpIn, amEpOut⟩)) :
    Can Q (openUsbDevice ⟨dev, none, readEp, writeEp⟩ >>= F) := by
  rw [openUsbDevice_eq hd, Prog.call_bind]
  refine can_call (some h) ?_
  rw [Prog.ret_bind, hF]
  refine can_bind (hin.mono fun b hb => ?_)
  rw [closeUsbDevice_eq hd, Prog.call_bind]
  exact can_call () (can_ret hb)

lemma keeps_opened {S : Trace → Prop} {G : Trace → Op → Prop} {Q : Trace → α → Prop} {t : Trace}
    (hopen : G t (.libusbOpen dev))
    (hin : ∀ handle, Keeps S G (fun t' b => (handle = none → G t' .nullHandle) ∧
        ∀ h, handle = some h → G t' (.libusbClose h) ∧ Q (t' ++ [⟨.libusbClose h, ()⟩]) (g b))
      (t ++ [⟨.libusbOpen dev, handle⟩]) (inner ⟨dev, handle, amEpIn, amEpOut⟩)) :
    Keeps S G Q t (openUsbDevice ⟨dev, none, readEp, writeEp⟩ >>= F) := by
  rw [openUsbDevice_eq hd, Prog.call_bind]
  refine ⟨hopen, fun handle => ?_⟩
  simp only [Prog.ret_bind]
  rw [hF, keeps_bind]
  exact (hin handle).mono fun t' b hb => keeps_closing hd hb.1 hb.2

/-- Against an environment that opens the device and closes it. -/
lemma ensures_opened {σ : Type} {env : σ → (o : Op) → Option (Resp o × σ)} {s s₁ : σ}
    {h : Handle} {Q : α → σ → Prop} (hopen : env s (.libusbOpen dev) = some (some h, s₁))
    (hin : Ensures env s₁ (inner ⟨dev, some h, amEpIn, amEpOut⟩) fun b s₂ =>
      ∃ s₃, env s₂ (.libusbClose h) = some ((), s₃) ∧ Q (g b) s₃) :
    Ensures env s (openUsbDevice ⟨dev, none, readEp, writeEp⟩ >>= F) Q := by
  rw [openUsbDevice_eq hd, Prog.call_bind, ensures_call hopen, Prog.ret_bind, hF, ensures_bind]
  refine hin.mono fun b s₂ ⟨s₃, hclose, hQ⟩ => ?_
  rw [closeUsbDevice_eq hd, Prog.call_bind, ensures_call hclose]
  exact ensures_ret.mpr hQ

end Opened

/-! ### The building blocks on an open device -/

/-- Four words at the front, and the size of a block in the middle. -/
lemma rwHeader_words (address size cksum seqNum bulkSize : ℕ) :
    rwHeader address size cksum seqNum bulkSize =
      (le32 address ++ le32 size ++ le32 cksum ++ le32 seqNum) ++
        (List.replicate 48 0 ++ le32 bulkSize ++ List.replicate 60 0) := rfl

lemma rwHeader_take (address size cksum seqNum bulkSize : ℕ) :
    (rwHeader address size cksum seqNum bulkSize).take 16 =
      le32 address ++ le32 size ++ le32 cksum ++ le32 seqNum := by
  rw [rwHeader_words]
  exact List.take_left' rfl

lemma rwHeader_size (address size cksum seqNum bulkSize : ℕ) :
    getU32 (rwHeader address size cksum seqNum bulkSize) 4 = size % 2 ^ 32 := by
  simp only [rwHeader_words, List.append_assoc]
  rw [← List.append_assoc]
  exact getU32_word (le32 address) _ size rfl

lemma rwHeader_bulkSize (address size cksum seqNum bulkSize : ℕ) :
    getU16 (rwHeader address size cksum seqNum bulkSize) 64 = bulkSize % 2 ^ 16 := by
  have hword : getU32 (rwHeader address size cksum seqNum bulkSize) 64 = bulkSize % 2 ^ 32 := by
    rw [rwHeader_words, ← List.append_assoc, ← List.append_assoc]
    exact getU32_word _ _ bulkSize rfl
  have hlow := getU16_lt (rwHeader address size cksum seqNum bulkSize) 64
  rw [getU32] at hword
  omega

/-- The setup packet of a large transfer. -/
def largeSetup (doRead : Bool) (size bulkSize : ℕ) : Setup :=
  ⟨0x40, if doRead then amReqRdLargeMem else amReqWrLargeMem, bulkSize,
    blockCnt (size % 2 ^ 32) bulkSize, 16⟩

/-- A control transfer to the device, from the values its fields come to. -/
lemma usbControlMsg_out (h : Handle) {bRequest req v i n : ℕ} {wValue wIndex size : ℤ}
    {bytes data : Bytes} (hr : bRequest % 2 ^ 8 = req) (hv : u16 wValue = v)
    (hi : u16 wIndex = i) (hn : u16 size = n) (hd : bytes.take n = data) (timeout : ℤ) :
    usbControlMsg (some h) vendorOut bRequest wValue wIndex bytes size timeout =
      .call (.controlOut h ⟨0x40, req, v, i, n⟩ data timeout) fun r : OutResult n =>
        .ret (usbControlResult r.status r.actual, bytes) := by
  subst hr hv hi hn hd; rfl

/-- A control transfer to the host, likewise. -/
lemma usbControlMsg_in (h : Handle) {bRequest req v i n : ℕ} {wValue wIndex size : ℤ}
    {bytes : Bytes} (hr : bRequest % 2 ^ 8 = req) (hv : u16 wValue = v)
    (hi : u16 wIndex = i) (hn : u16 size = n) (timeout : ℤ) :
    usbControlMsg (some h) vendorIn bRequest wValue wIndex bytes size timeout =
      .call (.controlIn h ⟨0xC0, req, v, i, n⟩ timeout) fun r : InResult n =>
        .ret (usbControlResult r.status r.data.1.length, blit bytes 0 r.data.1) := by
  subst hr hv hi hn; rfl

lemma rwLargeMemCmd_eq {dev : Device} (hd : dev ≠ .invalid) (h : Handle) (readEp writeEp : ℕ)
    (address size cksum seqNum : ℕ) {bulkSize : ℕ} (h₀ : 0 < bulkSize) (h₁ : bulkSize ≤ 4096)
    (doRead : Bool) :
    rwLargeMemCmd ⟨dev, some h, readEp, writeEp⟩ address size bulkSize cksum seqNum doRead =
      .call (.controlOut h (largeSetup doRead size bulkSize)
          (le32 address ++ le32 size ++ le32 cksum ++ le32 seqNum) 50000)
        fun r : OutResult 16 => .ret (if r.status.isSome then 0 else 1) := by
  have hb' : bulkSize % 2 ^ 16 = bulkSize := Nat.mod_eq_of_lt (by omega)
  have hb : blockLen (rwHeader address size cksum seqNum bulkSize) 128 = bulkSize := by
    simp only [blockLen, rwHeader_bulkSize, hb']
    split_ifs <;> omega
  have hc : u16 (blockCnt (size % 2 ^ 32) bulkSize) = blockCnt (size % 2 ^ 32) bulkSize := by
    rw [u16_natCast]; exact Nat.mod_mod _ _
  have hreq : (if doRead then amReqRdLargeMem else amReqWrLargeMem) % 2 ^ 8 =
      if doRead then amReqRdLargeMem else amReqWrLargeMem := by
    cases doRead <;> rfl
  have hn : u16 16 = 16 := rfl
  have hmsg := usbControlMsg_out h hreq (by rw [u16_natCast, hb']) hc hn
    (rwHeader_take address size cksum seqNum bulkSize) 50000
  have hio : rwLargeMemCmd ⟨dev, some h, readEp, writeEp⟩ address size bulkSize cksum seqNum
      doRead = (usbControlMsg (some h) vendorOut
        (if doRead then amReqRdLargeMem else amReqWrLargeMem) bulkSize
        (blockCnt (size % 2 ^ 32) bulkSize) (rwHeader address size cksum seqNum bulkSize) 16
        50000) >>= fun r => .ret (if r.1 < 0 then 0 else 1) := by
    cases doRead <;>
      simp [rwLargeMemCmd, usbDeviceIoControl, ioctlDoLargeMemHandler, hd, hb, rwHeader_size,
        ioctlResult]
  rw [hio, hmsg]
  simp only [Prog.call_bind, Prog.ret_bind, usbControlResult_neg]
  rfl

lemma writeBulkUsb_eq {dev : Device} (hd : dev ≠ .invalid) (h : Handle) {readEp : ℕ}
    (buf : Bytes) (len : ℕ) :
    writeBulkUsb ⟨dev, some h, readEp, amEpOut⟩ buf len =
      .call (.bulkOut h amEpOut (buf.take len) len 50000) fun r : OutResult len =>
        .ret (if usbBulkIo r.status r.actual < 0 then -1 else usbBulkIo r.status r.actual) := by
  have hio : writeBulkUsb ⟨dev, some h, readEp, amEpOut⟩ buf len =
      usbBulkWrite (some h) amEpOut buf len 50000 >>= fun ret =>
        .ret (if ret < 0 then -1 else ret) := by
    simp only [writeBulkUsb, usbWriteFile, hd, if_false, Prog.pure_eq_ret, Prog.assoc,
      Prog.ret_bind]
    congr 1; funext ret
    split_ifs <;> simp_all
  rw [hio]; rfl

lemma readBulkUsb_eq {dev : Device} (hd : dev ≠ .invalid) (h : Handle) {writeEp : ℕ}
    (buf : Bytes) (len : ℕ) :
    readBulkUsb ⟨dev, some h, amEpIn, writeEp⟩ buf len =
      .call (.bulkIn h amEpIn len 30000) fun r : InResult len =>
        .ret (if usbBulkIo r.status r.data.1.length < 0 then -1
          else usbBulkIo r.status r.data.1.length, blit buf 0 r.data.1) := by
  have hio : readBulkUsb ⟨dev, some h, amEpIn, writeEp⟩ buf len =
      usbBulkRead (some h) amEpIn buf len 30000 >>= fun r =>
        .ret (if r.1 < 0 then -1 else r.1, r.2) := by
    simp only [readBulkUsb, usbReadFile, hd, if_false, Prog.pure_eq_ret, Prog.assoc,
      Prog.ret_bind]
    congr 1; funext ret
    split_ifs <;> simp_all
  rw [hio]; rfl

/-! ### Media requests -/

def mediaSetup : Setup := ⟨0x40, amReqWriteMedia, 1, 0xFFFF, 32⟩

/-- The 32 bytes of a media header, from the four words the caller chooses. -/
def mediaHeader (address size cksum seqNum : ℕ) : Bytes :=
  le32 address ++ le32 size ++ le32 cksum ++ le32 seqNum ++ le32 0x010000EF ++
    List.replicate 12 0

/-- The four words a media header begins with. -/
lemma mediaHeader_words (address size cksum seqNum : ℕ) :
    getU32 (mediaHeader address size cksum seqNum) 0 = address % 2 ^ 32 ∧
      getU32 (mediaHeader address size cksum seqNum) 4 = size % 2 ^ 32 ∧
      getU32 (mediaHeader address size cksum seqNum) 8 = cksum % 2 ^ 32 ∧
      getU32 (mediaHeader address size cksum seqNum) 12 = seqNum % 2 ^ 32 :=
  ⟨getU32_le32 address, getU32_le32 size, getU32_le32 cksum, getU32_le32 seqNum⟩

lemma writeMediaCmd_eq {dev : Device} (hd : dev ≠ .invalid) (h : Handle) (readEp writeEp : ℕ)
    (address size seqNum cksum bulkSize timeout : ℕ) :
    writeMediaCmd ⟨dev, some h, readEp, writeEp⟩ address size seqNum cksum bulkSize timeout =
      .call (.controlOut h mediaSetup (mediaHeader address size cksum seqNum) timeout)
        fun r : OutResult 32 => .ret (if r.status.isSome then 0 else 1) := by
  have hdata : (setU32 (rwHeader address size cksum seqNum bulkSize) 16 0x010000EF).take 32 =
      mediaHeader address size cksum seqNum := by
    have hoff : 16 = (le32 address ++ le32 size ++ le32 cksum ++ le32 seqNum).length := rfl
    rw [rwHeader_words, setU32_append _ _ _ hoff]
    rfl
  have hr : amReqWriteMedia % 2 ^ 8 = amReqWriteMedia := rfl
  have hv : u16 1 = 1 := rfl
  have hi : u16 0xFFFF = 0xFFFF := rfl
  have hn : u16 32 = 32 := rfl
  have hmsg := usbControlMsg_out h hr hv hi hn hdata timeout
  have hio : writeMediaCmd ⟨dev, some h, readEp, writeEp⟩ address size seqNum cksum bulkSize
      timeout = (usbControlMsg (some h) vendorOut amReqWriteMedia 1 0xFFFF
        (setU32 (rwHeader address size cksum seqNum bulkSize) 16 0x010000EF) 32 timeout) >>=
          fun r => .ret (if r.1 < 0 then 0 else 1) := by
    simp [writeMediaCmd, rwMediaCmd, usbDeviceIoControlEx, ioctlWriteMediaHandler, hd,
      ioctlResult]
  rw [hio, hmsg]
  simp only [Prog.call_bind, Prog.ret_bind, usbControlResult_neg]
  rfl

lemma writeMediaCmd_invalid (handle : Option Handle)
    (readEp writeEp address size seqNum cksum bulkSize timeout : ℕ) :
    writeMediaCmd ⟨.invalid, handle, readEp, writeEp⟩ address size seqNum cksum bulkSize timeout =
      .ret 0 := by
  simp [writeMediaCmd, rwMediaCmd, usbDeviceIoControlEx]

lemma writeMediaCmd_none {dev : Device} (hd : dev ≠ .invalid)
    (readEp writeEp address size seqNum cksum bulkSize timeout : ℕ) :
    writeMediaCmd ⟨dev, none, readEp, writeEp⟩ address size seqNum cksum bulkSize timeout =
      segfault := by
  simp [writeMediaCmd, rwMediaCmd, usbDeviceIoControlEx, ioctlWriteMediaHandler, usbControlMsg, hd]

lemma usbWriteFile_eq {dev : Device} (hd : dev ≠ .invalid) (h : Handle) {readEp : ℕ}
    (buf : Bytes) (len bytesReturned : ℕ) :
    usbWriteFile ⟨dev, some h, readEp, amEpOut⟩ buf len bytesReturned =
      .call (.bulkOut h amEpOut (buf.take len) len 50000) fun r : OutResult len =>
        .ret (if usbBulkIo r.status r.actual < 0 then 0 else 1,
          (usbBulkIo r.status r.actual).toNat) := by
  have hmax : ∀ x : ℤ, (max 0 x).toNat = x.toNat := by omega
  simp only [usbWriteFile, hd, if_false, usbBulkWrite, Prog.call_bind, Prog.ret_bind, hmax]
  rfl

lemma usbReadFile_eq {dev : Device} (hd : dev ≠ .invalid) (h : Handle) {writeEp : ℕ}
    (buf : Bytes) (len bytesReturned : ℕ) :
    usbReadFile ⟨dev, some h, amEpIn, writeEp⟩ buf len bytesReturned =
      .call (.bulkIn h amEpIn len 30000) fun r : InResult len =>
        .ret (if usbBulkIo r.status r.data.1.length < 0 then 0 else 1,
          (usbBulkIo r.status r.data.1.length).toNat, blit buf 0 r.data.1) := by
  have hmax : ∀ x : ℤ, (max 0 x).toNat = x.toNat := by omega
  simp only [usbReadFile, hd, if_false, usbBulkRead, Prog.call_bind, Prog.ret_bind, hmax]
  rfl

lemma returns_usbReadFile (drv : AmlUsbDrv) (outBuf : Bytes) (outLen bytesReturned : ℕ) :
    Returns (usbReadFile drv outBuf outLen bytesReturned) := by
  unfold usbReadFile
  split_ifs
  · trivial
  · refine returns_bind ?_ fun _ _ _ => trivial
    cases drv.handle with
    | none => exact returns_segfault
    | some h => exact fun r => trivial

/-- The request a control code stands for: its type and its number. -/
def ioctlRequest : Ioctl → Option (ℕ × ℕ)
  | .readMem => some (vendorIn, amReqReadMem)
  | .writeMem => some (vendorOut, amReqWriteMem)
  | .runInAddr => some (vendorOut, amReqRunInAddr)
  | .readLargeMem => some (vendorOut, amReqRdLargeMem)
  | .writeLargeMem => some (vendorOut, amReqWrLargeMem)
  | .identifyHost => some (vendorIn, amReqIdentifyHost)
  | .tplCmd => some (vendorOut, amReqTplCmd)
  | .tplStatus => some (vendorIn, amReqTplStat)
  | .writeMedia => some (vendorOut, amReqWriteMedia)
  | .readMedia => some (vendorIn, amReqReadMedia)
  | .bulkCmd1 => some (vendorOut, 0x34)
  | .bulkCmd2 => some (vendorOut, 0x35)
  | _ => none

/-- A handler refuses its arguments, or makes its one request and looks at what comes of it. -/
inductive Handled (handle : Option Handle) (code : Ioctl) : Program (ℕ × UsbDevIoCtrl) → Prop
  | refused (ctrl : UsbDevIoCtrl) : Handled handle code (.ret (0, ctrl))
  | requested {requestType req : ℕ} (h : ioctlRequest code = some (requestType, req))
      (wValue wIndex : ℤ) (bytes : Bytes) (size timeout : ℤ)
      (result : ℤ × Bytes → ℕ × UsbDevIoCtrl) :
      Handled handle code
        (usbControlMsg handle requestType req wValue wIndex bytes size timeout >>=
          fun r => .ret (result r))

lemma handled_ite {handle : Option Handle} {code : Ioctl} {c : Prop} [Decidable c]
    {p q : Program (ℕ × UsbDevIoCtrl)} (hp : Handled handle code p) (hq : Handled handle code q) :
    Handled handle code (if c then p else q) := by
  split_ifs
  · exact hp
  · exact hq

theorem usbDeviceIoControl_handled (drv : AmlUsbDrv) (code : Ioctl) (inBuf : Option Bytes)
    (inLen : ℕ) (outBuf : Option Bytes) (outLen bytesReturned : ℕ) :
    Handled drv.handle code
      (usbDeviceIoControl drv code inBuf inLen outBuf outLen bytesReturned) := by
  refine handled_ite (.refused _) ?_
  cases code <;> cases inBuf <;> cases outBuf <;>
    first
    | exact .refused _
    | exact handled_ite (.refused _) (.requested rfl _ _ _ _ _ _)

theorem usbDeviceIoControlEx_handled (drv : AmlUsbDrv) (code : Ioctl) (inBuf : Option Bytes)
    (inLen : ℕ) (outBuf : Option Bytes) (outLen bytesReturned timeout : ℕ) :
    Handled drv.handle code
      (usbDeviceIoControlEx drv code inBuf inLen outBuf outLen bytesReturned timeout) := by
  refine handled_ite (.refused _) ?_
  cases code <;> cases inBuf <;> cases outBuf <;>
    first
    | exact .refused _
    | exact handled_ite (.refused _) (.requested rfl _ _ _ _ _ _)

section Handlers

variable {G : Op → Prop} {drv : AmlUsbDrv}
  (hmsg : ∀ bmRequestType bRequest wValue wIndex bytes size timeout, Calls G
    (usbControlMsg drv.handle bmRequestType bRequest wValue wIndex bytes size timeout))
include hmsg

lemma Handled.calls {code : Ioctl} {p : Program (ℕ × UsbDevIoCtrl)}
    (hp : Handled drv.handle code p) : Calls G p := by
  cases hp with
  | refused ctrl => trivial
  | requested h wValue wIndex bytes size timeout result =>
    exact calls_bind (hmsg _ _ _ _ _ _ _) fun _ => trivial

lemma calls_usbDeviceIoControl (code : Ioctl) (inBuf : Option Bytes) (inLen : ℕ)
    (outBuf : Option Bytes) (outLen bytesReturned : ℕ) :
    Calls G (usbDeviceIoControl drv code inBuf inLen outBuf outLen bytesReturned) :=
  (usbDeviceIoControl_handled drv code inBuf inLen outBuf outLen bytesReturned).calls hmsg

lemma calls_usbDeviceIoControlEx (code : Ioctl) (inBuf : Option Bytes) (inLen : ℕ)
    (outBuf : Option Bytes) (outLen bytesReturned timeout : ℕ) :
    Calls G (usbDeviceIoControlEx drv code inBuf inLen outBuf outLen bytesReturned timeout) :=
  (usbDeviceIoControlEx_handled drv code inBuf inLen outBuf outLen bytesReturned timeout).calls hmsg

end Handlers

/-! ### Memory requests -/

/-- The setup packet of a memory request, the address split over two fields. -/
def memSetup (doRead : Bool) (addr len : ℕ) : Setup :=
  ⟨if doRead then 0xC0 else 0x40, if doRead then amReqReadMem else amReqWriteMem,
    addr / 2 ^ 16 % 2 ^ 16, addr % 2 ^ 16, len⟩

lemma memSetup_addr (doRead : Bool) (addr len : ℕ) :
    (memSetup doRead addr len).wValue * 2 ^ 16 + (memSetup doRead addr len).wIndex =
      addr % 2 ^ 32 := by
  dsimp only [memSetup]
  omega

lemma getU16_le32_low (n : ℕ) (l : Bytes) : getU16 (le32 n ++ l) 0 = n % 2 ^ 16 := by
  simp only [getU16, getU8, le32, List.cons_append, List.getD_cons_zero, List.getD_cons_succ,
    Nat.zero_add, UInt8.toNat_ofNat', Nat.toUInt8]
  omega

lemma getU16_le32_high (n : ℕ) (l : Bytes) :
    getU16 (le32 n ++ l) 2 = n / 2 ^ 16 % 2 ^ 16 := by
  simp only [getU16, getU8, le32, List.cons_append, List.getD_cons_zero, List.getD_cons_succ,
    Nat.reduceAdd, UInt8.toNat_ofNat', Nat.toUInt8]
  omega

/-- The direct requests of `Aml_Libusb_Ctrl_RdWr`. -/
lemma usbControlMsg_readMem (h : Handle) (addr : ℕ) (buf : Bytes) {len : ℕ} (hlen : len ≤ 64)
    (timeout : ℤ) :
    usbControlMsg (some h) vendorIn amReqReadMem (addr / 2 ^ 16 : ℕ) (addr % 2 ^ 16 : ℕ) buf
        len timeout =
      .call (.controlIn h (memSetup true addr len) timeout) fun r : InResult len =>
        .ret (usbControlResult r.status r.data.1.length, blit buf 0 r.data.1) := by
  have hn : u16 len = len := by rw [u16_natCast]; omega
  have hi : u16 (addr % 2 ^ 16 : ℕ) = addr % 2 ^ 16 := by rw [u16_natCast]; omega
  exact usbControlMsg_in h rfl (u16_natCast _) hi hn timeout

lemma usbControlMsg_writeMem (h : Handle) (addr : ℕ) (buf : Bytes) {len : ℕ} (hlen : len ≤ 64)
    (timeout : ℤ) :
    usbControlMsg (some h) usbTypeVendor amReqWriteMem (addr / 2 ^ 16 : ℕ)
        (addr % 2 ^ 16 : ℕ) buf len timeout =
      .call (.controlOut h (memSetup false addr len) (buf.take len) timeout)
        fun r : OutResult len => .ret (usbControlResult r.status r.actual, buf) := by
  have hn : u16 len = len := by rw [u16_natCast]; omega
  have hi : u16 (addr % 2 ^ 16 : ℕ) = addr % 2 ^ 16 := by rw [u16_natCast]; omega
  exact usbControlMsg_out h rfl (u16_natCast _) hi hn rfl timeout

/-- The requests of the handlers, through `rw_ctrl_usb`. -/
lemma rwCtrlUsb_read_eq {dev : Device} (hd : dev ≠ .invalid) (h : Handle)
    {readEp writeEp : ℕ} (addr : ℕ) (buf : Bytes) {len : ℕ} (h₀ : 0 < len) (hlen : len ≤ 64) :
    rwCtrlUsb ⟨dev, some h, readEp, writeEp⟩ addr buf len true =
      .call (.controlIn h (memSetup true addr len) 50000) fun r : InResult len =>
        .ret (if r.status.isSome then 0 else 1, blit buf 0 r.data.1) := by
  have hmsg := usbControlMsg_readMem h addr buf hlen 50000
  have hmin : min len 64 = len := by omega
  have hio : rwCtrlUsb ⟨dev, some h, readEp, writeEp⟩ addr buf len true =
      usbControlMsg (some h) vendorIn amReqReadMem (addr / 2 ^ 16 % 2 ^ 16 : ℕ)
        (addr % 2 ^ 16 : ℕ) buf len 50000 >>= fun r => .ret (if r.1 < 0 then 0 else 1, r.2) := by
    simp [rwCtrlUsb, usbDeviceIoControl, ioctlReadMemHandler, hd, getU16_le32_low,
      getU16_le32_high, hmin, ioctlResult, Nat.pos_iff_ne_zero.mp h₀]
  rw [hio]
  have hv : u16 (addr / 2 ^ 16 % 2 ^ 16 : ℕ) = addr / 2 ^ 16 % 2 ^ 16 := by
    rw [u16_natCast]; omega
  have hi : u16 (addr % 2 ^ 16 : ℕ) = addr % 2 ^ 16 := by rw [u16_natCast]; omega
  have hn : u16 len = len := by rw [u16_natCast]; omega
  rw [usbControlMsg_in h rfl hv hi hn 50000]
  simp only [Prog.call_bind, Prog.ret_bind, usbControlResult_neg]
  rfl

/-- The address of a request to write is what the first four bytes of the input hold. -/
lemma ioctlWriteMemHandler_eq (h : Handle) {inBuf data : Bytes} (outBuf : Option Bytes)
    {inLen : ℕ} (outLen bytesReturned : ℕ) (hlen : 2 < inLen) {addr n : ℕ}
    (hhigh : addr / 2 ^ 16 % 2 ^ 16 = getU16 inBuf 2) (hlow : addr % 2 ^ 16 = getU16 inBuf 0)
    (hn : min (u32 ((inLen : ℤ) - 4)) 64 = n) (hdata : (inBuf.drop 4).take n = data) :
    ioctlWriteMemHandler ⟨some h, some inBuf, outBuf, inLen, outLen, bytesReturned⟩ =
      .call (.controlOut h (memSetup false addr n) data 50000) fun r : OutResult n => .ret
        (ioctlResult ⟨some h, some inBuf, outBuf, inLen, outLen, bytesReturned⟩
          (usbControlResult r.status r.actual)) := by
  have hv : u16 (getU16 inBuf 2 : ℕ) = addr / 2 ^ 16 % 2 ^ 16 := by
    rw [u16_natCast, ← hhigh]; omega
  have hi : u16 (getU16 inBuf 0 : ℕ) = addr % 2 ^ 16 := by
    rw [u16_natCast, ← hlow]; omega
  have hs : u16 (n : ℕ) = n := by rw [u16_natCast]; omega
  have hlen' : ¬ inLen ≤ 2 := by omega
  rw [ioctlWriteMemHandler]
  simp only [hlen', if_false, hn]
  rw [usbControlMsg_out h rfl hv hi hs hdata 50000]
  rfl

/-- The request of `AmlUsbCtrlWr`: the address in the four bytes before the data. -/
lemma ctrlWr_eq {dev : Device} (hd : dev ≠ .invalid) (h : Handle) {readEp writeEp : ℕ} (addr : ℕ)
    {data : Bytes} (rest : Bytes) {c : ℕ} (hdata : data.length = c) (hc : c ≤ 64)
    (bytesReturned timeout : ℕ) :
    usbDeviceIoControlEx ⟨dev, some h, readEp, writeEp⟩ .writeMem
        (some (le32 addr ++ (data ++ rest))) (c + 4) none 0 bytesReturned timeout =
      .call (.controlOut h (memSetup false addr c) data 50000) fun r : OutResult c =>
        .ret (ioctlResult ⟨some h, some (le32 addr ++ (data ++ rest)), none, c + 4, 0,
          bytesReturned⟩ (usbControlResult r.status r.actual)) := by
  have hn : min (u32 (((c + 4 : ℕ) : ℤ) - 4)) 64 = c := by
    rw [show ((c + 4 : ℕ) : ℤ) - 4 = (c : ℕ) by omega, u32_natCast]; omega
  have hsend : ((le32 addr ++ (data ++ rest)).drop 4).take c = data := by
    rw [List.drop_append_of_le_length (by simp), List.drop_of_length_le (by simp),
      List.nil_append, ← hdata, List.take_left]
  rw [usbDeviceIoControlEx, if_neg hd]
  exact ioctlWriteMemHandler_eq h none 0 bytesReturned (by omega) (getU16_le32_high addr _).symm
    (getU16_le32_low addr _).symm hn hsend

lemma ctrlWr_buffer {buf data : Bytes} (addr : ℕ) (h : 8 ≤ buf.length) :
    (setU32 (blit buf 8 data) 4 addr).drop 4 =
      le32 addr ++ (data ++ buf.drop (8 + data.length)) := by
  have hlen : 8 ≤ (blit buf 8 data).length := by
    simp only [blit, List.length_append, List.length_take]; omega
  rw [setU32, blit_drop (by omega), le32_length, blit_drop h]

lemma rwCtrlUsb_write_eq {dev : Device} (hd : dev ≠ .invalid) (h : Handle)
    {readEp writeEp : ℕ} (addr : ℕ) (buf : Bytes) {len : ℕ} (hlen : len ≤ 64) :
    rwCtrlUsb ⟨dev, some h, readEp, writeEp⟩ addr buf len false =
      .call (.controlOut h (memSetup false addr len) (buf.take len) 50000)
        fun r : OutResult len => .ret (if r.status.isSome then 0 else 1, buf) := by
  have hn : min (u32 (((len + 4 : ℕ) : ℤ) - 4)) 64 = len := by
    rw [show ((len + 4 : ℕ) : ℤ) - 4 = (len : ℕ) by omega, u32_natCast]; omega
  have hdata : ((le32 addr ++ buf.take len).drop 4).take len = buf.take len := by
    rw [List.drop_append_of_le_length (by simp), List.drop_of_length_le (by simp),
      List.nil_append, List.take_take, Nat.min_self]
  have hio : rwCtrlUsb ⟨dev, some h, readEp, writeEp⟩ addr buf len false =
      ioctlWriteMemHandler ⟨some h, some (le32 addr ++ buf.take len), none, len + 4, 0, 0⟩ >>=
        fun r => .ret (r.1, buf) := by
    simp [rwCtrlUsb, usbDeviceIoControl, hd]
  rw [hio, ioctlWriteMemHandler_eq h none 0 0 (by omega) (getU16_le32_high addr _).symm
    (getU16_le32_low addr _).symm hn hdata]
  simp only [ioctlResult, usbControlResult_neg]
  rfl

lemma returns_closing {α : Type} {drv : AmlUsbDrv} {a : α} (hd : drv.device ≠ .null) :
    Returns (closeUsbDevice drv >>= fun _ => (.ret a : Program α)) := by
  cases hh : drv.handle with
  | none =>
    rw [closeUsbDevice_none hd hh, segfault_bind]
    exact returns_segfault
  | some h =>
    rw [closeUsbDevice_some hd hh]
    exact fun _ => trivial

/-- A command without a handle reads through `NULL`, one on no device fails. -/
lemma rwLargeMemCmd_cases (drv : AmlUsbDrv) (address size cksum seqNum : ℕ) {bulkSize : ℕ}
    (h₀ : 0 < bulkSize) (h₁ : bulkSize ≤ 4096) (doRead : Bool) :
    let cmd := rwLargeMemCmd drv address size bulkSize cksum seqNum doRead
    cmd = .ret 0 ∨ cmd = segfault ∨ ∃ h, cmd =
      .call (.controlOut h (largeSetup doRead size bulkSize)
          (le32 address ++ le32 size ++ le32 cksum ++ le32 seqNum) 50000)
        fun r : OutResult 16 => .ret (if r.status.isSome then 0 else 1) := by
  obtain ⟨dev, handle, readEp, writeEp⟩ := drv
  by_cases hd : dev = .invalid
  · left
    cases doRead <;> simp [rwLargeMemCmd, usbDeviceIoControl, hd]
  right
  cases handle with
  | none =>
    left
    cases doRead <;>
      simp [rwLargeMemCmd, usbDeviceIoControl, ioctlDoLargeMemHandler, usbControlMsg, hd]
  | some h => exact .inr ⟨h, rwLargeMemCmd_eq hd h _ _ _ _ _ _ h₀ h₁ doRead⟩

lemma writeBulkUsb_cases {drv : AmlUsbDrv} (hw : drv.writeEp = amEpOut) (buf : Bytes)
    (len : ℕ) :
    writeBulkUsb drv buf len = .ret (-1) ∨ writeBulkUsb drv buf len = segfault ∨
      ∃ h, writeBulkUsb drv buf len =
        .call (.bulkOut h amEpOut (buf.take len) len 50000) fun r : OutResult len =>
          .ret (if usbBulkIo r.status r.actual < 0 then -1
            else usbBulkIo r.status r.actual) := by
  obtain ⟨dev, handle, readEp, writeEp⟩ := drv
  by_cases hd : dev = .invalid
  · exact .inl (by simp [writeBulkUsb, usbWriteFile, hd])
  cases handle with
  | none => exact .inr (.inl (by simp [writeBulkUsb, usbWriteFile, usbBulkWrite, hd]))
  | some h =>
    obtain rfl : writeEp = amEpOut := hw
    exact .inr (.inr ⟨h, writeBulkUsb_eq hd h buf len⟩)

lemma readBulkUsb_cases {drv : AmlUsbDrv} (hr : drv.readEp = amEpIn) (buf : Bytes)
    (len : ℕ) :
    readBulkUsb drv buf len = .ret (-1, buf) ∨ readBulkUsb drv buf len = segfault ∨
      ∃ h, readBulkUsb drv buf len =
        .call (.bulkIn h amEpIn len 30000) fun r : InResult len =>
          .ret (if usbBulkIo r.status r.data.1.length < 0 then -1
            else usbBulkIo r.status r.data.1.length, blit buf 0 r.data.1) := by
  obtain ⟨dev, handle, readEp, writeEp⟩ := drv
  by_cases hd : dev = .invalid
  · exact .inl (by simp [readBulkUsb, usbReadFile, hd])
  cases handle with
  | none => exact .inr (.inl (by simp [readBulkUsb, usbReadFile, usbBulkRead, hd]))
  | some h =>
    obtain rfl : readEp = amEpIn := hr
    exact .inr (.inr ⟨h, readBulkUsb_eq hd h buf len⟩)

end AmlogicUpdate.Wire

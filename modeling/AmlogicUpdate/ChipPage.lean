import AmlogicUpdate.ChipCommands

/-!
`chipinfo`: which bytes of the page are read.

The limit is on a sum of two `int`s, which comes back negative when it leaves their range. A page
that is shown is read in whole words, up to three bytes more than were asked for.
-/

namespace AmlogicUpdate.ChipPage

open Interaction CData Usb AmlLibusb UsbRomDrv Wire Host Arguments ChipCommands
open Update (malloc)

/-! ### The transfer -/

/-- The request for a page of `size` bytes, at most 64. -/
def pageSetup (size index : ℤ) : Setup := ⟨vendorIn, amReqChipInfo, 0, u16 index, u16 size⟩

section Transfer

variable {dev : Device} {buf : Bytes} {size index timeout : ℤ}

lemma amlLibusbGetChipinfo_eq (hd : dev ≠ .null) (hsize : size ≤ 64) :
    amlLibusbGetChipinfo dev buf size index timeout =
      openUsbDevice ⟨dev, none, 0, 0⟩ >>= fun r =>
        usbControlMsg r.2.handle vendorIn amReqChipInfo 0 index buf size timeout >>= fun page =>
          closeUsbDevice r.2 >>= fun _ => .ret page := by
  unfold amlLibusbGetChipinfo
  rw [openUsbDevice_eq hd]
  simp only [Prog.call_bind, Prog.ret_bind]
  congr 1
  funext handle
  rw [if_neg (by decide), if_neg (by omega)]
  rfl

lemma getChipinfo_runs (hd : dev ≠ .null) (hsize : size ≤ 64) {t : Trace} {r : ℤ × Bytes}
    (hr : Runs (amlLibusbGetChipinfo dev buf size index timeout) t r) :
    ∃ h, ∃ page : InResult (u16 size),
      t = [⟨.libusbOpen dev, some h⟩, ⟨.controlIn h (pageSetup size index) timeout, page⟩,
        ⟨.libusbClose h, ()⟩] ∧
      r = (usbControlResult page.status page.data.1.length, blit buf 0 page.data.1) := by
  rw [amlLibusbGetChipinfo_eq hd hsize] at hr
  obtain ⟨h, b, t', rfl, hin, rfl⟩ := runs_opened hd (fun drv => usbControlMsg drv.handle vendorIn
    amReqChipInfo 0 index buf size timeout) (fun _ => rfl) hr
  obtain ⟨page, t'', rfl, hret⟩ := runs_call.mp hin
  obtain ⟨rfl, rfl⟩ := runs_ret.mp hret
  exact ⟨h, page, rfl, rfl⟩

/-- Any page of the size asked for can come. -/
lemma getChipinfo_run (hd : dev ≠ .null) (hsize : size ≤ 64) (h : Handle)
    (page : InResult (u16 size)) :
    Runs (amlLibusbGetChipinfo dev buf size index timeout)
      [⟨.libusbOpen dev, some h⟩, ⟨.controlIn h (pageSetup size index) timeout, page⟩,
        ⟨.libusbClose h, ()⟩]
      (usbControlResult page.status page.data.1.length, blit buf 0 page.data.1) := by
  rw [amlLibusbGetChipinfo_eq hd hsize, openUsbDevice_eq hd, Prog.call_bind]
  refine runs_call.mpr ⟨some h, _, rfl, ?_⟩
  simp only [Prog.ret_bind, closeUsbDevice_eq hd]
  exact runs_call.mpr ⟨page, _, rfl, runs_call.mpr ⟨(), _, rfl, .ret _⟩⟩

end Transfer

/-! ### The places that are read -/

/-- The checks of `chipinfo` are passed. -/
def Passes (nBytes startOffset : ℤ) : Prop :=
  ¬ (nBytes < 0 ∨ startOffset < 0 ∨ 64 < i32 (startOffset + nBytes)) ∧ ¬ 64 < nBytes

/-- Where the page is read, to be shown or to be saved. -/
def reads (saveFile : Bytes) (nBytes startOffset : ℤ) : List ℤ :=
  let places := if saveFile = strDash then viewed nBytes.toNat else List.range nBytes.toNat
  places.map fun i : ℕ => startOffset + i

/-- What passed the checks lies in the page, and nothing else is read when the page is shown or
saved as `saveFile` says. -/
structure Bounded (saveFile : Bytes) (nBytes startOffset : ℤ) : Prop where
  length : 0 ≤ nBytes
  offset : 0 ≤ startOffset
  sum : startOffset + nBytes ≤ 64
  inside : ∀ i ∈ reads saveFile nBytes startOffset, i < 64
  runs : ∀ junk rom pageIndex t,
    ¬ Issues (chipinfoPage junk rom pageIndex saveFile nBytes startOffset) t (.inr .overrun)

/-- Either the checks are not passed, or what is read ends within the page: whole words of what
is shown, and of what is saved the bytes asked for. -/
def Fits (saveFile : Bytes) (nBytes startOffset : ℤ) : Prop :=
  nBytes < 0 ∨ startOffset < 0 ∨ 64 < nBytes ∨
    (64 < startOffset + nBytes ∧ startOffset + nBytes < 2 ^ 31) ∨
    startOffset + (if saveFile = strDash then 4 * ((nBytes + 3) / 4) else nBytes) ≤ 64

/-- Line by line and word by word, up to the end of the last word. -/
lemma mem_viewed {n i : ℕ} : i ∈ viewed n ↔ i < 4 * ((n + 3) / 4) := by
  simp only [viewed, List.mem_flatMap, List.mem_range, List.mem_map]
  constructor
  · rintro ⟨line, hline, col, hcol, k, hk, rfl⟩
    split_ifs at hcol with hfull
    · omega
    · omega
  · intro hi
    refine ⟨i / 16, by omega, i % 16 / 4, ?_, i % 4, by omega, by omega⟩
    split_ifs with hfull
    · omega
    · omega

lemma mem_reads {saveFile : Bytes} {nBytes startOffset i : ℤ} (hn : 0 ≤ nBytes) :
    i ∈ reads saveFile nBytes startOffset ↔ startOffset ≤ i ∧ i < startOffset +
      (if saveFile = strDash then 4 * ((nBytes + 3) / 4) else nBytes) := by
  simp only [reads, List.mem_map]
  constructor
  · rintro ⟨k, hk, rfl⟩
    split_ifs at hk ⊢
    · have := mem_viewed.mp hk
      omega
    · have := List.mem_range.mp hk
      omega
  · rintro ⟨hle, hlt⟩
    refine ⟨(i - startOffset).toNat, ?_, by omega⟩
    split_ifs at hlt ⊢
    · exact mem_viewed.mpr (by omega)
    · exact List.mem_range.mpr (by omega)

/-- The sum may have left the range of an `int`. -/
lemma passes_iff (nBytes startOffset : Int32) :
    Passes nBytes.toInt startOffset.toInt ↔ 0 ≤ nBytes.toInt ∧ nBytes.toInt ≤ 64 ∧
      0 ≤ startOffset.toInt ∧ (startOffset.toInt + nBytes.toInt ≤ 64 ∨
        2 ^ 31 ≤ startOffset.toInt + nBytes.toInt) := by
  have hn := nBytes.toInt_lt
  have hs := startOffset.toInt_lt
  unfold Passes i32
  omega

section Page

variable {junk : ℕ → UInt8} {rom : AmlUsbRomRW} {pageIndex nBytes startOffset : ℤ}
  {saveFile : Bytes}

/-- Nothing is read in front of the page, so past its end is the one way to leave it. -/
lemma chipinfoPage_inside (hn : 0 ≤ nBytes) (hs : 0 ≤ startOffset)
    (hsum : startOffset + nBytes ≤ 64) (h : ∀ i ∈ reads saveFile nBytes startOffset, i < 64) :
    Calls (· ≠ .inr .overrun) (chipinfoPage junk rom pageIndex saveFile nBytes startOffset) := by
  have husb : ∀ o : Op, (.inl o : HostOp) ≠ .inr .overrun := fun _ he => by cases he
  refine calls_ite (fun _ => trivial) fun _ => calls_ite (fun _ => trivial) fun _ =>
    calls_bind (usb_calls husb _) fun page => calls_ite (fun _ => trivial) fun _ =>
      calls_ite (fun hshow => calls_ite (fun hout => ?_) fun _ => trivial) fun _ => ?_
  · obtain ⟨i, hi, hge⟩ := hout
    have hlt := h (startOffset + i) (by
      rw [mem_reads hn, if_pos hshow]
      have := mem_viewed.mp hi
      omega)
    omega
  · refine calls_bind (usb_calls husb _) fun opened => calls_ite (fun _ => trivial) fun _ =>
      calls_ite (fun hout => by omega) fun _ => ?_
    exact calls_bind (usb_calls husb _) fun _ => trivial

/-- A page of 64 bytes comes, and is read past its end. -/
lemma chipinfoPage_outside (hd : rom.device ≠ .null) (hpass : Passes nBytes startOffset) {i : ℤ}
    (hi : i ∈ reads strDash nBytes startOffset) (hout : 64 ≤ i) :
    ∃ t, Issues (chipinfoPage junk rom pageIndex strDash nBytes startOffset) t (.inr .overrun) := by
  obtain ⟨hchecks, hmax⟩ := hpass
  obtain ⟨hn, hmore⟩ := not_or.mp hchecks
  obtain ⟨hs, -⟩ := not_or.mp hmore
  have hpage := @getChipinfo_run _ (malloc junk 64) 64 pageIndex 8000 hd le_rfl 0
    ⟨none, List.replicate 64 0, by decide⟩
  have hcount : usbControlResult none (List.replicate 64 (0 : UInt8)).length = 64 := by decide
  unfold chipinfoPage
  rw [if_neg hchecks, if_neg hmax]
  refine ⟨_ ++ [], (runs_left.mpr ⟨_, rfl, hpage⟩).issues_bind ?_⟩
  dsimp only
  rw [hcount, if_neg (by decide), if_pos rfl, if_pos ?_]
  · exact issues_call.mpr (.inl ⟨rfl, rfl⟩)
  · rw [mem_reads (not_lt.mp hn), if_pos rfl] at hi
    exact ⟨(i - startOffset).toNat, mem_viewed.mpr (by omega), by omega⟩

end Page

/-- **What passes the checks of `chipinfo` stays in the page exactly if** the sum does not leave
the range of an `int` and, where the page is shown, the last word ends within it. -/
theorem chipinfo_bounded_iff (saveFile : Bytes) (nBytes startOffset : Int32) :
    (Passes nBytes.toInt startOffset.toInt →
        Bounded saveFile nBytes.toInt startOffset.toInt) ↔
      Fits saveFile nBytes.toInt startOffset.toInt := by
  rw [passes_iff]
  generalize nBytes.toInt = n
  generalize startOffset.toInt = s
  constructor
  · intro h
    by_contra hfits
    unfold Fits at hfits
    have hb := h (by omega)
    have hsum := hb.sum
    have hlast := hb.inside
      (s + (if saveFile = strDash then 4 * ((n + 3) / 4) else n) - 1)
    rw [mem_reads hb.length] at hlast
    omega
  · rintro hfits ⟨hn, hmax, hs, hsum⟩
    have hend : s + (if saveFile = strDash then 4 * ((n + 3) / 4) else n) ≤ 64 := by
      unfold Fits at hfits
      split_ifs at hfits ⊢ <;> omega
    have hinside : ∀ i ∈ reads saveFile n s, i < 64 := by
      intro i hi
      rw [mem_reads hn] at hi
      omega
    have hle : s + n ≤ 64 := by omega
    exact ⟨hn, hs, hle, hinside, fun junk rom pageIndex t hi =>
      (chipinfoPage_inside hn hs hle hinside).issues hi rfl⟩

/-- A sum of 2^31 passes, and three bytes from the 61st are shown as a word that ends past the
page. -/
theorem chipinfo_not_bounded :
    (Passes (1 : Int32).toInt (2147483647 : Int32).toInt ∧
      ¬ (2147483647 : Int32).toInt + (1 : Int32).toInt ≤ 64) ∧
    (∃ t, Issues (chipinfoPage (fun _ => 0) ⟨.dev 0, 0, [], 0, 0⟩ 0 strDash (3 : Int32).toInt
      (61 : Int32).toInt) t (.inr .overrun)) ∧
    ¬ ∀ (saveFile : Bytes) (nBytes startOffset : Int32),
      Passes nBytes.toInt startOffset.toInt →
        Bounded saveFile nBytes.toInt startOffset.toInt := by
  have hpass : Passes (1 : Int32).toInt (2147483647 : Int32).toInt := by
    unfold Passes
    decide
  have hsum : ¬ (2147483647 : Int32).toInt + (1 : Int32).toInt ≤ 64 := by decide
  have hshown : Passes (3 : Int32).toInt (61 : Int32).toInt := by
    unfold Passes
    decide
  exact ⟨⟨hpass, hsum⟩, chipinfoPage_outside (dev_ne_null 0) hshown (i := 64) (by decide) le_rfl,
    fun h => hsum (h strDash _ _ hpass).sum⟩

end AmlogicUpdate.ChipPage

import Mathlib.Data.List.Induction
import AmlogicUpdate.Mwrite

/-!
An image written over a line that damages the blocks it is sent in.

The board compares length and sum of what arrives with the header before it takes a block. The sum
does not notice every change (two double words may have changed places), but it notices each that
stays within one double word. On a line that does no more harm than that to a block, nothing but the
image is ever stored, and what has been acknowledged has been stored.
-/

namespace AmlogicUpdate.NoisyLine

open Interaction CData Usb AmlLibusb UsbRomDrv Update Wire Checksum Media Mwrite

/-! ### Damage within a double word -/

/-- As long as `a`, and different from it within one double word at most. -/
structure WordApart (a b : Bytes) : Prop where
  length : b.length = a.length
  word : ∃ k, ∀ i, i / 4 ≠ k → b[i]? = a[i]?

lemma sum32_drop (l : Bytes) : sum32 l = getU32 l 0 + sum32 (l.drop 4) := by
  match l with
  | [] => rfl
  | [a] => rfl
  | [a, b] => rfl
  | [a, b, c] => rfl
  | a :: b :: c :: d :: l =>
    simp only [sum32, getU32, getU16, getU8, List.getD_cons_zero, List.getD_cons_succ,
      Nat.zero_add, Nat.reduceAdd, List.drop_succ_cons, List.drop_zero]
    omega

lemma getElem?_of_getU8 {a b : Bytes} (hlen : b.length = a.length) {i : ℕ}
    (h : getU8 b i = getU8 a i) : b[i]? = a[i]? := by
  by_cases hi : i < a.length
  · rw [getU8, getU8, List.getD_eq_getElem _ _ hi, List.getD_eq_getElem _ _ (hlen ▸ hi)] at h
    rw [List.getElem?_eq_getElem hi, List.getElem?_eq_getElem (hlen ▸ hi), UInt8.toNat_inj.mp h]
  · rw [List.getElem?_eq_none (by omega), List.getElem?_eq_none (by omega)]

/-- The first double word tells the bytes it is made of. -/
lemma take_of_getU32 {a b : Bytes} (hlen : b.length = a.length)
    (h : getU32 b 0 = getU32 a 0) : b.take 4 = a.take 4 := by
  have ha : ∀ i, getU8 a i < 2 ^ 8 := getU8_lt a
  have hb : ∀ i, getU8 b i < 2 ^ 8 := getU8_lt b
  have hbyte : ∀ i < 4, getU8 b i = getU8 a i := by
    intro i hi
    have := ha 0; have := ha 1; have := ha 2; have := ha 3
    have := hb 0; have := hb 1; have := hb 2; have := hb 3
    simp only [getU32, getU16, Nat.zero_add, Nat.reduceAdd] at h
    obtain rfl | rfl | rfl | rfl : i = 0 ∨ i = 1 ∨ i = 2 ∨ i = 3 := by omega
    all_goals omega
  refine List.ext_getElem? fun i => ?_
  rw [List.getElem?_take, List.getElem?_take]
  split_ifs with hi
  · exact getElem?_of_getU8 hlen (hbyte i hi)
  · rfl

lemma getU32_of_take {a b : Bytes} (h : b.take 4 = a.take 4) : getU32 b 0 = getU32 a 0 := by
  rw [← getU32_take b (n := 4) (by norm_num), h, getU32_take a (by norm_num)]

/-- A change within one double word changes the sum. -/
lemma WordApart.eq_of_sum32 {a b : Bytes} (h : WordApart a b)
    (hsum : sum32 b % 2 ^ 32 = sum32 a % 2 ^ 32) : b = a := by
  obtain ⟨hlen, k, hk⟩ := h
  rw [sum32_drop a, sum32_drop b] at hsum
  induction k generalizing a b with
  | zero =>
    -- the double words after the first are the same
    have hrest : b.drop 4 = a.drop 4 := by
      refine List.ext_getElem? fun i => ?_
      rw [List.getElem?_drop, List.getElem?_drop]
      exact hk _ (by omega)
    have hword : getU32 b 0 = getU32 a 0 := by
      have := getU32_lt a 0; have := getU32_lt b 0
      rw [hrest] at hsum
      omega
    rw [← List.take_append_drop 4 b, ← List.take_append_drop 4 a, hrest,
      take_of_getU32 hlen hword]
  | succ k ih =>
    have hfirst : b.take 4 = a.take 4 := by
      refine List.ext_getElem? fun i => ?_
      rw [List.getElem?_take, List.getElem?_take]
      split_ifs with hi
      · exact hk i (by omega)
      · rfl
    have hword := getU32_of_take hfirst
    have hrest : b.drop 4 = a.drop 4 := by
      refine ih ?_ (by rw [List.length_drop, List.length_drop, hlen]) fun i hi => ?_
      · rw [← sum32_drop, ← sum32_drop]
        omega
      · rw [List.getElem?_drop, List.getElem?_drop]
        exact hk _ (by omega)
    rw [← List.take_append_drop 4 b, ← List.take_append_drop 4 a, hrest, hfirst]

/-! ### The line and the board -/

/-- Whether a request that is reported as failed has arrived all the same, and what arrives of a
block; damage stays within a double word. -/
structure Line where
  request : Trace → Bool
  block : Trace → Bytes → Bytes
  mild : ∀ h data, (block h data).length = data.length → WordApart data (block h data)

/-- The last header, whether the block after it has passed and no verdict has been given since, and
what has been stored by block. -/
structure Board where
  head : Bytes
  good : Bool
  blocks : ℕ → Option Bytes

/-- Length and sum are those of the header. -/
def passes (head data : Bytes) : Bool :=
  data.length = getU32 head 4 && sum32 data % 2 ^ 32 = getU32 head 12

def Board.step (line : Line) (b : Board) (h : Trace) (e : Event) : Board :=
  match e.1 with
  | .controlOut _ s data _ =>
    if requestAccepted s.bRequest e || line.request h then { b with head := data, good := false }
    else b
  | .bulkOut _ _ data _ _ =>
    if passes b.head (line.block h data) then
      { b with
        good := true
        blocks := Function.update b.blocks (getU32 b.head 8 / 16) (some (line.block h data)) }
    else { b with good := false }
  | _ => if isAck e then { b with good := false } else b

def boardFrom (line : Line) : Board → Trace → Trace → Board
  | b, _, [] => b
  | b, h, e :: t => boardFrom line (b.step line h e) (h ++ [e]) t

/-- The board after the history. -/
def board (line : Line) (h : Trace) : Board := boardFrom line ⟨[], false, fun _ => none⟩ [] h

/-- No block has been acknowledged that had not passed. -/
def Honest (line : Line) (h : Trace) : Prop :=
  ∀ h₀ e h₁, h = h₀ ++ e :: h₁ → isAck e → (board line h₀).good

lemma boardFrom_snoc (line : Line) (b : Board) (h t : Trace) (e : Event) :
    boardFrom line b h (t ++ [e]) = (boardFrom line b h t).step line (h ++ t) e := by
  induction t generalizing b h with
  | nil => simp [boardFrom]
  | cons e' t ih => simp [boardFrom, ih]

lemma board_snoc (line : Line) (h : Trace) (e : Event) :
    board line (h ++ [e]) = (board line h).step line h e := boardFrom_snoc line _ [] h e

lemma honest_snoc {line : Line} {h : Trace} {e : Event} (hh : Honest line (h ++ [e])) :
    Honest line h ∧ (isAck e → (board line h).good) := by
  refine ⟨?_, hh h e [] rfl⟩
  rintro h₀ e' h₁ rfl
  exact hh h₀ e' (h₁ ++ [e]) (by simp)

/-! ### What is stored -/

/-- Every call of the history was permitted where it was made. -/
def Proper (image : Bytes) (h : Trace) : Prop :=
  ∀ h₀ e h₁, h = h₀ ++ e :: h₁ → Permitted image h₀ e.1

lemma proper_snoc {image : Bytes} {h : Trace} {e : Event} (hp : Proper image (h ++ [e])) :
    Proper image h ∧ Permitted image h e.1 := by
  refine ⟨?_, hp h e [] rfl⟩
  rintro h₀ e' h₁ rfl
  exact hp h₀ e' (h₁ ++ [e]) (by simp)

/-- Nothing but blocks of the image is stored, the one that is due if it has passed, and with an
honest board each that has been acknowledged. -/
structure Intact (image : Bytes) (line : Line) (h : Trace) : Prop where
  stored : ∀ k b, (board line h).blocks k = some b →
    k < blockCount image.length ∧ b = blockAt image k
  good : (board line h).good → (board line h).blocks (acks h) = some (blockAt image (acks h))
  acked : Honest line h → ∀ k < acks h, (board line h).blocks k = some (blockAt image k)

section Stored

variable {image : Bytes} {line : Line} {h : Trace} {e : Event}

/-- After a header that was accepted the board has it, and it is that of the block that is due. -/
lemma head_for (line : Line) (hp : Proper image (h ++ [e]))
    (he : requestAccepted amReqWriteMedia e) :
    acks (h ++ [e]) < blockCount image.length ∧
      HeaderFor (blockAt image (acks (h ++ [e]))) (acks (h ++ [e])) (attempts h)
        (board line (h ++ [e])).head := by
  obtain ⟨o, r⟩ := e
  cases o with
  | controlOut hd s data timeout =>
    have hack : isAck ⟨.controlOut hd s data timeout, r⟩ = false := rfl
    obtain ⟨hdue, -, -, hreq, hfor⟩ := ((proper_snoc hp).2).header _ _ _ _ rfl
    have hsame : requestAccepted s.bRequest ⟨.controlOut hd s data timeout, r⟩ = true := by
      rw [hreq]; exact he
    rw [acks_snoc, hack, board_snoc]
    simp only [Board.step, hsame, Bool.true_or, if_true]
    exact ⟨hdue, hfor⟩
  | _ => cases he

/-- What passes is the block that was sent, and it is stored as that. -/
lemma passes_block (himage : image.length ≤ 2 ^ 44) (hp : Proper image h) {data : Bytes}
    (hhead : ∃ h₀ e, h = h₀ ++ [e] ∧ requestAccepted amReqWriteMedia e)
    (hdata : data = blockAt image (acks h))
    (hpass : passes (board line h).head (line.block h data) = true) :
    acks h < blockCount image.length ∧ line.block h data = blockAt image (acks h) ∧
      getU32 (board line h).head 8 / 16 = acks h := by
  obtain ⟨h₀, e, rfl, he⟩ := hhead
  obtain ⟨hdue, hfor⟩ := head_for line hp he
  simp only [passes, Bool.and_eq_true, decide_eq_true_eq] at hpass
  rw [hfor.length, hfor.cksum, checksum64K_eq, ← hdata] at hpass
  refine ⟨hdue, ?_, ?_⟩
  · rw [← hdata]
    exact (line.mild _ _ hpass.1).eq_of_sum32 hpass.2
  · have hcmd := hfor.command
    unfold blockCount at hdue
    omega

/-- A step that leaves the board and the acknowledgements alone. -/
lemma Intact.quiet (hi : Intact image line h) (hboard : (board line h).step line h e = board line h)
    (hack : isAck e = false) : Intact image line (h ++ [e]) := by
  have hk : acks (h ++ [e]) = acks h := by rw [acks_snoc, hack]; rfl
  refine ⟨?_, ?_, fun hh => ?_⟩
  · rw [board_snoc, hboard]; exact hi.stored
  · rw [board_snoc, hboard, hk]; exact hi.good
  · rw [board_snoc, hboard, hk]; exact hi.acked (honest_snoc hh).1

/-- So does one after which the board has nothing to acknowledge. -/
lemma Intact.spoilt (hi : Intact image line h)
    (hboard : ((board line h).step line h e).good = false)
    (hblocks : ((board line h).step line h e).blocks = (board line h).blocks)
    (hack : isAck e = false) : Intact image line (h ++ [e]) := by
  have hk : acks (h ++ [e]) = acks h := by rw [acks_snoc, hack]; rfl
  refine ⟨?_, fun hg => ?_, fun hh => ?_⟩
  · rw [board_snoc, hblocks]; exact hi.stored
  · rw [board_snoc, hboard] at hg; cases hg
  · rw [board_snoc, hblocks, hk]; exact hi.acked (honest_snoc hh).1

/-- The block that is due is stored when it passes. -/
lemma Intact.taken (hi : Intact image line h) (himage : image.length ≤ 2 ^ 44)
    (hp : Proper image (h ++ [e])) {hd : Handle} {ep n : ℕ} {data : Bytes} {timeout : ℤ}
    (he : e.1 = .bulkOut hd ep data n timeout) : Intact image line (h ++ [e]) := by
  obtain ⟨o, r⟩ := e
  obtain rfl : o = .bulkOut hd ep data n timeout := he
  obtain ⟨hprop, hper⟩ := proper_snoc hp
  obtain ⟨hhead, hdata, -⟩ := hper.payload _ _ _ _ _ rfl
  by_cases hpass : passes (board line h).head (line.block h data) = true
  swap
  · refine hi.spoilt ?_ ?_ rfl
    all_goals simp only [Board.step, if_neg hpass]
  obtain ⟨hdue, hblock, hplace⟩ := passes_block himage hprop hhead hdata hpass
  have hk : acks (h ++ [⟨.bulkOut hd ep data n timeout, r⟩]) = acks h := by
    rw [acks_snoc]; rfl
  have hblocks : (board line (h ++ [⟨.bulkOut hd ep data n timeout, r⟩])).blocks =
      Function.update (board line h).blocks (acks h) (some (blockAt image (acks h))) := by
    rw [board_snoc]
    simp only [Board.step, if_pos hpass]
    rw [hblock, hplace]
  refine ⟨fun k b hb => ?_, fun _ => ?_, fun hh k hlt => ?_⟩
  · rw [hblocks] at hb
    by_cases hkk : k = acks h
    · subst hkk
      rw [Function.update_self, Option.some.injEq] at hb
      exact ⟨hdue, hb.symm⟩
    · rw [Function.update_of_ne hkk] at hb
      exact hi.stored k b hb
  · rw [hblocks, hk, Function.update_self]
  · rw [hk] at hlt
    rw [hblocks, Function.update_of_ne (by omega)]
    exact hi.acked (honest_snoc hh).1 k hlt

/-- An acknowledgement of an honest board is for a block that is stored. -/
lemma Intact.acknowledged (hi : Intact image line h) {hd : Handle} {ep n : ℕ} {timeout : ℤ}
    (he : e.1 = .bulkIn hd ep n timeout) (hack : isAck e) : Intact image line (h ++ [e]) := by
  obtain ⟨o, r⟩ := e
  obtain rfl : o = .bulkIn hd ep n timeout := he
  have hboard : board line (h ++ [⟨.bulkIn hd ep n timeout, r⟩]) =
      { board line h with good := false } := by
    rw [board_snoc]
    simp only [Board.step, if_pos hack]
  refine ⟨?_, fun hg => ?_, fun hh k hlt => ?_⟩
  · rw [hboard]; exact hi.stored
  · rw [hboard] at hg; cases hg
  · obtain ⟨hhonest, hgood⟩ := honest_snoc hh
    rw [acks_snoc, if_pos hack] at hlt
    rw [hboard]
    rcases Nat.lt_succ_iff_lt_or_eq.mp hlt with hlt | rfl
    · exact hi.acked hhonest k hlt
    · exact hi.good (hgood hack)

lemma Intact.snoc (hi : Intact image line h) (himage : image.length ≤ 2 ^ 44)
    (hp : Proper image (h ++ [e])) : Intact image line (h ++ [e]) := by
  obtain ⟨o, r⟩ := e
  cases o with
  | controlOut hd s data timeout =>
    by_cases hget : (requestAccepted s.bRequest ⟨.controlOut hd s data timeout, r⟩ ||
        line.request h) = true
    · refine hi.spoilt ?_ ?_ rfl
      all_goals simp only [Board.step, if_pos hget]
    · exact hi.quiet (by simp only [Board.step, if_neg hget]) rfl
  | bulkOut hd ep data n timeout => exact hi.taken himage hp rfl
  | bulkIn hd ep n timeout =>
    by_cases hack : isAck ⟨.bulkIn hd ep n timeout, r⟩ = true
    · exact hi.acknowledged rfl hack
    · exact hi.quiet (by simp only [Board.step, if_neg hack]) (Bool.eq_false_iff.mpr hack)
  | _ => exact hi.quiet rfl rfl

/-- Whatever is sent as permitted, the board stays intact. -/
lemma intact_of_proper (himage : image.length ≤ 2 ^ 44) (hp : Proper image h) :
    Intact image line h := by
  induction h using List.reverseRecOn with
  | nil => exact ⟨nofun, nofun, fun _ k hk => absurd hk (Nat.not_lt_zero k)⟩
  | append_singleton h e ih => exact (ih (proper_snoc hp).1).snoc himage hp

end Stored

section Writer

variable {files : Files} {junk : ℕ → UInt8} {turns : ℕ} {rom : AmlUsbRomRW} {filename : Bytes}
  {t : Trace}

lemma intact_of_steps (line : Line) (himage : (files filename).length ≤ 2 ^ 44) {q : Program ℤ}
    (hs : Steps (writeMediaFile files junk turns rom filename) t q) :
    Intact (files filename) line t := by
  refine intact_of_proper himage ?_
  rintro h₀ e h₁ rfl
  exact (writeMediaFile_keeps files junk turns rom filename).issues hs.issues

/-- With an honest board 0 is returned only for a file that is stored. -/
lemma stored_of_runs {line : Line} (himage : (files filename).length ≤ 2 ^ 44)
    (hr : Runs (writeMediaFile files junk turns rom filename) t 0) (hh : Honest line t) :
    ∀ k < blockCount (files filename).length,
      (board line t).blocks k = some (blockAt (files filename) k) := by
  intro k hk
  have hacks := (writeMediaFile_runs hr).1.all
  exact (intact_of_steps line himage (runs_iff_steps.mp hr)).acked hh k (hacks ▸ hk)

/-- **A noisy line spoils no image.** At every point that the block writer gets to, the board has
stored nothing but blocks of the file, and every block that an honest board has acknowledged; when
the writer returns 0 that is the whole file. -/
theorem writeMediaFile_intact (line : Line) (himage : (files filename).length ≤ 2 ^ 44)
    {q : Program ℤ} (hs : Steps (writeMediaFile files junk turns rom filename) t q) :
    Intact (files filename) line t ∧ (Honest line t → q = .ret 0 →
      ∀ k < blockCount (files filename).length,
        (board line t).blocks k = some (blockAt (files filename) k)) := by
  refine ⟨intact_of_steps line himage hs, ?_⟩
  rintro hh rfl
  exact stored_of_runs himage (runs_iff_steps.mpr hs) hh

end Writer

/-! ### Delivery -/

/-- One of the three attempts at each block gets through unharmed. -/
def Passable (line : Line) : Prop :=
  ∀ k, ∃ a ≤ 2, ∀ h, acks h = k → attempts h = a + 1 → ∀ data, line.block h data = data

/-- Answers of a working board: transfers succeed, what it says of a block is true, and it is not
busy for more than `turns` replies nor for twelve minutes. -/
structure Works (line : Line) (dev : Device) (filename : Bytes) (turns : ℕ)
    (answer : Trace → (o : Op) → Option (Resp o)) : Prop where
  fopen : ∀ h, answer h (.fopen filename false) = some true
  fread : ∀ h want avail, answer h (.fread want avail) = some (Fin.last _)
  opens : ∀ h, ∃ hd : Handle, answer h (.libusbOpen dev) = some (some hd)
  closes : ∀ h hd, answer h (.libusbClose hd) = some ()
  request : ∀ h hd data timeout, ∃ n,
    answer h (.controlOut hd mediaSetup data timeout) = some ⟨none, n⟩
  block : ∀ h hd ep data n timeout,
    answer h (.bulkOut hd ep data n timeout) = some ⟨none, Fin.last n⟩
  clock : ∀ h, ∃ c : ℤ, answer h .clock = some c ∧
    ∀ start, startTime h = some start → c - start < 12 * 60 * 1000
  reply : ∀ h hd ep timeout, ∃ r : InResult 256, answer h (.bulkIn hd ep 256 timeout) = some r ∧
    r.status = none ∧ 11 ≤ r.data.1.length ∧
      if strBusy32 <+: r.data.1 then waits h + 1 < turns
      else (board line h).good → strOk <+: r.data.1
  truth : ∀ h hd ep n timeout, ∀ r : InResult n, answer h (.bulkIn hd ep n timeout) = some r →
    strOk <+: r.data.1 → (board line h).good

section Delivery

variable {line : Line} {dev : Device} {filename image : Bytes} {turns k a : ℕ} {rom : AmlUsbRomRW}
  {answer : Trace → (o : Op) → Option (Resp o)} {h : Trace} {hd : Handle} {start : ℤ}

/-- Within twelve minutes the board has given its verdict. -/
lemma polls_deliver (hw : Works line dev filename turns answer) (hdev : dev ≠ .invalid)
    {s : MediaPoll} (hp : Polling True k a start 0 s h) (hturns : 0 < turns)
    (hlt : s.curTime - start < 12 * 60 * 1000) :
    Ensures (recorded answer) h
      (iterate (mediaPollTurn ⟨dev, some hd, amEpIn, amEpOut⟩ start) turns s) fun p _ =>
        p.ret = 0 ∧ ((board line h).good → strOk <+: p.buf) := by
  refine ensures_iterate_count (N := turns) (i := 0)
    (I := fun w s h' => Polling True k a start w s h' ∧ w < turns ∧
      s.curTime - start < 12 * 60 * 1000 ∧ (board line h').good = (board line h).good)
    (fun w s h' hI => hI.2.1) ?_ ⟨hp, hturns, hlt, rfl⟩ (by omega)
  rintro w s h' ⟨hp, hw₁, hlt, hgood⟩
  obtain ⟨r, hr, hst, hlong, hverdict⟩ := hw.reply h' hd amEpIn 30000
  have hio : usbBulkIo r.status r.data.1.length = r.data.1.length := by rw [hst]; rfl
  have hreply : reply ⟨.bulkIn hd amEpIn 256 30000, r⟩ = some r.data.1 := by
    rw [reply_in, hio, if_pos (Int.natCast_nonneg _)]
  have hhead : isHeader ⟨.bulkIn hd amEpIn 256 30000, r⟩ = false := rfl
  have hbuf : strBusy32 <+: blit s.buf 0 r.data.1 ↔ strBusy32 <+: r.data.1 := prefix_blit hlong
  have hbusy := (strncmp_busy (blit s.buf 0 r.data.1)).trans hbuf
  unfold mediaPollTurn
  rw [if_pos hlt]
  refine ensures_bind.mpr ?_
  rw [usbReadFile_eq hdev, ensures_call (recorded_eq hr), ensures_ret]
  have hmoved : ¬ (r.data.1.length : ℤ) < 0 := by omega
  simp only [hio, if_neg hmoved, one_ne_zero, if_false, Int.toNat_natCast, strBusy32_length,
    if_neg (Nat.not_lt.mpr hlong)]
  by_cases hb : strBusy32 <+: r.data.1
  · rw [if_pos hb] at hverdict
    rw [if_neg (not_not.mpr (hbusy.mpr hb))]
    obtain ⟨c, hc, hsoon⟩ := hw.clock (h' ++ [⟨.bulkIn hd amEpIn 256 30000, r⟩])
    refine ensures_bind.mpr ((ensures_call (recorded_eq hc)).mpr (ensures_ret.mpr ?_))
    rw [Prog.pure_eq_ret, ensures_ret]
    have hnot : isAck ⟨.bulkIn hd amEpIn 256 30000, r⟩ = false :=
      Bool.eq_false_iff.mpr fun hack => not_ok_of_busy hb ((isAck_iff hreply hlong).mp hack)
    refine ⟨hp.busy hlt hreply hlong hhead rfl rfl hb rfl (hbuf.mpr hb), ?_, hsoon start ?_, ?_⟩
    · rw [hp.waits] at hverdict
      exact hverdict
    · rw [startTime_snoc, hp.started]
      rfl
    · rw [board_snoc, board_snoc, ← hgood]
      simp only [Board.step, hnot, Bool.false_eq_true, if_false]
      rfl
  · rw [if_neg hb] at hverdict
    rw [if_pos fun hz => hb (hbusy.mp hz), Prog.pure_eq_ret, ensures_ret]
    refine ⟨hp.ret, fun hg => ?_⟩
    exact (prefix_blit (by rw [strOk_length]; omega)).mpr (hverdict (hgood ▸ hg))

/-- A block that arrives as it was sent is acknowledged. -/
lemma writeMediaData_deliver (hw : Works line dev filename turns answer) (hdev : dev ≠ .invalid)
    (hturns : 0 < turns) {b : ℕ} (hatt : attempts h = a + 1)
    (hspared : a = b → line.block h (attemptPayload rom) = attemptPayload rom)
    (hpass : passes (board line h).head (attemptPayload rom)) :
    Ensures (recorded answer) h (writeMediaData ⟨dev, some hd, amEpIn, amEpOut⟩ rom turns a)
      fun l _ => l = .done 0 ∨ a ≠ b ∧ ∃ s, l = .next s := by
  obtain ⟨n, hn⟩ : ∃ n, n = min rom.bufferLen 0x10000 := ⟨_, rfl⟩
  have hblock := hw.block h hd amEpOut (attemptPayload rom) n 50000
  have hsent : attemptPayload rom = rom.buffer.take n := by rw [attemptPayload, hn]
  unfold writeMediaData
  rw [← hn]
  refine ensures_bind.mpr ?_
  rw [usbWriteFile_eq hdev, ← hsent, ensures_call (recorded_eq hblock), ensures_ret]
  have hio : usbBulkIo none (Fin.last n : ℕ) = n := rfl
  have hmoved : ¬ (n : ℤ) < 0 := by omega
  simp only [hio, if_neg hmoved, one_ne_zero, if_false, Int.toNat_natCast, ne_eq, not_true]
  set e : Event := ⟨.bulkOut hd amEpOut (attemptPayload rom) n 50000, ⟨none, Fin.last n⟩⟩ with he
  obtain ⟨c, hc, -⟩ := hw.clock (h ++ [e])
  refine ensures_bind.mpr ((ensures_call (recorded_eq hc)).mpr (ensures_ret.mpr ?_))
  have hpoll := polling_first (R := True) (e := e) rfl hatt (fun _ => trivial) rfl rfl rfl rfl rfl
    rfl c n (List.replicate 0x200 0)
  refine ensures_bind.mpr ((polls_deliver hw hdev hpoll hturns (by dsimp only; omega)).mono ?_)
  rintro p h' ⟨hret, hgood⟩
  rw [Prog.pure_eq_ret, ensures_ret, mediaVerdict, if_pos hret]
  by_cases hok : strncmp p.buf strOk 4 ≠ 0
  swap
  · rw [if_neg hok]
    exact .inl rfl
  rw [if_pos hok]
  refine .inr ⟨fun hab => hok ((strncmp_ok _).mpr (hgood ?_)), _, rfl⟩
  rw [board_snoc, board_snoc, he]
  simp only [Board.step, hspared hab, if_pos hpass]
  rfl

lemma attemptPayload_eq (hrom : RomFor image k rom) : attemptPayload rom = blockAt image k := by
  have hlen := hrom.length
  have hle := blockAt_length image k
  rw [attemptPayload, Nat.min_eq_left (by omega), hrom.data]

/-- The block due passes for the header of any attempt at it. -/
lemma passes_attempt (hrom : RomFor image k rom) (ha : a ≤ 2) :
    passes (attemptHeader rom a) (attemptPayload rom) := by
  have hle := blockAt_length image k
  have hfor : HeaderFor (blockAt image k) k a (attemptHeader rom a) := by
    rw [attemptHeader, hrom.cksum, hrom.length]
    exact mediaHeader_for ha (by omega) hrom.address
  rw [passes, Bool.and_eq_true, decide_eq_true_eq, decide_eq_true_eq, attemptPayload_eq hrom,
    hfor.length, hfor.cksum, checksum64K_eq]
  exact ⟨rfl, rfl⟩

/-- The attempts at a block end with the one that gets through, if not before. -/
lemma writeMediaTurn_deliver (hw : Works line dev filename turns answer) (hdev : dev ≠ .invalid)
    (hturns : 0 < turns) (hrom : RomFor image k rom) {b : ℕ} (hb : b ≤ 2)
    (hline : ∀ h, acks h = k → attempts h = b + 1 → ∀ data, line.block h data = data) {s : ℕ × ℤ}
    (hT : Trying True k s h) (hs : s.1 ≤ b) :
    Ensures (recorded answer) h (writeMediaTurn ⟨dev, some hd, amEpIn, amEpOut⟩ rom
      (checksum64K rom.buffer (i32 rom.bufferLen)) turns s)
      fun l _ => l = .done 0 ∨ s.1 ≠ b ∧ ∃ s', l = .next s' := by
  obtain ⟨hk, hatt, -, -, -⟩ := hT
  unfold writeMediaTurn
  rw [if_pos (by omega)]
  refine ensures_bind.mpr ?_
  obtain ⟨n, hn⟩ := hw.request h hd (attemptHeader rom s.1) 5000
  rw [writeMediaCmd_eq hdev]
  refine (ensures_call (recorded_eq hn)).mpr (ensures_ret.mpr ?_)
  simp only [Option.isSome_none, Bool.false_eq_true, if_false, one_ne_zero]
  have hhead : (board line (h ++
      [⟨.controlOut hd mediaSetup (attemptHeader rom s.1) 5000, ⟨none, n⟩⟩])).head =
        attemptHeader rom s.1 := by
    rw [board_snoc]
    rfl
  have hatt' : attempts (h ++
      [⟨.controlOut hd mediaSetup (attemptHeader rom s.1) 5000, ⟨none, n⟩⟩]) = s.1 + 1 := by
    rw [attempts_snoc, hatt]
    rfl
  refine writeMediaData_deliver hw hdev hturns hatt' (fun hab => hline _ ?_ ?_ _) ?_
  · rw [acks_snoc, hk]
    rfl
  · rw [hatt', hab]
  · rw [hhead]
    exact passes_attempt hrom (by omega)

/-- A block one of whose attempts gets through is delivered. -/
lemma amlWriteMedia_deliver (hw : Works line dev filename turns answer) (hdev : dev ≠ .invalid)
    (hnull : dev ≠ .null) (hturns : 0 < turns) (hrom : RomFor image k rom)
    (hromdev : rom.device = dev) (hline : Passable line) (hk : acks h = k) (hatt : attempts h = 0) :
    Ensures (recorded answer) h (amlWriteMedia turns rom) fun ret _ => ret = 0 := by
  obtain ⟨b, hb, hspared⟩ := hline k
  obtain ⟨hd, hopen⟩ := hw.opens h
  unfold amlWriteMedia
  rw [hromdev]
  refine ensures_opened hnull (fun drv => iterate (writeMediaTurn drv rom
    (checksum64K rom.buffer (i32 rom.bufferLen)) turns) 4 (0, 0)) (fun _ => rfl)
    (recorded_eq hopen) ?_
  have hT : Trying True k (0, 0) (h ++ [⟨.libusbOpen dev, some hd⟩]) := by
    obtain ⟨hk₁, ha₁⟩ := unacked_snoc (h := h) (e := ⟨.libusbOpen dev, some hd⟩) rfl rfl
    exact ⟨hk₁.trans hk, ha₁.trans hatt, .inl rfl, Nat.zero_le _, fun _ => .inl trivial⟩
  refine (ensures_iterate (I := fun s h' => Trying True k s h' ∧ s.1 ≤ b) (μ := fun s => 3 - s.1)
    (Q := fun ret _ => ret = 0) ?_ ⟨hT, Nat.zero_le _⟩ (by decide)).mono ?_
  · rintro s h' ⟨hT, hs⟩
    have hkeeps := writeMediaTurn_keeps (hrom.sends turns) dev (some hd) hT
    refine ((writeMediaTurn_deliver hw hdev hturns hrom hb hspared hT hs).keeps hkeeps).mono ?_
    rintro l h'' ⟨rfl | ⟨hne, s', rfl⟩, hafter⟩
    · rfl
    · obtain ⟨hT', hs'⟩ := hafter
      exact ⟨⟨hT', by omega⟩, by omega⟩
  · rintro ret h' rfl
    exact ⟨_, recorded_eq (hw.closes h' hd), rfl⟩

lemma mediaFileTurn_deliver (hw : Works line dev filename turns answer) (hdev : dev ≠ .invalid)
    (hnull : dev ≠ .null) (hturns : 0 < turns) (hromdev : rom.device = dev) (hline : Passable line)
    {s : MediaFile} (hs : Writing image s h) :
    Ensures (recorded answer) h (mediaFileTurn turns rom s) fun l _ => match l with
      | .next _ => True
      | .done s' => s'.remain = 0 := by
  unfold mediaFileTurn
  by_cases hr : s.remain = 0
  · rw [if_neg (not_not.mpr hr)]
    exact ensures_ret.mpr hr
  rw [if_pos hr]
  have hread := hw.fread h (min s.remain 0x10000) (s.file.content.length - s.file.pos)
  refine ensures_bind.mpr ((ensures_call (recorded_eq hread)).mpr (ensures_ret.mpr ?_))
  have hremain := hs.remain
  have hpos := hs.pos hr
  rw [Fin.val_last]
  have hall : (slice s.file.content s.file.pos
      (min (min s.remain 0x10000) (s.file.content.length - s.file.pos))).length =
        min s.remain 0x10000 := by
    rw [slice_length, hs.content, hpos]
    omega
  dsimp only
  rw [if_neg (not_not.mpr hall)]
  obtain ⟨hk, ha⟩ := unacked_snoc (h := h)
    (e := ⟨.fread (min s.remain 0x10000) (s.file.content.length - s.file.pos), Fin.last _⟩) rfl rfl
  refine ensures_bind.mpr ((amlWriteMedia_deliver hw hdev hnull hturns (romFor_block rom hs hr hall)
    hromdev hline hk (ha.trans hs.attempts)).mono ?_)
  rintro ret h' rfl
  exact ensures_ret.mpr trivial

/-- A working board is an honest one. -/
lemma Works.honest (hw : Works line dev filename turns answer) {α : Type} {p : Program α} {r : α}
    {t : Trace} (he : exec (recorded answer) [] p = some (r, t)) : Honest line t := by
  rintro h₀ ⟨o, r⟩ h₁ ht hack
  have hanswer := exec_recorded_answer he ht
  cases o with
  | bulkIn hd ep n timeout =>
    refine hw.truth h₀ hd ep n timeout r hanswer ?_
    simp only [isAck, isReply, Option.any_eq_true, Bool.and_eq_true] at hack
    obtain ⟨b, hb, -, hok⟩ := hack
    rw [reply_in] at hb
    split_ifs at hb
    exact Option.some.inj hb ▸ List.isPrefixOf_iff_prefix.mp hok
  | _ => cases hack

/-- All blocks are delivered. -/
lemma writeMediaFile_deliver (files : Files) (junk : ℕ → UInt8)
    (hw : Works line rom.device filename turns answer) (hdev : rom.device ≠ .invalid)
    (hnull : rom.device ≠ .null) (hturns : 0 < turns) (hline : Passable line) :
    Ensures (recorded answer) [] (writeMediaFile files junk turns rom filename)
      fun ret _ => ret = 0 := by
  rw [writeMediaFile_eq]
  refine (ensures_call (recorded_eq (hw.fopen []))).mpr ?_
  rw [if_pos rfl]
  obtain ⟨c, hc, -⟩ := hw.clock ([] ++ [⟨.fopen filename false, true⟩])
  refine (ensures_call (recorded_eq hc)).mpr ?_
  refine ensures_bind.mpr ((ensures_iterate (I := Writing (files filename)) (μ := MediaFile.remain)
    (Q := fun s _ => s.remain = 0) ?_ ?_ (Nat.lt_succ_self _)).mono ?_)
  · intro s h hs
    refine ((mediaFileTurn_deliver hw hdev hnull hturns rfl hline hs).keeps
      (mediaFileTurn_keeps turns rom hs)).mono ?_
    rintro (s' | s') h' ⟨hdone, hnext⟩
    · exact hnext
    · exact hdone
  · exact ⟨rfl, rfl, rfl, Nat.zero_le _, rfl, fun _ => rfl⟩
  · rintro s h' hs
    obtain ⟨c', hc', -⟩ := hw.clock h'
    exact (ensures_call (recorded_eq hc')).mpr (ensures_ret.mpr (if_pos hs))

/-- **An image gets through a noisy line** on which no block is damaged in all of its three
attempts: the block writer returns 0 and the board has stored the whole file. -/
theorem writeMediaFile_delivered {files : Files} {junk : ℕ → UInt8}
    (himage : (files filename).length ≤ 2 ^ 44) (hdev : rom.device ≠ .null ∧ rom.device ≠ .invalid)
    (hturns : 0 < turns) (hline : Passable line)
    (hw : Works line rom.device filename turns answer) :
    ∃ t, exec (recorded answer) [] (writeMediaFile files junk turns rom filename) = some (0, t) ∧
      ∀ k < blockCount (files filename).length,
        (board line t).blocks k = some (blockAt (files filename) k) := by
  obtain ⟨ret, t, he, rfl⟩ := writeMediaFile_deliver files junk hw hdev.2 hdev.1 hturns hline
  exact ⟨t, he, stored_of_runs himage (exec_recorded answer he) (hw.honest he)⟩

end Delivery

/-! ### A byte that is sent twice -/

/-- The first byte of the first attempt at each block is damaged. -/
def damaging : Line where
  request _ := false
  block h data := if attempts h = 1 then data.set 0 (data.headD 0 + 1) else data
  mild := by
    intro h data hlen
    refine ⟨hlen, 0, fun i hi => ?_⟩
    split_ifs
    · rw [List.getElem?_set_ne (by omega)]
    · rfl

/-- What a board says that is busy once and then gives its verdict. -/
def saying (h : Trace) : Bytes :=
  if waits h = 0 then strBusy32 else if (board damaging h).good then strOk else []

/-- The reply is a verdict if it is not a busy one, and only praises what is good. -/
lemma saying_cases (h : Trace) : waits h = 0 ∧ saying h = strBusy32 ∨
    (board damaging h).good ∧ saying h = strOk ∨ ¬ (board damaging h).good ∧ saying h = [] := by
  unfold saying
  split_ifs with hw hg
  · exact .inl ⟨hw, rfl⟩
  · exact .inr (.inl ⟨hg, rfl⟩)
  · exact .inr (.inr ⟨hg, rfl⟩)

/-- Answers of that board, by a clock that stands still. -/
def twiceAnswers (h : Trace) : (o : Op) → Option (Resp o)
  | .libusbOpen _ => some (some (0 : ℕ))
  | .libusbClose _ => some ()
  | .fopen _ _ => some true
  | .fread want avail => some (Fin.last (min want avail))
  | .clock => some ((startTime h).getD 0)
  | .controlOut _ _ _ _ => some ⟨none, Fin.last _⟩
  | .bulkOut _ _ _ n _ => some ⟨none, Fin.last n⟩
  | .bulkIn _ _ n _ => some ⟨none, (saying h ++ List.replicate 11 0).take n, by simp⟩
  | _ => none

lemma damaging_passable : Passable damaging := by
  refine fun _ => ⟨1, by omega, fun h _ hatt data => ?_⟩
  exact if_neg (by omega)

lemma twiceAnswers_works : Works damaging (.dev 0) [] 2 twiceAnswers := by
  refine ⟨fun _ => rfl, fun _ _ _ => rfl, fun _ => ⟨0, rfl⟩, fun _ _ => rfl,
    fun _ _ _ _ => ⟨_, rfl⟩, fun _ _ _ _ _ _ => rfl, fun h => ⟨_, rfl, ?_⟩, fun h _ _ _ => ?_, ?_⟩
  · rintro start hs
    rw [hs, Option.getD_some]
    omega
  · refine ⟨_, rfl, rfl, by simp, ?_⟩
    rcases saying_cases h with ⟨hw, hs⟩ | ⟨hg, hs⟩ | ⟨hg, hs⟩
    · simp only [hs]
      rw [if_pos (by decide), hw]
      decide
    · simp only [hs]
      rw [if_neg (by decide)]
      exact fun _ => by decide
    · simp only [hs]
      rw [if_neg (by decide)]
      exact fun h => absurd h hg
  · intro h hd ep n timeout r hr hok
    obtain rfl := Option.some.inj hr
    have hok : strOk <+: saying h ++ List.replicate 11 0 := hok.trans (List.take_prefix _ _)
    rcases saying_cases h with ⟨-, hs⟩ | ⟨hg, -⟩ | ⟨-, hs⟩
    · rw [hs] at hok
      exact absurd hok (by decide)
    · exact hg
    · rw [hs] at hok
      exact absurd hok (by decide)

theorem writeMediaFile_delivered_byte :
    ∃ t, exec (recorded twiceAnswers) []
        (writeMediaFile (fun _ => [7]) (fun _ => 0) 2 ⟨.dev 0, 0, [], 0, 0⟩ []) = some (0, t) ∧
      ∀ k < 1, (board damaging t).blocks k = some (blockAt [7] k) :=
  writeMediaFile_delivered (by decide) ⟨dev_ne_null 0, dev_ne_invalid 0⟩ (by decide)
    damaging_passable twiceAnswers_works

/-- The damaged byte is not stored, the one that is sent again is. -/
theorem writeMediaFile_intact_byte :
    ∃ t, Runs (writeMediaFile (fun _ => [7]) (fun _ => 0) 2 ⟨.dev 0, 0, [], 0, 0⟩ []) t 0 ∧
      (board damaging t).blocks 0 = some [7] := by
  have hdeliver : Ensures (recorded twiceAnswers) []
      (writeMediaFile (fun _ => [7]) (fun _ => 0) 2 ⟨.dev 0, 0, [], 0, 0⟩ [])
      fun ret _ => ret = 0 :=
    writeMediaFile_deliver _ _ twiceAnswers_works (dev_ne_invalid 0) (dev_ne_null 0) (by decide)
      damaging_passable
  obtain ⟨ret, t, he, rfl⟩ := hdeliver
  have hruns := exec_recorded _ he
  refine ⟨t, hruns, ?_⟩
  exact (writeMediaFile_intact damaging (by decide) (runs_iff_steps.mp hruns)).2
    (twiceAnswers_works.honest he) rfl 0 (by decide)

end AmlogicUpdate.NoisyLine

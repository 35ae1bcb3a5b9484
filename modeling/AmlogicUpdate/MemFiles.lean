import AmlogicUpdate.MemDevice

/-!
Files in device memory: `write` and `cwr` put a file there, `read`, `dump` and `rreg` save
what is there to a file.

Every loop keeps the same thing: what has been moved is the part of the range before the
position, and the address, which wraps around at the very end, is that of the position.
-/

namespace AmlogicUpdate.MemFiles

open Interaction CData Usb AmlLibusb UsbRomDrv Update Wire Memory MemDevice

variable {hd : Handle} {path : Bytes} {b b₀ : Board} {a d : ℕ}

/-! ### Writing -/

/-- A read gets what is asked for as far as the file goes. -/
lemma fread_serves (hd : Handle) (path : Bytes) (b : Board) {f : File} {n : ℕ}
    (hn : n ≤ f.content.length - f.pos) :
    Ensures (serve hd path) b (fread f n) fun r b' =>
      r = (slice f.content f.pos n, { f with pos := f.pos + n }) ∧ b' = b := by
  refine (ensures_call rfl).mpr (ensures_ret.mpr ⟨?_, rfl⟩)
  have hlast : ((Fin.last (min n (f.content.length - f.pos)) : Fin _) : ℕ) = n := by
    rw [Fin.val_last]; omega
  rw [hlast]

/-- The invariant of the loop of `write` and `cwr`. -/
structure Putting (b₀ : Board) (a d : ℕ) (data : Bytes) (s : Write) (b : Board) : Prop where
  board : ∃ tr, b = { b₀ with mem := store b₀.mem a (data.take s.file.pos), transfer := tr }
  content : s.file.content = data
  left : s.file.pos + s.transferSize = data.length
  device : s.rom.device = .dev d
  address : s.rom.address = (a + s.file.pos) % 2 ^ 32
  room : s.buf.length = 0x10008

/-- What the two commands make of one piece. -/
lemma piece_stores (isCwr : Bool) {rom : AmlUsbRomRW} {buf piece : Bytes} {n : ℕ} (seqNum : ℕ)
    (hdev : rom.device = .dev d) (hbuf : buf.length = 0x10008) (hpiece : piece.length = n)
    (h₀ : 0 < n) (h₁ : n ≤ if isCwr then 0x40 else 0x10000) (haddr : rom.address < 2 ^ 32) :
    Ensures (serve hd path) b
      (if isCwr then do
        let buf' := setU32 (blit buf 8 piece) 4 rom.address
        let (ret, rom) ← amlUsbCtrlWr { rom with buffer := buf'.drop 4, bufferLen := n + 4 }
        pure (ret, rom, buf', seqNum)
      else do
        let (ret, rom, seqNum) ← amlUsbWriteLargeMem seqNum
          { rom with buffer := (blit buf 8 piece).drop 8, bufferLen := n }
        pure (ret, rom, blit buf 8 piece, seqNum))
      fun r b' => r.1 = 0 ∧ r.2.1.device = .dev d ∧ r.2.1.address = rom.address ∧
        r.2.2.1.length = 0x10008 ∧
        ∃ tr, b' = { b with mem := store b.mem rom.address piece, transfer := tr } := by
  have hblit : (blit buf 8 piece).length = 0x10008 := by
    rw [blit_length, hbuf]
    split_ifs at h₁ <;> omega
  cases isCwr with
  | true =>
    simp only [if_true] at h₁ ⊢
    refine ensures_bind.mpr ((ctrlWr_stores hd path b { rom with
      buffer := (setU32 (blit buf 8 piece) 4 rom.address).drop 4
      bufferLen := n + 4 } hdev (ctrlWr_buffer rom.address (by omega)) hpiece rfl h₁ haddr).mono ?_)
    rintro ⟨ret, rom'⟩ _ ⟨hret, hdev', haddr', rfl⟩
    rw [Prog.pure_eq_ret, ensures_ret]
    refine ⟨hret, hdev'.trans hdev, haddr', ?_, none, rfl⟩
    dsimp only
    rw [setU32, blit_length, hblit]
    rw [le32_length]
    omega
  | false =>
    simp only [Bool.false_eq_true, if_false] at h₁ ⊢
    have hdrop : (blit buf 8 piece).drop 8 = piece ++ buf.drop (8 + piece.length) :=
      blit_drop (by omega)
    have htake : ((blit buf 8 piece).drop 8).take n = piece := by
      rw [hdrop, List.take_left' hpiece]
    have hmake := writeLargeMem_stores hd path b { rom with
      buffer := (blit buf 8 piece).drop 8
      bufferLen := n } hdev rfl h₀ h₁ (by dsimp only; rw [List.length_drop]; omega) haddr seqNum
    refine ensures_bind.mpr (hmake.mono ?_)
    rintro ⟨ret, rom', seqNum'⟩ _ ⟨hret, hdev', haddr', tr, rfl⟩
    rw [Prog.pure_eq_ret, ensures_ret]
    refine ⟨hret, hdev'.trans hdev, haddr', hblit, tr, ?_⟩
    dsimp only
    rw [htake]

lemma writeTurn_stores (isCwr : Bool) {data : Bytes} {s : Write} (ha : a + data.length ≤ 2 ^ 32)
    (hI : Putting b₀ a d data s b) :
    Ensures (serve hd path) b (writeTurn isCwr s) fun l b' => match l with
      | .next s' => Putting b₀ a d data s' b' ∧ s'.transferSize < s.transferSize
      | .done ret => ret = 0 ∧
          ∃ tr, b' = { b₀ with mem := store b₀.mem a data, transfer := tr } := by
  obtain ⟨⟨tr, rfl⟩, hcontent, hleft, hdev, haddr, hroom⟩ := hI
  unfold writeTurn
  by_cases hn : s.transferSize = 0
  · rw [if_neg (not_not.mpr hn), Prog.pure_eq_ret, ensures_ret]
    rw [List.take_of_length_le (by omega)]
    exact ⟨rfl, tr, rfl⟩
  rw [if_pos hn]
  dsimp only
  have haddr' : s.rom.address = a + s.file.pos := by omega
  have hbulk : 0 < min s.transferSize (if isCwr then 0x40 else 0x10000) ∧
      min s.transferSize (if isCwr then 0x40 else 0x10000) ≤ s.transferSize ∧
      min s.transferSize (if isCwr then 0x40 else 0x10000) ≤ if isCwr then 0x40 else 0x10000 := by
    split_ifs <;> omega
  generalize min s.transferSize (if isCwr then 0x40 else 0x10000) = n at hbulk ⊢
  obtain ⟨h₀, hle, h₁⟩ := hbulk
  refine ensures_bind.mpr ((fread_serves hd path _ (by rw [hcontent]; omega)).mono ?_)
  rintro _ _ ⟨rfl, rfl⟩
  have hpiece : (slice s.file.content s.file.pos n).length = n := by
    rw [slice_length, hcontent]; omega
  dsimp only
  rw [if_neg (not_not.mpr hpiece)]
  refine ensures_bind.mpr ((piece_stores isCwr s.seqNum hdev hroom hpiece h₀ h₁
    (by omega)).mono ?_)
  rintro ⟨ret, rom, buf, seqNum⟩ _ ⟨hret, hdev', haddr'', hroom', tr', rfl⟩
  dsimp only at hret hdev' haddr'' hroom' ⊢
  rw [if_neg (not_not.mpr hret), Prog.pure_eq_ret, ensures_ret]
  have hstore : store (store b₀.mem a (data.take s.file.pos)) s.rom.address
      (slice s.file.content s.file.pos n) = store b₀.mem a (data.take (s.file.pos + n)) := by
    rw [store_store _ _ _ _ (by rw [List.length_take]; omega), hcontent, slice, List.take_add]
  refine ⟨⟨⟨tr', ?_⟩, hcontent, ?_, hdev', ?_, hroom'⟩, ?_⟩
  · dsimp only
    rw [hstore]
  · dsimp only; omega
  · dsimp only; omega
  · dsimp only; omega

/-- `write` and `cwr` of a file to an address. -/
structure Puts (files : Files) (data : Bytes) (a : ℕ) (argv : List Bytes) (argc : ℤ) : Prop where
  file : files (argv.getD 0 []) = data
  address : u32 (strtoul (argv.getD 1 []) 0) = a
  args : 2 ≤ argc
  size : 2 < argc → u32 (simpleStrtoul (argv.getD 2 []) 0) = 0 ∨
    u32 (simpleStrtoul (argv.getD 2 []) 0) = data.length
  skip : 3 < argc → u32 (simpleStrtoul (argv.getD 3 []) 0) = 0

/-- After either command the file is in memory, and nothing else has changed there. -/
lemma write_stores (hd : Handle) (path : Bytes) (b : Board) {files : Files} (junk : ℕ → UInt8)
    (seqNum : ℕ) {rom : AmlUsbRomRW} (hdev : rom.device = .dev d) {cmd : Bytes}
    (hcmd : cmd = cmdWrite ∨ cmd = cmdCwr)
    {data : Bytes} {argv : List Bytes} {argc : ℤ} (hputs : Puts files data a argv argc)
    (hlen : data.length < 2 ^ 32) (ha : a + data.length ≤ 2 ^ 32) :
    Ensures (serve hd path) b (updateSubCmdReadWrite files junk seqNum rom cmd argv argc)
      fun ret b' => ret = 0 ∧
        ∃ tr, b' = { b with mem := store b.mem a data, transfer := tr } := by
  have hu : u32 data.length = data.length := by rw [u32_natCast]; omega
  rw [updateSubCmdReadWrite_write files junk seqNum rom hcmd argv hputs.args
    (by rw [hputs.file, hu]; exact hputs.size) hputs.skip, hputs.file, hputs.address, hu]
  refine (ensures_call rfl).mpr ?_
  rw [if_pos rfl]
  refine ensures_iterate (I := Putting b a d data) (μ := Write.transferSize) ?_ ?_
    (Nat.lt_succ_self _)
  · intro s b' hI
    refine (writeTurn_stores _ ha hI).mono fun l b'' hl => ?_
    cases l <;> exact hl
  · refine ⟨⟨b.transfer, ?_⟩, rfl, Nat.zero_add _, hdev, ?_, ?_⟩
    · dsimp only
      rw [List.take_zero, store_nil]
    · have haddr := hputs.address
      have hlt := u32_lt (strtoul (argv.getD 1 []) 0)
      dsimp only
      omega
    · rw [malloc_length]

/-! ### Reading -/

lemma fwrite_serves (hd : Handle) (path : Bytes) {saved : Bytes} (hb : b.saved = some saved)
    (data : Bytes) :
    Ensures (serve hd path) b (fwrite data) fun k b' =>
      k = data.length ∧ b' = { b with saved := some (saved ++ data) } := by
  have hserve : serve hd path b (.fwrite data) =
      some (Fin.last _, { b with saved := some (saved ++ data) }) := by
    simp only [serve, hb]
  exact (ensures_call hserve).mpr (ensures_ret.mpr ⟨rfl, rfl⟩)

/-- The clock is read on the way, and nothing else happens. -/
lemma updateProgress_serves (hd : Handle) (path : Bytes) (b : Board) (info : DownloadProgressInfo)
    (len : ℕ) :
    Ensures (serve hd path) b (info.updateProgress len) fun _ b' =>
      ∃ clock, b' = { b with clock := clock } := by
  have hclock : ∀ b : Board, Ensures (serve hd path) b timeGetTime fun _ b' =>
      ∃ clock, b' = { b with clock := clock } :=
    fun b => (ensures_call rfl).mpr (ensures_ret.mpr ⟨_, rfl⟩)
  have hnone : ∀ (b : Board) (x : ℤ), Ensures (serve hd path) b (.ret x) fun _ b' =>
      ∃ clock, b' = { b with clock := clock } := fun b _ => ensures_ret.mpr ⟨b.clock, rfl⟩
  unfold DownloadProgressInfo.updateProgress
  refine ensures_bind.mpr (Ensures.mono (Q := fun _ b' => ∃ clock, b' = { b with clock := clock })
    ?_ ?_)
  · split_ifs
    · exact hclock b
    · exact hnone b _
  rintro start _ ⟨clock, rfl⟩
  dsimp only
  split_ifs
  · exact ensures_ret.mpr ⟨clock, rfl⟩
  · exact ensures_ret.mpr ⟨clock, rfl⟩
  · refine ensures_bind.mpr ((hclock _).mono ?_)
    rintro _ _ ⟨clock', rfl⟩
    exact ensures_ret.mpr ⟨clock', rfl⟩

/-- The first `pos` bytes from `a` on have been saved. -/
def Saved (b₀ : Board) (a pos : ℕ) (b : Board) : Prop :=
  ∃ tr clock, b = { b₀ with saved := some (load b₀.mem a pos), transfer := tr, clock := clock }

lemma serve_fopen (hd : Handle) (path : Bytes) (b : Board) :
    serve hd path b (.fopen path true) = some (true, { b with saved := some [] }) := by
  rw [serve, if_pos rfl]

/-- The invariant of the loop of `read` and `dump` of `n` bytes. -/
structure Dumping (b₀ : Board) (a d n : ℕ) (s : Dump) (b : Board) : Prop where
  bound : s.transferSize ≤ n
  saved : Saved b₀ a (n - s.transferSize) b
  device : s.rom.device = .dev d
  address : s.rom.address = (a + (n - s.transferSize)) % 2 ^ 32

lemma dumpTurn_saves (isDump : Bool) {n : ℕ} {s : Dump} (hn : n < 2 ^ 32) (ha : a + n ≤ 2 ^ 32)
    (hI : Dumping b₀ a d n s b) :
    Ensures (serve hd path) b (dumpTurn isDump true s) fun l b' => match l with
      | .next s' => Dumping b₀ a d n s' b' ∧ s'.transferSize < s.transferSize
      | .done r => r.1 = true ∧ Saved b₀ a n b' := by
  obtain ⟨hbound, ⟨tr, clock, rfl⟩, hdev, haddr⟩ := hI
  unfold dumpTurn
  by_cases hz : s.transferSize = 0
  · rw [if_neg (not_not.mpr hz), Prog.pure_eq_ret, ensures_ret, hz]
    exact ⟨rfl, tr, clock, rfl⟩
  rw [if_pos hz]
  dsimp only
  have haddr' : s.rom.address = a + (n - s.transferSize) := by omega
  have hbulk : ∀ k, k = (if isDump = true ∧ 0x10000 ≤ s.transferSize then 0x10000
      else if isDump = true ∧ 0x1000 ≤ s.transferSize then 0x1000
      else min s.transferSize 0x200) → 0 < k ∧ k ≤ 0x10000 ∧ k ≤ s.transferSize := by
    rintro k rfl
    split_ifs <;> omega
  generalize hk : (if isDump = true ∧ 0x10000 ≤ s.transferSize then 0x10000
      else if isDump = true ∧ 0x1000 ≤ s.transferSize then 0x1000
      else min s.transferSize 0x200) = k
  obtain ⟨h₀, h₁, hle⟩ := hbulk k hk.symm
  refine ensures_bind.mpr ((readLargeMem_loads hd path _
    { s.rom with bufferLen := k } hdev rfl h₀ h₁
    (by dsimp only; omega) s.seqNum).mono ?_)
  rintro ⟨ret, rom, seqNum⟩ _ ⟨hret, hdev', haddr'', hsize, hbuf, tr', rfl⟩
  dsimp only at hret hdev' haddr'' hsize hbuf ⊢
  have hload : rom.buffer.take k = load b₀.mem s.rom.address k := by
    rw [hbuf, List.take_left' (load_length _ _ _)]
  rw [if_neg (not_not.mpr hret), if_neg (by omega), if_pos rfl, hload]
  refine ensures_bind.mpr ((fwrite_serves hd path rfl _).mono ?_)
  rintro _ _ ⟨rfl, rfl⟩
  have hnext : n - u32 ((s.transferSize : ℤ) - rom.dataSize) = n - s.transferSize + k := by
    unfold u32
    omega
  rw [load_length, if_neg (not_not.mpr rfl), if_pos rfl]
  refine ensures_bind.mpr ((updateProgress_serves hd path _ s.info k).mono ?_)
  rintro info _ ⟨clock', rfl⟩
  rw [Prog.pure_eq_ret, ensures_ret]
  refine ⟨⟨?_, ⟨tr', clock', ?_⟩, hdev'.trans hdev, ?_⟩, ?_⟩
  · dsimp only
    unfold u32
    omega
  · dsimp only
    rw [hnext, haddr', load_append]
  · dsimp only
    rw [hnext]
    omega
  · dsimp only
    unfold u32
    omega

/-- The invariant of the loop of `rreg` of `n` bytes. -/
structure Regs (b₀ : Board) (a n : ℕ) (s : Rreg) (b : Board) : Prop where
  bound : s.offset ≤ n
  saved : Saved b₀ a s.offset b
  address : s.addr = (a + s.offset) % 2 ^ 32
  ret : s.ret = 0
  stream : s.readStream = none

lemma rregTurn_saves {n : ℕ} {s : Rreg} (hn : n < 2 ^ 32) (ha : a + n ≤ 2 ^ 32)
    (hI : Regs b₀ a n s b) :
    Ensures (serve hd path) b (rregTurn (.dev d) true true n s) fun l b' => match l with
      | .next s' => Regs b₀ a n s' b' ∧ n - s'.offset < n - s.offset
      | .done ret => ret = 0 ∧ Saved b₀ a n b' := by
  obtain ⟨offset, addr, ret, buf, stream⟩ := s
  obtain ⟨hbound, ⟨tr, clock, rfl⟩, haddr, hret, hstream⟩ := hI
  dsimp only at hbound haddr hret hstream
  subst hstream hret
  unfold rregTurn
  by_cases hlt : offset < n
  swap
  · rw [if_neg hlt, Prog.pure_eq_ret, ensures_ret]
    have hall : offset = n := by omega
    exact ⟨rfl, tr, clock, by rw [hall]⟩
  rw [if_pos hlt]
  dsimp only
  have hbulk : 0 < min (n - offset) 0x100000 ∧ min (n - offset) 0x100000 ≤ n - offset := by omega
  generalize min (n - offset) 0x100000 = k at hbulk ⊢
  rw [Prog.pure_eq_ret, Prog.ret_bind]
  refine ensures_bind.mpr ((ctrlRdWr_loads hd path _ d buf (by dsimp only; omega)
    (by dsimp only; omega) 5000).mono ?_)
  rintro _ _ ⟨rfl, rfl⟩
  dsimp only
  have hload : (load b₀.mem addr k ++ buf.drop k).take k = load b₀.mem addr k :=
    List.take_left' (load_length _ _ _)
  rw [if_neg (not_not.mpr rfl), Bool.and_self, if_pos rfl, hload]
  refine ensures_bind.mpr ((fwrite_serves hd path rfl _).mono ?_)
  rintro _ _ ⟨rfl, rfl⟩
  rw [Prog.pure_eq_ret, ensures_ret]
  refine ⟨⟨?_, ⟨none, clock, ?_⟩, ?_, rfl, rfl⟩, ?_⟩
  · dsimp only; omega
  · have haddr' : addr = a + offset := by omega
    dsimp only
    rw [haddr', load_append]
  · dsimp only; omega
  · dsimp only; omega

/-- The commands that save memory to a file. -/
inductive Reader
  | read | dump | rreg

def Reader.run (reader : Reader) (files : Files) (junk : ℕ → UInt8) (seqNum : ℕ)
    (rom : AmlUsbRomRW) (argv : List Bytes) (argc : ℤ) : Program ℤ :=
  match reader with
  | .read => updateSubCmdReadWrite files junk seqNum rom cmdRead argv argc
  | .dump => updateSubCmdReadWrite files junk seqNum rom cmdDump argv argc
  | .rreg => updateSubCmdRunAndRreg files junk rom cmdRreg argv argc

/-- A size, an address and a file to save to. -/
structure Gets (n a : ℕ) (path : Bytes) (argv : List Bytes) (argc : ℤ) : Prop where
  size : u32 (strtoul (argv.getD 0 []) 0) = n
  address : u32 (strtoul (argv.getD 1 []) 0) = a
  file : argv.getD 2 [] = path
  args : 2 < argc

section Readers

variable {n : ℕ} {rom : AmlUsbRomRW} {argv : List Bytes} {argc : ℤ} (hdev : rom.device = .dev d)
  (hgets : Gets n a path argv argc) (ha : a + n ≤ 2 ^ 32) (files : Files) (junk : ℕ → UInt8)
include hdev hgets ha

lemma readDump_saves (hd : Handle) (b : Board) (seqNum : ℕ) {cmd : Bytes}
    (hcmd : cmd = cmdRead ∨ cmd = cmdDump) :
    Ensures (serve hd path) b (updateSubCmdReadWrite files junk seqNum rom cmd argv argc)
      fun ret b' => ret = 0 ∧ Saved b a n b' := by
  have hn : n < 2 ^ 32 := hgets.size ▸ u32_lt _
  have ha' : a < 2 ^ 32 := hgets.address ▸ u32_lt _
  have hargs := hgets.args
  have hwreg : cmd ≠ cmdWreg := by rintro rfl; revert hcmd; decide
  unfold updateSubCmdReadWrite
  rw [if_neg (by omega)]
  dsimp only
  rw [if_neg hwreg, if_pos hcmd, if_neg (by omega), hgets.size, hgets.address, hgets.file]
  refine ensures_bind.mpr ((ensures_call (serve_fopen hd path b)).mpr (ensures_ret.mpr ?_))
  refine ensures_bind.mpr ((ensures_iterate (I := Dumping { b with saved := some [] } a d n)
    (μ := Dump.transferSize) (Q := fun (r : Bool × ℤ) b' => r.1 = true ∧ Saved b a n b') ?_ ?_
    (Nat.lt_succ_self _)).mono ?_)
  · intro s b' hI
    refine (dumpTurn_saves _ hn ha hI).mono fun l b'' hl => ?_
    cases l <;> exact hl
  · -- stated for any buffer, so that the one allocated is not compared with `rom.buffer`
    have hdev' : ∀ buffer address,
        ({ rom with buffer := buffer, address := address } : AmlUsbRomRW).device = .dev d :=
      fun _ _ => hdev
    refine ⟨le_rfl, ⟨b.transfer, b.clock, ?_⟩, hdev' _ _, ?_⟩
    · dsimp only
      rw [Nat.sub_self]
      rfl
    · dsimp only; omega
  · rintro ⟨ok, ret⟩ b' ⟨hok, hsaved⟩
    dsimp only at hok ⊢
    rw [hok, Prog.pure_eq_ret, ensures_ret]
    exact ⟨rfl, hsaved⟩

lemma rreg_saves (hd : Handle) (b : Board) :
    Ensures (serve hd path) b (updateSubCmdRunAndRreg files junk rom cmdRreg argv argc)
      fun ret b' => ret = 0 ∧ Saved b a n b' := by
  have hn : n < 2 ^ 32 := hgets.size ▸ u32_lt _
  have ha' : a < 2 ^ 32 := hgets.address ▸ u32_lt _
  have hargs := hgets.args
  unfold updateSubCmdRunAndRreg
  rw [if_neg (by omega), if_neg (by omega)]
  dsimp only
  rw [if_neg (by decide), if_neg (by omega), hgets.size, hgets.address, hgets.file, hdev]
  refine ensures_bind.mpr ((ensures_call (serve_fopen hd path b)).mpr (ensures_ret.mpr ?_))
  rw [if_pos rfl]
  refine ensures_iterate (I := Regs { b with saved := some [] } a n)
    (μ := fun s => n - s.offset) ?_ ?_
    (Nat.lt_succ_self _)
  · intro s b' hI
    refine (rregTurn_saves hn ha hI).mono fun l b'' hl => ?_
    cases l <;> exact hl
  · exact ⟨Nat.zero_le _, ⟨b.transfer, b.clock, rfl⟩, by dsimp only; omega, rfl, rfl⟩

/-- Each of the three commands returns 0 and saves the memory it is asked for. -/
lemma reader_saves (hd : Handle) (b : Board) (seqNum : ℕ) (reader : Reader) :
    Ensures (serve hd path) b (reader.run files junk seqNum rom argv argc)
      fun ret b' => ret = 0 ∧ Saved b a n b' := by
  cases reader with
  | read => exact readDump_saves hdev hgets ha files junk hd b seqNum (.inl rfl)
  | dump => exact readDump_saves hdev hgets ha files junk hd b seqNum (.inr rfl)
  | rreg => exact rreg_saves hdev hgets ha files junk hd b

end Readers

/-- **What was put into memory is read back.** After `write` or `cwr` of a file the memory around
it is as before, and `read`, `dump` and `rreg` save exactly the file. -/
theorem put_then_get (hd : Handle) (b : Board) {data : Bytes} (hlen : data.length < 2 ^ 32)
    (ha : a + data.length ≤ 2 ^ 32) {cmd : Bytes} (hcmd : cmd = cmdWrite ∨ cmd = cmdCwr)
    {files : Files} {rom : AmlUsbRomRW} (hdev : rom.device = .dev d) {argv : List Bytes} {argc : ℤ}
    (hputs : Puts files data a argv argc) (junk : ℕ → UInt8) (seqNum : ℕ) (reader : Reader)
    {rom' : AmlUsbRomRW} (hdev' : rom'.device = .dev d) {argv' : List Bytes} {argc' : ℤ}
    (hgets : Gets data.length a path argv' argc') (files' : Files) (junk' : ℕ → UInt8)
    (seqNum' : ℕ) :
    ∃ b₁, exec (serve hd path) b (updateSubCmdReadWrite files junk seqNum rom cmd argv argc) =
        some (0, b₁) ∧
      (∀ x, x < a ∨ a + data.length ≤ x → b₁.mem x = b.mem x) ∧
      ∃ b₂, exec (serve hd path) b₁ (reader.run files' junk' seqNum' rom' argv' argc') =
          some (0, b₂) ∧
        b₂.saved = some data ∧ b₂.mem = b₁.mem := by
  obtain ⟨_, b₁, hwrite, rfl, tr, rfl⟩ := write_stores hd path b junk seqNum hdev hcmd hputs hlen ha
  refine ⟨_, hwrite, fun x hx => store_outside _ _ hx, ?_⟩
  obtain ⟨_, b₂, hread, rfl, tr', clock, rfl⟩ := reader_saves hdev' hgets ha files' junk' hd
    { b with mem := store b.mem a data, transfer := tr } seqNum' reader
  exact ⟨_, hread, congrArg some (load_store _ _ _), rfl⟩

theorem put_then_get_byte :
    ∃ b₁, exec (serve 0 []) ⟨fun _ => 0, none, none, fun _ => 0⟩
        (updateSubCmdReadWrite (fun _ => [7]) (fun _ => 0) 0 ⟨.dev 0, 0, [], 0, 0⟩ cmdCwr
          [[], ascii ['0', 'x', '1', '0']] 2) = some (0, b₁) ∧
      (∀ x, x < 16 ∨ 17 ≤ x → b₁.mem x = 0) ∧
      ∃ b₂, exec (serve 0 []) b₁ (Reader.dump.run (fun _ => []) (fun _ => 0) 0
          ⟨.dev 0, 0, [], 0, 0⟩ [ascii ['1'], ascii ['0', 'x', '1', '0'], []] 3) = some (0, b₂) ∧
        b₂.saved = some [7] ∧ b₂.mem = b₁.mem := by
  have hputs : Puts (fun _ => [7]) [7] 16 [[], ascii ['0', 'x', '1', '0']] 2 :=
    ⟨rfl, by decide, le_rfl, by decide, by decide⟩
  have hgets : Gets ([7] : Bytes).length 16 []
      [ascii ['1'], ascii ['0', 'x', '1', '0'], []] 3 := ⟨by decide, by decide, rfl, by decide⟩
  exact put_then_get 0 ⟨fun _ => 0, none, none, fun _ => 0⟩ (by decide) (by decide) (.inr rfl) rfl
    hputs (fun _ => 0) 0 .dump rfl hgets (fun _ => []) (fun _ => 0) 0

end AmlogicUpdate.MemFiles

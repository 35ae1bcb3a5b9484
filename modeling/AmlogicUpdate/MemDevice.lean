import AmlogicUpdate.Memory
import AmlogicUpdate.Update
import AmlogicUpdate.Wire

/-!
A device that serves the four memory requests, and what the routines do with it.

A control request moves up to 64 bytes at the address in its setup packet. A large transfer
is announced with an address and a size, and then moves exactly that many bytes before the next is
announced or the device is closed.
-/

namespace AmlogicUpdate.MemDevice

open Interaction CData Usb AmlLibusb UsbRomDrv Update Wire Memory

/-! ### The device -/

/-- A large transfer that is under way. -/
structure Transfer where
  doRead : Bool
  addr : ℕ
  left : ℕ

/-- The memory, the large transfer last announced, what the tool has put into the file it writes
if that is open, and the readings of the clock to come. -/
structure Board where
  mem : ℕ → UInt8
  transfer : Option Transfer
  saved : Option Bytes
  clock : ℕ → ℤ

/-- Nothing is left of the transfer last announced. -/
def Board.idle (b : Board) : Bool := b.transfer.all fun tr => tr.left = 0

def setupAddr (s : Setup) : ℕ := s.wValue * 2 ^ 16 + s.wIndex

/-- Every transfer that follows the protocol is completed; nothing else is answered. The one file
that can be written is `path`. -/
def serve (hd : Handle) (path : Bytes) (b : Board) : (o : Op) → Option (Resp o × Board)
  | .libusbOpen _ => some (some hd, { b with transfer := none })
  | .libusbClose h => if h = hd ∧ b.idle then some ((), b) else none
  | .controlOut h s data _ =>
    if h = hd ∧ s.bmRequestType = 0x40 then
      if s.bRequest = amReqWriteMem ∧ s.wLength ≤ 64 then
        some (⟨none, Fin.last _⟩, { b with mem := store b.mem (setupAddr s) data })
      else if s.bRequest = amReqWrLargeMem ∧ s.wLength = 16 ∧ b.idle then
        some (⟨none, Fin.last _⟩,
          { b with transfer := some ⟨false, getU32 data 0, getU32 data 4⟩ })
      else if s.bRequest = amReqRdLargeMem ∧ s.wLength = 16 ∧ b.idle then
        some (⟨none, Fin.last _⟩,
          { b with transfer := some ⟨true, getU32 data 0, getU32 data 4⟩ })
      else none
    else none
  | .controlIn h s _ =>
    if h = hd ∧ s.bmRequestType = 0xC0 ∧ s.bRequest = amReqReadMem ∧ s.wLength ≤ 64 then
      some (⟨none, load b.mem (setupAddr s) s.wLength, (load_length _ _ _).le⟩, b)
    else none
  | .bulkOut h ep data n _ => match b.transfer with
    | some ⟨false, addr, left⟩ =>
      if h = hd ∧ ep = amEpOut ∧ n ≤ left ∧ data.length = n then
        some (⟨none, Fin.last _⟩,
          { b with mem := store b.mem addr data, transfer := some ⟨false, addr + n, left - n⟩ })
      else none
    | _ => none
  | .bulkIn h ep n _ => match b.transfer with
    | some ⟨true, addr, left⟩ =>
      if h = hd ∧ ep = amEpIn ∧ n ≤ left then
        some (⟨none, load b.mem addr n, (load_length _ _ _).le⟩,
          { b with transfer := some ⟨true, addr + n, left - n⟩ })
      else none
    | _ => none
  | .fopen _ false => some (true, b)
  | .fopen p true => if p = path then some (true, { b with saved := some [] }) else none
  | .fread want avail => some (Fin.last (min want avail), b)
  | .fwrite data => match b.saved with
    | some saved => some (Fin.last _, { b with saved := some (saved ++ data) })
    | none => none
  | .clock => some (b.clock 0, { b with clock := fun i => b.clock (i + 1) })
  | _ => none

variable {hd : Handle} {path : Bytes} {b : Board}

/-! ### Through the control endpoint -/

lemma memSetup_address (doRead : Bool) {addr : ℕ} (h : addr < 2 ^ 32) (len : ℕ) :
    setupAddr (memSetup doRead addr len) = addr :=
  (memSetup_addr doRead addr len).trans (Nat.mod_eq_of_lt h)

lemma serve_readMem {addr len : ℕ} (haddr : addr < 2 ^ 32) (hlen : len ≤ 64) (timeout : ℤ) :
    serve hd path b (.controlIn hd (memSetup true addr len) timeout) =
      some (⟨none, load b.mem addr len, (load_length _ _ _).le⟩, b) := by
  have hs := memSetup_address true haddr len
  have hlen' : (memSetup true addr len).wLength ≤ 64 := hlen
  rw [serve, if_pos ⟨rfl, rfl, rfl, hlen'⟩]
  simp only [hs]
  rfl

lemma serve_writeMem {addr len : ℕ} (haddr : addr < 2 ^ 32) (hlen : len ≤ 64) (data : Bytes)
    (timeout : ℤ) :
    serve hd path b (.controlOut hd (memSetup false addr len) data timeout) =
      some (⟨none, Fin.last len⟩, { b with mem := store b.mem addr data }) := by
  have hs := memSetup_address false haddr len
  have hlen' : (memSetup false addr len).wLength ≤ 64 := hlen
  rw [serve, if_pos ⟨rfl, rfl⟩, if_pos ⟨rfl, hlen'⟩]
  simp only [hs]
  rfl

lemma serve_close (hd : Handle) (path : Bytes) (hidle : b.idle) :
    serve hd path b (.libusbClose hd) = some ((), b) := by
  rw [serve, if_pos ⟨rfl, hidle⟩]

/-- The invariant of `Aml_Libusb_Ctrl_RdWr` reading: the board is not changed, and the buffer
begins with what has been read. -/
structure Loading (b₀ : Board) (addr len : ℕ) (buf : Bytes) (s : CtrlRdWr) (b : Board) : Prop where
  board : b = b₀
  bound : s.processed ≤ len
  ret : 0 ≤ s.ret
  address : s.addr = (addr + s.processed) % 2 ^ 32
  buf : s.buf = load b₀.mem addr s.processed ++ buf.drop s.processed

lemma ctrlRdWrTurn_loads {addr len : ℕ} {buf : Bytes} {s : CtrlRdWr} {b₀ : Board}
    (haddr : addr + len ≤ 2 ^ 32) (timeout : ℤ) (hI : Loading b₀ addr len buf s b) :
    Ensures (serve hd path) b (ctrlRdWrTurn (some hd) len true timeout s) fun l b' => match l with
      | .next s' => Loading b₀ addr len buf s' b' ∧ len - s'.processed < len - s.processed
      | .done s' => Loading b₀ addr len buf s' b' ∧ s'.processed = len := by
  obtain ⟨rfl, hbound, hret, hs, hbuf⟩ := hI
  unfold ctrlRdWrTurn
  by_cases hlt : (s.processed : ℤ) < len
  swap
  · rw [if_neg hlt, Prog.pure_eq_ret, ensures_ret]
    exact ⟨⟨rfl, hbound, hret, hs, hbuf⟩, by omega⟩
  have hc : (min ((len : ℤ) - s.processed) 64).toNat = min (len - s.processed) 64 := by omega
  have hs' : s.addr = addr + s.processed := by omega
  rw [if_pos hlt, hc]
  generalize hcn : min (len - s.processed) 64 = c
  simp only [if_true]
  have hlen : (load b.mem addr s.processed).length = s.processed := load_length _ _ _
  have hdrop : s.buf.drop s.processed = buf.drop s.processed := by
    rw [hbuf, List.drop_left' hlen]
  have htake : s.buf.take s.processed = load b.mem addr s.processed := by
    rw [hbuf, List.take_left' hlen]
  rw [usbControlMsg_readMem hd s.addr _ (by omega) timeout]
  refine ensures_bind.mpr ((ensures_call (serve_readMem (by omega) (by omega) timeout)).mpr
    (ensures_ret.mpr ?_))
  have hres : ¬ usbControlResult none (load b.mem s.addr c).length < 0 := by
    rw [usbControlResult]
    omega
  rw [if_neg hres, Prog.pure_eq_ret, ensures_ret]
  refine ⟨⟨rfl, ?_, ?_, ?_, ?_⟩, ?_⟩
  · dsimp only; omega
  · dsimp only; omega
  · dsimp only; omega
  · dsimp only
    rw [htake, hdrop, blit_zero, load_length, List.drop_drop, hs', ← List.append_assoc, load_append]
  · dsimp only; omega

/-- Reading through the control endpoint gets the memory. -/
lemma ctrlRdWr_loads (hd : Handle) (path : Bytes) (b : Board) (d : ℕ) {addr len : ℕ} (buf : Bytes)
    (h32 : addr < 2 ^ 32) (haddr : addr + len ≤ 2 ^ 32) (timeout : ℤ) :
    Ensures (serve hd path) b (amlLibusbCtrlRdWr (.dev d) addr buf len true timeout) fun r b' =>
      b' = { b with transfer := none } ∧ r = (0, load b.mem addr len ++ buf.drop len) := by
  refine ensures_opened (dev_ne_null d) (fun drv => iterate (ctrlRdWrTurn drv.handle len true
    timeout) ((len : ℤ).toNat + 1) ⟨0, 0, addr, buf⟩) (fun _ => rfl) rfl ?_
  refine (ensures_iterate (I := Loading { b with transfer := none } addr len buf)
    (μ := fun s => len - s.processed)
    (Q := fun s b' => Loading { b with transfer := none } addr len buf s b' ∧
      s.processed = len) ?_ ?_ ?_).mono ?_
  · intro s b' hI
    refine (ctrlRdWrTurn_loads haddr timeout hI).mono fun l b'' hl => ?_
    cases l <;> exact hl
  · refine ⟨rfl, Nat.zero_le _, le_rfl, ?_, ?_⟩
    · dsimp only; omega
    · rfl
  · dsimp only; omega
  · rintro s _ ⟨⟨rfl, -, hret, -, hbuf⟩, hall⟩
    refine ⟨_, serve_close hd path rfl, rfl, ?_⟩
    rw [if_neg (by omega), hbuf, hall]

/-- A request of `AmlUsbCtrlWr` stores its data. -/
lemma ctrlWr_stores (hd : Handle) (path : Bytes) (b : Board) (rom : AmlUsbRomRW) {d : ℕ}
    (hdev : rom.device = .dev d)
    {addr c : ℕ} {data rest : Bytes} (hbuf : rom.buffer = le32 addr ++ (data ++ rest))
    (hdata : data.length = c) (hlen : rom.bufferLen = c + 4) (hc : c ≤ 64) (haddr : addr < 2 ^ 32) :
    Ensures (serve hd path) b (amlUsbCtrlWr rom) fun r b' => r.1 = 0 ∧ r.2.device = rom.device ∧
      r.2.address = rom.address ∧
      b' = { b with mem := store b.mem addr data, transfer := none } := by
  have hnull : rom.device ≠ .null := by rw [hdev]; exact dev_ne_null d
  have hinv : rom.device ≠ .invalid := by rw [hdev]; exact dev_ne_invalid d
  refine ensures_opened hnull (fun drv => usbDeviceIoControlEx drv .writeMem (some rom.buffer)
    rom.bufferLen none 0 rom.dataSize 5000) (fun _ => rfl) rfl ?_
  rw [hbuf, hlen, ctrlWr_eq hinv _ addr rest hdata hc]
  refine (ensures_call (serve_writeMem haddr hc data 50000)).mpr (ensures_ret.mpr ?_)
  exact ⟨_, serve_close hd path rfl, rfl, rfl, rfl, rfl⟩

/-! ### Large transfers -/

/-- What a direction does with the board: before the start command, and with the first `off` of
`n` bytes moved. -/
structure Carries (hd : Handle) (path : Bytes) (dir : LargeDir) (n : ℕ)
    (Start : Bytes → Board → Prop) (Moved : ℕ → Bytes → Board → Prop) : Prop where
  chunk : 0 < dir.chunk
  command : ∀ buf b seqNum, Start buf b →
    Ensures (serve hd path) b (dir.command n (min n dir.chunk) seqNum)
      fun ret b' => ret ≠ 0 ∧ Moved 0 buf b'
  transfer : ∀ off len buf b, Moved off buf b → off + len ≤ n →
    Ensures (serve hd path) b (dir.transfer buf off len)
      fun r b' => r.1 = len ∧ Moved (off + len) r.2 b'
  all : ∀ buf b, Moved n buf b → b.idle

/-- The invariant of the inner loop. -/
structure Carrying (n : ℕ) (Start : Bytes → Board → Prop) (Moved : ℕ → Bytes → Board → Prop)
    (s : LargeMem) (b : Board) : Prop where
  remain : s.offset + s.remain = n
  fresh : s.size = -1 → s.offset = 0 ∧ Start s.buffer b
  moved : s.size ≠ -1 → Moved s.offset s.buffer b

section Carries

variable {dir : LargeDir} {n : ℕ} {Start : Bytes → Board → Prop}
  {Moved : ℕ → Bytes → Board → Prop} (ok : Carries hd path dir n Start Moved) {s : LargeMem}
include ok

lemma largeTransfer_carries (hpos : 0 < s.remain) (hI : Carrying n Start Moved s b)
    (hs : s.size ≠ -1) :
    Ensures (serve hd path) b (largeTransfer dir s) fun l b' => ∃ s', l = .next s' ∧
      Carrying n Start Moved s' b' ∧ s'.remain < s.remain := by
  have hchunk := ok.chunk
  have hremain := hI.remain
  unfold largeTransfer
  refine ensures_bind.mpr ((ok.transfer s.offset (min s.remain dir.chunk) s.buffer b (hI.moved hs)
    (by omega)).mono ?_)
  rintro ⟨len, buf⟩ b' ⟨hlen, hmoved⟩
  dsimp only at hlen hmoved
  subst hlen
  rw [Prog.pure_eq_ret, ensures_ret, afterTransfer]
  have hne : ((min s.remain dir.chunk : ℕ) : ℤ) ≠ 0 := by omega
  have hne' : ((min s.remain dir.chunk : ℕ) : ℤ) ≠ -1 := by omega
  dsimp only
  rw [if_neg fun h => hne h.1, if_neg hne']
  refine ⟨_, rfl, ⟨?_, fun h => absurd h hs, fun _ => ?_⟩, ?_⟩
  · dsimp only; omega
  · dsimp only
    rw [Int.toNat_natCast]
    exact hmoved
  · dsimp only; omega

lemma largeTurn_carries (hI : Carrying n Start Moved s b) (hn : 0 < n) :
    Ensures (serve hd path) b (largeTurn dir s) fun l b' => match l with
      | .next s' => Carrying n Start Moved s' b' ∧ s'.remain < s.remain
      | .done (toEnd, s') => toEnd = false ∧ s'.remain = 0 ∧ s'.offset = n ∧
          Moved n s'.buffer b' := by
  have hremain := hI.remain
  have hnext : ∀ s' b, s'.remain = s.remain → 0 < s.remain → Carrying n Start Moved s' b →
      s'.size ≠ -1 → Ensures (serve hd path) b (largeTransfer dir s') fun l b' => match l with
        | .next s' => Carrying n Start Moved s' b' ∧ s'.remain < s.remain
        | .done (toEnd, s') => toEnd = false ∧ s'.remain = 0 ∧ s'.offset = n ∧
            Moved n s'.buffer b' := by
    intro s' b hs' hpos hI hsize
    refine (largeTransfer_carries ok (by omega) hI hsize).mono ?_
    rintro _ b' ⟨s'', rfl, hI', hlt⟩
    exact ⟨hI', by omega⟩
  unfold largeTurn
  by_cases hpos : 0 < s.remain
  swap
  · -- everything has been moved
    rw [if_neg hpos, Prog.pure_eq_ret, ensures_ret]
    have hoff : s.offset = n := by omega
    have hsize : s.size ≠ -1 := fun h => by
      have := (hI.fresh h).1
      omega
    exact ⟨rfl, by omega, hoff, hoff ▸ hI.moved hsize⟩
  rw [if_pos hpos]
  by_cases hsize : s.size = -1
  swap
  · rw [if_neg hsize]
    exact hnext s b rfl hpos hI hsize
  -- the start command
  obtain ⟨hoff, hstart⟩ := hI.fresh hsize
  have hall : s.remain = n := by omega
  have hcommand := ok.command s.buffer b s.seqNum hstart
  rw [← hall] at hcommand
  rw [if_pos hsize]
  refine ensures_bind.mpr (hcommand.mono ?_)
  rintro ret b' ⟨hret, hmoved⟩
  rw [if_neg hret]
  have hmark : ((dir.mark s.remain : ℕ) : ℤ) ≠ -1 := by omega
  refine hnext { s with size := dir.mark s.remain } b' rfl hpos ⟨hremain, fun h => absurd h hmark,
    fun _ => ?_⟩ hmark
  rw [hoff]
  exact hmoved

lemma largeMem_carries {d : ℕ} (rom : AmlUsbRomRW) (hn : 0 < n) (hlen : rom.bufferLen = n)
    (seqNum : ℕ) (hstart : Start rom.buffer b) :
    Ensures (serve hd path) b (largeMem dir ⟨.dev d, some hd, amEpIn, amEpOut⟩ seqNum rom)
      fun r b' => r.1 = 0 ∧ r.2.1.device = rom.device ∧ r.2.1.address = rom.address ∧
        r.2.1.dataSize = n ∧ Moved n r.2.1.buffer b' := by
  unfold largeMem
  rw [hlen]
  have hround : Ensures (serve hd path) b (largeRound dir n (0, ⟨0, 0, -1, 0, seqNum, rom.buffer⟩))
      fun l b' => ∃ s, l = .done s ∧ s.offset = n ∧ Moved n s.buffer b' := by
    unfold largeRound
    rw [if_pos (Nat.zero_lt_succ 3)]
    refine ensures_bind.mpr ((ensures_iterate (I := Carrying n Start Moved) (μ := LargeMem.remain)
      (Q := fun (r : Bool × LargeMem) b' => r.1 = false ∧ r.2.remain = 0 ∧ r.2.offset = n ∧
        Moved n r.2.buffer b') ?_ ⟨Nat.zero_add n, fun _ => ⟨rfl, hstart⟩, fun h => absurd rfl h⟩
      (by dsimp only; omega)).mono ?_)
    · intro s b hI
      refine (largeTurn_carries ok hI hn).mono fun l b' hl => ?_
      cases l <;> exact hl
    · rintro ⟨toEnd, s⟩ b' ⟨-, hz, hoff, hmoved⟩
      dsimp only at hz hoff hmoved ⊢
      rw [if_pos (.inr hz), Prog.pure_eq_ret, ensures_ret]
      exact ⟨s, rfl, hoff, hmoved⟩
  rw [iterate]
  refine ensures_bind.mpr (ensures_bind.mpr (hround.mono ?_))
  rintro _ b' ⟨s, rfl, hoff, hmoved⟩
  rw [ensures_ret, closeUsbDevice_eq (dev_ne_null d), Prog.call_bind,
    ensures_call (serve_close hd path (ok.all _ _ hmoved)), Prog.ret_bind, Prog.pure_eq_ret,
      ensures_ret]
  exact ⟨if_pos hoff.symm, rfl, rfl, hoff, hmoved⟩

end Carries

/-! ### The two directions -/

lemma serve_start (doRead : Bool) {addr size : ℕ} (haddr : addr < 2 ^ 32) (hsize : size < 2 ^ 32)
    (hidle : b.idle) (cksum seqNum bulkSize : ℕ) (timeout : ℤ) :
    serve hd path b (.controlOut hd (largeSetup doRead size bulkSize)
        (le32 addr ++ le32 size ++ le32 cksum ++ le32 seqNum) timeout) =
      some (⟨none, Fin.last 16⟩, { b with transfer := some ⟨doRead, addr, size⟩ }) := by
  have h₀ : getU32 (le32 addr ++ le32 size ++ le32 cksum ++ le32 seqNum) 0 = addr :=
    (getU32_le32 addr).trans (Nat.mod_eq_of_lt haddr)
  have h₄ : getU32 (le32 addr ++ le32 size ++ le32 cksum ++ le32 seqNum) 4 = size :=
    (getU32_le32 size).trans (Nat.mod_eq_of_lt hsize)
  rw [serve, if_pos ⟨rfl, rfl⟩, h₀, h₄]
  cases doRead with
  | false =>
    have hreq : (largeSetup false size bulkSize).bRequest = amReqWrLargeMem := rfl
    rw [hreq, if_neg fun h => absurd h.1 (by decide), if_pos ⟨rfl, rfl, hidle⟩]
    rfl
  | true =>
    have hreq : (largeSetup true size bulkSize).bRequest = amReqRdLargeMem := rfl
    rw [hreq, if_neg fun h => absurd h.1 (by decide), if_neg fun h => absurd h.1 (by decide),
      if_pos ⟨rfl, rfl, hidle⟩]
    rfl

lemma rwLargeMemCmd_starts (hd : Handle) (path : Bytes) (hidle : b.idle) (d : ℕ)
    {addr size bulkSize : ℕ} (haddr : addr < 2 ^ 32) (hsize : size < 2 ^ 32) (cksum seqNum : ℕ)
    (h₀ : 0 < bulkSize) (h₁ : bulkSize ≤ 4096) (doRead : Bool) :
    Ensures (serve hd path) b
      (rwLargeMemCmd ⟨.dev d, some hd, amEpIn, amEpOut⟩ addr size bulkSize cksum seqNum doRead)
      fun ret b' => ret ≠ 0 ∧ b' = { b with transfer := some ⟨doRead, addr, size⟩ } := by
  rw [rwLargeMemCmd_eq (dev_ne_invalid d) hd _ _ _ _ _ _ h₀ h₁ doRead]
  refine (ensures_call (serve_start doRead haddr hsize hidle cksum seqNum bulkSize 50000)).mpr
    (ensures_ret.mpr ?_)
  exact ⟨one_ne_zero, rfl⟩

/-- A bulk transfer inside the announced size is completed. -/
lemma writeBulkUsb_stores {d addr left len : ℕ} (hb : b.transfer = some ⟨false, addr, left⟩)
    (hlen : len ≤ left) {buf : Bytes} (hbuf : len ≤ buf.length) :
    Ensures (serve hd path) b (writeBulkUsb ⟨.dev d, some hd, amEpIn, amEpOut⟩ buf len) fun r b' =>
      r = len ∧ b' = { b with
        mem := store b.mem addr (buf.take len)
        transfer := some ⟨false, addr + len, left - len⟩ } := by
  have hserve : serve hd path b (.bulkOut hd amEpOut (buf.take len) len 50000) =
      some (⟨none, Fin.last len⟩, { b with
        mem := store b.mem addr (buf.take len)
        transfer := some ⟨false, addr + len, left - len⟩ }) := by
    simp only [serve, hb]
    rw [if_pos ⟨trivial, trivial, hlen, List.length_take_of_le hbuf⟩]
  rw [writeBulkUsb_eq (dev_ne_invalid d)]
  refine (ensures_call hserve).mpr (ensures_ret.mpr ⟨?_, rfl⟩)
  have hio : usbBulkIo none (Fin.last len : ℕ) = len := rfl
  dsimp only
  rw [hio, if_neg (by omega)]

lemma readBulkUsb_loads {d addr left len : ℕ} (hb : b.transfer = some ⟨true, addr, left⟩)
    (hlen : len ≤ left) (buf : Bytes) :
    Ensures (serve hd path) b (readBulkUsb ⟨.dev d, some hd, amEpIn, amEpOut⟩ buf len) fun r b' =>
      r = ((len : ℤ), blit buf 0 (load b.mem addr len)) ∧
        b' = { b with transfer := some ⟨true, addr + len, left - len⟩ } := by
  have hserve : serve hd path b (.bulkIn hd amEpIn len 30000) =
      some (⟨none, load b.mem addr len, (load_length _ _ _).le⟩,
        { b with transfer := some ⟨true, addr + len, left - len⟩ }) := by
    simp only [serve, hb]
    rw [if_pos ⟨trivial, trivial, hlen⟩]
  rw [readBulkUsb_eq (dev_ne_invalid d)]
  refine (ensures_call hserve).mpr (ensures_ret.mpr ⟨?_, rfl⟩)
  have hio : usbBulkIo none (load b.mem addr len).length = len := by
    rw [load_length]
    rfl
  dsimp only
  rw [hio, if_neg (by omega)]

/-- Writing up to 64 KiB through a large transfer stores them. -/
lemma writeLargeMem_stores (hd : Handle) (path : Bytes) (b : Board) (rom : AmlUsbRomRW) {d n : ℕ}
    (hdev : rom.device = .dev d) (hlen : rom.bufferLen = n) (h₀ : 0 < n) (h₁ : n ≤ 0x10000)
    (hbuf : n ≤ rom.buffer.length) (haddr : rom.address < 2 ^ 32) (seqNum : ℕ) :
    Ensures (serve hd path) b (amlUsbWriteLargeMem seqNum rom) fun r b' => r.1 = 0 ∧
      r.2.1.device = rom.device ∧ r.2.1.address = rom.address ∧
      ∃ tr, b' = { b with mem := store b.mem rom.address (rom.buffer.take n), transfer := tr } := by
  have hmin : min n 0x10000 = n := by omega
  have hcarries : Carries hd path (writeDir ⟨.dev d, some hd, amEpIn, amEpOut⟩ rom.address
      (Checksum.checksum rom.buffer (i32 rom.bufferLen))) n
      (fun buf b' => buf = rom.buffer ∧ b' = { b with transfer := none })
      (fun off buf b' => buf = rom.buffer ∧ b' = { b with
        mem := store b.mem rom.address (rom.buffer.take off)
        transfer := some ⟨false, rom.address + off, n - off⟩ }) := by
    refine ⟨by simp [writeDir], ?_, ?_, ?_⟩
    · rintro buf b' seqNum ⟨rfl, rfl⟩
      dsimp only [writeDir, writeLargeMemCmd]
      rw [hmin]
      refine (rwLargeMemCmd_starts hd path rfl d haddr (by omega) _ _ (by omega) (by omega)
        false).mono ?_
      rintro ret _ ⟨hret, rfl⟩
      refine ⟨hret, rfl, ?_⟩
      rw [List.take_zero, store_nil]
      rfl
    · rintro off len buf _ ⟨rfl, rfl⟩ hoff
      dsimp only [writeDir]
      refine ensures_bind.mpr ((writeBulkUsb_stores rfl (by omega)
        (by rw [List.length_drop]; omega)).mono ?_)
      rintro _ _ ⟨rfl, rfl⟩
      rw [Prog.pure_eq_ret, ensures_ret]
      refine ⟨rfl, rfl, ?_⟩
      have hstore : store (store b.mem rom.address (rom.buffer.take off)) (rom.address + off)
          ((rom.buffer.drop off).take len) =
            store b.mem rom.address (rom.buffer.take (off + len)) := by
        rw [store_store _ _ _ _ (by rw [List.length_take]; omega), List.take_add]
      dsimp only
      rw [hstore, Nat.add_assoc, Nat.sub_sub]
    · rintro _ _ ⟨-, rfl⟩
      simp [Board.idle]
  unfold amlUsbWriteLargeMem
  rw [hdev, openUsbDevice_eq (dev_ne_null d)]
  refine (ensures_call rfl).mpr ?_
  refine (largeMem_carries hcarries rom h₀ hlen seqNum ⟨rfl, rfl⟩).mono ?_
  rintro r b' ⟨hret, hdev', haddr', -, -, rfl⟩
  exact ⟨hret, hdev'.trans hdev, haddr', _, rfl⟩

/-- Reading up to 64 KiB through a large transfer gets the memory. -/
lemma readLargeMem_loads (hd : Handle) (path : Bytes) (b : Board) (rom : AmlUsbRomRW) {d n : ℕ}
    (hdev : rom.device = .dev d) (hlen : rom.bufferLen = n) (h₀ : 0 < n) (h₁ : n ≤ 0x10000)
    (haddr : rom.address < 2 ^ 32) (seqNum : ℕ) :
    Ensures (serve hd path) b (amlUsbReadLargeMem seqNum rom) fun r b' => r.1 = 0 ∧
      r.2.1.device = rom.device ∧ r.2.1.address = rom.address ∧ r.2.1.dataSize = n ∧
      r.2.1.buffer = load b.mem rom.address n ++ rom.buffer.drop n ∧
      ∃ tr, b' = { b with transfer := tr } := by
  have hcarries : Carries hd path (readDir ⟨.dev d, some hd, amEpIn, amEpOut⟩
    rom.address rom.bufferLen 0)
      n (fun buf b' => buf = rom.buffer ∧ b' = { b with transfer := none })
      (fun off buf b' => buf = load b.mem rom.address off ++ rom.buffer.drop off ∧
        b' = { b with transfer := some ⟨true, rom.address + off, n - off⟩ }) := by
    refine ⟨by simp [readDir], ?_, ?_, ?_⟩
    · rintro buf b' seqNum ⟨rfl, rfl⟩
      dsimp only [readDir, readLargeMemCmd]
      have hblock : 0 < (if 0x1000 ≤ min n 0x10000 then 0x1000 else min (min n 0x10000) 0x200) ∧
          (if 0x1000 ≤ min n 0x10000 then 0x1000 else min (min n 0x10000) 0x200) ≤ 4096 := by
        split_ifs <;> omega
      rw [hlen]
      refine (rwLargeMemCmd_starts hd path rfl d haddr
        (by omega) _ _ hblock.1 hblock.2 true).mono ?_
      rintro ret _ ⟨hret, rfl⟩
      exact ⟨hret, rfl, rfl⟩
    · rintro off len _ _ ⟨rfl, rfl⟩ hoff
      dsimp only [readDir]
      have hload : (load b.mem rom.address off).length = off := load_length _ _ _
      rw [List.take_left' hload, List.drop_left' hload]
      refine ensures_bind.mpr ((readBulkUsb_loads rfl (by omega) _).mono ?_)
      rintro _ _ ⟨rfl, rfl⟩
      rw [Prog.pure_eq_ret, ensures_ret]
      refine ⟨rfl, ?_, ?_⟩
      · dsimp only
        rw [blit_zero, load_length, List.drop_drop, ← List.append_assoc, load_append]
      · rw [Nat.add_assoc, Nat.sub_sub]
    · rintro _ _ ⟨-, rfl⟩
      simp [Board.idle]
  unfold amlUsbReadLargeMem
  rw [hdev, openUsbDevice_eq (dev_ne_null d)]
  refine (ensures_call rfl).mpr ?_
  refine (largeMem_carries hcarries rom h₀ hlen (seqNum + 1) ⟨rfl, rfl⟩).mono ?_
  rintro r b' ⟨hret, hdev', haddr', hsize, hbuf', rfl⟩
  exact ⟨hret, hdev'.trans hdev, haddr', hsize, hbuf', _, rfl⟩

end AmlogicUpdate.MemDevice

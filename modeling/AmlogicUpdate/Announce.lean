import AmlogicUpdate.LargeMem
import AmlogicUpdate.Media

/-!
What the start commands of `AmlUsbWriteLargeMem`, `AmlUsbReadLargeMem` and `AmlWriteMedia`
announce, compared with what goes over the bulk endpoints.

The size a header carries, the length of the loop behind it and the number of blocks follow
three rules of their own; they agree up to a length that each routine has for itself.
-/

namespace AmlogicUpdate.Announce

open Interaction CData Usb AmlLibusb UsbRomDrv Wire Checksum LargeMem Media

/-! ### Start commands -/

/-- The setup packet and the data of a control transfer to the device. -/
def packet : Op → Option (Setup × Bytes)
  | .controlOut _ s data _ => some (s, data)
  | _ => none

/-- An accepted start command with the request number `req`. -/
def startOf (req : ℕ) (e : Event) : Option (Setup × Bytes) :=
  if requestAccepted req e then packet e.1 else none

def startCommands (req : ℕ) (t : Trace) : List (Setup × Bytes) := t.filterMap (startOf req)

/-- The data size a header carries. -/
def headerSize (c : Setup × Bytes) : ℕ := getU32 c.2 4

/-- All the sizes announced in a trace. -/
def announced (req : ℕ) (t : Trace) : ℕ := ((startCommands req t).map headerSize).sum

/-- The wire values name blocks of at most 4096 bytes, as many as the size needs. -/
def Blocks (c : Setup × Bytes) : Prop :=
  1 ≤ c.1.wValue ∧ c.1.wValue ≤ 4096 ∧ ((c.1.wIndex : ℤ) - 1) * c.1.wValue < headerSize c ∧
    headerSize c ≤ c.1.wIndex * c.1.wValue

@[simp] lemma startCommands_snoc (req : ℕ) (t : Trace) (e : Event) :
    startCommands req (t ++ [e]) = startCommands req t ++ (startOf req e).toList := by
  cases h : startOf req e <;> simp [startCommands, List.filterMap_append, h]

lemma startOf_isSome (req : ℕ) (e : Event) : (startOf req e).isSome = requestAccepted req e := by
  obtain ⟨o, r⟩ := e
  unfold startOf
  cases h : requestAccepted req ⟨o, r⟩ with
  | false => rfl
  | true => cases o <;> first | rfl | cases h

lemma startCommands_length (req : ℕ) (t : Trace) : (startCommands req t).length = starts req t := by
  rw [startCommands, List.length_filterMap_eq_countP, starts]
  congr 1
  funext e
  exact startOf_isSome req e

lemma isRequest_of_accepted {req : ℕ} {e : Event} (h : requestAccepted req e) :
    isRequest req e.1 := by
  obtain ⟨o, r⟩ := e
  cases o <;> simp_all [requestAccepted, isRequest]

/-- The start commands of a run are among those it may make. -/
lemma startCommands_of_run {α : Type} {req : ℕ} {opening : Op → Prop} {p : Program α} {t : Trace}
    {a : α} (hp : ∀ t o, Issues p t o → isRequest req o → opening o) (hr : Runs p t a)
    {c : Setup × Bytes} (hc : c ∈ startCommands req t) :
    ∃ o, opening o ∧ packet o = some c := by
  obtain ⟨e, he, hs⟩ := List.mem_filterMap.mp hc
  obtain ⟨t₁, t₂, rfl⟩ := List.append_of_mem he
  unfold startOf at hs
  split_ifs at hs with hacc
  exact ⟨e.1, hp t₁ e.1 hr.issues (isRequest_of_accepted hacc), hs⟩

/-! ### What a run announces -/

inductive Routine
  | write
  | read
  | media
  deriving DecidableEq

namespace Routine

def req : Routine → ℕ
  | write => amReqWrLargeMem
  | read => amReqRdLargeMem
  | media => amReqWriteMedia

/-- The bytes a bulk transfer carries: to the host for `read`, else to the device. -/
def moved : Routine → Event → Bytes
  | write => accepted
  | read => delivered
  | media => accepted

/-- The result of the routine alone. -/
def run (turns seqNum : ℕ) (rom : AmlUsbRomRW) : Routine → Program ℤ
  | write => amlUsbWriteLargeMem seqNum rom >>= fun r => .ret r.1
  | read => amlUsbReadLargeMem seqNum rom >>= fun r => .ret r.1
  | media => amlWriteMedia turns rom

/-- A start command fits the bytes carried: the checksum, when the header has one, is that of
the bytes announced, and the wire values of a large transfer cover them. -/
def Describes (bytes : Bytes) (c : Setup × Bytes) : Routine → Prop
  | write =>
    getU32 c.2 8 = checksum (bytes.take (headerSize c)) (headerSize c) ∧ Blocks c
  | read => Blocks c
  | media => getU32 c.2 12 = checksum64K (bytes.take (headerSize c)) (headerSize c)

/-- The lengths for which the routine announces what it moves. A block that is refused is
announced once more. -/
def Fits (bufferLen : ℕ) (t : Trace) : Routine → Prop
  | write => bufferLen ≤ 0x10000
  | read => bufferLen ≤ 65535 * 4096
  | media => bufferLen ≤ 0x10000 ∧ ¬ Refused t

end Routine

/-- The start commands announce exactly what is moved. -/
structure Announced (c : Routine) (bufferLen : ℕ) (t : Trace) : Prop where
  carried : announced c.req t = (movedBy c.moved t).length
  whole : announced c.req t = bufferLen
  described : ∀ s ∈ startCommands c.req t, c.Describes (movedBy c.moved t) s

/-! ### Large transfers -/

/-- As many blocks as fit in 16 bits cover the length exactly when it needs no more. -/
lemma blockCnt_covers {len bulk : ℕ} (hlen : 0 < len) (h₀ : 0 < bulk) (h₁ : bulk ≤ 4096) :
    ((blockCnt len bulk : ℤ) - 1) * bulk < len ∧ len ≤ blockCnt len bulk * bulk ↔
      len ≤ 65535 * bulk := by
  have hlt : blockCnt len bulk < 65536 := Nat.mod_lt _ (by norm_num)
  constructor
  · rintro ⟨-, h⟩
    exact h.trans (Nat.mul_le_mul_right bulk (Nat.le_of_lt_succ hlt))
  · intro hle
    have hu : u32 ((len : ℤ) + bulk - 1) = len + bulk - 1 := by unfold u32; omega
    have hq : (len + bulk - 1) / bulk < 2 ^ 16 := (Nat.div_lt_iff_lt_mul h₀).mpr (by omega)
    have hcnt : blockCnt len bulk = (len + bulk - 1) / bulk := by
      rw [blockCnt, hu, Nat.mod_eq_of_lt hq]
    have hdiv := Nat.div_add_mod (len + bulk - 1) bulk
    have hmod := Nat.mod_lt (len + bulk - 1) h₀
    rw [hcnt]
    generalize (len + bulk - 1) / bulk = q at hdiv ⊢
    have hprod : ((q : ℤ) - 1) * bulk = (bulk * q : ℕ) - bulk := by push_cast; ring
    have hprod' : q * bulk = bulk * q := Nat.mul_comm q bulk
    rw [hprod, hprod']
    omega

/-- The start command of a large transfer. -/
def largeStart (doRead : Bool) (address size cksum bulkSize seqNum : ℕ) : Setup × Bytes :=
  (largeSetup doRead size bulkSize, le32 address ++ le32 size ++ le32 cksum ++ le32 seqNum)

lemma largeStart_size (doRead : Bool) (address : ℕ) {size : ℕ} (hsize : size < 2 ^ 32)
    (cksum bulkSize seqNum : ℕ) :
    headerSize (largeStart doRead address size cksum bulkSize seqNum) = size :=
  (getU32_le32 size).trans (Nat.mod_eq_of_lt hsize)

lemma largeStart_cksum (doRead : Bool) (address size : ℕ) {cksum : ℕ} (hc : cksum < 2 ^ 32)
    (bulkSize seqNum : ℕ) :
    getU32 (largeStart doRead address size cksum bulkSize seqNum).2 8 = cksum :=
  (getU32_le32 cksum).trans (Nat.mod_eq_of_lt hc)

lemma largeStart_blocks (doRead : Bool) (address : ℕ) {size : ℕ} (hpos : 0 < size)
    (hsize : size < 2 ^ 32) (cksum : ℕ) {bulkSize : ℕ} (h₀ : 0 < bulkSize) (h₁ : bulkSize ≤ 4096)
    (seqNum : ℕ) :
    Blocks (largeStart doRead address size cksum bulkSize seqNum) ↔ size ≤ 65535 * bulkSize := by
  rw [← blockCnt_covers hpos h₀ h₁, Blocks, largeStart_size _ _ hsize]
  simp only [largeStart, largeSetup, Nat.mod_eq_of_lt hsize]
  exact ⟨fun h => h.2.2, fun h => ⟨h₀, h₁, h⟩⟩

/-- A large transfer that returns 0 has made one start command and moved the whole length. -/
lemma large_run {c : Routine} {doRead : Bool} {keeps : Bytes → Prop} {payload : ℕ → Op → Prop}
    {dir : AmlUsbDrv → LargeDir} {rom : AmlUsbRomRW} {size cksum bulkSize seqNum : ℕ}
    {t : Trace} {rom' : AmlUsbRomRW} {seqNum' : ℕ}
    (hr : Runs (routine dir seqNum rom) t (0, rom', seqNum'))
    (ok : ∀ handle, DirOk c.req c.moved keeps rom.bufferLen
      (Opening doRead rom.address size cksum bulkSize) payload
      (dir ⟨rom.device, handle, amEpIn, amEpOut⟩))
    (hdev : rom.device ≠ .null) (hmoved : ∀ o r, ¬ isBulk o → c.moved ⟨o, r⟩ = [])
    (hkeeps : keeps rom.buffer) (h₀ : 0 < rom.bufferLen) :
    keeps rom'.buffer ∧ movedBy c.moved t = rom'.buffer.take rom.bufferLen ∧
      ∃ seq, startCommands c.req t = [largeStart doRead rom.address size cksum bulkSize seq] := by
  have hsat := routine_sat ok hdev hmoved hkeeps seqNum
  obtain ⟨hk, hm, -, hret, hst, -⟩ := hsat.runs hr
  have hsize : rom'.dataSize = rom.bufferLen := hret.mp rfl
  have hlen : (startCommands c.req t).length = 1 := by
    rw [startCommands_length]
    exact hst.resolve_left (by dsimp only; omega)
  obtain ⟨s, hs⟩ := List.length_eq_one_iff.mp hlen
  refine ⟨hk, by rw [← hsize]; exact hm, ?_⟩
  obtain ⟨o, ⟨hd, seq, rfl⟩, hp⟩ := startCommands_of_run
    (fun t o hi ho => ((hsat.issues hi).2 ho).2.2) hr (hs ▸ List.mem_singleton_self s)
  obtain rfl := Option.some.inj hp
  exact ⟨seq, hs⟩

/-- One start command with its size, and the bytes moved. -/
lemma announced_one {c : Routine} {bufferLen : ℕ} {t : Trace} {s : Setup × Bytes}
    (hs : startCommands c.req t = [s]) :
    Announced c bufferLen t ↔ headerSize s = (movedBy c.moved t).length ∧
      headerSize s = bufferLen ∧ c.Describes (movedBy c.moved t) s := by
  have hsum : announced c.req t = headerSize s := by simp [announced, hs]
  constructor
  · rintro ⟨h, h', hd⟩
    rw [hsum] at h h'
    exact ⟨h, h', hd s (by rw [hs]; exact List.mem_singleton_self s)⟩
  · rintro ⟨h, h', hd⟩
    refine ⟨hsum.trans h, hsum.trans h', fun s' hs' => ?_⟩
    rw [hs, List.mem_singleton] at hs'
    rwa [hs']

section Large

variable {rom : AmlUsbRomRW} (h₀ : 0 < rom.bufferLen) (h₃₂ : rom.bufferLen < 2 ^ 32)
  (hlen : rom.bufferLen ≤ rom.buffer.length) (hdev : rom.device ≠ .null) {seqNum : ℕ}
  {t : Trace}
include h₀ h₃₂ hlen hdev

lemma announced_write {rom' : AmlUsbRomRW} {seqNum' : ℕ}
    (hr : Runs (amlUsbWriteLargeMem seqNum rom) t (0, rom', seqNum')) :
    Announced .write rom.bufferLen t ↔ rom.bufferLen ≤ 0x10000 := by
  rw [amlUsbWriteLargeMem_eq hdev] at hr
  obtain ⟨hk, hm, seq, hs⟩ := large_run (c := .write) hr
    (fun _ => writeDir_ok rfl hlen) hdev accepted_other rfl h₀
  rw [hk] at hm
  have hsize := largeStart_size false rom.address
    (show min rom.bufferLen 0x10000 < 2 ^ 32 by omega) (checksum rom.buffer (i32 rom.bufferLen))
    (min rom.bufferLen 0x1000) seq
  have hmoved : (movedBy Routine.write.moved t).length = rom.bufferLen := by
    rw [hm, List.length_take]; omega
  rw [announced_one hs, hsize, hmoved]
  constructor
  · rintro ⟨h, -⟩
    omega
  · intro hle
    have hmin : min rom.bufferLen 0x10000 = rom.bufferLen := by omega
    have hcksum := checksum_lt rom.buffer (i32 rom.bufferLen)
    refine ⟨hmin, hmin, ?_, ?_⟩
    · rw [hsize, largeStart_cksum _ _ _ (by omega), hmin, hm, List.take_take, Nat.min_self,
        i32_of_lt (by omega), checksum_take]
    · rw [largeStart_blocks _ _ (by omega) (by omega) _ (by omega) (by omega)]
      omega

lemma announced_read {rom' : AmlUsbRomRW} {seqNum' : ℕ}
    (hr : Runs (amlUsbReadLargeMem seqNum rom) t (0, rom', seqNum')) :
    Announced .read rom.bufferLen t ↔ rom.bufferLen ≤ 65535 * 4096 := by
  rw [amlUsbReadLargeMem_eq hdev] at hr
  obtain ⟨hk, hm, seq, hs⟩ := large_run (c := .read) hr
    (fun _ => readDir_ok rfl hlen) hdev delivered_other rfl h₀
  have hsize := largeStart_size true rom.address h₃₂ 0 (readBlock rom.bufferLen) seq
  have hmoved : (movedBy Routine.read.moved t).length = rom.bufferLen := by
    rw [hm, List.length_take]; omega
  rw [announced_one hs, hsize, hmoved, Routine.Describes,
    largeStart_blocks _ _ h₀ h₃₂ _ (readBlock_pos h₀) (readBlock_le _)]
  have hblock : rom.bufferLen ≤ 65535 * readBlock rom.bufferLen ↔
      rom.bufferLen ≤ 65535 * 4096 := by
    unfold readBlock
    split_ifs <;> omega
  rw [hblock]
  exact ⟨fun h => h.2.2, fun h => ⟨rfl, rfl, h⟩⟩

end Large

/-! ### Media blocks -/

/-- After `n` attempts: as many headers, each followed by the same payload. -/
structure Sent (rom : AmlUsbRomRW) (n : ℕ) (h : Trace) : Prop where
  headers : startCommands amReqWriteMedia h =
    (List.range n).map fun a => (mediaSetup, attemptHeader rom a)
  payloads : movedBy accepted h = (List.replicate n (attemptPayload rom)).flatten

/-- After a turn that began with `a` attempts made. -/
def AfterSent (rom : AmlUsbRomRW) (a : ℕ) (h : Trace) (l : Loop (ℕ × ℤ) ℤ) : Prop :=
  l.Sat (fun s' h' => s'.1 = a + 1 ∧ Sent rom (a + 1) h')
    (fun h' ret => ret = 0 → Sent rom (a + 1) h') h

section Media

variable {rom : AmlUsbRomRW} {h : Trace}

lemma Sent.silent {n : ℕ} (hS : Sent rom n h) {e : Event} (hs : startOf amReqWriteMedia e = none)
    (ha : accepted e = []) : Sent rom n (h ++ [e]) := by
  obtain ⟨h₁, h₂⟩ := hS
  refine ⟨?_, ?_⟩
  · rw [startCommands_snoc, hs, h₁]; simp
  · rw [movedBy_snoc, ha, h₂, List.append_nil]

/-- Polling and the clock send nothing. -/
lemma mediaPolls_calls {dev : Device} (hdev : dev ≠ .invalid) (hd : Handle) (start : ℤ)
    (turns : ℕ) (s : MediaPoll) :
    Calls (fun o => packet o = none ∧ ∀ r, accepted ⟨o, r⟩ = [])
      (iterate (mediaPollTurn ⟨dev, some hd, amEpIn, amEpOut⟩ start) turns s) := by
  refine calls_iterate (fun s => ?_) turns s
  unfold mediaPollTurn
  split_ifs
  · refine calls_bind ?_ fun r => ?_
    · rw [usbReadFile_eq hdev]
      exact ⟨⟨rfl, fun _ => rfl⟩, fun r => trivial⟩
    · dsimp only
      split_ifs
      · trivial
      · trivial
      · trivial
      · exact ⟨⟨rfl, fun _ => rfl⟩, fun _ => trivial⟩
  · trivial

lemma mediaPolls_sent {dev : Device} (hdev : dev ≠ .invalid) (hd : Handle) (start : ℤ)
    (turns : ℕ) (s : MediaPoll) {n : ℕ} (hS : Sent rom n h) :
    Sat (fun _ _ => True) (fun h' _ => Sent rom n h') h
      (iterate (mediaPollTurn ⟨dev, some hd, amEpIn, amEpOut⟩ start) turns s) := by
  have hkeeps := (mediaPolls_calls hdev hd start turns s).keeps
    (fun h => (startCommands amReqWriteMedia h, movedBy accepted h))
    (fun h o r ho => by
      have hs : startOf amReqWriteMedia ⟨o, r⟩ = none := by
        unfold startOf; split_ifs <;> simp [ho.1]
      rw [startCommands_snoc, movedBy_snoc, hs, ho.2 r]; simp) h
  refine (hkeeps.weaken fun _ _ _ => trivial).mono fun h' _ he => ?_
  obtain ⟨h₁, h₂⟩ := Prod.mk.inj he
  exact ⟨h₁.trans hS.headers, h₂.trans hS.payloads⟩

lemma writeMediaData_sent {dev : Device} (hdev : dev ≠ .invalid) (hd : Handle) (turns : ℕ) {a : ℕ}
    (hs : startCommands amReqWriteMedia h =
      (List.range (a + 1)).map fun a => (mediaSetup, attemptHeader rom a))
    (hm : movedBy accepted h = (List.replicate a (attemptPayload rom)).flatten) :
    Sat (fun _ _ => True) (AfterSent rom a) h
      (writeMediaData ⟨dev, some hd, amEpIn, amEpOut⟩ rom turns a) := by
  unfold writeMediaData
  refine keeps_bind.mpr ?_
  rw [usbWriteFile_eq hdev]
  refine ⟨trivial, fun r => ?_⟩
  simp only [keeps_ret]
  generalize hpay : (⟨.bulkOut hd amEpOut (rom.buffer.take (min rom.bufferLen 0x10000))
    (min rom.bufferLen 0x10000) 50000, r⟩ : Event) = e
  have hstart : startOf amReqWriteMedia e = none := by subst hpay; rfl
  have hacc : accepted e = (attemptPayload rom).take (usbBulkIo r.status r.actual).toNat := by
    subst hpay; rfl
  by_cases hfail : usbBulkIo r.status r.actual < 0
  · simp only [if_pos hfail, if_true]
    exact fun h => absurd h (by decide)
  simp only [if_neg hfail, one_ne_zero, if_false]
  by_cases hshort : min rom.bufferLen 0x10000 = (usbBulkIo r.status r.actual).toNat
  swap
  · rw [if_pos hshort]
    exact fun h => absurd h (by decide)
  rw [if_neg (not_not.mpr hshort), getTickCount, timeGetTime, Prog.call_bind]
  refine ⟨trivial, fun c : ℤ => ?_⟩
  simp only [Prog.ret_bind]
  have hwhole : accepted e = attemptPayload rom := by
    rw [hacc, ← hshort, attemptPayload, List.take_take, Nat.min_self]
  have hS : Sent rom (a + 1) (h ++ [e]) := by
    refine ⟨?_, ?_⟩
    · rw [startCommands_snoc, hstart, hs]; simp
    · rw [movedBy_snoc, hwhole, hm, List.replicate_succ', List.flatten_concat]
  refine keeps_bind.mpr ((mediaPolls_sent hdev hd c turns _ (hS.silent (e := ⟨.clock, c⟩) rfl
    rfl)).mono fun h' p hp => ?_)
  rw [Prog.pure_eq_ret, keeps_ret, mediaVerdict]
  split_ifs
  · exact ⟨rfl, hp⟩
  · exact fun _ => hp
  · exact fun _ => hp

lemma writeMediaTurn_sent (dev : Device) (handle : Option Handle) (turns : ℕ) {s : ℕ × ℤ}
    (hS : Sent rom s.1 h) (hs : 3 ≤ s.1 → s.2 ≠ 0) :
    Sat (fun _ _ => True) (AfterSent rom s.1) h
      (writeMediaTurn ⟨dev, handle, amEpIn, amEpOut⟩ rom
        (checksum64K rom.buffer (i32 rom.bufferLen)) turns s) := by
  unfold writeMediaTurn
  by_cases h₂ : s.1 ≤ 2
  · rw [if_pos h₂]
    refine keeps_bind.mpr ?_
    by_cases hdev : dev = .invalid
    · rw [hdev, writeMediaCmd_invalid]
      exact nofun
    cases handle with
    | none =>
      rw [writeMediaCmd_none hdev]
      exact keeps_segfault.mpr trivial
    | some hd =>
      rw [writeMediaCmd_eq hdev]
      refine ⟨trivial, fun r => ?_⟩
      generalize hhead : (⟨.controlOut hd mediaSetup (mediaHeader s.1 rom.bufferLen
        (16 * rom.address % 2 ^ 32) (checksum64K rom.buffer (i32 rom.bufferLen))) 5000, r⟩ :
          Event) = e
      have hacc : accepted e = [] := by subst hhead; rfl
      cases hst : r.status with
      | some err =>
        simp only [keeps_ret, hst, Option.isSome_some, if_true]
        exact nofun
      | none =>
        simp only [keeps_ret, hst, Option.isSome_none, Bool.false_eq_true, if_false, one_ne_zero]
        have hstart : startOf amReqWriteMedia e = some (mediaSetup, attemptHeader rom s.1) := by
          subst hhead
          simp [startOf, requestAccepted, mediaSetup, packet, hst, attemptHeader]
        refine writeMediaData_sent hdev hd turns ?_ ?_
        · rw [startCommands_snoc, hstart, hS.headers, List.range_succ, List.map_append]; rfl
        · rw [movedBy_snoc, hacc, hS.payloads, List.append_nil]
  · rw [if_neg h₂]
    exact fun hz => absurd hz (hs (by omega))

/-- What a run of `AmlWriteMedia` has sent: a second attempt only after a refusal. -/
def Ended (rom : AmlUsbRomRW) (h : Trace) (ret : ℤ) : Prop :=
  ret = 0 → ∃ n, 0 < n ∧ Sent rom n h ∧ (Refused h ↔ n ≠ 1)

lemma writeMediaTurns_ended (dev : Device) (handle : Option Handle) (turns : ℕ)
    (hT : Trying False 0 (0, 0) h) (hS : Sent rom 0 h) :
    Sat (fun _ _ => True) (Ended rom) h (iterate (writeMediaTurn ⟨dev, handle, amEpIn, amEpOut⟩ rom
      (checksum64K rom.buffer (i32 rom.bufferLen)) turns) 4 (0, 0)) := by
  have ok : Sends (fun _ => True) (fun _ _ => True) turns 0 rom :=
    ⟨fun _ _ _ _ _ _ _ => trivial, fun _ _ _ _ => trivial, fun _ _ _ => trivial,
      fun _ _ _ => trivial, fun _ _ _ => trivial⟩
  refine sat_iterate (I := fun s h => Trying False 0 s h ∧ Sent rom s.1 h) ?_ ⟨hT, hS⟩
  rintro s h ⟨hT, hS⟩
  have hlast : 3 ≤ s.1 → s.2 ≠ 0 := fun hs => (hT.may.resolve_left (by omega)).2
  refine (((writeMediaTurn_keeps ok dev handle hT).and
    (writeMediaTurn_sent dev handle turns hS hlast)).and (keeps_grows _ h)).mono ?_
  rintro h' l ⟨⟨hl, hl'⟩, hp⟩
  cases l with
  | next s' =>
    obtain ⟨hT', hs'⟩ := hl
    exact ⟨hT', by rw [hs']; exact hl'.2⟩
  | done ret =>
    intro hz
    refine ⟨s.1 + 1, by omega, hl' hz, fun hr => ?_, fun hn => ?_⟩
    · have := (hl.2 hz hr).resolve_left id
      omega
    · exact (hT.may.resolve_left (by omega)).1.refused.mono hp

lemma amlWriteMedia_ended (turns : ℕ) (rom : AmlUsbRomRW) :
    Sat (fun _ _ => True) (Ended rom) [] (amlWriteMedia turns rom) := by
  unfold amlWriteMedia
  by_cases hdev : rom.device = .null
  · rw [hdev, openUsbDevice_null]
    exact nofun
  refine keeps_opened hdev (fun drv => iterate (writeMediaTurn drv rom
    (checksum64K rom.buffer (i32 rom.bufferLen)) turns) 4 (0, 0)) (fun _ => rfl) trivial
    fun handle => ?_
  have hcalm : ¬ Refused [⟨.libusbOpen rom.device, handle⟩] := by
    intro hr
    have hsnoc := refused_snoc (h := []) (e := ⟨.libusbOpen rom.device, handle⟩)
    rcases hsnoc.mp hr with ⟨h₀, hp, hm⟩ | hm
    · rw [List.prefix_nil.mp hp] at hm
      exact not_mayRetry_nil hm
    · exact not_mayRetry (h := []) rfl rfl hm
  have hT : Trying False 0 (0, 0) [⟨.libusbOpen rom.device, handle⟩] :=
    ⟨rfl, rfl, .inl rfl, Nat.zero_le _, fun hr => absurd hr hcalm⟩
  have hS : Sent rom 0 [⟨.libusbOpen rom.device, handle⟩] := ⟨rfl, rfl⟩
  refine (writeMediaTurns_ended _ _ turns hT hS).mono fun h' ret he => ?_
  refine ⟨fun _ => trivial, fun hd _ => ⟨trivial, fun hz => ?_⟩⟩
  obtain ⟨n, hn, hS, hr⟩ := he hz
  refine ⟨n, hn, hS.silent rfl rfl, ?_⟩
  rw [refused_snoc, or_iff_left (not_mayRetry rfl rfl), hr]

lemma announced_media {turns : ℕ} {t : Trace} (h₀ : 0 < rom.bufferLen)
    (h₃₂ : rom.bufferLen < 2 ^ 32) (hlen : rom.bufferLen ≤ rom.buffer.length)
    (hr : Runs (amlWriteMedia turns rom) t 0) :
    Announced .media rom.bufferLen t ↔ rom.bufferLen ≤ 0x10000 ∧ ¬ Refused t := by
  obtain ⟨n, hn, hS, href⟩ := (amlWriteMedia_ended turns rom).runs hr rfl
  rw [List.nil_append] at hS href
  have hsize : ∀ a, headerSize (mediaSetup, attemptHeader rom a) = rom.bufferLen := fun a =>
    (mediaHeader_words _ _ _ _).2.1.trans (Nat.mod_eq_of_lt h₃₂)
  have hsum : announced Routine.media.req t = n * rom.bufferLen := by
    rw [announced, show startCommands Routine.media.req t = _ from hS.headers, List.map_map]
    simp [Function.comp_def, hsize]
  have hmoved : (movedBy Routine.media.moved t).length = n * min rom.bufferLen 0x10000 := by
    rw [show movedBy Routine.media.moved t = _ from hS.payloads]
    have hpay : (attemptPayload rom).length = min rom.bufferLen 0x10000 := by
      rw [attemptPayload, List.length_take]; omega
    simp [hpay]
  rw [href, not_ne_iff]
  constructor
  · rintro ⟨h, h', -⟩
    rw [hsum, hmoved] at h
    rw [hsum] at h'
    have hmin := Nat.eq_of_mul_eq_mul_left hn h
    have hone : n * rom.bufferLen = 1 * rom.bufferLen := by rw [h', Nat.one_mul]
    exact ⟨by omega, Nat.eq_of_mul_eq_mul_right h₀ hone⟩
  · rintro ⟨hle, rfl⟩
    have hmin : min rom.bufferLen 0x10000 = rom.bufferLen := by omega
    have hs : startCommands Routine.media.req t = [(mediaSetup, attemptHeader rom 0)] :=
      hS.headers
    have hm : movedBy Routine.media.moved t = rom.buffer.take rom.bufferLen := by
      rw [show movedBy Routine.media.moved t = _ from hS.payloads, attemptPayload, hmin]
      simp
    rw [announced_one hs, hsize, hm]
    refine ⟨by rw [List.length_take]; omega, rfl, ?_⟩
    have hc := checksum64K_lt rom.buffer (i32 rom.bufferLen)
    have hword : getU32 (attemptHeader rom 0) 12 = checksum64K rom.buffer (i32 rom.bufferLen) :=
      (mediaHeader_words _ _ _ _).2.2.2.trans (Nat.mod_eq_of_lt hc)
    refine hword.trans ?_
    rw [hsize, List.take_take, Nat.min_self, i32_of_lt (by omega), checksum64K_take]

end Media

/-- **A routine announces exactly what it moves** in the runs with a length and answers that
fit it, and in no others. -/
theorem announced_iff (c : Routine) (turns seqNum : ℕ) (rom : AmlUsbRomRW)
    (h₀ : 0 < rom.bufferLen) (h₃₂ : rom.bufferLen < 2 ^ 32)
    (hlen : rom.bufferLen ≤ rom.buffer.length) {t : Trace}
    (hr : Runs (c.run turns seqNum rom) t 0) :
    Announced c rom.bufferLen t ↔ c.Fits rom.bufferLen t := by
  cases c with
  | write =>
    obtain ⟨⟨ret, rom', seqNum'⟩, t₁, t₂, rfl, hr, hret⟩ := runs_bind.mp hr
    obtain ⟨rfl, hz⟩ := runs_ret.mp hret
    obtain rfl : ret = 0 := hz.symm
    rw [List.append_nil]
    by_cases hdev : rom.device = .null
    · rw [amlUsbWriteLargeMem, hdev, openUsbDevice_null] at hr
      cases (runs_ret.mp hr).2
    exact announced_write h₀ h₃₂ hlen hdev hr
  | read =>
    obtain ⟨⟨ret, rom', seqNum'⟩, t₁, t₂, rfl, hr, hret⟩ := runs_bind.mp hr
    obtain ⟨rfl, hz⟩ := runs_ret.mp hret
    obtain rfl : ret = 0 := hz.symm
    rw [List.append_nil]
    by_cases hdev : rom.device = .null
    · rw [amlUsbReadLargeMem, hdev, openUsbDevice_null] at hr
      cases (runs_ret.mp hr).2
    exact announced_read h₀ h₃₂ hlen hdev hr
  | media => exact announced_media h₀ h₃₂ hlen hr

/-- A byte written to a device that takes it. -/
def byteTrace : Trace :=
  [⟨.libusbOpen (.dev 0), some 0⟩,
    ⟨.controlOut 0 (largeSetup false 1 1) (le32 0 ++ le32 1 ++ le32 0xFFF8 ++ le32 0) 50000,
      ⟨none, Fin.last 16⟩⟩,
    ⟨.bulkOut 0 amEpOut [7] 1 50000, ⟨none, Fin.last 1⟩⟩, ⟨.libusbClose 0, ()⟩]

theorem announced_iff_byte :
    Announced .write 1 byteTrace ↔ Routine.write.Fits 1 byteTrace :=
  announced_iff .write 0 0 ⟨.dev 0, 1, [7], 0, 0⟩ (by decide) (by decide) (by decide)
    (exec_recorded (fun _ o => match o with
      | .libusbOpen _ => some (some 0)
      | .controlOut _ s _ _ => some ⟨none, Fin.last s.wLength⟩
      | .bulkOut _ _ _ n _ => some ⟨none, Fin.last n⟩
      | .libusbClose _ => some ()
      | _ => none) rfl)

/-! ### A block over 64 KiB -/

/-- The transfer took place in full. -/
def Complete : Event → Prop
  | ⟨.controlOut _ s _ _, r⟩ =>
    have r : OutResult s.wLength := r
    r.status = none ∧ (r.actual : ℕ) = s.wLength
  | ⟨.bulkOut _ _ _ n _, r⟩ =>
    have r : OutResult n := r
    r.status = none ∧ (r.actual : ℕ) = n
  | ⟨.bulkIn _ _ n _, r⟩ =>
    have r : InResult n := r
    r.status = none ∧ r.data.1.length = n
  | _ => True

/-- The run in which the device takes everything and acknowledges the block at once. -/
def ackedTrace (n : ℕ) (rom : AmlUsbRomRW) : Trace :=
  [⟨.libusbOpen (.dev n), some 0⟩,
    ⟨.controlOut 0 mediaSetup (attemptHeader rom 0) 5000, ⟨none, Fin.last 32⟩⟩,
    ⟨.bulkOut 0 amEpOut (attemptPayload rom) (min rom.bufferLen 0x10000) 50000,
      ⟨none, Fin.last _⟩⟩,
    ⟨.clock, (0 : ℤ)⟩, ⟨.bulkIn 0 amEpIn 256 30000, ⟨none, okReply, okReply_length.le⟩⟩,
    ⟨.libusbClose 0, ()⟩]

lemma ackedTrace_complete (n : ℕ) (rom : AmlUsbRomRW) : ∀ e ∈ ackedTrace n rom, Complete e := by
  intro e he
  simp only [ackedTrace, List.mem_cons, List.not_mem_nil, or_false] at he
  rcases he with rfl | rfl | rfl | rfl | rfl | rfl
  · trivial
  · exact ⟨rfl, rfl⟩
  · exact ⟨rfl, rfl⟩
  · trivial
  · exact ⟨rfl, okReply_length⟩
  · trivial

section Acked

variable {n : ℕ} {rom : AmlUsbRomRW} (turns : ℕ)

lemma mediaPolls_acked (bytesReturned : ℕ) :
    Runs (iterate (mediaPollTurn ⟨.dev n, some 0, amEpIn, amEpOut⟩ 0) (turns + 1)
        ⟨0, 0, bytesReturned, List.replicate 0x200 0⟩)
      [⟨.bulkIn 0 amEpIn 256 30000, ⟨none, okReply, okReply_length.le⟩⟩]
      ⟨0, 0, 256, blit (List.replicate 0x200 0) 0 okReply⟩ := by
  have hok : strOk <+: okReply := List.prefix_append _ _
  have hbusy : strncmp (blit (List.replicate 0x200 0) 0 okReply) strBusy32 strBusy32.length ≠ 0 :=
    fun hb => not_ok_of_busy ((prefix_blit (by rw [okReply_length, strBusy32_length]; omega)).mp
      ((strncmp_busy _).mp hb)) hok
  have hread : Runs (usbReadFile ⟨.dev n, some 0, amEpIn, amEpOut⟩ (List.replicate 0x200 0) 256
      bytesReturned) [⟨.bulkIn 0 amEpIn 256 30000, ⟨none, okReply, okReply_length.le⟩⟩]
      (1, 256, blit (List.replicate 0x200 0) 0 okReply) := by
    have hlen : usbBulkIo none okReply.length = (256 : ℕ) := by rw [okReply_length]; rfl
    rw [usbReadFile_eq (dev_ne_invalid n)]
    refine runs_call.mpr ⟨_, [], rfl, ?_⟩
    dsimp only
    rw [hlen]
    exact .ret _
  refine runs_iterate_done ?_
  rw [mediaPollTurn, if_pos (by dsimp only; omega)]
  refine runs_bind.mpr ⟨_, _, [], (List.append_nil _).symm, hread, ?_⟩
  dsimp only
  rw [if_neg one_ne_zero, if_neg (by rw [strBusy32_length]; omega), if_pos hbusy]
  exact .ret _

lemma writeMediaData_acked :
    Runs (writeMediaData ⟨.dev n, some 0, amEpIn, amEpOut⟩ rom (turns + 1) 0)
      [⟨.bulkOut 0 amEpOut (attemptPayload rom) (min rom.bufferLen 0x10000) 50000,
          ⟨none, Fin.last _⟩⟩,
        ⟨.clock, (0 : ℤ)⟩, ⟨.bulkIn 0 amEpIn 256 30000, ⟨none, okReply, okReply_length.le⟩⟩]
      (.done 0) := by
  have hwrite : Runs (usbWriteFile ⟨.dev n, some 0, amEpIn, amEpOut⟩ rom.buffer
      (min rom.bufferLen 0x10000) 0)
      [⟨.bulkOut 0 amEpOut (attemptPayload rom) (min rom.bufferLen 0x10000) 50000,
        ⟨none, Fin.last _⟩⟩] (1, min rom.bufferLen 0x10000) := by
    have hio : usbBulkIo none (Fin.last (min rom.bufferLen 0x10000) : ℕ) =
        (min rom.bufferLen 0x10000 : ℕ) := rfl
    rw [usbWriteFile_eq (dev_ne_invalid n)]
    refine runs_call.mpr ⟨_, [], rfl, ?_⟩
    dsimp only
    rw [hio, if_neg (by omega), Int.toNat_natCast]
    exact .ret _
  have hok : strOk <+: blit (List.replicate 0x200 0) 0 okReply :=
    (prefix_blit (by rw [okReply_length, strOk_length]; omega)).mpr (List.prefix_append _ _)
  refine runs_bind.mpr ⟨_, _, _, rfl, hwrite, ?_⟩
  dsimp only
  rw [if_neg one_ne_zero, if_neg (not_not.mpr rfl)]
  refine runs_bind.mpr ⟨(0 : ℤ), [⟨.clock, (0 : ℤ)⟩], _, rfl,
    runs_call.mpr ⟨(0 : ℤ), [], rfl, .ret _⟩, ?_⟩
  refine runs_bind.mpr ⟨_, _, [], (List.append_nil _).symm, mediaPolls_acked turns _, ?_⟩
  rw [mediaVerdict, if_pos rfl, if_neg (not_not.mpr ((strncmp_ok _).mpr hok))]
  exact .ret _

lemma ackedTrace_runs (hdev : rom.device = .dev n) :
    Runs (amlWriteMedia (turns + 1) rom) (ackedTrace n rom) 0 := by
  have hcmd : Runs (writeMediaCmd ⟨.dev n, some 0, amEpIn, amEpOut⟩ 0 rom.bufferLen
      (checksum64K rom.buffer (i32 rom.bufferLen)) (16 * rom.address % 2 ^ 32)
      (min rom.bufferLen 0x10000) 5000)
      [⟨.controlOut 0 mediaSetup (attemptHeader rom 0) 5000, ⟨none, Fin.last 32⟩⟩] 1 := by
    rw [writeMediaCmd_eq (dev_ne_invalid n)]
    exact runs_call.mpr ⟨_, [], rfl, .ret _⟩
  have hopen : Runs (openUsbDevice ⟨.dev n, none, 0, 0⟩) [⟨.libusbOpen (.dev n), some 0⟩]
      (1, ⟨.dev n, some 0, amEpIn, amEpOut⟩) := by
    rw [openUsbDevice_eq (dev_ne_null n)]
    exact runs_call.mpr ⟨some 0, [], rfl, .ret _⟩
  have hclose : Runs (closeUsbDevice ⟨.dev n, some 0, amEpIn, amEpOut⟩) [⟨.libusbClose 0, ()⟩]
      (1, ⟨.dev n, none, amEpIn, amEpOut⟩) := by
    rw [closeUsbDevice_eq (dev_ne_null n)]
    exact runs_call.mpr ⟨(), [], rfl, .ret _⟩
  rw [amlWriteMedia, hdev]
  refine runs_bind.mpr ⟨_, _, _, rfl, hopen, ?_⟩
  dsimp only
  rw [if_neg one_ne_zero]
  refine runs_bind.mpr ⟨0, (ackedTrace n rom).tail.dropLast, [⟨.libusbClose 0, ()⟩], rfl,
    runs_iterate_done ?_, ?_⟩
  · rw [writeMediaTurn, if_pos (by decide)]
    refine runs_bind.mpr ⟨_, _, _, rfl, hcmd, ?_⟩
    rw [if_neg one_ne_zero]
    exact writeMediaData_acked turns
  · exact runs_bind.mpr ⟨_, _, [], (List.append_nil _).symm, hclose, .ret _⟩

end Acked

/-- A request to write 65537 bytes in one block. -/
def longBlock : AmlUsbRomRW := ⟨.dev 0, 65537, List.replicate 65537 0, 0, 0⟩

/-- All of the block is announced, and 65536 of its bytes are sent. -/
theorem media_not_announced :
    longBlock.bufferLen = 65537 ∧ longBlock.buffer.length = 65537 ∧
      Runs (Routine.media.run 1 0 longBlock) (ackedTrace 0 longBlock) 0 ∧
      (∀ e ∈ ackedTrace 0 longBlock, Complete e) ∧
      ¬ Announced .media longBlock.bufferLen (ackedTrace 0 longBlock) := by
  have hlen : longBlock.buffer.length = 65537 := List.length_replicate
  have hbuf : longBlock.bufferLen = 65537 := rfl
  have hr : Runs (amlWriteMedia 1 longBlock) (ackedTrace 0 longBlock) 0 := ackedTrace_runs 0 rfl
  refine ⟨hbuf, hlen, hr, ackedTrace_complete 0 longBlock, fun ha => ?_⟩
  have hle := ((announced_media (by omega) (by omega) (by omega) hr).mp ha).1
  omega

end AmlogicUpdate.Announce

import AmlogicUpdate.Download
import AmlogicUpdate.Lockstep

/-!
The single download of `bl2_test` beside a round of the boot session.

The two are written separately: one counts the pieces in unsigned arithmetic and finds what
is left by subtracting an offset, the other counts in `int`s and decrements a copy of the
size. Time-outs apart they make the same calls, as long as the device asks for a download
that both compute without overflow.
-/

namespace AmlogicUpdate.Bl2Test

open Interaction CData Usb AmlLibusb Bl2 Wire Checksum Download

/-! ### Time-outs -/

/-- The same program with every time-out set to zero. -/
def untimed {α : Type} : Program α → Program α
  | .ret a => .ret a
  | .call (.controlOut h setup data _) k =>
    .call (.controlOut h setup data 0) fun r => untimed (k r)
  | .call (.controlIn h setup _) k => .call (.controlIn h setup 0) fun r => untimed (k r)
  | .call (.bulkOut h ep data n _) k => .call (.bulkOut h ep data n 0) fun r => untimed (k r)
  | .call (.bulkIn h ep n _) k => .call (.bulkIn h ep n 0) fun r => untimed (k r)
  | .call o k => .call o fun r => untimed (k r)
  | .stop => .stop

@[simp] lemma untimed_ret {α : Type} (a : α) : untimed (.ret a : Program α) = .ret a := by
  simp only [untimed]

lemma untimed_bind {α β : Type} (p : Program α) (f : α → Program β) :
    untimed (p >>= f) = untimed p >>= fun a => untimed (f a) := by
  induction p with
  | ret a => simp only [untimed, Prog.ret_bind]
  | call o k ih => cases o <;> simp only [untimed, Prog.call_bind, ih]
  | stop => simp only [untimed, Prog.stop_bind]

lemma untimed_ite {α : Type} (c : Prop) [Decidable c] (p q : Program α) :
    untimed (if c then p else q) = if c then untimed p else untimed q := apply_ite _ _ _ _

lemma untimed_iterate {σ β : Type} (body : σ → Program (Loop σ β)) (n : ℕ) (s : σ) :
    untimed (iterate body n s) = iterate (fun s => untimed (body s)) n s := by
  induction n generalizing s with
  | zero => simp only [iterate, untimed]
  | succ n ih =>
    rw [iterate, iterate, untimed_bind]
    congr 1; funext l
    cases l with
    | next s' => exact ih s'
    | done b => exact untimed_ret b

lemma untimed_segfault {α : Type} : untimed (segfault : Program α) = segfault := by
  simp only [segfault, untimed]
  congr 1; funext e; exact e.elim

lemma untimed_control (dev : Option Handle) (bRequest : ℕ) (wValue wIndex timeout : ℤ) :
    untimed (usbControlMsg dev vendorOut bRequest wValue wIndex [] 0 timeout) =
      usbControlMsg dev vendorOut bRequest wValue wIndex [] 0 0 := by
  cases dev with
  | none => exact untimed_segfault
  | some h =>
    rw [usbControlMsg_out h rfl rfl rfl rfl rfl, usbControlMsg_out h rfl rfl rfl rfl rfl]
    simp only [untimed]

lemma untimed_read (dev : Option Handle) (ep : ℕ) (bytes : Bytes) (size : ℕ) (timeout : ℤ) :
    untimed (usbBulkRead dev ep bytes size timeout) = usbBulkRead dev ep bytes size 0 := by
  cases dev with
  | none => exact untimed_segfault
  | some h => simp only [usbBulkRead, untimed]

/-! ### The requests both serve -/

/-- A request for a download with a checksum, of a size and at an offset that are computed
with in `int`s without overflow. -/
structure Eligible (cbw : Bytes) : Prop where
  type : getU8 cbw 17 = 0
  withCksum : getU8 cbw 16 % 2 = 0
  download : getU8 cbw 16 < 2 ^ 7
  dataSize : getU32 cbw 8 ≤ 0x7FFF0000
  offset : getU32 cbw 12 < 2 ^ 31

/-- If the event is the reading of a CBW, it is one of these. -/
def Asks (e : Event) : Prop :=
  ∀ cbw : Bytes, packetOf e = some (.reply 512 cbw) → cbw.length = 512 → Eligible cbw

/-- `Aml_Libusb_bl2_test` between opening the file and closing it. -/
def testRound (dev : Option Handle) (file : File) (buf : Bytes) (timeout : ℤ) : Program ℤ := do
  let r ← usbControlMsg dev vendorOut amReqStart 0x0200 0x0000 [] 0 timeout
  if r.1 < 0 then pure (-885)
  else do
    let r ← usbBulkRead dev amEpIn (List.replicate 0x200 0) 0x200 30000
    if r.1 ≠ 0x200 then pure (-896)
    else testDownload dev file buf r.2 timeout

lemma amlLibusbBl2Test_eq (files : Files) (buf : Bytes) (dev : Device) (timeout argc : ℤ)
    (argv : List Bytes) :
    amlLibusbBl2Test files buf dev timeout argc argv = (do
      let (ok, drv) ← openUsbDevice ⟨dev, none, amEpIn, 0⟩
      if ok = 0 then pure (-855)
      else if argc ≤ 0 then pure (-869)
      else do
        let file ← fopenRead files (argv.getD 0 [])
        let ret ← (match file with
          | none => pure (-874)
          | some file => testRound drv.handle file buf timeout)
        let _ ← closeUsbDevice drv
        pure ret) := rfl

/-! ### One piece -/

/-- The work buffers agree where a transfer can reach. -/
def SameBuf (buf buf' : Bytes) : Prop := buf.take 0x10000 = buf'.take 0x10000

lemma SameBuf.take {buf buf' : Bytes} (h : SameBuf buf buf') {n : ℕ} (hn : n ≤ 0x10000) :
    buf.take n = buf'.take n := by
  have htake := congrArg (List.take n) h
  rwa [List.take_take, List.take_take, Nat.min_eq_left hn] at htake

lemma SameBuf.blit {buf buf' : Bytes} (h : SameBuf buf buf') (data : Bytes) :
    SameBuf (blit buf 0 data) (blit buf' 0 data) := by
  unfold SameBuf at *
  rw [blit_zero, blit_zero, List.take_append, List.take_append, List.take_drop, List.take_drop]
  by_cases hd : data.length ≤ 0x10000
  · rw [show data.length + (0x10000 - data.length) = 0x10000 by omega, h]
  · rw [show 0x10000 - data.length = 0 by omega, Nat.add_zero, List.drop_take, List.drop_take,
      Nat.sub_self]
    rfl

lemma SameBuf.trailer {buf buf' : Bytes} (h : SameBuf buf buf') (seq cksum : ℕ) :
    (trailer buf seq cksum).take 512 = (trailer buf' seq cksum).take 512 := by
  have h16 : (buf.drop 16).take 496 = (buf'.drop 16).take 496 := by
    rw [List.take_drop, List.take_drop, h.take (by omega)]
  rw [trailer_eq, trailer_eq]
  generalize hw : amls ++ le32 seq ++ le32 cksum ++ le32 0 = words
  have hm : words.length = 16 := by rw [← hw]; rfl
  rw [List.take_append, List.take_append, hm, h16]

lemma usbBulkWrite_congr (dev : Option Handle) (ep : ℕ) {bytes bytes' : Bytes} {size : ℕ}
    (h : bytes.take size = bytes'.take size) (timeout : ℤ) :
    usbBulkWrite dev ep bytes size timeout = usbBulkWrite dev ep bytes' size timeout := by
  cases dev with
  | none => rfl
  | some hd =>
    have hcall : ∀ data, data = bytes'.take size →
        (.call (.bulkOut hd (ep &&& 0x7F) data size timeout) fun r : OutResult size =>
          .ret (usbBulkIo r.status r.actual) : Program ℤ) =
        usbBulkWrite (some hd) ep bytes' size timeout := by
      rintro _ rfl; rfl
    exact hcall _ h

/-- The variables of the two loops after as many pieces. -/
structure Beside (dataSize : ℤ) (s : Test) (s' : Download) : Prop where
  i : s'.i = s.i
  dataOffset : s'.dataOffset = s.dataOffset
  left : s'.dataSize = u32 (dataSize - s.dataOffset)
  cksum : s'.cksum = s.cksum
  file : s'.file = s.file
  buf : SameBuf s.buf s'.buf

/-- Both have sent all pieces, or both have given up. -/
def Paired (dataSize : ℤ) (r : ℤ × Test) (r' : ℤ × Download) : Prop :=
  (r.1 = 0 ↔ r'.1 = 0) ∧ (r.1 = 0 → Beside dataSize r.2 r'.2)

lemma paired_failed (dataSize : ℤ) {a a' : ℤ} (ha : a ≠ 0) (ha' : a' ≠ 0) (s : Test)
    (s' : Download) : Paired dataSize (a, s) (a', s') :=
  ⟨⟨fun h => absurd h ha, fun h => absurd h ha'⟩, fun h => absurd h ha⟩

lemma pieceCount_test {n : ℕ} (hn : n ≤ 0x7FFF0000) : pieceCount n = testPieceCount n := by
  unfold pieceCount testPieceCount i32 u32
  omega

/-- What is left after a piece, by subtraction and by decrement. -/
lemma left_next (dataSize : ℤ) (dataOffset : ℕ) :
    u32 ((u32 (dataSize - dataOffset) : ℤ) - 0x10000) =
      u32 (dataSize - ((dataOffset + 0x10000) % 2 ^ 32 : ℕ)) := by
  unfold u32
  omega

lemma turn_beside (dev : Option Handle) {n : ℕ} (hn : n ≤ 0x7FFF0000) (timeout : ℤ)
    {param : AmlBl2Cmd} (hsize : param.dataSize = n) (hck : param.doCksum = true) {s : Test}
    {s' : Download} (h : Beside n s s') :
    Lockstep Asks (Lockstep.Turns (Beside n) (Paired n)) (untimed (testTurn dev n timeout s))
      (untimed (downloadTurn dev param s')) := by
  obtain ⟨hi, hoff, hleft, hsum, hfile, hbuf⟩ := h
  unfold testTurn downloadTurn
  rw [untimed_ite, untimed_ite, hsize, pieceCount_test hn, hi, hoff, hleft, hfile]
  simp only [Prog.pure_eq_ret, untimed_bind, untimed_ite, untimed_ret, untimed_control]
  refine .ite_iff Nat.cast_lt.symm (fun _ => ?_) fun _ => .ret (.done ⟨Iff.rfl, fun _ =>
    ⟨hi, hoff, hleft, hsum, hfile, hbuf⟩⟩)
  generalize hb : min (u32 ((n : ℤ) - s.dataOffset)) 0x10000 = bulkSize
  have hle : bulkSize ≤ 0x10000 := by omega
  refine .bind_same _ fun r => .ite (fun _ => .ret (.done (paired_failed _ (by decide)
    (by decide) _ _))) fun _ => ?_
  refine .bind_same _ fun ⟨data, file⟩ => .ite (fun _ => .ret (.done (paired_failed _ (by decide)
    (by decide) _ _))) fun _ => ?_
  have hbuf' := hbuf.blit data
  rw [usbBulkWrite_congr dev amEpOut (hbuf'.take hle) 30000]
  refine .bind_same _ fun ret => .ite (fun _ => .ret (.done (paired_failed _ (by decide)
    (by decide) _ _))) fun _ => ?_
  refine .bind_same _ fun ret' => .ite (fun _ => .ret (.done (paired_failed _ (by decide)
    (by decide) _ _))) fun _ => ?_
  refine .ret (.next ⟨rfl, rfl, ?_, ?_, rfl, hbuf'⟩)
  · exact left_next n s.dataOffset
  · dsimp only
    rw [if_pos hck, hsum, ← checksum64K_take (CData.blit s.buf 0 data), hbuf'.take hle,
      checksum64K_take]

/-! ### The round -/

/-- `Aml_Libusb_bl2_test` from the first piece to the verdict. -/
def testPieces (dev : Option Handle) (file : File) (buf : Bytes) (seq dataSize : ℤ)
    (offset : ℕ) (timeout : ℤ) : Program ℤ := do
  let (ret, s) ← iterate (testTurn dev dataSize timeout) (testPieceCount dataSize + 1)
    ⟨0, 0, 0, fseekSet file offset, buf⟩
  if ret ≠ 0 then pure ret
  else do
    let r ← usbControlMsg dev vendorOut amReqCmd4 (offset / 2 ^ 9 : ℕ) 0x1FF [] 0 timeout
    if r.1 < 0 then pure (-959)
    else do
      let ret ← usbBulkWrite dev amEpOut (trailer s.buf (u32 seq) s.cksum) 0x200 30000
      if ret ≠ 0x200 then pure (-969)
      else do
        let _ ← amlLibusbBl2Csw dev false false
        pure 0

lemma testDownload_eq (dev : Option Handle) (file : File) (buf : Bytes) {cbw : Bytes}
    (h : getU8 cbw 17 = 0) (timeout : ℤ) :
    testDownload dev file buf cbw timeout = (do
      let ret ← amlLibusbBl2Csw dev true true
      if ret ≠ 0 then pure (-911)
      else
        testPieces dev file buf (i32 (getU32 cbw 4)) (i32 (getU32 cbw 8)) (getU32 cbw 12)
          timeout : Program ℤ) :=
  if_neg (not_not.mpr h)

section Round

-- elaboration would unfold the programs far enough to compute with them
attribute [local irreducible] pieceCount testPieceCount

lemma fseekSet_natCast (file : File) (offset : ℕ) :
    fseekSet file offset = ⟨file.content, offset⟩ := by
  simp [fseekSet]

lemma pieces_beside (dev : Option Handle) (timeout : ℤ) {cbw : Bytes} (hcbw : Eligible cbw)
    {file file' : File} (hfile : file.content = file'.content) {buf buf' : Bytes}
    (hbuf : SameBuf buf buf') :
    Lockstep Asks (fun a r => a = 0 ↔ r.1 = 0)
      (untimed (testPieces dev file buf (i32 (getU32 cbw 4)) (i32 (getU32 cbw 8))
        (getU32 cbw 12) timeout))
      (untimed (amlLibusbBl2SecureDownload dev (fseekSet file' (cbwParam cbw).offset) buf'
        (cbwParam cbw))) := by
  have hn := hcbw.dataSize
  have hdata : i32 (getU32 cbw 8) = (getU32 cbw 8 : ℕ) := i32_of_lt (by omega)
  have hoff : (cbwParam cbw).offset = (getU32 cbw 12 : ℕ) := i32_of_lt hcbw.offset
  have hsize : (cbwParam cbw).dataSize = (getU32 cbw 8 : ℕ) := hdata
  have hck : (cbwParam cbw).doCksum = true := decide_eq_true hcbw.withCksum
  have hseq : (cbwParam cbw).seq = i32 (getU32 cbw 4) := rfl
  have hseek : fseekSet file' (getU32 cbw 12) = fseekSet file (getU32 cbw 12) := by
    rw [fseekSet_natCast, fseekSet_natCast, hfile]
  unfold testPieces amlLibusbBl2SecureDownload
  rw [untimed_bind, untimed_bind, hdata, hsize, hoff, hseq, hseek, pieceCount_test hn,
    Int.toNat_natCast, untimed_iterate, untimed_iterate]
  have hstart : Beside (getU32 cbw 8)
      ⟨0, 0, 0, fseekSet file (getU32 cbw 12), buf⟩
      ⟨0, 0, u32 (getU32 cbw 8), 0, fseekSet file (getU32 cbw 12), buf'⟩ :=
    ⟨rfl, rfl, by simp, rfl, rfl, hbuf⟩
  refine (Lockstep.iterate (fun s s' h => turn_beside dev hn timeout hsize hck h) _
    hstart).bind ?_
  rintro ⟨ret, s⟩ ⟨ret', s'⟩ ⟨hret, hs⟩
  dsimp only at hret hs ⊢
  simp only [Prog.pure_eq_ret, untimed_bind, untimed_ite, untimed_ret, untimed_control,
    Int.natCast_ediv, Nat.cast_pow, Nat.cast_ofNat, ne_eq, ← hret]
  refine .ite (fun _ => .ret hret) fun hz => ?_
  obtain ⟨-, -, -, hsum, -, hbuf⟩ := hs (not_not.mp hz)
  refine .bind_same _ fun r => .ite (fun _ => .ret (by simp)) fun _ => ?_
  rw [hsum, usbBulkWrite_congr dev amEpOut (hbuf.trailer _ _) 30000]
  refine .bind_same _ fun w => .ite (fun _ => .ret (by simp)) fun _ => ?_
  exact .bind_same _ fun _ => .ret Iff.rfl

/-- Both have served the request, or both have given up on it. -/
def Agree (a : ℤ) : Loop Session ℤ → Prop
  | .next _ => a = 0
  | .done ret => a ≠ 0 ∧ ret ≠ 0

/-- A turn of the boot session after the command parser. -/
def bootAnswer (dev : Option Handle) (s : Session) (r : ℤ × ℤ × AmlBl2Cmd) :
    Program (Loop Session ℤ) :=
  if r.1 ≠ 0 then pure (.done (-1173))
  else if r.2.1 ≤ 0xABCC ∨ 0xABD0 < r.2.1 then pure (.done (-1177))
  else if 0xABCE < r.2.1 then pure (.done 0)
  else if r.2.1 ≠ 0xABCD then pure (.done r.1)
  else do
    let (ret, file, buf) ← amlLibusbBl2SecureDownload dev (fseekSet s.file r.2.2.offset) s.buf
      r.2.2
    if ret ≠ 0 then pure (.done (-1188)) else pure (.next ⟨file, buf, r.2.1⟩)

lemma bootTurn_eq (dev : Option Handle) (s : Session) :
    bootTurn dev s =
      amlLibusbBl2CmdParser dev s.cmd ⟨0, 0, 0, false⟩ >>= bootAnswer dev s := rfl

lemma bootAnswer_failed (dev : Option Handle) (s : Session) {ret : ℤ} (h : ret ≠ 0)
    (r : ℤ × AmlBl2Cmd) : bootAnswer dev s (ret, r) = .ret (.done (-1173)) := if_pos h

lemma bootAnswer_download (dev : Option Handle) (s : Session) (param : AmlBl2Cmd) :
    bootAnswer dev s (0, 0xABCD, param) = (do
      let r ← amlLibusbBl2SecureDownload dev (fseekSet s.file param.offset) s.buf param
      if r.1 ≠ 0 then pure (.done (-1188)) else pure (.next ⟨r.2.1, r.2.2, 0xABCD⟩)) := by
  simp [bootAnswer]

/-- The request is acknowledged and answered in the same way. -/
lemma served_beside (dev : Option Handle) (timeout : ℤ) {cbw : Bytes} (hcbw : Eligible cbw)
    {file : File} {s : Session} (hfile : file.content = s.file.content) {buf : Bytes}
    (hbuf : SameBuf buf s.buf) :
    Lockstep Asks Agree (untimed (testDownload dev file buf cbw timeout))
      (untimed (amlLibusbBl2Csw dev true true) >>= fun ret =>
        untimed (bootAnswer dev s (if ret ≠ 0 then -1118 else 0, 0xABCD, cbwParam cbw))) := by
  rw [testDownload_eq dev file buf hcbw.type, ← Prog.bind_ret (testPieces ..), untimed_bind]
  refine .bind_same _ fun ret => ?_
  by_cases hret : ret ≠ 0
  · rw [if_pos hret, if_pos hret, bootAnswer_failed dev s (by decide)]
    simp only [Prog.pure_eq_ret, untimed_ret]
    exact .ret ⟨by decide, by decide⟩
  rw [if_neg hret, if_neg hret, bootAnswer_download]
  simp only [Prog.pure_eq_ret, untimed_bind, untimed_ite, untimed_ret]
  refine (pieces_beside dev timeout hcbw hfile hbuf).bind fun a r har => ?_
  by_cases hz : r.1 ≠ 0
  · rw [if_pos hz]
    exact .ret ⟨har.not.mpr hz, by decide⟩
  · rw [if_neg hz]
    exact .ret (har.mpr (not_not.mp hz))

/-- A round of each, on one file and with work buffers that agree. -/
theorem round_beside (dev : Option Handle) (timeout : ℤ) (file : File) {s : Session}
    (hfile : file.content = s.file.content) {buf : Bytes} (hbuf : SameBuf buf s.buf) :
    Lockstep Asks Agree (untimed (testRound dev file buf timeout)) (untimed (bootTurn dev s)) := by
  rw [bootTurn_eq]
  unfold testRound amlLibusbBl2CmdParser
  simp only [Prog.pure_eq_ret, untimed_bind, untimed_ite, untimed_ret, untimed_control,
    untimed_read, Prog.assoc]
  refine .bind_same _ fun r => ?_
  by_cases hr : r.1 < 0
  · rw [if_pos hr, if_pos hr, Prog.ret_bind, bootAnswer_failed dev s (by decide)]
    simp only [untimed_ret]
    exact .ret ⟨by decide, by decide⟩
  rw [if_neg hr, if_neg hr, Prog.assoc]
  cases dev with
  | none => exact .call fun e => e.elim
  | some h =>
    simp only [usbBulkRead, Prog.call_bind, Prog.ret_bind]
    refine .call fun reply hasks => ?_
    by_cases h512 : usbBulkIo reply.status reply.data.1.length ≠ 512
    · rw [if_pos h512, if_pos h512, Prog.ret_bind, bootAnswer_failed _ s (by decide), untimed_ret]
      exact .ret ⟨by decide, by decide⟩
    rw [if_neg h512, if_neg h512]
    push Not at h512
    have hlen : reply.data.1.length = 512 := by
      have hle := usbBulkIo_le reply.status reply.data.1.length
      have := reply.data.2
      omega
    have hbuf512 : blit (List.replicate 512 0) 0 reply.data.1 = reply.data.1 := by
      rw [blit_zero, hlen, List.drop_of_length_le (by rw [List.length_replicate]),
        List.append_nil]
    have hcbw : Eligible reply.data.1 := by
      refine hasks _ ?_ hlen
      simp only [packetOf, delivered, h512]
      rw [List.take_of_length_le (by omega)]
    rw [hbuf512, parseCbw_download hcbw.type hcbw.download]
    exact served_beside (some h) timeout hcbw hfile hbuf

end Round

/-! ### The whole of `bl2_test` -/

/-- A transfer over the bus. -/
def isTransfer : Op → Bool
  | .controlOut .. => true
  | .controlIn .. => true
  | .bulkOut .. => true
  | .bulkIn .. => true
  | _ => false

section Test

variable {files : Files} {buf : Bytes} {dev : Device} {timeout argc : ℤ} {argv : List Bytes}

/-- The calls before the round: the device opened, and the file. -/
def opened (dev : Device) (handle : Option Handle) (path : Bytes) : Trace :=
  [⟨.libusbOpen dev, handle⟩, ⟨.fopen path false, true⟩]

/-- With the device and the file open, what is left is the round and the closing. -/
lemma steps_opened (hdev : dev ≠ .null) (hargc : 0 < argc) (handle : Option Handle) (t : Trace)
    (q : Program ℤ) :
    Steps (untimed (amlLibusbBl2Test files buf dev timeout argc argv))
        (opened dev handle (argv.getD 0 []) ++ t) q ↔
      Steps (untimed (testRound handle ⟨files (argv.getD 0 []), 0⟩ buf timeout) >>= fun ret =>
        untimed (closeUsbDevice ⟨dev, handle, amEpIn, amEpOut⟩) >>= fun _ => .ret ret) t q := by
  have heq : untimed (amlLibusbBl2Test files buf dev timeout argc argv) =
      .call (.libusbOpen dev) fun handle => .call (.fopen (argv.getD 0 []) false) fun ok : Bool =>
        untimed (match if ok then some (⟨files (argv.getD 0 []), 0⟩ : File) else none with
          | none => .ret (-874)
          | some file => testRound handle file buf timeout) >>= fun ret =>
            untimed (closeUsbDevice ⟨dev, handle, amEpIn, amEpOut⟩) >>= fun _ => .ret ret := by
    rw [amlLibusbBl2Test_eq, openUsbDevice_eq hdev]
    simp only [Prog.call_bind, Prog.ret_bind, untimed, one_ne_zero, if_false, not_le.mpr hargc,
      fopenRead, untimed_bind, Prog.pure_eq_ret]
  rw [heq, opened, List.cons_append, steps_call_cons, List.cons_append, steps_call_cons]
  rfl

lemma closing_issues {drv : AmlUsbDrv} {ret : ℤ} {t : Trace} {o : Op}
    (h : Issues (untimed (closeUsbDevice drv) >>= fun _ => .ret ret) t o) :
    isTransfer o = false := by
  have hcalls : Calls (fun o => isTransfer o = false)
      (untimed (closeUsbDevice drv) >>= fun _ => .ret ret) := by
    unfold closeUsbDevice
    rw [untimed_ite]
    split_ifs
    · exact trivial
    · rw [untimed_bind]
      cases drv.handle with
      | none => rw [usbClose, untimed_segfault]; exact ⟨rfl, fun e => e.elim⟩
      | some h => exact ⟨rfl, fun _ => trivial⟩
  exact (hcalls.keeps (fun _ => ()) (fun _ _ _ _ => rfl) []).issues h

/-- **`bl2_test` makes the transfers of a round of the boot session**, and ends with the same
verdict after the same of them. -/
theorem bl2Test_follows_boot (hdev : dev ≠ .null) (hargc : 0 < argc) (handle : Option Handle)
    {s : Session} (hfile : s.file.content = files (argv.getD 0 [])) (hbuf : SameBuf buf s.buf)
    {t : Trace} (ht : ∀ e ∈ t, Asks e) :
    (∀ o, isTransfer o → (Issues (untimed (amlLibusbBl2Test files buf dev timeout argc argv))
        (opened dev handle (argv.getD 0 []) ++ t) o ↔ Issues (untimed (bootTurn handle s)) t o)) ∧
      ∀ h, handle = some h →
        (∀ ret, Runs (untimed (amlLibusbBl2Test files buf dev timeout argc argv))
          (opened dev handle (argv.getD 0 []) ++ (t ++ [⟨.libusbClose h, ()⟩])) ret →
            ∃ l, Runs (untimed (bootTurn handle s)) t l ∧ Agree ret l) ∧
        ∀ l, Runs (untimed (bootTurn handle s)) t l →
          ∃ ret, Runs (untimed (amlLibusbBl2Test files buf dev timeout argc argv))
            (opened dev handle (argv.getD 0 []) ++ (t ++ [⟨.libusbClose h, ()⟩])) ret ∧
              Agree ret l := by
  have hround := round_beside handle timeout ⟨files (argv.getD 0 []), 0⟩ hfile.symm hbuf
  refine ⟨fun o ho => ?_, ?_⟩
  · rw [← hround.issues_iff ht]
    simp only [Issues, steps_opened hdev hargc]
    constructor
    · intro h
      rcases issues_bind h with h | ⟨ret, t₁, t₂, -, -, h⟩
      · exact h
      · rw [closing_issues h] at ho
        exact nomatch ho
    · exact fun h => Issues.bind h _
  rintro h rfl
  have hclose : ∀ (ret : ℤ) t' b, Runs (untimed (closeUsbDevice ⟨dev, some h, amEpIn, amEpOut⟩) >>=
      fun _ => .ret ret) t' b ↔ t' = [⟨.libusbClose h, ()⟩] ∧ b = ret := by
    intro ret t' b
    rw [closeUsbDevice_eq hdev]
    simp only [untimed, Prog.call_bind, Prog.ret_bind, runs_call, runs_ret]
    constructor
    · rintro ⟨_, _, rfl, rfl, rfl⟩; exact ⟨rfl, rfl⟩
    · rintro ⟨rfl, rfl⟩; exact ⟨(), [], rfl, rfl, rfl⟩
  simp only [runs_iff_steps, steps_opened hdev hargc]
  simp only [← runs_iff_steps]
  constructor
  · intro ret hr
    obtain ⟨a, t₁, t₂, he, ha, hc⟩ := runs_bind.mp hr
    obtain ⟨rfl, rfl⟩ := (hclose _ _ _).mp hc
    obtain ⟨rfl, -⟩ := List.append_inj' he rfl
    exact hround.runs ht ha
  · intro l hl
    obtain ⟨a, ha, hal⟩ := hround.symm.runs ht hl
    exact ⟨a, runs_bind.mpr ⟨a, t, _, rfl, ha, (hclose _ _ _).mpr ⟨rfl, rfl⟩⟩, hal⟩

end Test

instance (cbw : Bytes) : Decidable (Eligible cbw) :=
  decidable_of_iff (getU8 cbw 17 = 0 ∧ getU8 cbw 16 % 2 = 0 ∧ getU8 cbw 16 < 2 ^ 7 ∧
      getU32 cbw 8 ≤ 0x7FFF0000 ∧ getU32 cbw 12 < 2 ^ 31)
    ⟨fun ⟨h₁, h₂, h₃, h₄, h₅⟩ => ⟨h₁, h₂, h₃, h₄, h₅⟩,
      fun h => ⟨h.type, h.withCksum, h.download, h.dataSize, h.offset⟩⟩

/-- What `Asks` comes to for one event. -/
def asks (e : Event) : Bool :=
  match packetOf e with
  | some (.reply 512 cbw) => cbw.length ≠ 512 || Eligible cbw
  | _ => true

lemma asks_iff (e : Event) : asks e = true ↔ Asks e := by
  unfold asks Asks
  split
  · next cbw h =>
    rw [h]
    constructor
    · intro hb c hc hl
      obtain rfl : cbw = c := by simpa using hc
      simpa [hl] using hb
    · intro hb
      by_cases hl : cbw.length = 512
      · simpa [hl] using hb cbw rfl hl
      · simp [hl]
  · next h =>
    exact ⟨fun _ cbw hcbw => absurd hcbw (h cbw), fun _ => rfl⟩

set_option maxRecDepth 10000 in
/-- The device that asks for the first byte of the file is served by the session. -/
lemma byteRound_served : ∃ t l,
    Runs (untimed (bootTurn (some 0) ⟨⟨[7], 0⟩, List.replicate 0x20000 0, 0⟩)) t l ∧
    Agree 0 l ∧ t.all asks = true :=
  ⟨_, _, exec_recorded byteAnswers rfl, rfl, rfl⟩

/-- By `bl2_test` too. -/
theorem bl2Test_follows_boot_byte : ∃ t ret,
    Runs (untimed (amlLibusbBl2Test (fun _ => [7]) (List.replicate 0x10000 0) (.dev 0) 5000 1
      [[65]]))
      (opened (.dev 0) (some 0) [65] ++ (t ++ [⟨.libusbClose 0, ()⟩])) ret ∧ ret = 0 := by
  obtain ⟨t, l, hr, hl, ht⟩ := byteRound_served
  have hasks : ∀ e ∈ t, Asks e := fun e he => (asks_iff e).mp (List.all_eq_true.mp ht e he)
  have hbuf : SameBuf (List.replicate 0x10000 0) (List.replicate 0x20000 0) := by
    rw [SameBuf, List.take_replicate, List.take_replicate]
    rfl
  obtain ⟨-, hruns⟩ := @bl2Test_follows_boot (fun _ => [7]) _ (.dev 0) 5000 1 [[65]] nofun
    (by decide) (some 0) ⟨⟨[7], 0⟩, List.replicate 0x20000 0, 0⟩ rfl hbuf _ hasks
  obtain ⟨ret, hret, hagree⟩ := (hruns 0 rfl).2 l hr
  refine ⟨t, ret, hret, ?_⟩
  cases l with
  | next s => exact hagree
  | done r => exact absurd rfl hl.1

end AmlogicUpdate.Bl2Test

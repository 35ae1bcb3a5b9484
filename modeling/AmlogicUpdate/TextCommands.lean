import AmlogicUpdate.CommandText

/-!
The commands of `update.cpp` that send a text: `mwrite` and `partition` announce an image,
`mread` asks for one, `tplcmd` and `bulkcmd` send what the user typed.

Each puts its text into a buffer of 128 bytes up to a limit of its own, 66 or 127 characters.
Only 64 bytes go out.
-/

namespace AmlogicUpdate.TextCommands

open Interaction CData Usb AmlLibusb UsbRomDrv Update Wire Media BulkCmd Mwrite CommandText

/-! ### `partition` -/

def simgProbe (buf : Bytes) (len : ℕ) : Bool :=
  28 ≤ len && buf.take 4 = [0x3A, 0xFF, 0x26, 0xED] && getU16 buf 4 = 1 &&
    slice buf 8 4 = [0x28, 0, 0x12, 0]

def isFileFormatSparse (files : Files) (filename : Bytes) : Program Bool := do
  let stream ← fopenRead files filename
  match stream with
  | none => pure false
  | some f => do
    let (data, _) ← fread f 0x2000
    pure (simgProbe data data.length)

def strStore : Bytes := ascii ['s', 't', 'o', 'r', 'e']
def strSparse : Bytes := ascii ['s', 'p', 'a', 'r', 's', 'e']
def strNormal : Bytes := ascii ['n', 'o', 'r', 'm', 'a', 'l']

/-- The arguments of `mwrite` for the given format. -/
def mwriteArgv (cmdArgv : List Bytes) (cmdArgc : ℤ) (fmt : Bytes) : List Bytes :=
  [cmdArgv.getD 1 [], strStore, cmdArgv.getD 0 [], fmt] ++
    if 3 < cmdArgc then [cmdArgv.getD 3 []] else []

/-- The part of `main` for `partition`. -/
def partition (files : Files) (junk : ℕ → UInt8) (turns : ℕ) (rom : AmlUsbRomRW)
    (cmdArgv : List Bytes) (cmdArgc : ℤ) : Program ℤ := do
  let fmt ← (if 2 < cmdArgc then pure (cmdArgv.getD 2 []) else do
    let sparse ← isFileFormatSparse files (cmdArgv.getD 1 [])
    pure (if sparse then strSparse else strNormal))
  doCmdMwrtie files junk turns (mwriteArgv cmdArgv cmdArgc fmt) (if 3 < cmdArgc then 5 else 4) rom

/-! ### `mread` -/

/-- `strtoll`. -/
def strtoll (s : Bytes) (base : ℕ) : ℤ :=
  let s := s.dropWhile isSpace
  let neg := s.head? = some 45
  let s := if s.head? = some 45 ∨ s.head? = some 43 then s.tail else s
  let (base, s) := numberPrefix s base
  let n := digits base s 0
  if neg then max (-n) (-2 ^ 63) else min n (2 ^ 63 - 1)

example : strtoll (ascii ['-', '0', 'x', '1', '0', ' ']) 0 = -16 := by decide

/-- `%lx` of a signed number. -/
def hexLower (z : ℤ) : Bytes :=
  (Nat.toDigits 16 (z % 2 ^ 64).toNat).map fun c => c.toNat.toUInt8

def uploadText (argv : List Bytes) (readSize : ℤ) : Bytes :=
  ascii ['u', 'p', 'l', 'o', 'a', 'd', ' '] ++ argv.getD 0 [] ++ [32] ++ argv.getD 1 [] ++ [32] ++
    argv.getD 2 [] ++ ascii [' ', '0', 'x'] ++ hexLower readSize

/-- The variables of the loop of `ReadMediaFile`; the buffer is the one of the request. -/
structure Upload where
  size : ℤ
  rom : AmlUsbRomRW
  info : DownloadProgressInfo

def uploadRequest (s : Upload) : AmlUsbRomRW :=
  { s.rom with bufferLen := u32 (min s.size 0x10000) }

def uploadTurn (save : Bool) (s : Upload) : Program (Loop Upload ℤ) :=
  if s.size ≠ 0 then do
    let (ret, rom) ← amlReadMedia (uploadRequest s)
    if ret ≠ 0 then pure (.done s.size)
    else do
      -- what could be saved is not looked at
      let info ← (if save then do
          let _ ← fwrite (rom.buffer.take rom.dataSize)
          s.info.updateProgress rom.dataSize
        else pure s.info)
      pure (.next ⟨s.size - rom.dataSize, rom, info⟩)
  else pure (.done 0)

/-- `turns` bounds the loop, which does not end for every size. -/
def readMediaFile (junk : ℕ → UInt8) (turns : ℕ) (rom : AmlUsbRomRW) (filename : Option Bytes)
    (size : ℤ) : Program ℤ := do
  let opened ← (match filename with
    | some path => fopenWrite path
    | none => pure true)
  if opened then do
    let size ← iterate (uploadTurn filename.isSome) turns
      ⟨size, { rom with buffer := malloc junk 0x10000 }, .new (size % 2 ^ 64).toNat⟩
    pure (if size ≠ 0 then -1 else 0)
  else pure (-1)

/-- `turns` bounds the polling, `uploads` the loop of the upload. -/
def updateSubCmdMread (junk : ℕ → UInt8) (turns uploads : ℕ) (rom : AmlUsbRomRW) (argc : ℤ)
    (argv : List Bytes) : Program ℤ :=
  if argc ≤ 3 then pure 964
  else
    let readSize := strtoll (argv.getD 3 []) 0
    if argv.getD 2 [] ≠ strNormal ∨ readSize = 0 then pure 977
    else do
      let buf := blit (List.replicate 128 0) 0 ((uploadText argv readSize).take 66)
      let (ret, rom) ← amlUsbBulkCmd turns (commandRom rom buf)
      if ret ≠ 0 then pure 988
      else do
        let ret ← readMediaFile junk uploads rom
          (if argc ≤ 4 then none else some (argv.getD 4 [])) readSize
        pure (if ret ≠ 0 then 995 else 0)

/-! ### `tplcmd` and `bulkcmd` -/

/-- A turn of the wait for the reply, from the tries left and the buffer. -/
def tplcmdTurn (dev : Device) (s : ℤ × Bytes) : Program (Loop (ℤ × Bytes) ℤ) :=
  if 0 < s.1 then do
    let (ret, rom) ← amlUsbReadStatus ⟨dev, 64, s.2, 0, 0⟩
    pure (if ret = 0 then .done 0 else .next (s.1 - 1, rom.buffer))
  else pure (.done 957)

def updateSubCmdTplcmd (rom : AmlUsbRomRW) (cmd : Bytes) : Program ℤ := do
  let buf := blit (blit (List.replicate 128 0) 0 (cmd.take 66)) 66 [1]
  let (ret, _) ← amlUsbTplCmd ⟨rom.device, 68, buf, 0, 0⟩
  if ret = 0 then iterate (tplcmdTurn rom.device) 6 (5, List.replicate 64 0) else pure 957

/-- The part of `main` for `bulkcmd`. -/
def bulkcmd (turns : ℕ) (rom : AmlUsbRomRW) (cmd : Bytes) : Program ℤ := do
  let buf := blit (List.replicate 128 0) 0 (cmd.take 66)
  let (ret, _) ← amlUsbBulkCmd turns (commandRom rom buf)
  pure (if ret ≠ 0 then -1368 else 0)

/-! ### What each command is to send -/

inductive TextCommand
  | mwrite (argv : List Bytes) (argc : ℤ)
  | partition (cmdArgv : List Bytes) (cmdArgc : ℤ)
  | mread (argv : List Bytes) (argc : ℤ)
  | tplcmd (cmd : Bytes)
  | bulkcmd (cmd : Bytes)

namespace TextCommand

variable (files : Files)

def run (junk : ℕ → UInt8) (turns uploads n : ℕ) : TextCommand → Program ℤ
  | .mwrite argv argc => doCmdMwrtie files junk turns argv argc ⟨.dev n, 0, [], 0, 0⟩
  | .partition argv argc => TextCommands.partition files junk turns ⟨.dev n, 0, [], 0, 0⟩ argv argc
  | .mread argv argc => updateSubCmdMread junk turns uploads ⟨.dev n, 0, [], 0, 0⟩ argc argv
  | .tplcmd cmd => updateSubCmdTplcmd ⟨.dev n, 0, [], 0, 0⟩ cmd
  | .bulkcmd cmd => TextCommands.bulkcmd turns ⟨.dev n, 0, [], 0, 0⟩ cmd

/-- The formats `partition` can come to. -/
def formats (cmdArgv : List Bytes) (cmdArgc : ℤ) : List Bytes :=
  if 2 < cmdArgc then [cmdArgv.getD 2 []] else [strNormal, strSparse]

/-- The texts one of which the command is for. -/
def texts : TextCommand → List Bytes
  | .mwrite argv _ => [downloadText argv (files (argv.getD 0 [])).length]
  | .partition argv argc => (formats argv argc).map fun fmt =>
      downloadText (mwriteArgv argv argc fmt) (files (argv.getD 1 [])).length
  | .mread argv _ => [uploadText argv (strtoll (argv.getD 3 []) 0)]
  | .tplcmd cmd => [cmd]
  | .bulkcmd cmd => [cmd]

/-- The request that takes the text. -/
def req : TextCommand → ℕ
  | .mwrite _ _ => amReqTplCmd
  | .partition _ _ => amReqTplCmd
  | .mread _ _ => amReqBulkCmd
  | .tplcmd _ => amReqTplCmd
  | .bulkcmd _ => amReqBulkCmd

/-- The size in the text is the size. -/
def Sized : TextCommand → Prop
  | .mread argv _ => 0 ≤ strtoll (argv.getD 3 []) 0
  | _ => True

/-- What is refused for another reason than its length: an empty image, a wrong format, a size
of 0. -/
def Rejected : TextCommand → Prop
  | .mwrite argv _ => files (argv.getD 0 []) = []
  | .partition argv _ => files (argv.getD 1 []) = []
  | .mread argv argc => argc ≤ 3 ∨ argv.getD 2 [] ≠ strNormal ∨ strtoll (argv.getD 3 []) 0 = 0
  | _ => False

/-- The requests that come after the announcement of an image. -/
def Follows : TextCommand → Op → Prop
  | .mwrite _ _, o => Carries amReqBulkCmd strGetStatus o ∨
      (isRequest amReqBulkCmd o ∧ strVerify <+: sentBytes o)
  | .partition _ _, o => Carries amReqBulkCmd strGetStatus o ∨
      (isRequest amReqBulkCmd o ∧ strVerify <+: sentBytes o)
  | _, _ => False

end TextCommand

def isCommand (o : Op) : Bool := isRequest amReqTplCmd o || isRequest amReqBulkCmd o

/-- Every command sent has the whole text and the size that was asked for; one whose text does
not fit is refused. -/
structure Delivers (files : Files) (c : TextCommand) : Prop where
  whole : ∀ junk turns uploads n t o, Issues (c.run files junk turns uploads n) t o →
    isCommand o → (c.Sized ∧ ∃ text ∈ c.texts files, Carries c.req text o) ∨ c.Follows o
  refused : (∃ text ∈ c.texts files, 63 < text.length) → ∀ junk turns uploads n,
    (∀ t o, Issues (c.run files junk turns uploads n) t o → isCommand o = false) ∧
      ∀ t r, Runs (c.run files junk turns uploads n) t r → r ≠ 0

/-- The condition on the arguments. -/
def Fits (files : Files) (c : TextCommand) : Prop :=
  c.Rejected files ∨ (c.Sized ∧ ∀ text ∈ c.texts files, text.length ≤ 63)

/-! ### The calls of the commands -/

lemma isCommand_of_permitted {image : Bytes} {h : Trace} {o : Op} (hper : Permitted image h o) :
    isCommand o = false := by
  cases o
  case controlOut hd s d timeout =>
    have hreq := (hper.header _ _ _ _ rfl).2.2.2.1
    simp only [isCommand, isRequest, hreq]
    decide
  all_goals rfl

/-- The buffer of a status read keeps its length. -/
lemma amlUsbReadStatus_length {rom : AmlUsbRomRW} (hlen : rom.bufferLen = 64)
    (hbuf : 64 ≤ rom.buffer.length) {t : Trace} {r : ℤ × AmlUsbRomRW}
    (hr : Runs (amlUsbReadStatus rom) t r) : r.2.buffer.length = rom.buffer.length := by
  obtain ⟨dev, bufferLen, buffer, dataSize, address⟩ := rom
  obtain rfl : bufferLen = 64 := hlen
  dsimp only at hbuf ⊢
  unfold amlUsbReadStatus at hr
  by_cases hnull : dev = .null
  · rw [hnull, openUsbDevice_null] at hr
    obtain ⟨-, rfl⟩ := runs_ret.mp hr
    rfl
  obtain ⟨hd, b, t', -, hin, rfl⟩ := runs_opened hnull (fun drv =>
    usbDeviceIoControl drv .tplStatus (some buffer) 4 (some buffer) 64 dataSize) (fun _ => rfl) hr
  by_cases hdev : dev = .invalid
  · subst hdev
    obtain ⟨-, rfl⟩ := runs_ret.mp hin
    rfl
  rw [tplStatus_eq hdev, runs_call] at hin
  obtain ⟨res, t₁, -, hin⟩ := hin
  obtain ⟨-, rfl⟩ := runs_ret.mp hin
  refine blit_length ?_
  have hres := res.data.2
  dsimp only at hres ⊢
  omega

section Calls

variable {G : Op → Prop} (hG : ∀ o, isCommand o = false → G o) {files : Files} {junk : ℕ → UInt8}
  {turns uploads : ℕ} {rom : AmlUsbRomRW}
include hG

lemma plain_of_silent : Plain G := ⟨fun _ => hG _ rfl, fun _ => hG _ rfl, hG _ rfl⟩

lemma bulkCmd_calls {buf : Bytes} {n : ℕ}
    (hcmd : ∀ hd s timeout, s.bRequest = amReqBulkCmd →
      G (.controlOut hd s ((commandRom rom buf).buffer.take 64) timeout)) :
    Calls G (amlUsbBulkCmd n (commandRom rom buf)) := by
  refine amlUsbBulkCmd_calls fun o honly => ?_
  cases o
  case controlOut hd s d timeout =>
    obtain ⟨hreq, rfl⟩ := honly _ _ _ _ rfl
    exact hcmd hd s timeout hreq
  all_goals exact hG _ rfl

lemma writeMediaFile_calls (filename : Bytes) :
    Calls G (writeMediaFile files junk turns rom filename) :=
  ((writeMediaFile_keeps files junk turns rom filename).weaken
    fun _ _ hper => hG _ (isCommand_of_permitted hper)).calls

lemma mwriteVerify_calls
    (hverify : ∀ o, isRequest amReqBulkCmd o → strVerify <+: sentBytes o → G o) (path : Bytes) :
    Calls G (mwriteVerify files turns rom path) := by
  simp only [mwriteVerify, fopenRead, fread, Prog.call_bind, Prog.ret_bind]
  refine ⟨hG _ rfl, fun ok : Bool => ?_⟩
  cases ok with
  | false => trivial
  | true =>
    simp only [reduceIte]
    refine ⟨hG _ rfl, fun k => calls_bind (bulkCmd_calls hG fun hd s timeout hreq => ?_)
      fun _ => trivial⟩
    refine hverify _ (by simp [isRequest, hreq]) (commandRom_begins _ ?_ (by decide))
    have hlen : 7 = strVerify.length := rfl
    rw [strcpy, blit_zero, List.append_assoc, blit_append strVerify _ _ hlen, List.append_assoc]
    exact List.prefix_append _ _

/-- The commands after an accepted announcement. -/
lemma mwriteData_calls {argv : List Bytes} {argc : ℤ}
    (hstatus : ∀ o, Carries amReqBulkCmd strGetStatus o → G o)
    (hverify : ∀ o, isRequest amReqBulkCmd o → strVerify <+: sentBytes o → G o) :
    Calls G (mwriteData files junk turns argv argc rom) := by
  have hplain := plain_of_silent hG
  refine calls_bind_of_runs (amlUsbReadStatus_calls hplain (fun _ _ _ => hG _ rfl) _)
    fun t r hr => ?_
  have hlen : r.2.buffer.length = 128 :=
    (amlUsbReadStatus_length rfl (by simp) hr).trans List.length_replicate
  refine calls_ite (fun _ => trivial) fun _ => calls_ite (fun _ => trivial) fun _ => ?_
  refine calls_bind (writeMediaFile_calls hG _) fun ret => calls_ite (fun _ => trivial) fun _ => ?_
  refine calls_bind (bulkCmd_calls hG fun hd s timeout hreq => hstatus _ ?_) fun r' =>
    calls_ite (fun _ => trivial) fun _ => calls_ite (fun _ => trivial) fun _ => ?_
  · -- the rest of the buffer is what is left of the reply
    refine ⟨hreq, fun he => absurd he (by decide), ?_, ?_⟩
    · have hbuf : (commandRom r.2 (strcpy r.2.buffer strGetStatus)).buffer.length = 128 := by
        have hcopy : (strcpy r.2.buffer strGetStatus).length = 128 :=
          (blit_length (by rw [hlen]; decide)).trans hlen
        exact (blit_length (by rw [hcopy]; decide)).trans hcopy
      rw [List.length_take, hbuf]
      rfl
    · refine commandRom_begins r.2 ?_ (by decide)
      rw [strcpy, blit_zero]
      exact List.prefix_append _ _
  exact mwriteVerify_calls hG hverify _

lemma mwrite_calls {argv : List Bytes} {argc : ℤ}
    (htpl : files (argv.getD 0 []) ≠ [] → ∀ hd,
      G (tplRequest hd (textBuf 127 (downloadText argv (files (argv.getD 0 [])).length))))
    (hdata : files (argv.getD 0 []) ≠ [] →
      (∀ o, Carries amReqBulkCmd strGetStatus o → G o) ∧
        ∀ o, isRequest amReqBulkCmd o → strVerify <+: sentBytes o → G o) :
    Calls G (doCmdMwrtie files junk turns argv argc rom) := by
  refine ⟨hG _ rfl, fun ok : Bool => ?_⟩
  cases ok with
  | false => trivial
  | true =>
    change Calls G (if (files (argv.getD 0 [])).length = 0 then _ else _)
    by_cases hempty : files (argv.getD 0 []) = []
    · rw [if_pos (by rw [hempty]; rfl)]
      trivial
    rw [if_neg (by rwa [List.length_eq_zero_iff])]
    refine calls_bind (amlUsbTplCmd_calls (plain_of_silent hG) rfl (htpl hempty)) fun r =>
      calls_ite (fun _ => trivial) fun _ => ?_
    exact mwriteData_calls hG (hdata hempty).1 (hdata hempty).2

lemma readMediaFile_calls (filename : Option Bytes) (size : ℤ) :
    Calls G (readMediaFile junk uploads rom filename size) := by
  have hturn : ∀ s, Calls G (uploadTurn filename.isSome s) := by
    intro s
    refine calls_ite (fun _ => ?_) fun _ => trivial
    refine calls_bind (amlReadMedia_calls (plain_of_silent hG) (fun _ _ _ => hG _ rfl)
      (fun _ _ _ _ => hG _ rfl) _) fun r => calls_ite (fun _ => trivial) fun _ => ?_
    refine calls_bind (calls_ite (fun _ => ⟨hG _ rfl, fun _ => ?_⟩) fun _ => trivial)
      fun _ => trivial
    exact (s.info.updateProgress_calls _).mono fun o ho => hG o (ho ▸ rfl)
  have hloop : ∀ s, Calls G (iterate (uploadTurn filename.isSome) uploads s >>= fun size =>
      (pure (if size ≠ 0 then -1 else 0) : Program ℤ)) :=
    fun s => calls_bind (calls_iterate hturn _ _) fun _ => trivial
  cases filename with
  | none => exact hloop _
  | some path =>
    refine ⟨hG _ rfl, fun ok : Bool => ?_⟩
    cases ok with
    | false => trivial
    | true => exact hloop _

lemma isFileFormatSparse_calls (path : Bytes) : Calls G (isFileFormatSparse files path) := by
  refine ⟨hG _ rfl, fun ok : Bool => ?_⟩
  cases ok with
  | false => trivial
  | true => exact ⟨hG _ rfl, fun _ => trivial⟩

/-- What a command can send, from what its text allows. -/
lemma run_calls (c : TextCommand) (n : ℕ)
    (htpl : ¬ c.Rejected files → ∀ text ∈ c.texts files, ∀ k hd, 63 ≤ k → c.req = amReqTplCmd →
      G (tplRequest hd (textBuf k text)))
    (hbulk : ¬ c.Rejected files → ∀ text ∈ c.texts files, ∀ k hd s timeout, 63 ≤ k →
      c.req = amReqBulkCmd → s.bRequest = amReqBulkCmd →
        G (.controlOut hd s ((textBuf k text).take 64) timeout))
    (hfollows : ¬ c.Rejected files → ∀ o, c.Follows o → G o) :
    Calls G (c.run files junk turns uploads n) := by
  cases c with
  | mwrite argv argc =>
    refine mwrite_calls hG (fun h hd => ?_) fun h => ⟨fun o ho => ?_, fun o hreq ho => ?_⟩
    · exact htpl h _ (List.mem_singleton_self _) 127 hd (by decide) rfl
    · exact hfollows h o (.inl ho)
    · exact hfollows h o (.inr ⟨hreq, ho⟩)
  | partition argv argc =>
    have hmwrite : ∀ fmt ∈ TextCommand.formats argv argc, Calls G (doCmdMwrtie files junk turns
        (mwriteArgv argv argc fmt) (if 3 < argc then 5 else 4) ⟨.dev n, 0, [], 0, 0⟩) := by
      intro fmt hfmt
      refine mwrite_calls hG (fun h hd => ?_) fun h => ⟨fun o ho => ?_, fun o hreq ho => ?_⟩
      · exact htpl h _ (List.mem_map_of_mem hfmt) 127 hd (by decide) rfl
      · exact hfollows h o (.inl ho)
      · exact hfollows h o (.inr ⟨hreq, ho⟩)
    change Calls G (_ >>= _)
    unfold TextCommand.formats at hmwrite
    by_cases hargc : 2 < argc
    · rw [if_pos hargc] at hmwrite ⊢
      exact hmwrite _ (List.mem_singleton_self _)
    · rw [if_neg hargc] at hmwrite ⊢
      rw [Prog.assoc]
      refine calls_bind (isFileFormatSparse_calls hG _) fun sparse => ?_
      cases sparse with
      | false => exact hmwrite _ (by simp)
      | true => exact hmwrite _ (by simp)
  | mread argv argc =>
    refine calls_ite (fun _ => trivial) fun hargc => calls_ite (fun _ => trivial) fun hcheck => ?_
    have hrej : ¬ TextCommand.Rejected files (.mread argv argc) := by
      rintro (h | h)
      · exact hargc h
      · exact hcheck h
    refine calls_bind (bulkCmd_calls hG fun hd s timeout hreq => ?_) fun r =>
      calls_ite (fun _ => trivial) fun _ =>
        calls_bind (readMediaFile_calls hG _ _) fun _ => trivial
    exact hbulk hrej _ (List.mem_singleton_self _) 66 hd s timeout (by decide) rfl hreq
  | tplcmd cmd =>
    refine calls_bind (amlUsbTplCmd_calls (plain_of_silent hG) rfl fun hd => ?_) fun r =>
      calls_ite (fun _ => calls_iterate (fun s => ?_) _ _) fun _ => trivial
    · exact htpl (fun h => h) _ (List.mem_singleton_self _) 66 hd (by decide) rfl
    · refine calls_ite (fun _ => ?_) fun _ => trivial
      exact calls_bind (amlUsbReadStatus_calls (plain_of_silent hG) (fun _ _ _ => hG _ rfl) _)
        fun _ => trivial
  | bulkcmd cmd =>
    refine calls_bind (bulkCmd_calls hG fun hd s timeout hreq => ?_) fun _ => trivial
    exact hbulk (fun h => h) _ (List.mem_singleton_self _) 66 hd s timeout (by decide) rfl hreq

end Calls

/-! ### The condition -/

lemma texts_length {files : Files} {c : TextCommand} {text text' : Bytes}
    (h : text ∈ c.texts files) (h' : text' ∈ c.texts files) : text.length = text'.length := by
  cases c with
  | partition argv argc =>
    obtain ⟨fmt, hfmt, rfl⟩ := List.mem_map.mp h
    obtain ⟨fmt', hfmt', rfl⟩ := List.mem_map.mp h'
    have hlen : fmt.length = fmt'.length := by
      unfold TextCommand.formats at hfmt hfmt'
      split_ifs at hfmt hfmt'
      · rw [List.mem_singleton.mp hfmt, List.mem_singleton.mp hfmt']
      · have hsix : ∀ x ∈ [strNormal, strSparse], x.length = 6 := by decide
        rw [hsix _ hfmt, hsix _ hfmt']
    simp [downloadText, mwriteArgv, hlen]
  | _ => rw [List.mem_singleton.mp h, List.mem_singleton.mp h']

lemma not_follows_tplRequest (hd : Handle) (buf : Bytes) :
    ¬ (Carries amReqBulkCmd strGetStatus (tplRequest hd buf) ∨
      (isRequest amReqBulkCmd (tplRequest hd buf) ∧
        strVerify <+: sentBytes (tplRequest hd buf))) := by
  have hne : ¬ amReqTplCmd = amReqBulkCmd := by decide
  rintro (⟨h, -⟩ | ⟨h, -⟩)
  · exact hne h
  · exact hne (by simpa [tplRequest, isRequest] using h)

lemma mwrite_issues {files : Files} (junk : ℕ → UInt8) {argv : List Bytes} (argc : ℤ)
    (h : files (argv.getD 0 []) ≠ []) :
    Issues (doCmdMwrtie files junk 0 argv argc ⟨.dev 0, 0, [], 0, 0⟩)
      [⟨.fopen (argv.getD 0 []) false, true⟩, ⟨.libusbOpen (.dev 0), some (0 : Handle)⟩]
      (tplRequest 0 (textBuf 127 (downloadText argv (files (argv.getD 0 [])).length))) := by
  refine issues_call.mpr (.inr ⟨true, _, rfl, ?_⟩)
  change Issues (if (files (argv.getD 0 [])).length = 0 then _ else _) _ _
  rw [if_neg (by rwa [List.length_eq_zero_iff])]
  refine Issues.bind ?_ _
  exact amlUsbTplCmd_issues (commandRom ⟨.dev 0, 0, [], 0, 0⟩ (snprintf128 _)) rfl
    (dev_ne_null 0) (dev_ne_invalid 0) 0

/-- A command that is not rejected gets to send its text. -/
lemma run_issues {files : Files} {c : TextCommand} (hrej : ¬ c.Rejected files) (junk : ℕ → UInt8) :
    ∃ t o, Issues (c.run files junk 0 0 0) t o ∧ isCommand o ∧ ¬ c.Follows o := by
  cases c with
  | mwrite argv argc =>
    exact ⟨_, _, mwrite_issues junk argc hrej, rfl, not_follows_tplRequest _ _⟩
  | partition argv argc =>
    change ∃ t o, Issues (_ >>= _) t o ∧ _
    by_cases hargc : 2 < argc
    · rw [if_pos hargc]
      exact ⟨_, _, mwrite_issues junk _ hrej, rfl, not_follows_tplRequest _ _⟩
    · -- the file cannot be looked into, and then it can be opened
      rw [if_neg hargc, Prog.assoc]
      have hsparse : Runs (isFileFormatSparse files (argv.getD 1 []))
          [⟨.fopen (argv.getD 1 []) false, false⟩] false :=
        runs_call.mpr ⟨false, [], rfl, .ret false⟩
      exact ⟨_, _, hsparse.issues_bind (mwrite_issues junk _ hrej), rfl,
        not_follows_tplRequest _ _⟩
  | mread argv argc =>
    have hargc : ¬ argc ≤ 3 := fun h => hrej (.inl h)
    have hcheck : ¬ (argv.getD 2 [] ≠ strNormal ∨ strtoll (argv.getD 3 []) 0 = 0) :=
      fun h => hrej (.inr h)
    have hbulk := amlUsbBulkCmd_issues 0
      (commandRom ⟨.dev 0, 0, [], 0, 0⟩ (blit (List.replicate 128 0) 0
        ((uploadText argv (strtoll (argv.getD 3 []) 0)).take 66))) rfl (dev_ne_null 0)
      (dev_ne_invalid 0) 0
    change ∃ t o, Issues (if argc ≤ 3 then _ else _) t o ∧ _
    rw [if_neg hargc, if_neg hcheck]
    exact ⟨_, _, hbulk.bind _, rfl, fun h => h⟩
  | tplcmd cmd =>
    have htpl := amlUsbTplCmd_issues ⟨.dev 0, 68, textBuf 66 cmd, 0, 0⟩ rfl
      (dev_ne_null 0) (dev_ne_invalid 0) 0
    exact ⟨_, _, htpl.bind _, rfl, fun h => h⟩
  | bulkcmd cmd =>
    have hbulk := amlUsbBulkCmd_issues 0
      (commandRom ⟨.dev 0, 0, [], 0, 0⟩ (blit (List.replicate 128 0) 0 (cmd.take 66))) rfl
      (dev_ne_null 0) (dev_ne_invalid 0) 0
    exact ⟨_, _, hbulk.bind _, rfl, fun h => h⟩

/-- A rejected command does not return 0. -/
lemma mwrite_rejected {files : Files} {junk : ℕ → UInt8} {turns : ℕ} {argv : List Bytes} {argc : ℤ}
    {rom : AmlUsbRomRW} (h : files (argv.getD 0 []) = []) {t : Trace} {r : ℤ}
    (hr : Runs (doCmdMwrtie files junk turns argv argc rom) t r) : r ≠ 0 := by
  obtain ⟨ok, t', -, hr⟩ := runs_call.mp hr
  cases (ok : Bool) with
  | false =>
    obtain ⟨-, rfl⟩ := runs_ret.mp hr
    decide
  | true =>
    change Runs (if (files (argv.getD 0 [])).length = 0 then _ else _) _ _ at hr
    rw [if_pos (by rw [h]; rfl)] at hr
    obtain ⟨-, rfl⟩ := runs_ret.mp hr
    decide

lemma run_rejected {files : Files} {c : TextCommand} (hrej : c.Rejected files) {junk : ℕ → UInt8}
    {turns uploads n : ℕ} {t : Trace} {r : ℤ} (hr : Runs (c.run files junk turns uploads n) t r) :
    r ≠ 0 := by
  cases c with
  | mwrite argv argc => exact mwrite_rejected hrej hr
  | partition argv argc =>
    obtain ⟨fmt, t₁, t₂, -, -, hr⟩ := runs_bind.mp hr
    have hempty : files ((mwriteArgv argv argc fmt).getD 0 []) = [] := hrej
    exact mwrite_rejected hempty hr
  | mread argv argc =>
    change Runs (if argc ≤ 3 then _ else _) _ _ at hr
    by_cases hargc : argc ≤ 3
    · rw [if_pos hargc] at hr
      obtain ⟨-, rfl⟩ := runs_ret.mp hr
      decide
    · rw [if_neg hargc, if_pos (hrej.resolve_left hargc)] at hr
      obtain ⟨-, rfl⟩ := runs_ret.mp hr
      decide
  | tplcmd cmd => exact hrej.elim
  | bulkcmd cmd => exact hrej.elim

/-- **Texts arrive whole exactly up to 63 characters**; a negative size of `mread` is not the one
in its text. -/
theorem delivers_iff_fits (files : Files) (c : TextCommand) : Delivers files c ↔ Fits files c := by
  constructor
  · intro hdel
    by_cases hrej : c.Rejected files
    · exact .inl hrej
    obtain ⟨t, o, hissues, hcmd, hnot⟩ := run_issues hrej fun _ => 0
    obtain ⟨hsized, text, htext, hcarries⟩ :=
      (hdel.whole _ _ _ _ t o hissues hcmd).resolve_right hnot
    refine .inr ⟨hsized, fun text' htext' => ?_⟩
    rw [texts_length htext' htext]
    exact hcarries.length_le
  · rintro (hrej | ⟨hsized, hlen⟩)
    · have hcalls : ∀ junk turns uploads n,
          Calls (fun o => isCommand o = false) (c.run files junk turns uploads n) :=
        fun junk turns uploads n => run_calls (fun _ h => h) c n (absurd hrej) (absurd hrej)
          (absurd hrej)
      refine ⟨fun junk turns uploads n t o hi hcmd => ?_, fun _ junk turns uploads n =>
        ⟨fun t o hi => (hcalls junk turns uploads n).issues hi, fun t r hr => run_rejected hrej hr⟩⟩
      rw [(hcalls junk turns uploads n).issues hi] at hcmd
      cases hcmd
    · refine ⟨fun junk turns uploads n t o hi => ?_, fun ⟨text, htext, hlong⟩ => ?_⟩
      · refine (run_calls (G := fun o => isCommand o →
          (c.Sized ∧ ∃ text ∈ c.texts files, Carries c.req text o) ∨ c.Follows o)
          (fun o ho hcmd => ?_) c n ?_ ?_ ?_).issues hi
        · rw [ho] at hcmd
          cases hcmd
        · intro _ text htext k hd hk hreq _
          rw [hreq]
          exact .inl ⟨hsized, text, htext, (tplRequest_carries hk hd).mpr (hlen text htext)⟩
        · intro _ text htext k hd s timeout hk hreq hs _
          rw [hreq]
          exact .inl ⟨hsized, text, htext, hs, fun he => absurd he (by decide),
            (textBuf_payload hk).mpr (hlen text htext)⟩
        · exact fun _ o ho _ => .inr ho
      · exact absurd (hlen text htext) (by omega)

/-- `mread` of 2 MiB of a partition with a name of 36 letters. -/
def longUpload : List Bytes :=
  [strStore, List.replicate 36 97, strNormal, ascii ['0', 'x', '2', '0', '0', '0', '0', '0']]

set_option maxRecDepth 10000 in
/-- The device is told a sixteenth of the size. -/
theorem longUpload_cut :
    (∃ t o, Issues (TextCommand.run (fun _ => []) (fun _ => 0) 0 0 0 (.mread longUpload 4)) t o ∧
      isCommand o ∧ sentBytes o = uploadText longUpload 0x20000) ∧
      ¬ Delivers (fun _ => []) (.mread longUpload 4) := by
  have hbulk := amlUsbBulkCmd_issues 0
    (commandRom ⟨.dev 0, 0, [], 0, 0⟩ (blit (List.replicate 128 0) 0
      ((uploadText longUpload 0x200000).take 66))) rfl (dev_ne_null 0) (dev_ne_invalid 0) 0
  have hissues : Issues (TextCommand.run (fun _ => []) (fun _ => 0) 0 0 0 (.mread longUpload 4))
      _ _ :=
    hbulk.bind _
  refine ⟨⟨_, _, hissues, rfl, by decide⟩, fun hdel => ?_⟩
  obtain ⟨-, text, htext, hcarries⟩ :=
    (hdel.whole _ _ _ _ _ _ hissues rfl).resolve_right fun h => h
  rw [List.mem_singleton.mp htext] at hcarries
  exact absurd hcarries.length_le (by decide)

end AmlogicUpdate.TextCommands

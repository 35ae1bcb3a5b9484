import AmlogicUpdate.ChipId
import AmlogicUpdate.LostSuccess

/-!
A run for each of the commands whose success `main` does not return.

The device answers every transfer; a search finds a board in every place that can be asked for.
-/

namespace AmlogicUpdate.LostRuns

open Interaction CData Usb AmlLibusb UsbRomDrv Wire Scan Host Mwrite CommandText Serial SerialReply
  SerialLeak Arguments ChipCommands ChipPage ChipId CommandLine ExitStatus LostSuccess
open Update (malloc)
open TextCommands (updateSubCmdTplcmd tplcmdTurn)

/-- What is returned of a success instead of 0. -/
def lostStatus (cmd : Bytes) : ℤ := if cmd = cmdChipinfo then 64 else noResult

def Hides (cmd : Bytes) (o : Outcome) : Prop := o.report = some true ∧ o.status = lostStatus cmd

lemma lostStatus_ne (cmd : Bytes) : lostStatus cmd ≠ 0 := by
  unfold lostStatus
  split_ifs
  · decide
  · decide

lemma Hides.not_agrees {cmd : Bytes} {o : Outcome} (h : Hides cmd o) : ¬ o.Agrees :=
  fun ha => lostStatus_ne cmd (h.2 ▸ (ha true h.1).mp rfl)

lemma dropped_hides {α : Type} {cmd : Bytes} (hcmd : cmd ≠ cmdChipinfo) {success : α → Bool}
    {p : HostProgram α} (h : Can (fun a => success a = true) p) :
    Can (Hides cmd) (dropped success p) :=
  can_bind (h.mono fun _ ha => can_ret ⟨congrArg some ha, (if_neg hcmd).symm⟩)

/-! ### The routines -/

section Routines

variable {n : ℕ} {buf : Bytes}

lemma resetDev_can (n : ℕ) : Can (· = 0) (amlResetDev ⟨.dev n, 0, [], 0, 0⟩) := by
  unfold amlResetDev
  rw [if_neg (dev_ne_null n)]
  refine can_opened (dev_ne_null n) resetDev (fun _ => rfl) 0 ?_
  exact can_call (none : Option LibusbError) (can_ret rfl)

/-- Up to eight bytes come of a device that is asked what it is. -/
lemma identifyHost_can {len : ℕ} (hlen : len ≤ 8) (d : { l : Bytes // l.length ≤ len })
    (dataSize address : ℕ) :
    Can (· = (0, ⟨.dev n, len, blit buf 0 d.1, d.1.length, address⟩))
      (amlUsbIdentifyHost ⟨.dev n, len, buf, dataSize, address⟩) := by
  unfold amlUsbIdentifyHost
  refine can_opened (dev_ne_null n) (fun drv =>
    usbDeviceIoControl drv .identifyHost none 0 (some buf) len dataSize) (fun _ => rfl) 0 ?_
  rw [identify_eq (dev_ne_invalid n) 0 buf hlen]
  refine can_call (⟨none, d⟩ : InResult len) (can_ret ?_)
  rw [show usbControlResult none d.1.length = (d.1.length : ℤ) from rfl, ioctlResult_sent]
  rfl

lemma identify_can {junk : ℕ → UInt8} {len : ℤ} (hlow : 4 ≤ len) (hhigh : len ≤ 8) :
    Can (fun r => isZero r.1 = true)
      (updateSubCmdIdentifyHost junk ⟨.dev n, 0, [], 0, 0⟩ len none) := by
  have hsize : u32 len ≤ 8 ∧ 1 ≤ u32 len := by
    unfold u32
    omega
  unfold updateSubCmdIdentifyHost
  dsimp only
  rw [if_neg (by omega)]
  refine can_bind ((identifyHost_can hsize.1 ⟨[1], hsize.2⟩ 0 0).mono fun r hr => ?_)
  subst hr
  dsimp only
  rw [if_neg (not_not.mpr rfl), blit_zero, if_neg (by simp)]
  exact can_ret rfl

lemma tplstat_can (n : ℕ) : Can (fun r => isZero r.1 = true)
    (amlUsbReadStatus ⟨.dev n, 64, List.replicate 64 0, 0, 0⟩) :=
  ⟨_, _, readStatus_exchange n [] _ ⟨[], by decide⟩, rfl⟩

lemma tplcmd_can (n : ℕ) (s : Bytes) :
    Can (fun ret => isZero ret = true) (updateSubCmdTplcmd ⟨.dev n, 0, [], 0, 0⟩ s) := by
  refine can_bind ⟨_, _, tplCmd_exchange n (textBuf 66 s), ?_⟩
  dsimp only
  rw [if_pos rfl]
  refine ⟨_, 0, runs_iterate_done (runs_bind.mpr ⟨_, _, [], rfl,
    readStatus_exchange n [] _ ⟨[], by decide⟩, .ret _⟩), rfl⟩

/-- An empty file is burned at once. -/
lemma burn_can {files : Files} {junk : ℕ → UInt8} {seqNum : ℕ} (hfile : files strUBoot = [])
    (n : ℕ) : Can (fun ret => decide (0 ≤ ret) = true) (Burn.amlUsbburn files junk seqNum (.dev n)
      strUBoot 0x49000000 strNand 0x12345678 0x2000 0) := by
  have hturn : ∀ (memType : Bytes) (nBytes bulkSize : ℕ) (cksum : ℤ) (l : Burn.BurnLoop),
      l.fileSize = 0 → Runs (Burn.burnTurn memType nBytes bulkSize cksum l) []
      (.done (0, l.offset)) := by
    intro memType nBytes bulkSize cksum l hl
    unfold Burn.burnTurn
    rw [if_neg (not_not.mpr hl)]
    exact .ret _
  unfold Burn.amlUsbburn
  rw [if_neg (dev_ne_null n)]
  refine can_bind (can_call true (can_ret ?_))
  rw [if_pos rfl]
  refine can_bind ⟨[], (0, 0), runs_iterate_done (hturn _ _ _ _ _ ?_), can_ret ?_⟩
  · rw [hfile]
    rfl
  · decide

/-- A whole page comes, and is shown within its end. -/
lemma chipinfoPage_can {junk : ℕ → UInt8} {nBytes startOffset : ℤ} (hlen : 0 ≤ nBytes)
    (hoff : 0 ≤ startOffset) (hfits : startOffset + 4 * ((nBytes + 3) / 4) ≤ 64) (n : ℕ)
    (pageIndex : ℤ) : Can (· = 64) (chipinfoPage junk ⟨.dev n, 0, [], 0, 0⟩ pageIndex strDash nBytes
      startOffset) := by
  have hsum : i32 (startOffset + nBytes) ≤ 64 := by
    unfold i32
    omega
  have hpage := @getChipinfo_run _ (malloc junk 64) 64 pageIndex 8000 (dev_ne_null n) le_rfl 0
    ⟨none, List.replicate 64 0, by decide⟩
  have hcount : usbControlResult none (List.replicate 64 (0 : UInt8)).length = 64 := by decide
  unfold chipinfoPage
  rw [if_neg (by omega), if_neg (by omega)]
  refine can_bind (can_left ⟨_, _, hpage, ?_⟩)
  dsimp only
  rw [hcount, if_neg (by decide), if_pos rfl, if_neg]
  · exact can_ret rfl
  · rintro ⟨i, hi, hge⟩
    have hlt := mem_viewed.mp hi
    omega

lemma element_can {argv : List Bytes} {i : ℕ} (h : i < argv.length) :
    Can (· = argv.getD i []) (element argv i) := ⟨_, _, element_run h, rfl⟩

lemma optional_can {argv : List Bytes} {base : ℕ} {cmdArgc : ℤ}
    (hargc : cmdArgc = (argv.drop base).length) (i : ℕ) :
    Can (· = (argv.drop base)[i]?) (optional (elements argv base) cmdArgc i) := by
  unfold Arguments.optional
  by_cases hle : cmdArgc ≤ i
  · rw [if_pos hle]
    exact can_ret (List.getElem?_eq_none (by omega)).symm
  · rw [List.length_drop] at hargc
    have hlt : base + i < argv.length := by omega
    rw [if_neg hle]
    refine can_bind ((element_can hlt).mono fun s hs => can_ret ?_)
    rw [hs, List.getElem?_drop, List.getD_eq_getElem?_getD, List.getElem?_eq_getElem hlt]
    rfl

lemma chipinfo_can {junk : ℕ → UInt8} {argv : List Bytes} {base : ℕ} {cmdArgc : ℤ}
    (hargc : cmdArgc = (argv.drop base).length) (h : Shown (argv.drop base)) (n : ℕ) :
    Can (· = 64) (updateSubCmdGetChipinfo junk ⟨.dev n, 0, [], 0, 0⟩ (elements argv base)
      cmdArgc) := by
  have hfirst : base + 0 < argv.length := by
    have hpos := List.length_pos_of_ne_nil h.page
    rw [List.length_drop] at hpos
    omega
  unfold updateSubCmdGetChipinfo
  refine can_bind ((element_can hfirst).mono fun pageIndex _ => ?_)
  refine can_bind ((optional_can hargc 1).mono fun saveFile hsave => ?_)
  refine can_bind ((optional_can hargc 2).mono fun nBytes hn => ?_)
  refine can_bind ((optional_can hargc 3).mono fun startOffset hs => ?_)
  subst hsave hn hs
  rw [h.screen]
  exact chipinfoPage_can h.length h.offset h.fits n _

end Routines

/-! ### Serials -/

section Serials

variable {target usid b : Bytes} {t : HostTrace} {n : ℕ}

/-- A serial of one character. -/
lemma serialOf_version (b : Bytes) : serialOf (blit b 0 versionReply.1) = [49] := by
  rw [blit_zero, show versionReply.1 = strLabel ++ [49, 41] from rfl, List.append_assoc,
    serialOf_label]
  rfl

lemma commandDevice_can {entry : Bytes} {busses : List UsbBus}
    (h : amlGetDeviceHandle worldCup entry busses = .dev n) :
    Can (· = .dev n) (commandDevice entry) := by
  refine can_bind (can_call busses (can_ret ?_))
  rw [h, if_neg (dev_ne_null n)]
  refine can_bind (can_left ((identifyHost_can (by decide) ⟨[0, 0, 0, 16], by decide⟩ 0 0).mono
    fun r hr => ?_))
  subst hr
  dsimp only
  rw [if_neg (not_not.mpr rfl), if_neg]
  · exact can_ret rfl
  · exact not_not.mpr rfl

/-- The serial is read with the second of two exchanges. -/
lemma getSn_can (hdev : Can (· = .dev n) (commandDevice target)) (b : Bytes) :
    Can (fun r => decide (0 < r.1) = true) (amlGetSn target b) := by
  obtain ⟨t, dev, hrun, rfl⟩ := hdev
  have hv := @sendCommand_exchange strWriteVersion b 50 (by decide) (by decide) n versionReply
  have hsecond := @sendCommand_exchange strReadUsid
    (overlay b ((exchange n strWriteVersion b versionReply).map leftEv)) 50 (by decide)
    (by decide) n versionReply
  refine ⟨_, _, (getSn_after hrun (dev_ne_null n) hv _ _).mpr
    (runs_bind.mpr ⟨_, _, [], rfl, hsecond, .ret _⟩), ?_⟩
  have hlen := congrArg Prod.fst (getSn_returned (blit (overlay b
    ((exchange n strWriteVersion b versionReply).map leftEv)) 0 versionReply.1))
  rw [serialOf_version] at hlen
  exact decide_eq_true (hlen ▸ Int.one_pos)

lemma setSn_can (hdev : Can (· = .dev n) (commandDevice target)) (hlen : usid.length ≤ 108)
    (b : Bytes) : Can (fun len => decide (0 < len) = true) (amlSetSn b target usid) := by
  obtain ⟨t, dev, hrun, rfl⟩ := hdev
  have hv := @sendCommand_exchange strWriteVersion b 50 (by decide) (by decide) n versionReply
  have hsecond := @sendCommand_exchange (strWriteUsid ++ usid)
    (overlay b ((exchange n strWriteVersion b versionReply).map leftEv)) 50
    (by rw [serial_length]; omega) (by decide) n versionReply
  refine ⟨_, _, (setSn_after hrun (dev_ne_null n) hv hlen _ _).mpr
    (runs_bind.mpr ⟨_, _, [], rfl, hsecond, .ret _⟩), ?_⟩
  rw [setSn_result, serialOf_version]
  rfl

lemma deviceName_ne_nil (location : UInt32) (devnum : UInt8) : deviceName location devnum ≠ [] := by
  rw [deviceName_eq]
  intro h
  have hnil := List.map_eq_nil_iff.mp h
  exact absurd (List.append_eq_nil_iff.mp hnil).2 (List.cons_ne_nil _ _)

/-- Each of the boards that are listed for a serial has an entry that finds it. -/
lemma boards_entry {i : ℕ} (h : i < 8) : ∃ n,
    (amlScanUsbX3Devices worldCup (fun _ => []) 8 boards).2 i ≠ [] ∧
      amlGetDeviceHandle worldCup ((amlScanUsbX3Devices worldCup (fun _ => []) 8 boards).2 i)
        boards = .dev n := by
  obtain ⟨hcount, -, hentry, hother⟩ := scan_selects (by decide : (places boards).Nodup)
    (fun _ => []) 8 (Prod.mk.eta (p := amlScanUsbX3Devices worldCup (fun _ => []) 8 boards)).symm
  have height : (amlScanUsbX3Devices worldCup (fun _ => []) 8 boards).1 = 8 := hcount
  obtain ⟨x, -, hx⟩ := hentry i (by omega)
  refine ⟨x.2.ptr, fun hempty => ?_, hx⟩
  rw [hother _ fun y _ => ?_] at hx
  · cases hx
  · rw [hempty, nameOf]
    exact deviceName_ne_nil _ _

lemma serialDevice_hides {m : Machine} {cmd : Bytes} {argv : List Bytes} {devNo : ℤ}
    (hlow : 0 ≤ devNo) (hhigh : devNo < 8) (hargc : 1 ≤ argv.length) (h : cmd = cmdSkgsn ∨
      (cmd = cmdSkssn ∧ (argv.getD (argv.length - 1) []).length ≤ 108)) :
    Can (Hides cmd) (serialDeviceReport m cmd argv devNo) := by
  obtain ⟨n, hentry, hfind⟩ := boards_entry (by omega : devNo.toNat < 8)
  refine can_bind (can_call boards (can_ret ?_))
  dsimp only
  rw [if_neg (not_or.mpr ⟨not_lt.mpr hlow, not_or.mpr ⟨not_le.mpr hhigh, hentry⟩⟩)]
  rcases h with rfl | ⟨rfl, hlen⟩
  · rw [if_pos rfl]
    exact dropped_hides (by decide) (getSn_can (commandDevice_can hfind) _)
  · rw [if_neg (by decide), if_pos rfl]
    refine can_bind ((element_can (by omega)).mono fun usid hu => dropped_hides (by decide) ?_)
    exact setSn_can (commandDevice_can hfind) (hu ▸ hlen) _

/-- The device is the first without a number, else the one that is named. -/
lemma serialCommand_hides {m : Machine} {cmd : Bytes} {argv : List Bytes} (devNo : ℤ) {k : ℕ}
    (hk : (if cmd = cmdSkssn then 1 else 0) = k)
    (hargs : argv.length = k + 2 ∨ (argv.length = k + 3 ∧ NamesDevice (argv.getD 2 [])))
    (h : cmd = cmdSkgsn ∨ (cmd = cmdSkssn ∧ (argv.getD (argv.length - 1) []).length ≤ 108)) :
    Can (Hides cmd) (serialCommandReport m cmd argv devNo) := by
  unfold serialCommandReport
  dsimp only
  rw [hk]
  rcases hargs with htwo | ⟨hthree, hdev, hlow, hhigh⟩
  · rw [if_pos htwo.symm]
    exact serialDevice_hides le_rfl (by decide) (by omega) h
  · rw [if_neg (by omega), if_pos hthree.symm]
    refine can_bind ((element_can (by omega)).mono fun s hs => ?_)
    subst hs
    rw [if_neg (not_not.mpr hdev)]
    exact serialDevice_hides hlow hhigh (by omega) h

end Serials

/-! ### The commands -/

section Commands

variable {m : Machine} {cmd : Bytes} {argv args : List Bytes} {base : ℕ} {cmdArgc devNo : ℤ}

/-- A lost command hides a success of its device. -/
lemma dispatch_hides (hlost : Lost m.files argv (argv.drop base) cmd)
    (hargc : cmdArgc = (argv.drop base).length) (hlen : 1 ≤ argv.length) (n : ℕ) :
    Can (Hides cmd) (dispatchReport m cmd argv (.dev n) devNo (elements argv base) cmdArgc) := by
  cases hlost with
  | chipinfo h =>
    have hpos := List.length_pos_of_ne_nil h.page
    have hcode : dispatchReport m cmdChipinfo argv (.dev n) devNo (elements argv base) cmdArgc =
        if cmdArgc ≤ 0 then pure unrun else kept (fun ret => decide (0 ≤ ret))
          (updateSubCmdGetChipinfo m.junk ⟨.dev n, 0, [], 0, 0⟩ (elements argv base) cmdArgc) := rfl
    rw [hcode, if_neg (by omega)]
    refine can_bind ((chipinfo_can hargc h n).mono fun ret hret => can_ret ?_)
    subst hret
    exact ⟨rfl, rfl⟩
  | identify hlow hhigh =>
    have hids : Can (· = idLen (argv.drop base)) (if cmdArgc ≠ 0 then do
        let s ← elements argv base 0
        pure (atoi s) else (pure 4 : HostProgram ℤ)) := by
      by_cases hzero : cmdArgc = 0
      · rw [if_neg (not_not.mpr hzero)]
        refine can_ret ?_
        rw [idLen, List.getElem?_eq_none (by omega)]
        rfl
      · rw [List.length_drop] at hargc
        have hlt : base + 0 < argv.length := by omega
        rw [if_pos hzero]
        refine can_bind ((element_can hlt).mono fun s hs => can_ret ?_)
        rw [idLen, List.getElem?_drop, hs, List.getD_eq_getElem?_getD, List.getElem?_eq_getElem hlt]
        rfl
    refine can_bind (hids.mono fun len hl => dropped_hides (by decide) (can_left ?_))
    rw [hl]
    exact identify_can hlow hhigh
  | reset =>
    exact dropped_hides (by decide) (can_left ((resetDev_can n).mono fun _ hr => decide_eq_true hr))
  | tplcmd =>
    refine can_bind ((element_can (by omega)).mono fun s _ => dropped_hides (by decide)
      (can_left ?_))
    exact tplcmd_can n s
  | burn h => exact dropped_hides (by decide) (can_left (burn_can h n))
  | tplstat => exact dropped_hides (by decide) (can_left (tplstat_can n))
  | skgsn h =>
    exact serialCommand_hides devNo (k := 0) rfl h (.inl rfl)
  | skssn h hlong => exact serialCommand_hides devNo (k := 1) rfl h (.inr ⟨rfl, hlong⟩)

/-- With a device of that number attached. -/
lemma runOn_hides (hlow : 0 ≤ devNo) (hhigh : devNo < 16)
    (h : ∀ n, Can (Hides cmd)
      (dispatchReport m cmd argv (.dev n) devNo (elements argv base) cmdArgc)) :
    Can (Hides cmd) (runOnReport m cmd argv .null devNo base cmdArgc) := by
  unfold runOnReport
  rw [if_pos rfl]
  refine can_bind ((updateScan_finds hlow hhigh).mono fun r hr => ?_)
  obtain ⟨hzero, n, hdev⟩ := hr
  dsimp only
  rw [if_neg (not_not.mpr hzero), hdev, Option.getD_some, if_neg (dev_ne_null n)]
  exact h n

lemma Lost.not_info {files : Files} (h : Lost files argv args cmd) :
    cmd ≠ cmdHelp ∧ cmd ≠ cmdScan := by
  cases h
  all_goals exact ⟨by decide, by decide⟩

lemma main_hides (hsel : Selects argv args) (hlost : Lost m.files argv args (argv.getD 1 [])) :
    Can (Hides (argv.getD 1 [])) (mainReport m argv) := by
  have hlen : 2 ≤ argv.length := by
    cases hsel
    all_goals omega
  obtain ⟨hhelp, hscan⟩ := Lost.not_info hlost
  unfold mainReport
  rw [if_neg (by omega)]
  refine can_bind ((element_can (by omega)).mono fun cmd hcmd => ?_)
  subst hcmd
  rw [if_neg hhelp, if_neg hscan]
  cases hsel with
  | alone htwo =>
    rw [if_pos (by omega)]
    refine runOn_hides le_rfl (by decide) (dispatch_hides hlost ?_ (by omega))
    rw [List.length_drop]
    omega
  | device hthree htakes =>
    rw [if_neg (by omega)]
    refine can_bind ((element_can (by omega)).mono fun s hs => ?_)
    subst hs
    cases hdev : deviceArg (argv.getD 2 []) with
    | err =>
      rw [hdev] at htakes
      exact htakes.elim
    | number devNo =>
      rw [hdev] at htakes
      exact runOn_hides (deviceArg_nonneg hdev) htakes
        (dispatch_hides hlost (argc_drop 3 (by omega)) (by omega))
    | path devPath =>
      rw [hdev] at htakes
      obtain ⟨location, devnum, rfl⟩ := htakes
      obtain ⟨t, hr⟩ := getDeviceHandle_finds location devnum
      refine can_bind ⟨t, _, hr, ?_⟩
      exact dispatch_hides hlost (argc_drop 3 (by omega)) (by omega) 0
    | ordinary =>
      rw [hdev] at htakes
      exact htakes.elim
  | first hthree hdev =>
    rw [if_neg (by omega)]
    refine can_bind ((element_can (by omega)).mono fun s hs => ?_)
    subst hs
    rw [hdev]
    exact runOn_hides le_rfl (by decide) (dispatch_hides hlost (argc_drop 2 (by omega)) (by omega))

end Commands

/-- **The status of `main` is what the routine reported exactly if** the command line is none of
those whose success is lost. -/
theorem status_agrees_iff (m : Machine) (argv : List Bytes) :
    statusOf (mainReport m argv) = main m argv ∧
      ((∀ t o, Runs (mainReport m argv) t o → o.Agrees) ↔
        ¬ ∃ args, Selects argv args ∧ Lost m.files argv args (argv.getD 1 [])) := by
  refine ⟨main_report m argv, fun h => ?_, fun h => main_agrees fun args hsel hlost =>
    h ⟨args, hsel, hlost⟩⟩
  rintro ⟨args, hsel, hlost⟩
  obtain ⟨t, o, hr, hhides⟩ := main_hides hsel hlost
  exact hhides.not_agrees (h t o hr)

/-- `update reset` -/
def resetLine : List Bytes := [ascii ['u', 'p', 'd', 'a', 't', 'e'], cmdReset]

/-- `update chipinfo 1` -/
def chipinfoLine : List Bytes := [ascii ['u', 'p', 'd', 'a', 't', 'e'], cmdChipinfo, [49]]

lemma main_runs {m : Machine} {argv : List Bytes} {t : HostTrace} {o : Outcome}
    (hr : Runs (mainReport m argv) t o) : Runs (main m argv) t o.status := by
  rw [← main_report]
  exact runs_bind.mpr ⟨o, t, [], (List.append_nil t).symm, hr, .ret _⟩

/-- A device that was reset, and a page that was shown. -/
theorem status_not_agrees :
    (∃ t, Runs (mainReport noMachine resetLine) t ⟨some true, -1020⟩ ∧
      Runs (main noMachine resetLine) t (-1020)) ∧
    (∃ t, Runs (mainReport noMachine chipinfoLine) t ⟨some true, 64⟩ ∧
      Runs (main noMachine chipinfoLine) t 64) ∧
    ¬ ∀ m argv t o, Runs (mainReport m argv) t o → o.Agrees := by
  have hreset : ∃ t o, Runs (mainReport noMachine resetLine) t o ∧ Hides cmdReset o :=
    main_hides (.alone rfl) .reset
  have hchip : ∃ t o, Runs (mainReport noMachine chipinfoLine) t o ∧ Hides cmdChipinfo o :=
    main_hides (.first le_rfl (by decide)) (.chipinfo
      ⟨by decide, rfl, by decide, by decide, by decide⟩)
  obtain ⟨t, ⟨report, status⟩, hr, hreport, hstatus⟩ := hreset
  obtain ⟨t', ⟨report', status'⟩, hr', hreport', hstatus'⟩ := hchip
  obtain rfl : report = some true := hreport
  obtain rfl : status = -1020 := hstatus
  obtain rfl : report' = some true := hreport'
  obtain rfl : status' = 64 := hstatus'
  refine ⟨⟨t, hr, main_runs hr⟩, ⟨t', hr', main_runs hr'⟩, fun h => ?_⟩
  have hzero := (h _ _ _ _ hr true rfl).mp rfl
  exact absurd hzero (by decide)

end AmlogicUpdate.LostRuns

import AmlogicUpdate.Scan
import AmlogicUpdate.UsbDevices

/-!
`AmlUsbScanX3.cpp` over the lists of `usbcompat.h`: scans that follow one another.

A scan brings the lists in line with what libusb-1.0 says and then walks them. Whatever is said
from one scan to the next, the walk meets only what is allocated, and a device that stays attached
keeps its record, so the pointer that is handed out for a name is the one listed before.
-/

namespace AmlogicUpdate.Rescan

open Heap LinkedHeap Descriptors Usb Busses UsbDevices CData

/-! ### Calls that follow one another -/

/-- A call, with what libusb-1.0 answers it. -/
inductive Call
  | init (ok : Bool)
  | findBusses (lib : Libusb)
  | findDevices (lib : Libusb)

/-- `usb_init`: whether there is a context afterwards. -/
def usbInit (ok : Bool) : Cmd Host Unit := modify fun h => { h with ctx := h.ctx || ok }

def Call.run (A : Allocators) (turns : ℕ) : Call → Cmd Host Unit
  | .init ok => usbInit ok
  | .findBusses lib => do let _ ← usbFindBusses A.bus lib turns
  | .findDevices lib => do let _ ← usbFindDevices A lib turns

def runCalls (A : Allocators) (turns : ℕ) : List Call → Cmd Host Unit
  | [] => pure ()
  | c :: cs => do
    c.run A turns
    runCalls A turns cs

/-- Nothing is registered before the first scan. -/
def Host.start : Host :=
  ⟨false, none, Mem.empty _, Mem.empty _, ⟨Mem.empty _, fun _ => 0, []⟩⟩

/-- A listing that a machine can have: no device twice, and no more than the walks can take. -/
def Plausible (turns : ℕ) (lib : Libusb) : Prop :=
  ∀ devs, lib.deviceList = .ok devs → Distinct lib devs ∧ devs.length ≤ turns

def Call.Plausible (turns : ℕ) : Call → Prop
  | .init _ => True
  | .findBusses lib => Rescan.Plausible turns lib
  | .findDevices lib => Rescan.Plausible turns lib

/-- Whether a device is in a listing, if there is one. -/
def Listed (lib : Libusb) (location : UInt32) (devnum : UInt8) : Prop :=
  ∀ devs, lib.deviceList = .ok devs → devnum ∈ (present lib location devs).map lib.deviceAddress

def Call.Lists (location : UInt32) (devnum : UInt8) : Call → Prop
  | .init _ => True
  | .findBusses lib => Listed lib location devnum
  | .findDevices lib => Listed lib location devnum

/-- A registry that the walks can take. -/
structure Small (turns : ℕ) (R : Registry) : Prop where
  busses : R.busses.length ≤ turns
  devices : ∀ b ∈ R.busses, b.devices.length ≤ turns

section Runs

variable {A : Allocators} {lib : Libusb} {turns : ℕ} {h : Host} {R : Registry}

lemma refines_start : Refines Host.start ⟨[], []⟩ where
  busses := .nil _
  devices := fun _ hb => absurd hb List.not_mem_nil
  lost := fun _ hd => absurd hd List.not_mem_nil
  apart := List.nodup_nil
  locations := List.nodup_nil
  numbers := fun _ hb => absurd hb List.not_mem_nil
  owner := fun _ hb => absurd hb List.not_mem_nil
  held := ⟨⟨[], .refl _, fun _ hx => absurd hx List.not_mem_nil, List.nodup_nil, fun _ =>
    ⟨fun ha => absurd ha Bool.false_ne_true, fun ha => absurd ha List.not_mem_nil⟩⟩, fun _ => rfl⟩
  allBusses := fun _ ha => absurd ha Bool.false_ne_true
  allDevices := fun _ ha => absurd ha Bool.false_ne_true

lemma Added.mem {devs : List ℕ} {added : List Bus} (hadded : Added R (busNumbers lib devs) added) :
    ∀ b ∈ added, b.location ∈ busNumbers lib devs ∧ b.location ∉ R.busses.map Bus.location := by
  intro b hb
  have hloc : b.location ∈ added.map Bus.location := List.mem_map_of_mem hb
  rw [hadded.locations] at hloc
  exact ⟨(List.mem_filter.mp hloc).1, of_decide_eq_true (List.mem_filter.mp hloc).2⟩

/-- Busses in different places of a listing are no more than its devices. -/
lemma small_scanned {devs : List ℕ} {added : List Bus} (hsmall : Small turns R)
    (hadded : Added R (busNumbers lib devs) added)
    (href : Refines h (R.scanned (busNumbers lib devs) added)) (hlen : devs.length ≤ turns) :
    Small turns (R.scanned (busNumbers lib devs) added) := by
  refine ⟨?_, fun b hb => ?_⟩
  · have hsub : (R.scanned (busNumbers lib devs) added).busses.map Bus.location ⊆
        busNumbers lib devs := by
      intro x hx
      obtain ⟨b, hb, rfl⟩ := List.mem_map.mp hx
      rcases List.mem_append.mp hb with hb | hb
      · exact (Added.mem hadded b hb).1
      · exact of_decide_eq_true (List.mem_filter.mp hb).2
    have hle := (href.locations.subperm hsub).length_le
    rw [List.length_map] at hle
    exact hle.trans ((busNumbers_length lib devs).trans hlen)
  · rcases List.mem_append.mp hb with hb | hb
    · rw [hadded.devices b hb]
      exact Nat.zero_le _
    · exact hsmall.devices b (List.mem_filter.mp hb).1

/-! ### What calls leave of a registry -/

/-- What calls leave of a registry: devices that stay listed have the records they had, and what
is lost stays lost. -/
structure Later (cs : List Call) (R R' : Registry) : Prop where
  keeps : ∀ b ∈ R.busses, ∀ d ∈ b.devices, (∀ c ∈ cs, c.Lists b.location d.2.devnum) →
    ∃ b' ∈ R'.busses, b'.location = b.location ∧ d ∈ b'.devices
  lost : R.lost <+: R'.lost

lemma Later.refl (cs : List Call) (R : Registry) : Later cs R R :=
  ⟨fun b hb _ hd _ => ⟨b, hb, rfl, hd⟩, List.prefix_refl _⟩

lemma Later.trans {cs cs' : List Call} {R' R'' : Registry} (h₁ : Later cs R R')
    (h₂ : Later cs' R' R'') : Later (cs ++ cs') R R'' := by
  refine ⟨fun b hb d hd hlists => ?_, h₁.lost.trans h₂.lost⟩
  obtain ⟨b', hb', hloc, hd'⟩ := h₁.keeps b hb d hd fun c hc =>
    hlists c (List.mem_append_left _ hc)
  obtain ⟨b'', hb'', hloc', hd''⟩ := h₂.keeps b' hb' d hd' fun c hc => by
    rw [hloc]
    exact hlists c (List.mem_append_right _ hc)
  exact ⟨b'', hb'', hloc'.trans hloc, hd''⟩

/-- The listings that calls of `usb_find_busses` can get, the last one first. -/
def listings : List Call → List (List ℕ)
  | [] => []
  | .findBusses lib :: cs => listings cs ++ lib.deviceList.toOption.toList
  | _ :: cs => listings cs

lemma listings_append (cs cs' : List Call) :
    listings (cs ++ cs') = listings cs' ++ listings cs := by
  induction cs with
  | nil => exact (List.append_nil _).symm
  | cons c cs ih =>
    cases c with
    | findBusses lib =>
      rw [List.cons_append, listings, listings, ih, List.append_assoc]
    | init ok => exact ih
    | findDevices lib => exact ih

/-- The listings that calls have not given back, next to those before: some that
`usb_find_busses` got, when memory for a bus was refused. -/
def Kept (A : Allocators) (cs : List Call) (lists lists' : List (List ℕ)) : Prop :=
  ∃ l, lists' = l ++ lists ∧ l.Sublist (listings cs) ∧ (l ≠ [] → ∃ n, A.bus.fails n = true)

lemma Kept.refl (A : Allocators) (cs : List Call) (lists : List (List ℕ)) :
    Kept A cs lists lists :=
  ⟨[], rfl, List.nil_sublist _, fun h => absurd rfl h⟩

lemma Kept.trans {cs cs' : List Call} {lists lists' lists'' : List (List ℕ)}
    (h₁ : Kept A cs lists lists') (h₂ : Kept A cs' lists' lists'') :
    Kept A (cs ++ cs') lists lists'' := by
  obtain ⟨l, rfl, hl, hwhy⟩ := h₁
  obtain ⟨l', rfl, hl', hwhy'⟩ := h₂
  refine ⟨l' ++ l, (List.append_assoc _ _ _).symm, listings_append cs cs' ▸ hl'.append hl, ?_⟩
  cases l with
  | nil => rwa [List.append_nil]
  | cons devs l => exact fun _ => hwhy (List.cons_ne_nil _ _)

/-- A device that is listed is on a bus of the listing. -/
lemma mem_busNumbers {devs : List ℕ} {location : UInt32} {devnum : UInt8}
    (h : devnum ∈ (present lib location devs).map lib.deviceAddress) :
    location ∈ busNumbers lib devs := by
  obtain ⟨d, hd, -⟩ := List.mem_map.mp h
  obtain ⟨hd, hloc⟩ := List.mem_filter.mp hd
  exact List.mem_eraseDups.mpr (List.mem_map.mpr ⟨d, hd, of_decide_eq_true hloc⟩)

lemma later_findBusses {devs : List ℕ} {added : List Bus} (hdevs : lib.deviceList = .ok devs) :
    Later [.findBusses lib] R (R.scanned (busNumbers lib devs) added) := by
  refine ⟨fun b hb d hd hlists => ⟨b, List.mem_append_right _ ?_, rfl, hd⟩,
    List.prefix_append _ _⟩
  exact List.mem_filter.mpr ⟨hb, decide_eq_true
    (mem_busNumbers (hlists _ List.mem_cons_self devs hdevs))⟩

lemma later_findDevices {devs : List ℕ} {bs bs' left : List Bus} {n : ℤ} {lost : Links UsbDevice}
    (hdevs : lib.deviceList = .ok devs) (hall : AllScanned lib devs bs bs' n) :
    Later [.findDevices lib] ⟨bs ++ left, lost⟩ ⟨bs' ++ left, lost⟩ := by
  refine ⟨fun b hb d hd hlists => ?_, List.prefix_refl _⟩
  rcases List.mem_append.mp hb with hb | hb
  · obtain ⟨b', hb', hrest⟩ := hall.keeps hb hd (hlists _ List.mem_cons_self devs hdevs)
    exact ⟨b', List.mem_append_left _ hb', hrest⟩
  · exact ⟨b, List.mem_append_right _ hb, rfl, hd⟩

lemma yields_init {ok : Bool} {Q : Unit → Host → Prop} :
    Yields (usbInit ok) h Q ↔ Q () { h with ctx := h.ctx || ok } :=
  yields_of_run rfl

lemma refines_ctx (href : Refines h R) (ctx : Bool) : Refines { h with ctx := ctx } R :=
  ⟨href.busses, href.devices, href.lost, href.apart, href.locations, href.numbers, href.owner,
    href.held, href.allBusses, href.allDevices⟩

/-- What every call preserves. -/
def After (A : Allocators) (turns : ℕ) (cs : List Call) (h : Host) (R : Registry) (h' : Host) :
    Prop :=
  ∃ R', Refines h' R' ∧ Small turns R' ∧ Later cs R R' ∧ Kept A cs h.held.lists h'.held.lists

lemma findBusses_after (A : Allocators) (href : Refines h R) (hsmall : Small turns R)
    (hlib : Plausible turns lib) :
    Yields (usbFindBusses A.bus lib turns) h fun _ h' =>
      After A turns [.findBusses lib] h R h' := by
  cases hctx : h.ctx with
  | false =>
    have hget : (get : Cmd Host Host).run h = some (h, h) := rfl
    rw [usbFindBusses, yields_bind, yields_of_run hget, hctx, if_pos (by decide), yields_pure]
    exact ⟨R, href, hsmall, .refl _ _, .refl _ _ _⟩
  | true =>
    refine (usbFindBusses_spec A.bus lib href hctx hsmall.busses fun devs hdevs =>
      (hlib devs hdevs).2).mono ?_
    rintro r h' ⟨-, ⟨-, href', ⟨hheld, -⟩ | ⟨⟨devs, hdevs, hheld⟩, hrefused⟩⟩ |
      ⟨devs, added, hdevs, hadded, href', hheld, -⟩⟩
    · exact ⟨R, href', hsmall, .refl _ _, hheld ▸ .refl _ _ _⟩
    · refine ⟨R, href', hsmall, .refl _ _, [devs], congrArg Held.lists hheld, ?_, fun _ => hrefused⟩
      rw [listings, listings, hdevs]
      exact .refl _
    · exact ⟨_, href', small_scanned hsmall hadded href' (hlib devs hdevs).2,
        later_findBusses hdevs, hheld ▸ .refl _ _ _⟩

lemma findDevices_after (hA : ∀ n, A.block.fails n = false) (href : Refines h R)
    (hsmall : Small turns R) (hlib : Plausible turns lib) :
    Yields (usbFindDevices A lib turns) h fun _ h' =>
      After A turns [.findDevices lib] h R h' := by
  cases hctx : h.ctx with
  | false =>
    have hget : (get : Cmd Host Host).run h = some (h, h) := rfl
    rw [usbFindDevices, yields_bind, yields_of_run hget, hctx, if_pos (by decide), yields_pure]
    exact ⟨R, href, hsmall, .refl _ _, .refl _ _ _⟩
  | true =>
    refine (usbFindDevices_spec A lib href hctx hA (fun devs hdevs => (hlib devs hdevs).1)
      hsmall.busses hsmall.devices fun devs hdevs => (hlib devs hdevs).2).mono ?_
    rintro r h' (⟨rfl, -⟩ | ⟨hlists, devs, bs, bs', left, n, hdevs, hsplit, hall, href', -⟩)
    · exact ⟨R, href, hsmall, .refl _ _, .refl _ _ _⟩
    · obtain ⟨busses, lost⟩ := R
      dsimp only at hsplit href'
      subst hsplit
      refine ⟨_, href', ⟨?_, fun b hb => ?_⟩, later_findDevices hdevs hall, hlists ▸ .refl _ _ _⟩
      · have hle := hsmall.busses
        rw [List.length_append] at hle ⊢
        rwa [hall.length_eq]
      · rcases List.mem_append.mp hb with hb | hb
        · exact (hall.devices_le (fun b hb => href'.numbers b (List.mem_append_left _ hb))
            b hb).trans (hlib devs hdevs).2
        · exact hsmall.devices b (List.mem_append_right _ hb)

/-- What one call leaves. -/
lemma run_after (hA : ∀ n, A.block.fails n = false) (href : Refines h R) (hsmall : Small turns R)
    {c : Call} (hc : c.Plausible turns) :
    Yields (c.run A turns) h fun _ h' => After A turns [c] h R h' := by
  cases c with
  | init ok =>
    exact yields_init.mpr ⟨R, refines_ctx href _, hsmall, .refl _ _, .refl _ _ _⟩
  | findBusses lib =>
    rw [Call.run, yields_bind]
    exact (findBusses_after A href hsmall hc).mono fun _ _ h' => yields_pure.mpr h'
  | findDevices lib =>
    rw [Call.run, yields_bind]
    exact (findDevices_after hA href hsmall hc).mono fun _ _ h' => yields_pure.mpr h'

lemma runCalls_after (hA : ∀ n, A.block.fails n = false) {cs : List Call}
    (hcs : ∀ c ∈ cs, c.Plausible turns) (href : Refines h R) (hsmall : Small turns R) :
    Yields (runCalls A turns cs) h fun _ h' => After A turns cs h R h' := by
  induction cs generalizing h R with
  | nil => exact yields_pure.mpr ⟨R, href, hsmall, .refl _ _, .refl _ _ _⟩
  | cons c cs ih =>
    rw [runCalls, yields_bind]
    refine (run_after hA href hsmall (hcs c List.mem_cons_self)).mono ?_
    rintro _ h₁ ⟨R₁, href₁, hsmall₁, hlater₁, hkept₁⟩
    refine (ih (fun c hc => hcs c (List.mem_cons_of_mem _ hc)) href₁ hsmall₁).mono ?_
    rintro _ h₂ ⟨R₂, href₂, hsmall₂, hlater₂, hkept₂⟩
    exact ⟨R₂, href₂, hsmall₂, hlater₁.trans hlater₂, hkept₁.trans hkept₂⟩

end Runs

/-! ### The walk over the lists -/

open Scan (Target Walk Candidates worldCup isAmlogic deviceName matching nameOf places)

/-- A device as the walk sees it. -/
def seen (d : ℕ × UsbDevice) : Scan.UsbDevice :=
  ⟨d.1, d.2.descriptor.idVendor, d.2.descriptor.idProduct, d.2.devnum⟩

def view (R : Registry) : List Scan.UsbBus :=
  R.busses.map fun b => ⟨b.location, b.devices.map seen⟩

/-- The inner loop of `scanDevices`, from a device on. -/
def scanBus (scan : Target) : ℕ → Option ℕ → Walk → Cmd Host (Walk ⊕ Device)
  | _, none, s => pure (.inl s)
  | 0, some _, _ => failure
  | n + 1, some dev, s => do
    let c ← onDevices (load dev)
    if !isAmlogic (seen (dev, c.val)) then scanBus scan n c.next s
    else
      -- `find_devices` has set `dev->bus`
      let bus ← onBusses (load c.val.bus)
      let buf := deviceName bus.val.location c.val.devnum
      match scan.target with
      | none =>
        if scan.maxDevices ≤ s.i then scanBus scan n c.next s
        else scanBus scan n c.next ⟨s.i + 1, Function.update s.candidates s.i buf⟩
      | some target =>
        if buf = target then pure (.inr (.dev dev))
        else scanBus scan n c.next { s with i := s.i + 1 }

/-- The outer loop, from a bus on. -/
def scanBusses (scan : Target) (turns : ℕ) : ℕ → Option ℕ → Walk → Cmd Host (Walk ⊕ Device)
  | _, none, s => pure (.inl s)
  | 0, some _, _ => failure
  | n + 1, some bus, s => do
    let c ← onBusses (load bus)
    match ← scanBus scan turns c.val.devices s with
    | .inl s => scanBusses scan turns n c.next s
    | .inr dev => pure (.inr dev)

/-- What libusb-1.0 answers a scan. -/
structure Answers where
  init : Bool
  busses : Libusb
  devices : Libusb

def Answers.calls (lib : Answers) : List Call :=
  [.init lib.init, .findBusses lib.busses, .findDevices lib.devices]

def scanDevices (A : Allocators) (turns : ℕ) (lib : Answers) (scan : Target) (s : Walk) :
    Cmd Host (Walk ⊕ Device) := do
  runCalls A turns lib.calls
  let h ← get
  scanBusses scan turns turns h.usbBusses s

def amlScanUsbX3Devices (A : Allocators) (turns : ℕ) (lib : Answers) (vendorName : Bytes)
    (candidateDevices : Candidates) (maxDevices : ℤ) : Cmd Host (ℤ × Candidates) :=
  if vendorName ≠ worldCup then pure (-1, candidateDevices)
  else do
    match ← scanDevices A turns lib ⟨none, maxDevices⟩ ⟨0, candidateDevices⟩ with
    | .inl s => pure (s.i, s.candidates)
    | .inr _ => pure (0, candidateDevices)

def amlGetDeviceHandle (A : Allocators) (turns : ℕ) (lib : Answers)
    (vendorName targetDevice : Bytes) : Cmd Host Device :=
  if vendorName ≠ worldCup then pure .null
  else do
    match ← scanDevices A turns lib ⟨some targetDevice, 8⟩ ⟨0, fun _ => []⟩ with
    | .inl _ => pure .null
    | .inr dev => pure dev

section Walks

variable {A : Allocators} {turns : ℕ} {h : Host} {R : Registry} {scan : Target} {s : Walk}

lemma scanBus_spec {b : Bus} (pre : Links UsbDevice) {ds : Links UsbDevice} {n : ℕ}
    (hlist : IsList h.devMem.cells (begins b.devices) (pre ++ ds))
    (howner : ∀ d ∈ ds, d.2.bus = b.addr)
    (hbus : ∃ c, h.busMem.cells b.addr = some c ∧ c.val.location = b.location)
    (hn : ds.length ≤ n) :
    Yields (scanBus scan n (begins ds) s) h fun r h' =>
      h' = h ∧ r = Scan.walkDevices scan b.location (ds.map seen) s := by
  induction ds generalizing pre n s with
  | nil =>
    rw [begins, List.head?_nil, Option.map_none, scanBus, yields_pure]
    exact ⟨rfl, rfl⟩
  | cons d ds ih =>
    obtain ⟨dev, v⟩ := d
    obtain ⟨n, rfl⟩ : ∃ k, n = k + 1 :=
      ⟨n - 1, (Nat.sub_add_cancel (Nat.le_trans (Nat.succ_pos _) hn)).symm⟩
    have hrest : ∀ s, Yields (scanBus scan n (begins ds) s) h fun r h' =>
        h' = h ∧ r = Scan.walkDevices scan b.location (ds.map seen) s := fun s =>
      ih (pre ++ [(dev, v)]) (by rwa [List.append_assoc])
        (fun d hd => howner d (List.mem_cons_of_mem _ hd)) (Nat.le_of_succ_le_succ hn)
    obtain ⟨prev, hc⟩ := hlist.link
    obtain ⟨c, hb, hloc⟩ := hbus
    have hv : v.bus = b.addr := howner _ List.mem_cons_self
    rw [begins, List.head?_cons, Option.map_some, scanBus, yields_bind, yields_onDevices,
      yields_load hc, List.map_cons, Scan.walkDevices]
    dsimp only
    cases hdev : isAmlogic (seen (dev, v)) with
    | false =>
      rw [if_pos (by decide), if_pos (by decide)]
      exact hrest s
    | true =>
      rw [if_neg (by decide), if_neg (by decide), yields_bind, yields_onBusses, hv, yields_load hb,
        hloc]
      have hnum : (seen (dev, v)).devnum = v.devnum := rfl
      rw [hnum]
      dsimp only
      cases scan.target with
      | none =>
        dsimp only
        split_ifs with hmax
        · exact hrest s
        · exact hrest _
      | some target =>
        dsimp only
        split_ifs with hname
        · exact yields_pure.mpr ⟨rfl, rfl⟩
        · exact hrest _

lemma scanBusses_spec (href : Refines h R) (hsmall : Small turns R) (done : List Bus)
    {rest : List Bus} {n : ℕ} (hR : R.busses = done ++ rest) (hn : rest.length ≤ n) :
    Yields (scanBusses scan turns n (begins (rest.map Bus.link)) s) h fun r h' =>
      h' = h ∧ r = Scan.walkBusses scan (rest.map fun b => ⟨b.location, b.devices.map seen⟩) s := by
  induction rest generalizing done n s with
  | nil =>
    rw [List.map_nil, begins, List.head?_nil, Option.map_none, scanBusses, yields_pure]
    exact ⟨rfl, rfl⟩
  | cons b rest ih =>
    obtain ⟨n, rfl⟩ : ∃ k, n = k + 1 :=
      ⟨n - 1, (Nat.sub_add_cancel (Nat.le_trans (Nat.succ_pos _) hn)).symm⟩
    have hmem : b ∈ R.busses := hR ▸ List.mem_append_right _ List.mem_cons_self
    have hbusses := href.busses
    rw [hR, List.map_append, List.map_cons] at hbusses
    obtain ⟨prev, hc⟩ := hbusses.link
    have hcursor : begins ((b :: rest).map Bus.link) = some b.addr := rfl
    have hlist : IsList h.devMem.cells (begins b.devices) ([] ++ b.devices) := href.devices b hmem
    rw [hcursor, scanBusses, yields_bind, yields_onBusses, yields_load hc, yields_bind,
      List.map_cons, Scan.walkBusses]
    refine (scanBus_spec [] hlist (href.owner b hmem) ⟨_, hc, rfl⟩ (hsmall.devices b hmem)).mono ?_
    rintro r h' ⟨rfl, rfl⟩
    dsimp only
    cases Scan.walkDevices scan b.location (b.devices.map seen) s with
    | inl s' =>
      exact ih (done ++ [b]) (by rw [hR, List.append_assoc, List.singleton_append])
        (Nat.le_of_succ_le_succ hn)
    | inr dev => exact yields_pure.mpr ⟨rfl, rfl⟩

lemma scanDevices_after (hA : ∀ n, A.block.fails n = false) {lib : Answers}
    (hlib : ∀ c ∈ lib.calls, c.Plausible turns) (href : Refines h R) (hsmall : Small turns R) :
    Yields (scanDevices A turns lib scan s) h fun r h' => ∃ R', Refines h' R' ∧ Small turns R' ∧
      Later lib.calls R R' ∧ Kept A lib.calls h.held.lists h'.held.lists ∧
      r = Scan.walkBusses scan (view R') s := by
  rw [scanDevices, yields_bind]
  refine (runCalls_after hA hlib href hsmall).mono ?_
  rintro _ h₁ ⟨R₁, href₁, hsmall₁, hlater₁, hkept₁⟩
  have hget : (get : Cmd Host Host).run h₁ = some (h₁, h₁) := rfl
  rw [yields_bind, yields_of_run hget, href₁.busses.begins]
  refine (scanBusses_spec href₁ hsmall₁ [] (List.nil_append _).symm hsmall₁.busses).mono ?_
  rintro r h₂ ⟨rfl, rfl⟩
  exact ⟨R₁, href₁, hsmall₁, hlater₁, hkept₁, rfl⟩

/-- A scan lists what a walk over the registry lists. -/
lemma amlScanUsbX3Devices_after (hA : ∀ n, A.block.fails n = false) {lib : Answers}
    (hlib : ∀ c ∈ lib.calls, c.Plausible turns) (href : Refines h R) (hsmall : Small turns R)
    (vendorName : Bytes) (candidateDevices : Candidates) (maxDevices : ℤ) :
    Yields (amlScanUsbX3Devices A turns lib vendorName candidateDevices maxDevices) h fun r h' =>
      ∃ R', Refines h' R' ∧ Small turns R' ∧ Later lib.calls R R' ∧
        Kept A lib.calls h.held.lists h'.held.lists ∧
        r = Scan.amlScanUsbX3Devices vendorName candidateDevices maxDevices (view R') := by
  rw [amlScanUsbX3Devices]
  split_ifs with hvendor
  · refine yields_pure.mpr ⟨R, href, hsmall, .refl _ _, .refl _ _ _, ?_⟩
    rw [Scan.amlScanUsbX3Devices, if_pos hvendor]
  · rw [yields_bind]
    refine (scanDevices_after hA hlib href hsmall).mono ?_
    rintro r h' ⟨R', href', hsmall', hlater, hkept, rfl⟩
    cases hwalk : Scan.walkBusses ⟨none, maxDevices⟩ (view R') ⟨0, candidateDevices⟩ with
    | inl s =>
      refine yields_pure.mpr ⟨R', href', hsmall', hlater, hkept, ?_⟩
      rw [Scan.amlScanUsbX3Devices, if_neg hvendor, hwalk]
    | inr dev =>
      refine yields_pure.mpr ⟨R', href', hsmall', hlater, hkept, ?_⟩
      rw [Scan.amlScanUsbX3Devices, if_neg hvendor, hwalk]

lemma amlGetDeviceHandle_after (hA : ∀ n, A.block.fails n = false) {lib : Answers}
    (hlib : ∀ c ∈ lib.calls, c.Plausible turns) (href : Refines h R) (hsmall : Small turns R)
    (vendorName targetDevice : Bytes) :
    Yields (amlGetDeviceHandle A turns lib vendorName targetDevice) h fun r h' =>
      ∃ R', Refines h' R' ∧ Small turns R' ∧ Later lib.calls R R' ∧
        Kept A lib.calls h.held.lists h'.held.lists ∧
        r = Scan.amlGetDeviceHandle vendorName targetDevice (view R') := by
  rw [amlGetDeviceHandle]
  split_ifs with hvendor
  · refine yields_pure.mpr ⟨R, href, hsmall, .refl _ _, .refl _ _ _, ?_⟩
    rw [Scan.amlGetDeviceHandle, if_pos hvendor]
  · rw [yields_bind]
    refine (scanDevices_after hA hlib href hsmall).mono ?_
    rintro r h' ⟨R', href', hsmall', hlater, hkept, rfl⟩
    cases hwalk : Scan.walkBusses ⟨some targetDevice, 8⟩ (view R') ⟨0, fun _ => []⟩ with
    | inl s =>
      refine yields_pure.mpr ⟨R', href', hsmall', hlater, hkept, ?_⟩
      rw [Scan.amlGetDeviceHandle, if_neg hvendor, hwalk]
    | inr dev =>
      refine yields_pure.mpr ⟨R', href', hsmall', hlater, hkept, ?_⟩
      rw [Scan.amlGetDeviceHandle, if_neg hvendor, hwalk]

end Walks

/-! ### Scans after any calls -/

/-- The board has been unplugged. -/
def noBoard : Libusb := { oneBoard with deviceList := .ok [] }

/-- The board is there all the time. -/
def boardThere : Answers := ⟨true, oneBoard, oneBoard⟩

lemma plausible_oneBoard : ∀ c ∈ boardThere.calls, c.Plausible 4 := by
  have hboard : Plausible 4 oneBoard := fun devs hdevs => by
    obtain rfl : [7] = devs := Except.ok.inj hdevs
    exact ⟨List.nodup_singleton _, by decide⟩
  simp only [boardThere, Answers.calls, List.forall_mem_cons]
  exact ⟨trivial, hboard, hboard, fun _ hc => absurd hc List.not_mem_nil⟩

lemma lists_oneBoard : ∀ c ∈ boardThere.calls, c.Lists 1 5 := by
  have hboard : Listed oneBoard 1 5 := fun devs hdevs => by
    obtain rfl : [7] = devs := Except.ok.inj hdevs
    decide
  simp only [boardThere, Answers.calls, List.forall_mem_cons]
  exact ⟨trivial, hboard, hboard, fun _ hc => absurd hc List.not_mem_nil⟩

lemma plausible_noBoard : Plausible 4 noBoard := fun devs hdevs => by
  obtain rfl : [] = devs := Except.ok.inj hdevs
  exact ⟨List.nodup_nil, by decide⟩

/-- Memory that never runs out. -/
def enough : Allocators where
  bus := .above ⟨none, none, ⟨0, none⟩⟩
  device := .above ⟨none, none, ⟨0, ⟨0, 0, 0⟩, none, 0, 0⟩⟩
  block := .above (.bytes [])

section Sessions

variable {A : Allocators} {turns : ℕ} {h : Host} {R : Registry}

lemma small_start (turns : ℕ) : Small turns ⟨[], []⟩ :=
  ⟨Nat.zero_le _, fun _ hb => absurd hb List.not_mem_nil⟩

/-- **A scan after any calls** touches nothing that is not allocated, leaves a registry and what it
owns, and comes to what the walks over that registry come to. A listing that `usb_find_busses` got
is kept only if memory for a bus has been refused. -/
theorem scans_refine (A : Allocators) (hA : ∀ n, A.block.fails n = false) (cs : List Call)
    (lib : Answers) (hcs : ∀ c ∈ cs ++ lib.calls, c.Plausible turns)
    (vendorName targetDevice : Bytes)
    (candidateDevices : Candidates) (maxDevices : ℤ) :
    Yields (do
        runCalls A turns cs
        amlScanUsbX3Devices A turns lib vendorName candidateDevices maxDevices) Host.start
      (fun r h => ∃ R, Refines h R ∧ Kept A (cs ++ lib.calls) [] h.held.lists ∧
        r = Scan.amlScanUsbX3Devices vendorName candidateDevices maxDevices (view R)) ∧
    Yields (do
        runCalls A turns cs
        amlGetDeviceHandle A turns lib vendorName targetDevice) Host.start
      (fun r h => ∃ R, Refines h R ∧ Kept A (cs ++ lib.calls) [] h.held.lists ∧
        r = Scan.amlGetDeviceHandle vendorName targetDevice (view R)) := by
  have hbefore := runCalls_after hA (fun c hc => hcs c (List.mem_append_left _ hc)) refines_start
    (small_start turns)
  have hlib : ∀ c ∈ lib.calls, c.Plausible turns := fun c hc => hcs c (List.mem_append_right _ hc)
  constructor
  · rw [yields_bind]
    refine hbefore.mono ?_
    rintro _ h₁ ⟨R₁, href₁, hsmall₁, -, hkept₁⟩
    refine (amlScanUsbX3Devices_after hA hlib href₁ hsmall₁ vendorName candidateDevices
      maxDevices).mono ?_
    rintro r h₂ ⟨R₂, href₂, -, -, hkept₂, hr⟩
    exact ⟨R₂, href₂, hkept₁.trans hkept₂, hr⟩
  · rw [yields_bind]
    refine hbefore.mono ?_
    rintro _ h₁ ⟨R₁, href₁, hsmall₁, -, hkept₁⟩
    refine (amlGetDeviceHandle_after hA hlib href₁ hsmall₁ vendorName targetDevice).mono ?_
    rintro r h₂ ⟨R₂, href₂, -, -, hkept₂, hr⟩
    exact ⟨R₂, href₂, hkept₁.trans hkept₂, hr⟩

theorem scans_refine_oneBoard : ∃ R, Scan.amlGetDeviceHandle worldCup (deviceName 1 5) (view R) =
    .dev 1 ∧ ∃ h, Refines h R := by
  have hcs := List.forall_mem_append.mpr ⟨plausible_oneBoard, plausible_oneBoard⟩
  obtain ⟨-, dev, h, hrun, R, href, -, hdev⟩ := scans_refine enough (fun _ => rfl) boardThere.calls
    boardThere hcs worldCup (deviceName 1 5) (fun _ => []) 8
  have hone : ((do
      runCalls enough 4 boardThere.calls
      amlGetDeviceHandle enough 4 boardThere worldCup
        (deviceName 1 5)).run Host.start).map Prod.fst = some (.dev 1) := by decide +kernel
  rw [hrun] at hone
  exact ⟨R, hdev.symm.trans (Option.some.inj hone), h, href⟩

lemma mem_matching {b : Bus} {d : ℕ × UsbDevice} (hb : b ∈ R.busses) (hd : d ∈ b.devices)
    (hdev : isAmlogic (seen d)) : (b.location, seen d) ∈ matching (view R) := by
  refine List.mem_flatMap.mpr ⟨_, List.mem_map_of_mem hb, List.mem_map.mpr ⟨seen d, ?_, rfl⟩⟩
  exact List.mem_filter.mpr ⟨List.mem_map_of_mem hd, hdev⟩

lemma of_mem_matching {x : UInt32 × Scan.UsbDevice} (hx : x ∈ matching (view R)) :
    ∃ b ∈ R.busses, ∃ d ∈ b.devices, isAmlogic (seen d) ∧ x = (b.location, seen d) := by
  obtain ⟨bus, hbus, hx⟩ := List.mem_flatMap.mp hx
  obtain ⟨b, hb, rfl⟩ := List.mem_map.mp hbus
  obtain ⟨dev, hdev, rfl⟩ := List.mem_map.mp hx
  obtain ⟨hdev, hmatch⟩ := List.mem_filter.mp hdev
  obtain ⟨d, hd, rfl⟩ := List.mem_map.mp hdev
  exact ⟨b, hb, d, hd, hmatch, rfl⟩

/-- In a registry no two devices are in the same place. -/
lemma places_nodup (href : Refines h R) : (places (view R)).Nodup := by
  rw [places, view, List.flatMap_map]
  have hlocs := href.locations
  have hnums := href.numbers
  generalize R.busses = bs at hlocs hnums
  induction bs with
  | nil => exact List.nodup_nil
  | cons b bs ih =>
    rw [List.map_cons, List.nodup_cons] at hlocs
    rw [List.flatMap_cons, List.map_map]
    have hplaces : b.devices.map ((fun dev : Scan.UsbDevice => (b.location, dev.devnum)) ∘ seen) =
        (b.devices.map fun d => d.2.devnum).map (Prod.mk b.location) := by
      rw [List.map_map]
      rfl
    rw [hplaces]
    refine List.nodup_append'.mpr ⟨?_, ih hlocs.2 fun b hb => hnums b (List.mem_cons_of_mem _ hb),
      fun x hx hx' => ?_⟩
    · exact (hnums b List.mem_cons_self).map fun _ _ he => (Prod.mk.inj he).2
    · obtain ⟨n, -, rfl⟩ := List.mem_map.mp hx
      obtain ⟨b', hb', hx'⟩ := List.mem_flatMap.mp hx'
      obtain ⟨dev, -, he⟩ := List.mem_map.mp hx'
      exact hlocs.1 (List.mem_map.mpr ⟨b', hb', (Prod.mk.inj he).1⟩)

/-- A device of a registry is found by its name. -/
lemma found_by_name (href : Refines h R) {b : Bus} {d : ℕ × UsbDevice} (hb : b ∈ R.busses)
    (hd : d ∈ b.devices) (hdev : isAmlogic (seen d)) :
    Scan.amlGetDeviceHandle worldCup (deviceName b.location d.2.devnum) (view R) = .dev d.1 := by
  have hname : deviceName b.location d.2.devnum = nameOf (b.location, seen d) := rfl
  rw [Scan.amlGetDeviceHandle_eq, hname,
    Scan.find_by_key (Scan.names_nodup (places_nodup href)) (mem_matching hb hd hdev)]
  rfl

/-- The entries of a listing are names of devices of the registry. -/
lemma entry_of_listing {candidates : Candidates} {maxDevices : ℤ} {i : ℕ}
    (hi : i < (Scan.amlScanUsbX3Devices worldCup candidates maxDevices (view R)).1) :
    ∃ b ∈ R.busses, ∃ d ∈ b.devices, isAmlogic (seen d) ∧
      (Scan.amlScanUsbX3Devices worldCup candidates maxDevices (view R)).2 i =
        deviceName b.location d.2.devnum := by
  rw [Scan.amlScanUsbX3Devices_eq] at hi ⊢
  dsimp only at hi ⊢
  have hlen : i < (((matching (view R)).map nameOf).take maxDevices.toNat).length := by
    rw [List.length_take, List.length_map]
    omega
  have hinside := Scan.fill_inside candidates 0 _ hlen
  rw [Nat.zero_add, List.getElem_take, List.getElem_map] at hinside
  obtain ⟨b, hb, d, hd, hdev, hx⟩ := of_mem_matching (List.getElem_mem (l := matching (view R))
    (n := i) (by omega))
  rw [hx] at hinside
  exact ⟨b, hb, d, hd, hdev, hinside⟩

/-- A listing, and its entry `i` selected twice with other calls in between. -/
def selectTwice (A : Allocators) (turns : ℕ) (before between : List Call) (lib₁ lib₂ lib₃ : Answers)
    (candidateDevices : Candidates) (maxDevices : ℤ) (i : ℕ) :
    Cmd Host ((ℤ × Candidates) × Device × Device) := do
  runCalls A turns before
  let scan ← amlScanUsbX3Devices A turns lib₁ worldCup candidateDevices maxDevices
  let dev ← amlGetDeviceHandle A turns lib₂ worldCup (scan.2 i)
  runCalls A turns between
  let dev' ← amlGetDeviceHandle A turns lib₃ worldCup (scan.2 i)
  pure (scan, dev, dev')

/-- **An entry of a listing selects the same device as long as it stays attached**: whatever calls
there are in between, the pointer for its name is the one there was at first. -/
theorem handle_stays (A : Allocators) (hA : ∀ n, A.block.fails n = false)
    {before between : List Call} {lib₁ lib₂ lib₃ : Answers}
    (hcs : ∀ c ∈ before ++ lib₁.calls ++ lib₂.calls ++ between ++ lib₃.calls, c.Plausible turns)
    (candidateDevices : Candidates) (maxDevices : ℤ) (i : ℕ) :
    Yields (selectTwice A turns before between lib₁ lib₂ lib₃ candidateDevices maxDevices i)
      Host.start fun r _ => i < r.1.1 → ∃ location devnum, r.1.2 i = deviceName location devnum ∧
        ((∀ c ∈ lib₂.calls ++ between ++ lib₃.calls, c.Lists location devnum) →
          ∃ p, r.2.1 = .dev p ∧ r.2.2 = .dev p) := by
  simp only [List.mem_append, or_imp, forall_and] at hcs
  obtain ⟨⟨⟨⟨hcs₀, hcs₁⟩, hcs₂⟩, hcs₃⟩, hcs₄⟩ := hcs
  rw [selectTwice, yields_bind]
  refine (runCalls_after hA hcs₀ refines_start (small_start turns)).mono ?_
  rintro _ h₀ ⟨R₀, href₀, hsmall₀, -⟩
  rw [yields_bind]
  refine (amlScanUsbX3Devices_after hA hcs₁ href₀ hsmall₀ worldCup candidateDevices
    maxDevices).mono ?_
  rintro scan h₁ ⟨R₁, href₁, hsmall₁, -, -, rfl⟩
  rw [yields_bind]
  refine (amlGetDeviceHandle_after hA hcs₂ href₁ hsmall₁ worldCup _).mono ?_
  rintro dev h₂ ⟨R₂, href₂, hsmall₂, hlater₂, -, rfl⟩
  rw [yields_bind]
  refine (runCalls_after hA hcs₃ href₂ hsmall₂).mono ?_
  rintro _ h₃ ⟨R₃, href₃, hsmall₃, hlater₃, -⟩
  rw [yields_bind]
  refine (amlGetDeviceHandle_after hA hcs₄ href₃ hsmall₃ worldCup _).mono ?_
  rintro dev' h₄ ⟨R₄, href₄, -, hlater₄, -, rfl⟩
  refine yields_pure.mpr fun hi => ?_
  obtain ⟨b₁, hb₁, d, hd₁, hdev, hentry⟩ := entry_of_listing hi
  refine ⟨_, _, hentry, fun hlists => ⟨d.1, ?_⟩⟩
  obtain ⟨b₂, hb₂, hloc₂, hd₂⟩ := hlater₂.keeps b₁ hb₁ d hd₁ fun c hc =>
    hlists c (List.mem_append_left _ (List.mem_append_left _ hc))
  obtain ⟨b₄, hb₄, hloc₄, hd₄⟩ := (hlater₃.trans hlater₄).keeps b₂ hb₂ d hd₂ fun c hc => by
    rw [hloc₂]
    rw [List.append_assoc] at hlists
    exact hlists c (List.mem_append_right _ hc)
  dsimp only
  rw [hentry]
  constructor
  · rw [← hloc₂]
    exact found_by_name href₂ hb₂ hd₂ hdev
  · rw [← hloc₂, ← hloc₄]
    exact found_by_name href₄ hb₄ hd₄ hdev

theorem handle_stays_oneBoard : ∃ r h, (selectTwice enough 4 [] boardThere.calls boardThere
    boardThere boardThere (fun _ => []) 8 0).run Host.start = some (r, h) ∧
      ∃ p, r.2.1 = .dev p ∧ r.2.2 = .dev p := by
  have hcs : ∀ c ∈ [] ++ boardThere.calls ++ boardThere.calls ++ boardThere.calls ++
      boardThere.calls, c.Plausible 4 := by
    simpa only [List.nil_append, List.forall_mem_append, and_self] using plausible_oneBoard
  obtain ⟨r, h, hrun, hpost⟩ := handle_stays enough (fun _ => rfl) hcs (fun _ => []) 8 0
  refine ⟨r, h, hrun, ?_⟩
  have hlisting : ((selectTwice enough 4 [] boardThere.calls boardThere boardThere boardThere
      (fun _ => []) 8 0).run Host.start).map (fun r => (r.1.1.1, r.1.1.2 0)) =
      some (1, deviceName 1 5) := by decide +kernel
  rw [hrun] at hlisting
  obtain ⟨hcount, hentry⟩ := Prod.mk.inj (Option.some.inj hlisting)
  obtain ⟨location, devnum, hname, hsame⟩ := hpost (by rw [hcount]; decide)
  obtain ⟨rfl, rfl⟩ := Scan.deviceName_injective (hname.symm.trans hentry)
  refine hsame ?_
  simpa only [List.forall_mem_append, and_self] using lists_oneBoard

/-- A device is registered in a place. -/
def Registered (R : Registry) (location : UInt32) (devnum : UInt8) : Prop :=
  ∃ b ∈ R.busses, b.location = location ∧ devnum ∈ b.devices.map fun d => d.2.devnum

/-- Every bus of a listing is registered. -/
lemma bus_of_mem {lib : Libusb} {devs : List ℕ} {added : List Bus} {location : UInt32}
    (hadded : Added R (busNumbers lib devs) added) (hloc : location ∈ busNumbers lib devs) :
    ∃ b ∈ (R.scanned (busNumbers lib devs) added).busses, b.location = location := by
  by_cases hknown : location ∈ R.busses.map Bus.location
  · obtain ⟨b, hb, rfl⟩ := List.mem_map.mp hknown
    exact ⟨b, List.mem_append_right _ (List.mem_filter.mpr ⟨hb, decide_eq_true hloc⟩), rfl⟩
  · have hnew : location ∈ added.map Bus.location := by
      rw [hadded.locations]
      exact List.mem_filter.mpr ⟨hloc, decide_eq_true hknown⟩
    obtain ⟨b, hb, rfl⟩ := List.mem_map.mp hnew
    exact ⟨b, List.mem_append_left _ hb, rfl⟩

/-- **A scan with enough memory registers what is listed**, if it had been registered before or its
descriptors can be had, and nothing else, and gives back its listings. -/
theorem scan_finds (A : Allocators) (hbus : ∀ n, A.bus.fails n = false)
    (hdevice : ∀ n, A.device.fails n = false) (hblock : ∀ n, A.block.fails n = false)
    {lib : Libusb} {devs : List ℕ} (hlib : Plausible turns lib)
    (hdevs : lib.deviceList = .ok devs) (href : Refines h R) (hsmall : Small turns R) :
    Yields (runCalls A turns (Answers.calls ⟨true, lib, lib⟩)) h fun _ h' => ∃ R', Refines h' R' ∧
      h'.held.lists = h.held.lists ∧ ∀ location devnum, Registered R' location devnum ↔
        ∃ d ∈ present lib location devs,
        lib.deviceAddress d = devnum ∧
          (Registered R location devnum ∨ (available lib d).isSome) := by
  have hctx : (h.ctx || true) = true := Bool.or_true _
  have hinit := refines_ctx href (h.ctx || true)
  rw [Answers.calls, runCalls, yields_bind, Call.run, yields_init, runCalls, yields_bind, Call.run,
    yields_bind]
  refine (usbFindBusses_spec A.bus lib hinit hctx hsmall.busses fun devs' h' =>
    (hlib devs' h').2).mono ?_
  rintro - h₁ ⟨hctx₁, ⟨-, -, ⟨-, e, he⟩ | ⟨-, n, hn⟩⟩ |
    ⟨devs', added, hdevs', hadded, href₁, hheld₁, -⟩⟩
  · exact absurd (he.symm.trans hdevs) (by simp)
  · exact absurd (hn.symm.trans (hbus n)) (by simp)
  obtain rfl : devs = devs' := Except.ok.inj (hdevs.symm.trans hdevs')
  have hsmall₁ := small_scanned hsmall hadded href₁ (hlib devs hdevs).2
  rw [yields_pure, runCalls, yields_bind, Call.run, yields_bind]
  refine (usbFindDevices_spec A lib href₁ hctx₁ hblock (fun devs' h' => (hlib devs' h').1)
    hsmall₁.busses hsmall₁.devices fun devs' h' => (hlib devs' h').2).mono ?_
  rintro - h₂ (⟨-, e, he, -⟩ | ⟨hlists₂, devs', bs, bs', left, n, hdevs', hsplit, hall, href₂,
    ⟨rfl, -⟩ | ⟨-, n, hn⟩⟩)
  · exact absurd (he.symm.trans hdevs) (by simp)
  · obtain rfl : devs = devs' := Except.ok.inj (hdevs.symm.trans hdevs')
    rw [List.append_nil] at hsplit href₂
    have hlists : h₂.held.lists = h.held.lists := hlists₂.trans (congrArg Held.lists hheld₁)
    refine yields_pure.mpr (yields_pure.mpr ⟨_, href₂, hlists, fun location devnum => ?_⟩)
    rw [← hsplit] at hall
    refine hall.registered.trans ⟨?_, ?_⟩
    · rintro ⟨b, hb, rfl, d, hd, hnum, hwhy⟩
      refine ⟨d, hd, hnum, hwhy.imp_left fun hmem => ?_⟩
      rcases List.mem_append.mp hb with hb | hb
      · rw [hadded.devices b hb] at hmem
        exact absurd hmem List.not_mem_nil
      · exact ⟨b, (List.mem_filter.mp hb).1, rfl, hmem⟩
    · rintro ⟨d, hd, hnum, hwhy⟩
      have hloc : location ∈ busNumbers lib devs :=
        mem_busNumbers (List.mem_map.mpr ⟨d, hd, hnum⟩)
      rcases hwhy with ⟨b, hb, rfl, hmem⟩ | havail
      · exact ⟨b, List.mem_append_right _ (List.mem_filter.mpr ⟨hb, decide_eq_true hloc⟩), rfl,
          d, hd, hnum, .inl hmem⟩
      · obtain ⟨b, hb, rfl⟩ := bus_of_mem hadded hloc
        exact ⟨b, hb, rfl, d, hd, hnum, .inr havail⟩
  · exact absurd (hn.symm.trans (hdevice n)) (by simp)

theorem scan_finds_oneBoard : ∃ h R, Refines h R ∧ Registered R 1 5 := by
  have hboard := plausible_oneBoard (.findBusses oneBoard) (by simp [boardThere, Answers.calls])
  obtain ⟨-, h, -, R, href, -, hfound⟩ := scan_finds enough (fun _ => rfl) (fun _ => rfl)
    (fun _ => rfl)
    hboard rfl refines_start (small_start 4)
  exact ⟨h, R, href, (hfound 1 5).mpr ⟨7, by decide, rfl, .inr (by decide)⟩⟩

/-- What is lost is allocated, and keeps its reference. -/
lemma lost_held (href : Refines h R) {d : ℕ × UsbDevice} (hd : d ∈ R.lost) :
    (h.devMem.cells d.1).isSome ∧ 0 < h.held.refs d.2.dev := by
  obtain ⟨c, hc, -⟩ := href.lost d hd
  refine ⟨hc ▸ rfl, ?_⟩
  have hcount : 0 < (vals R.devices).countP fun dev => dev.dev = d.2.dev :=
    List.countP_pos_iff.mpr ⟨d.2, List.mem_map_of_mem (List.mem_append_right _ hd),
      decide_eq_true rfl⟩
  rw [href.held.refs]
  exact Int.add_pos_of_pos_of_nonneg (Int.natCast_pos.mpr hcount) (Int.natCast_nonneg _)

/-- What there is before and after a scan for busses and further calls. -/
def aroundScan (A : Allocators) (turns : ℕ) (before after : List Call) (lib : Libusb) :
    Cmd Host Host := do
  runCalls A turns before
  let h ← get
  let _ ← usbFindBusses A.bus lib turns
  runCalls A turns after
  pure h

/-- **The devices of a bus that goes are never freed**: after any further calls each of them is
still allocated and still holds its device of libusb-1.0. -/
theorem gone_devices_leak (A : Allocators) (hbus : ∀ n, A.bus.fails n = false)
    (hblock : ∀ n, A.block.fails n = false) {before after : List Call} {lib : Libusb}
    {devs : List ℕ} (hcs : ∀ c ∈ before ++ after, c.Plausible turns) (hlib : Plausible turns lib)
    (hdevs : lib.deviceList = .ok devs) :
    Yields (aroundScan A turns before after lib) Host.start fun h h' =>
      ∃ R, Refines h R ∧ (h.ctx = true → ∀ b ∈ R.busses, b.location ∉ busNumbers lib devs →
        ∀ d ∈ b.devices, (h'.devMem.cells d.1).isSome ∧ 0 < h'.held.refs d.2.dev) := by
  rw [aroundScan, yields_bind]
  refine (runCalls_after hblock (fun c hc => hcs c (List.mem_append_left _ hc)) refines_start
    (small_start turns)).mono ?_
  rintro _ h ⟨R, href, hsmall, -⟩
  have hget : (get : Cmd Host Host).run h = some (h, h) := rfl
  have hafter : ∀ {R₁ h₁}, Refines h₁ R₁ → Small turns R₁ →
      Yields (runCalls A turns after) h₁ fun _ h' => After A turns after h₁ R₁ h' :=
    runCalls_after hblock fun c hc => hcs c (List.mem_append_right _ hc)
  rw [yields_bind, yields_of_run hget, yields_bind]
  cases hctx : h.ctx with
  | false =>
    refine (findBusses_after A href hsmall hlib).mono ?_
    rintro - h₁ ⟨R₁, href₁, hsmall₁, -⟩
    rw [yields_bind]
    exact (hafter href₁ hsmall₁).mono fun _ _ _ => yields_pure.mpr
      ⟨R, href, fun hc => absurd (hctx.symm.trans hc) Bool.false_ne_true⟩
  | true =>
    refine (usbFindBusses_spec A.bus lib href hctx hsmall.busses fun devs' h' =>
      (hlib devs' h').2).mono ?_
    rintro - h₁ ⟨-, ⟨-, -, ⟨-, e, he⟩ | ⟨-, n, hn⟩⟩ | ⟨devs', added, hdevs', hadded, href₁, -⟩⟩
    · exact absurd (he.symm.trans hdevs) (by simp)
    · exact absurd (hn.symm.trans (hbus n)) (by simp)
    obtain rfl : devs = devs' := Except.ok.inj (hdevs.symm.trans hdevs')
    rw [yields_bind]
    refine (hafter href₁ (small_scanned hsmall hadded href₁ (hlib devs hdevs).2)).mono ?_
    rintro - h₂ ⟨R₂, href₂, -, hlater, -⟩
    refine yields_pure.mpr ⟨R, href, fun _ b hb hgone d hd => lost_held href₂ ?_⟩
    refine hlater.lost.subset (List.mem_append_right _ (List.mem_flatMap.mpr ⟨b, ?_, hd⟩))
    exact List.mem_filter.mpr ⟨hb, decide_eq_true hgone⟩

theorem gone_devices_leak_oneBoard : ∃ h h' R,
    (aroundScan enough 4 boardThere.calls boardThere.calls noBoard).run Host.start = some (h, h') ∧
      Refines h R ∧ R.busses ≠ [] ∧ ∀ b ∈ R.busses, ∀ d ∈ b.devices,
        (h'.devMem.cells d.1).isSome ∧ 0 < h'.held.refs d.2.dev := by
  obtain ⟨h, h', hrun, R, href, hgone⟩ := gone_devices_leak enough (fun _ => rfl)
    (fun _ => rfl) (List.forall_mem_append.mpr ⟨plausible_oneBoard, plausible_oneBoard⟩)
    plausible_noBoard (show noBoard.deviceList = .ok [] from rfl)
  have hbefore : ((aroundScan enough 4 boardThere.calls boardThere.calls noBoard).run
      Host.start).map (fun r => (r.1.ctx, r.1.usbBusses)) = some (true, some 1) := by decide +kernel
  rw [hrun] at hbefore
  obtain ⟨hctx, hfirst⟩ := Prod.mk.inj (Option.some.inj hbefore)
  refine ⟨h, h', R, hrun, href, fun hnil => ?_, fun b hb => hgone hctx b hb List.not_mem_nil⟩
  have hbegins := href.busses.begins
  rw [hnil, hfirst] at hbegins
  exact absurd hbegins (Option.some_ne_none _)

end Sessions

end AmlogicUpdate.Rescan

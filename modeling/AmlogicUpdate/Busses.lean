import Mathlib.Data.List.Perm.Basic
import AmlogicUpdate.LinkedWalks
import AmlogicUpdate.Descriptors

/-!
`usbcompat.h`: the list of the busses, `usb_find_busses`.

The busses of a listing are collected in a list of their own, the last one found first. The busses
that are known already take their like out of it, those that are gone leave, and what is left of
it joins them.

libusb-1.0 holds a reference to each device of a listing until the listing is given back, which
`find_busses` forgets when there is no memory for a bus.
-/

namespace AmlogicUpdate.Busses

open Heap LinkedHeap Reconcile Descriptors DeepCopy Usb

/-- A `struct usb_bus` but for the links. -/
structure UsbBus where
  location : UInt32
  devices : Option ℕ

abbrev BusMem : Type := Mem (Cell UsbBus)

/-- A bus as `find_busses` makes it. -/
def newBus (busNum : UInt8) : UsbBus := ⟨busNum.toUInt32, none⟩

/-- The loop of `find_busses` over the devices; what it returns, and the list. -/
def addBusses (A : Allocator (Cell UsbBus)) (lib : Libusb) (turns : ℕ) :
    List ℕ → Option ℕ → Cmd BusMem (ℤ × Option ℕ)
  | [], busses => pure (0, busses)
  | dev :: devs, busses => do
    let busNum := lib.busNumber dev
    let found ← search (fun bus => busNum.toUInt32 = bus.location) turns busses
    if found then addBusses A lib turns devs busses
    else
      match ← malloc A with
      | none =>
        freeAll turns busses
        pure (-enomem, none)
      | some bus =>
        store bus ⟨none, none, newBus busNum⟩
        let busses ← listAdd busses bus
        addBusses A lib turns devs busses

/-- What `usbcompat.h` keeps: whether libusb-1.0 could be initialized, the busses, and what belongs
to their devices. -/
structure Host where
  ctx : Bool
  usbBusses : Option ℕ
  busMem : BusMem
  devMem : Mem (Cell UsbDevice)
  held : Held

def onBusses {α : Type} (p : Cmd BusMem α) : Cmd Host α :=
  onPart Host.busMem (fun m h => { h with busMem := m }) p

def onHeld {α : Type} (p : Cmd Held α) : Cmd Host α :=
  onPart Host.held (fun s h => { h with held := s }) p

def findBusses (A : Allocator (Cell UsbBus)) (lib : Libusb) (turns : ℕ) :
    Cmd Host (ℤ × Option ℕ) := do
  match ← onHeld (libusbGetDeviceList lib) with
  | .error e => pure (compatErr e, none)
  | .ok [] => do
    onHeld (libusbFreeDeviceList [])
    pure (0, none)
  | .ok devList => do
    let (r, busses) ← onBusses (addBusses A lib turns devList none)
    -- the way out after a refused bus does not give back the list
    if r < 0 then pure (r, none)
    else do
      onHeld (libusbFreeDeviceList devList)
      pure (r, busses)

/-- The walks over the known and the new busses. -/
def rescanBusses (turns : ℕ) (known new : Option ℕ) : Cmd BusMem Lists :=
  onPart (fun m => (m, ())) (fun t _ => t.1)
    (rescan (fun bus nbus => bus.location = nbus.location) (fun _ => pure ())
      (fun bus => pure (some bus)) turns known new)

def usbFindBusses (A : Allocator (Cell UsbBus)) (lib : Libusb) (turns : ℕ) : Cmd Host ℤ := do
  let h ← get
  if !h.ctx then pure 0
  else
    let (r, newBusses) ← findBusses A lib turns
    if r < 0 then pure r
    else
      let l ← onBusses (rescanBusses turns h.usbBusses newBusses)
      modify fun h => { h with usbBusses := l.known }
      pure l.changes

/-! ### What `find_busses` finds -/

/-- The busses of a listing, in the order they are first seen. -/
def busNumbers (lib : Libusb) (devs : List ℕ) : List UInt32 :=
  (devs.map fun dev => (lib.busNumber dev).toUInt32).eraseDups

/-- The same, the last one first, when some have been seen already. -/
def newestFirst (seen : List UInt32) : List UInt32 → List UInt32
  | [] => seen
  | x :: xs => if x ∈ seen then newestFirst seen xs else newestFirst (x :: seen) xs

lemma newestFirst_loop (seen xs : List UInt32) :
    (newestFirst seen xs).reverse = List.eraseDupsBy.loop (· == ·) xs seen := by
  induction xs generalizing seen with
  | nil => rfl
  | cons x xs ih =>
    rw [newestFirst, List.eraseDupsBy.loop]
    have hany : seen.any (fun y => x == y) = decide (x ∈ seen) := by
      rw [Bool.eq_iff_iff, List.any_eq_true, decide_eq_true_eq]
      constructor
      · rintro ⟨y, hy, he⟩
        exact (beq_iff_eq.mp he) ▸ hy
      · exact fun hx => ⟨x, hx, beq_self_eq_true x⟩
    by_cases hx : x ∈ seen
    · rw [if_pos hx, ih]
      simp only [hany, decide_eq_true hx]
    · rw [if_neg hx, ih]
      simp only [hany, decide_eq_false hx]

lemma newestFirst_eq (xs : List UInt32) : newestFirst [] xs = xs.eraseDups.reverse := by
  rw [List.eraseDups, List.eraseDupsBy, ← newestFirst_loop, List.reverse_reverse]

lemma newestFirst_nodup {seen : List UInt32} (h : seen.Nodup) (xs : List UInt32) :
    (newestFirst seen xs).Nodup := by
  induction xs generalizing seen with
  | nil => exact h
  | cons x xs ih =>
    rw [newestFirst]
    split_ifs with hx
    · exact ih h
    · exact ih (List.nodup_cons.mpr ⟨hx, h⟩)

lemma newestFirst_length (seen xs : List UInt32) :
    (newestFirst seen xs).length ≤ seen.length + xs.length := by
  induction xs generalizing seen with
  | nil => exact Nat.le_refl _
  | cons x xs ih =>
    rw [newestFirst, List.length_cons]
    split_ifs with hx
    · exact Nat.le_succ_of_le (ih seen)
    · have h := ih (x :: seen)
      rw [List.length_cons] at h
      omega

lemma busNumbers_length (lib : Libusb) (devs : List ℕ) :
    (busNumbers lib devs).length ≤ devs.length := by
  have h := newestFirst_length [] (devs.map fun dev => (lib.busNumber dev).toUInt32)
  rwa [newestFirst_eq, List.length_reverse, List.length_nil, Nat.zero_add, List.length_map] at h

lemma busNumbers_nodup (lib : Libusb) (devs : List ℕ) : (busNumbers lib devs).Nodup := by
  have h := newestFirst_nodup List.nodup_nil (devs.map fun dev => (lib.busNumber dev).toUInt32)
  rwa [newestFirst_eq, List.nodup_reverse] at h

section FindBusses

variable {A : Allocator (Cell UsbBus)} {lib : Libusb} {turns : ℕ} {m : BusMem} {b : Option ℕ}

/-- The list of the busses that have been seen. -/
def areNew (l : Links UsbBus) (locations : List UInt32) : Prop :=
  vals l = locations.map fun x => ⟨x, none⟩

lemma areNew.locations {l : Links UsbBus} {locations : List UInt32} (h : areNew l locations) :
    (l.map fun x => x.2.location) = locations := by
  have hmap : (l.map fun x => x.2.location) = (vals l).map UsbBus.location := by simp
  rw [hmap, h, List.map_map]
  exact List.map_id _

lemma addBusses_spec {devs : List ℕ} {acc : Links UsbBus} {seen : List UInt32}
    (hacc : IsList m.cells b acc) (hseen : areNew acc seen)
    (hturns : acc.length + devs.length ≤ turns) :
    Yields (addBusses A lib turns devs b) m fun r m' =>
      (r = (-enomem, none) ∧ Leaves (addrs acc) [] m m' ∧ ∃ n, A.fails n = true) ∨
      (r.1 = 0 ∧ ∃ new, Prepends acc new m r.2 m' ∧
        areNew (new ++ acc)
          (newestFirst seen (devs.map fun dev => (lib.busNumber dev).toUInt32))) := by
  induction devs generalizing m b acc seen with
  | nil =>
    rw [addBusses, yields_pure]
    exact .inr ⟨rfl, [], .refl hacc, hseen⟩
  | cons dev devs ih =>
    rw [List.length_cons] at hturns
    have hlen : acc.length ≤ turns := by omega
    have hbegins := hacc.begins
    subst hbegins
    rw [addBusses, yields_bind]
    refine (search_spec _ [] hacc hlen).mono ?_
    rintro found m₁ ⟨hfound, rfl⟩
    have hmem : found = decide ((lib.busNumber dev).toUInt32 ∈ seen) := by
      rw [hfound, ← hseen.locations, Bool.eq_iff_iff, List.any_eq_true, decide_eq_true_eq]
      constructor
      · rintro ⟨x, hx, he⟩
        exact List.mem_map.mpr ⟨x, hx, (of_decide_eq_true he).symm⟩
      · intro hloc
        obtain ⟨x, hx, he⟩ := List.mem_map.mp hloc
        exact ⟨x, hx, decide_eq_true he.symm⟩
    rw [List.map_cons, newestFirst]
    by_cases hin : (lib.busNumber dev).toUInt32 ∈ seen
    · rw [hmem, decide_eq_true hin, if_pos rfl, if_pos hin]
      exact ih hacc hseen (by omega)
    rw [hmem, decide_eq_false hin, if_neg Bool.false_ne_true, if_neg hin, yields_bind]
    refine (yields_malloc A m₁).mono ?_
    rintro (_ | a) m₂ ⟨-, hfails, hr⟩
    · have hacc₂ : IsList m₂.cells (begins acc) acc := hr ▸ hacc
      dsimp only
      rw [yields_bind]
      refine (freeAll_spec hacc₂ hlen).mono fun _ m₃ h₃ =>
        yields_pure.mpr (.inl ⟨rfl, ?_, _, hfails⟩)
      exact ⟨fun x hx => by rw [h₃.apart x hx, hr], h₃.freed⟩
    · obtain ⟨hnone, hsome, hrest⟩ := hr
      obtain ⟨c, hc⟩ := Option.isSome_iff_exists.mp hsome
      dsimp only
      rw [yields_bind, yields_store hc, yields_bind]
      refine (listAdd_new hacc hnone hrest _).mono fun b' m₃ hgrown => ?_
      have hseen' : areNew ((a, newBus (lib.busNumber dev)) :: acc)
          ((lib.busNumber dev).toUInt32 :: seen) := congrArg (newBus (lib.busNumber dev) :: ·) hseen
      refine (ih hgrown.list hseen'
        (by rw [List.singleton_append, List.length_cons]; omega)).mono ?_
      rintro r m₄ (⟨hr, hleaves, hrefused⟩ | ⟨hr, new, hnew, hloc⟩)
      · exact .inl ⟨hr, hgrown.leaves hleaves, hrefused⟩
      · refine .inr ⟨hr, _, hgrown.trans hnew, ?_⟩
        rwa [List.append_assoc]

end FindBusses

section Lists

variable {A : Allocator (Cell UsbBus)} {lib : Libusb} {turns : ℕ} {h : Host} {s : Held}
  {devs : List ℕ}

lemma yields_onBusses {α : Type} {p : Cmd BusMem α} {Q : α → Host → Prop} :
    Yields (onBusses p) h Q ↔ Yields p h.busMem fun a m => Q a { h with busMem := m } :=
  yields_onPart

lemma yields_onHeld {α : Type} {p : Cmd Held α} {Q : α → Host → Prop} :
    Yields (onHeld p) h Q ↔ Yields p h.held fun a s => Q a { h with held := s } :=
  yields_onPart

lemma yields_error {e : LibusbError} (hlist : lib.deviceList = .error e)
    {Q : Except LibusbError (List ℕ) → Held → Prop} :
    Yields (libusbGetDeviceList lib) s Q ↔ Q (.error e) s := by
  rw [libusbGetDeviceList, hlist, yields_pure]

lemma yields_listed (hlist : lib.deviceList = .ok devs)
    {Q : Except LibusbError (List ℕ) → Held → Prop} :
    Yields (libusbGetDeviceList lib) s Q ↔ Q (.ok devs) (s.listed devs) := by
  rw [libusbGetDeviceList, hlist]
  exact yields_of_run rfl

lemma yields_freeList {ls : List (List ℕ)} (hlists : s.lists = devs :: ls)
    {Q : Unit → Held → Prop} : Yields (libusbFreeDeviceList devs) s Q ↔
      Q () { s with refs := fun p => s.refs p - devs.count p, lists := ls } := by
  have hget : (get : Cmd Held Held).run s = some (s, s) := rfl
  have hmem : devs ∈ s.lists := hlists ▸ List.mem_cons_self
  have herase : s.lists.erase devs = ls := by rw [hlists, List.erase_cons_head]
  rw [libusbFreeDeviceList, yields_bind, yields_of_run hget, if_pos hmem, herase]
  exact yields_of_run rfl

/-- A list that is given back takes its references along. -/
lemma yields_free_listed {Q : Unit → Held → Prop} :
    Yields (libusbFreeDeviceList devs) (s.listed devs) Q ↔ Q () s := by
  have hrefs : (fun p => (s.listed devs).refs p - devs.count p) = s.refs :=
    funext fun p => add_sub_cancel_right _ _
  rw [yields_freeList rfl, hrefs]
  rfl

/-- What `find_busses` makes: the busses of the listing, the last one first, or nothing. The
listing is kept if memory for a bus is refused. -/
lemma findBusses_spec (hturns : ∀ devs, lib.deviceList = .ok devs → devs.length ≤ turns)
    (h : Host) : Yields (findBusses A lib turns) h fun r h' => ∃ m s,
      h' = { h with busMem := m, held := s } ∧
      ((r.1 < 0 ∧ m.cells = h.busMem.cells ∧ ((s = h.held ∧ ∃ e, lib.deviceList = .error e) ∨
          (∃ devs, lib.deviceList = .ok devs ∧ s = h.held.listed devs) ∧ ∃ n, A.fails n = true)) ∨
      (r.1 = 0 ∧ s = h.held ∧ ∃ devs new, lib.deviceList = .ok devs ∧
        Prepends [] new h.busMem r.2 m ∧ areNew new (busNumbers lib devs).reverse)) := by
  rw [findBusses, yields_bind, yields_onHeld]
  cases hlist : lib.deviceList with
  | error e =>
    rw [yields_error hlist]
    exact yields_pure.mpr ⟨_, _, rfl, .inl ⟨compatErr_neg e, rfl, .inl ⟨rfl, e, rfl⟩⟩⟩
  | ok devs =>
    rw [yields_listed hlist]
    cases devs with
    | nil =>
      dsimp only
      rw [yields_bind, yields_onHeld, yields_free_listed, yields_pure]
      exact ⟨_, _, rfl, .inr ⟨rfl, rfl, [], [], rfl, .refl (.nil _), rfl⟩⟩
    | cons dev devs =>
      have hlen : ([] : Links UsbBus).length + (dev :: devs).length ≤ turns := by
        rw [List.length_nil, Nat.zero_add]
        exact hturns _ hlist
      have hnone : areNew [] [] := rfl
      dsimp only
      rw [yields_bind, yields_onBusses]
      refine (addBusses_spec (IsList.nil h.busMem.cells) hnone hlen).mono ?_
      rintro ⟨r, b⟩ m (⟨hr, hleaves, hrefused⟩ | ⟨hr, new, hnew, hloc⟩)
      · obtain ⟨rfl, rfl⟩ := Prod.mk.inj hr
        dsimp only
        rw [if_pos (by decide), yields_pure]
        exact ⟨_, _, rfl, .inl ⟨by decide, funext fun x => hleaves.apart x List.not_mem_nil,
          .inr ⟨⟨_, rfl, rfl⟩, hrefused⟩⟩⟩
      · obtain rfl : r = 0 := hr
        dsimp only
        rw [if_neg (by decide), yields_bind, yields_onHeld, yields_free_listed, yields_pure]
        rw [List.append_nil, newestFirst_eq] at hloc
        exact ⟨_, _, rfl, .inr ⟨rfl, rfl, dev :: devs, new, rfl, hnew, hloc⟩⟩

end Lists

/-! ### The registry -/

/-- A bus and its devices, by what they are and where. -/
structure Bus where
  addr : ℕ
  location : UInt32
  devices : Links UsbDevice

/-- The link of a bus. -/
def Bus.link (b : Bus) : ℕ × UsbBus := (b.addr, ⟨b.location, begins b.devices⟩)

/-- What is registered, and the devices that have been lost with their busses. -/
structure Registry where
  busses : List Bus
  lost : Links UsbDevice

/-- All devices that are allocated. -/
def Registry.devices (R : Registry) : Links UsbDevice :=
  (R.busses.flatMap Bus.devices) ++ R.lost

/-- What devices hold is the configurations of each and one reference for each, next to those of
the lists that have not been given back. -/
structure Inventory (s : Held) (devs : List UsbDevice) : Prop where
  blocks : ∃ own : List (UsbDevice × List ℕ), (own.map Prod.fst).Perm devs ∧
    (∀ x ∈ own, ∃ lib, DeviceHolds s.blocks.cells lib x.1 x.2) ∧ (own.flatMap Prod.snd).Nodup ∧
    ∀ a, (s.blocks.cells a).isSome ↔ a ∈ own.flatMap Prod.snd
  refs : ∀ p, s.refs p = (devs.countP fun dev => dev.dev = p) + s.lists.flatten.count p

/-- The memory of the host is that of a registry: linked lists of busses and of their devices,
which do not meet, and nothing else is allocated. -/
structure Refines (h : Host) (R : Registry) : Prop where
  busses : IsList h.busMem.cells h.usbBusses (R.busses.map Bus.link)
  devices : ∀ b ∈ R.busses, IsList h.devMem.cells (begins b.devices) b.devices
  lost : ∀ d ∈ R.lost, ∃ c, h.devMem.cells d.1 = some c ∧ c.val = d.2
  apart : (addrs R.devices).Nodup
  locations : (R.busses.map Bus.location).Nodup
  numbers : ∀ b ∈ R.busses, (b.devices.map fun d => d.2.devnum).Nodup
  owner : ∀ b ∈ R.busses, ∀ d ∈ b.devices, d.2.bus = b.addr
  held : Inventory h.held (vals R.devices)
  allBusses : ∀ a, (h.busMem.cells a).isSome → a ∈ R.busses.map Bus.addr
  allDevices : ∀ a, (h.devMem.cells a).isSome → a ∈ addrs R.devices

section UsbFindBusses

variable {A : Allocator (Cell UsbBus)} {lib : Libusb} {turns : ℕ} {h : Host} {R : Registry}

lemma refines_held (href : Refines h R) {s : Held} (hs : Inventory s (vals R.devices)) :
    Refines { h with held := s } R :=
  ⟨href.busses, href.devices, href.lost, href.apart, href.locations, href.numbers, href.owner, hs,
    href.allBusses, href.allDevices⟩

lemma Adopts.eq_of_all {V : Type} {l l' : Links V}
    (hl : Adopts (fun v r => r = some v) l l') : l' = l := by
  induction hl with
  | nil => rfl
  | fails hout _ _ => exact absurd hout (Option.some_ne_none _).symm
  | works hout _ ih =>
    obtain rfl := Option.some.inj hout
    rw [ih]

/-- The busses have nothing to do with the rest of the state. -/
lemma bus_accounts : Accounts (fun (_ : Unit) (_ : List UsbBus) => True)
    (fun v r => r = some v) (fun _ => pure ()) fun bus => pure (some bus) where
  release _ := yields_pure.mpr trivial
  init _ := yields_pure.mpr ⟨rfl, trivial⟩

/-- What a rescan of the busses makes of the links. -/
lemma rescanBusses_spec {m : BusMem} {first b : Option ℕ} {old fresh : Links UsbBus}
    (hold : IsList m.cells first old) (hfresh : IsList m.cells b fresh)
    (hdisj : ∀ x ∈ addrs old, x ∉ addrs fresh)
    (hkeys : (old.map fun x => x.2.location).Nodup)
    (hkeys' : (fresh.map fun x => x.2.location).Nodup)
    (hturns : old.length ≤ turns) (hturns' : fresh.length ≤ turns) :
    Yields (rescanBusses turns first b) m fun l m' =>
      IsList m'.cells l.known
        ((fresh.filter fun y => y.2.location ∉ old.map fun x => x.2.location).reverse ++
          old.filter fun x => x.2.location ∈ fresh.map fun y => y.2.location) ∧
      l.changes + (old.filter fun x => x.2.location ∈ fresh.map fun y => y.2.location).length =
        old.length + (fresh.filter fun y => y.2.location ∉ old.map fun x => x.2.location).length ∧
      Leaves (addrs old ++ addrs fresh)
        (addrs ((fresh.filter fun y => y.2.location ∉ old.map fun x => x.2.location).reverse ++
          old.filter fun x => x.2.location ∈ fresh.map fun y => y.2.location)) m m' := by
  rw [rescanBusses, yields_onPart]
  have hrec := reconcile_sameKey hkeys hkeys'
  refine (rescan_spec (s := ()) bus_accounts hold hfresh hdisj trivial hturns hturns').mono ?_
  rintro l ⟨m', u⟩ ⟨adopted, hadopts, hsettles, hchanges⟩
  obtain rfl := Adopts.eq_of_all hadopts
  have hsame : reconcile (sameVal fun bus nbus : UsbBus => bus.location = nbus.location) old fresh =
      reconcile (sameKey (fun x : ℕ × UsbBus => x.2.location) fun x : ℕ × UsbBus => x.2.location)
        old fresh := rfl
  rw [hsame, hrec] at hsettles hchanges
  have hleaves := hsettles.leaves
  simp only [addrs, List.map_nil, List.append_nil] at hleaves
  exact ⟨hsettles.known, hchanges, hleaves⟩

/-- What a successful scan for busses makes of a registry: the busses of the listing that had not
been known come first, those that are still there stay, and the devices of the others are lost. -/
def Registry.scanned (R : Registry) (locations : List UInt32) (added : List Bus) : Registry where
  busses := added ++ R.busses.filter fun b => b.location ∈ locations
  lost := R.lost ++ (R.busses.filter fun b => b.location ∉ locations).flatMap Bus.devices

/-- The busses that are added: new ones, without devices. -/
structure Added (R : Registry) (locations : List UInt32) (added : List Bus) : Prop where
  locations : added.map Bus.location = locations.filter fun x => x ∉ R.busses.map Bus.location
  devices : ∀ b ∈ added, b.devices = []

lemma Registry.scanned_devices {locations : List UInt32} {added : List Bus}
    (hadded : Added R locations added) : (R.scanned locations added).devices.Perm R.devices := by
  have hempty : added.flatMap Bus.devices = [] :=
    List.flatMap_eq_nil_iff.mpr hadded.devices
  have hsplit := (List.filter_append_perm (fun b : Bus => decide (b.location ∈ locations))
    R.busses).flatMap_right Bus.devices
  rw [List.flatMap_append] at hsplit
  simp only [Registry.devices, Registry.scanned, List.flatMap_append, hempty, List.nil_append,
    decide_not]
  rw [← List.append_assoc]
  refine List.Perm.trans ?_ (hsplit.append_right R.lost)
  rw [List.append_assoc, List.append_assoc]
  exact List.perm_append_comm.append_left _

lemma Inventory.perm {s : Held} {devs devs' : List UsbDevice} (hs : Inventory s devs)
    (hperm : devs.Perm devs') : Inventory s devs' := by
  obtain ⟨own, hown, hrest⟩ := hs.blocks
  exact ⟨⟨own, hown.trans hperm, hrest⟩, fun p => by rw [hs.refs p, hperm.countP_eq]⟩

lemma Inventory.listed {s : Held} {devs : List UsbDevice} (hs : Inventory s devs)
    (list : List ℕ) : Inventory (s.listed list) devs := by
  refine ⟨hs.blocks, fun p => ?_⟩
  have hrefs := hs.refs p
  rw [Held.listed, List.flatten_cons, List.count_append]
  dsimp only
  omega

/-- The registry of a host whose list of busses has been brought in line with a listing. -/
lemma Refines.scanned {locations : List UInt32} {added : List Bus} {m : BusMem}
    {first : Option ℕ} (href : Refines h R) (hadded : Added R locations added)
    (hlocations : locations.Nodup)
    (hbusses : IsList m.cells first ((R.scanned locations added).busses.map Bus.link))
    (hall : ∀ a, (m.cells a).isSome → a ∈ (R.scanned locations added).busses.map Bus.addr) :
    Refines { h with busMem := m, usbBusses := first } (R.scanned locations added) := by
  have hperm := Registry.scanned_devices hadded
  have hcases : ∀ b ∈ (R.scanned locations added).busses, b.devices = [] ∨ b ∈ R.busses := by
    intro b hb
    rcases List.mem_append.mp hb with hb | hb
    · exact .inl (hadded.devices b hb)
    · exact .inr (List.mem_filter.mp hb).1
  refine ⟨hbusses, fun b hb => ?_, fun d hd => ?_, ?_, ?_, fun b hb => ?_, fun b hb => ?_,
    href.held.perm (hperm.symm.map _), hall, fun a ha => ?_⟩
  · rcases hcases b hb with hnil | hb
    · rw [hnil]
      exact .nil _
    · exact href.devices b hb
  · rcases List.mem_append.mp hd with hd | hd
    · exact href.lost d hd
    · obtain ⟨b, hb, hdb⟩ := List.mem_flatMap.mp hd
      exact (href.devices b (List.mem_filter.mp hb).1).val_of_mem hdb
  · exact (hperm.map Prod.fst).nodup_iff.mpr href.apart
  · rw [Registry.scanned, List.map_append, hadded.locations]
    refine List.nodup_append'.mpr ⟨hlocations.filter _,
      href.locations.sublist (List.filter_sublist.map _), fun x hx hx' => ?_⟩
    have hnew := of_decide_eq_true (List.mem_filter.mp hx).2
    exact hnew ((List.filter_sublist.map _).subset hx')
  · rcases hcases b hb with hnil | hb
    · rw [hnil]
      exact List.nodup_nil
    · exact href.numbers b hb
  · rcases hcases b hb with hnil | hb
    · rw [hnil]
      exact fun d hd => absurd hd List.not_mem_nil
    · exact href.owner b hb
  · exact (hperm.map Prod.fst).mem_iff.mpr (href.allDevices a ha)

/-- A bus from its link, when it has no devices yet. -/
def ofLink (x : ℕ × UsbBus) : Bus := ⟨x.1, x.2.location, []⟩

lemma ofLink_link {l : Links UsbBus} {locations : List UInt32} (hl : areNew l locations) :
    ∀ x ∈ l, (ofLink x).link = x := by
  rintro ⟨a, v⟩ hx
  have hv : v ∈ vals l := List.mem_map.mpr ⟨_, hx, rfl⟩
  rw [hl] at hv
  obtain ⟨loc, -, rfl⟩ := List.mem_map.mp hv
  rfl

/-- The busses that are added, from what is left of the new list. -/
lemma added_of_fresh {fresh : Links UsbBus} {locations : List UInt32}
    (hnew : areNew fresh locations.reverse) :
    Added R locations (((fresh.filter fun y => y.2.location ∉
      R.busses.map Bus.location).reverse).map ofLink) := by
  refine ⟨?_, fun b hb => ?_⟩
  · have hmap : (fresh.filter fun y => y.2.location ∉ R.busses.map Bus.location).map
        (fun y => y.2.location) =
          locations.reverse.filter fun x => x ∉ R.busses.map Bus.location := by
      rw [← hnew.locations, List.filter_map]
      rfl
    rw [List.map_map, List.map_reverse]
    change ((fresh.filter fun y => y.2.location ∉ R.busses.map Bus.location).map
      fun y => y.2.location).reverse = _
    rw [hmap, ← List.filter_reverse, List.reverse_reverse]
  · obtain ⟨x, -, rfl⟩ := List.mem_map.mp hb
    rfl

/-- The links of the busses that stay. -/
lemma kept_links {fresh : Links UsbBus} {locations : List UInt32}
    (hnew : areNew fresh locations.reverse) :
    ((R.busses.map Bus.link).filter fun x => x.2.location ∈ fresh.map fun y => y.2.location) =
      (R.busses.filter fun b => b.location ∈ locations).map Bus.link := by
  rw [List.filter_map, hnew.locations]
  refine congrArg _ (List.filter_congr fun b _ => ?_)
  change decide (b.location ∈ locations.reverse) = decide (b.location ∈ locations)
  rw [decide_eq_decide, List.mem_reverse]

/-- The links of a registry that has been scanned. -/
lemma scanned_links {fresh : Links UsbBus} {locations : List UInt32}
    (hnew : areNew fresh locations.reverse) :
    ((R.scanned locations (((fresh.filter fun y => y.2.location ∉
      R.busses.map Bus.location).reverse).map ofLink)).busses.map Bus.link) =
      (fresh.filter fun y => y.2.location ∉ R.busses.map Bus.location).reverse ++
        (R.busses.map Bus.link).filter fun x => x.2.location ∈ fresh.map fun y => y.2.location := by
  have hlink : ∀ x ∈ (fresh.filter fun y => y.2.location ∉ R.busses.map Bus.location).reverse,
      (Bus.link ∘ ofLink) x = id x := fun x hx =>
    ofLink_link hnew x (List.mem_filter.mp (List.mem_reverse.mp hx)).1
  rw [Registry.scanned, List.map_append, List.map_map, List.map_congr_left hlink, List.map_id,
    kept_links hnew]

/-- A scan for busses leaves a registry as it is if libusb-1.0 or memory is missing, and
otherwise brings it in line with the listing. Nothing is touched that is not allocated. The
listing is kept if memory for a bus is refused. -/
lemma usbFindBusses_spec (A : Allocator (Cell UsbBus)) (lib : Libusb) (href : Refines h R)
    (hctx : h.ctx = true) (hturns : R.busses.length ≤ turns)
    (hlist : ∀ devs, lib.deviceList = .ok devs → devs.length ≤ turns) :
    Yields (usbFindBusses A lib turns) h fun r h' => h'.ctx = true ∧
      ((r < 0 ∧ Refines h' R ∧
        ((h'.held = h.held ∧ ∃ e, lib.deviceList = .error e) ∨ (∃ devs,
          lib.deviceList = .ok devs ∧ h'.held = h.held.listed devs) ∧ ∃ n, A.fails n = true)) ∨
      ∃ devs added, lib.deviceList = .ok devs ∧ Added R (busNumbers lib devs) added ∧
        Refines h' (R.scanned (busNumbers lib devs) added) ∧ h'.held = h.held ∧
        r = added.length + (R.busses.filter fun b => b.location ∉ busNumbers lib devs).length) := by
  have hget : (get : Cmd Host Host).run h = some (h, h) := rfl
  rw [usbFindBusses, yields_bind, yields_of_run hget, hctx, if_neg (by decide), yields_bind]
  refine (findBusses_spec hlist h).mono ?_
  rintro ⟨r, b⟩ h₁ ⟨m₁, s, rfl, ⟨hr, hcells, hwhy⟩ |
    ⟨hr, rfl, devs, fresh, hdevs, ⟨hfresh, hfree, hapart⟩, hnew⟩⟩
  · dsimp only at hr ⊢
    rw [if_pos hr, yields_pure]
    have hheld : Inventory s (vals R.devices) := by
      rcases hwhy with ⟨rfl, -⟩ | ⟨⟨devs, -, rfl⟩, -⟩
      · exact href.held
      · exact href.held.listed devs
    refine ⟨hctx, .inl ⟨hr, ⟨?_, href.devices, href.lost, href.apart, href.locations, href.numbers,
      href.owner, hheld, fun a ha => href.allBusses a (hcells ▸ ha), href.allDevices⟩, hwhy⟩⟩
    exact hcells ▸ href.busses
  · dsimp only at hr ⊢
    subst hr
    rw [List.append_nil] at hfresh hapart
    have hmem : ∀ x ∈ addrs (R.busses.map Bus.link), x ∉ addrs fresh := fun x hx hx' => by
      have hsome := href.busses.allocated hx
      rw [hfree x hx'] at hsome
      exact absurd hsome Bool.false_ne_true
    have hold : IsList m₁.cells h.usbBusses (R.busses.map Bus.link) :=
      href.busses.apart hapart hmem
    have hlocs : (R.busses.map Bus.link).map (fun x => x.2.location) =
        R.busses.map Bus.location := by
      rw [List.map_map]
      rfl
    have hkeys : ((R.busses.map Bus.link).map fun x => x.2.location).Nodup :=
      hlocs ▸ href.locations
    have hnewlocs := hnew.locations
    have hkeys' : (fresh.map fun x => x.2.location).Nodup := by
      rw [hnewlocs]
      exact List.nodup_reverse.mpr (busNumbers_nodup lib devs)
    have hlen' : fresh.length ≤ turns := by
      have hlen := congrArg List.length hnewlocs
      rw [List.length_map, List.length_reverse] at hlen
      exact hlen ▸ (busNumbers_length lib devs).trans (hlist devs hdevs)
    rw [if_neg (by decide), yields_bind, yields_onBusses]
    refine (rescanBusses_spec hold hfresh hmem hkeys hkeys'
      (by rwa [List.length_map]) hlen').mono ?_
    rintro l m₂ ⟨hknown, hchanges, hleaves⟩
    rw [hlocs, ← scanned_links hnew] at hknown hleaves
    have hadded := added_of_fresh (R := R) hnew
    have hall : ∀ a, (m₂.cells a).isSome → a ∈ addrs (R.busses.map Bus.link) ++ addrs fresh := by
      intro a ha
      by_contra hout
      have hfresh' : a ∉ addrs fresh := fun hx => hout (List.mem_append_right _ hx)
      rw [hleaves.apart a hout, hapart a hfresh'] at ha
      refine hout (List.mem_append_left _ ?_)
      rw [addrs, List.map_map]
      exact href.allBusses a ha
    refine ⟨_, _, rfl, hctx, .inr ⟨devs, _, hdevs, hadded, ?_, rfl, ?_⟩⟩
    · have hscanned := Refines.scanned href hadded (busNumbers_nodup lib devs) hknown fun a ha => by
        by_contra hout
        have hgone := hleaves.freed a (hall a ha) fun hx => hout (by
          rw [addrs, List.map_map] at hx
          exact hx)
        rw [hgone] at ha
        exact absurd ha Bool.false_ne_true
      exact hscanned
    · have hsplit := List.length_eq_length_filter_add (l := R.busses)
        fun b => decide (b.location ∈ busNumbers lib devs)
      rw [hlocs, kept_links hnew, List.length_map, List.length_map] at hchanges
      rw [List.length_map, List.length_reverse]
      simp only [decide_not] at hchanges ⊢
      omega

/-- A scan for busses that has a listing and fails never gives the listing back, and with it a
reference to each of its devices; one that succeeds does. -/
theorem usbFindBusses_keeps (A : Allocator (Cell UsbBus)) {devs : List ℕ} (href : Refines h R)
    (hctx : h.ctx = true) (hdevs : lib.deviceList = .ok devs) (hturns : R.busses.length ≤ turns)
    (hlist : devs.length ≤ turns) :
    Yields (usbFindBusses A lib turns) h fun r h' =>
      h'.held = if r < 0 then h.held.listed devs else h.held := by
  refine (usbFindBusses_spec A lib href hctx hturns fun devs' h' => ?_).mono ?_
  · obtain rfl : devs = devs' := Except.ok.inj (hdevs.symm.trans h')
    exact hlist
  · rintro r h' ⟨-, ⟨hr, -, ⟨-, e, he⟩ | ⟨⟨devs', hdevs', hheld⟩, -⟩⟩ |
      ⟨devs', added, -, -, -, hheld, hr⟩⟩
    · exact absurd (he.symm.trans hdevs) (by simp)
    · obtain rfl : devs = devs' := Except.ok.inj (hdevs.symm.trans hdevs')
      rw [if_pos hr, hheld]
    · rw [if_neg (by omega), hheld]

/-- Memory that is refused from the first request on: the board keeps a reference. -/
example : ((usbFindBusses { Allocator.above ⟨none, none, ⟨0, none⟩⟩ with fails := fun _ => true }
    oneBoard 4).run ⟨true, none, Mem.empty _, Mem.empty _, ⟨Mem.empty _, fun _ => 0, []⟩⟩).map
      (fun r => (r.1, r.2.held.refs 7, r.2.held.lists)) = some (-enomem, 1, [[7]]) := by
  decide +kernel

end UsbFindBusses

end AmlogicUpdate.Busses

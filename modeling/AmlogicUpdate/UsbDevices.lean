import AmlogicUpdate.Busses

/-!
`usbcompat.h`: the devices of the busses, `usb_find_devices`.

On every bus the devices of the listing are collected in a list of their own. A device that is
known already keeps its record, whatever libusb-1.0 says about it now; one that is gone is freed;
one that is new is initialized, and dropped if that fails.
-/

namespace AmlogicUpdate.UsbDevices

open Heap LinkedHeap Reconcile DeepCopy Descriptors Usb Busses

abbrev DevMem : Type := Mem (Cell UsbDevice)

/-- `malloc` for each of the three kinds of memory. -/
structure Allocators where
  bus : Allocator (Cell UsbBus)
  device : Allocator (Cell UsbDevice)
  block : Allocator Block

/-- The loop of `find_devices` over the listing; what it returns, and the list. -/
def findDevices (A : Allocator (Cell UsbDevice)) (lib : Libusb) (turns bus : ℕ)
    (location : UInt32) : List ℕ → Option ℕ → Cmd DevMem (ℤ × Option ℕ)
  | [], devices => pure (0, devices)
  | newlibDev :: devList, devices => do
    let busNum := lib.busNumber newlibDev
    if busNum.toUInt32 ≠ location then findDevices A lib turns bus location devList devices
    else
      match ← malloc A with
      | none =>
        freeAll turns devices
        pure (-enomem, none)
      | some dev =>
        let c ← load dev
        setVal dev { c.val with
          dev := newlibDev, bus := bus, devnum := lib.deviceAddress newlibDev }
        let devices ← listAdd devices dev
        findDevices A lib turns bus location devList devices

/-- `initialize_device`, as the walk over the new devices needs it. -/
def initialized (A : Allocator Block) (lib : Libusb) (dev : UsbDevice) :
    Cmd Held (Option UsbDevice) := do
  let (r, dev) ← initializeDevice A lib dev
  pure (if r < 0 then none else some dev)

def onDevices {α : Type} (p : Cmd DevMem α) : Cmd Host α :=
  onPart Host.devMem (fun m h => { h with devMem := m }) p

/-- The walks over the known and the new devices of a bus. -/
def rescanDevices (A : Allocator Block) (lib : Libusb) (turns : ℕ) (known new : Option ℕ) :
    Cmd Host Lists :=
  onPart (fun h => (h.devMem, h.held)) (fun t h => { h with devMem := t.1, held := t.2 })
    (rescan (fun dev ndev => dev.devnum = ndev.devnum) freeDevice (initialized A lib) turns
      known new)

/-- The loop of `usb_find_devices` over the busses. -/
def findOnBusses (A : Allocators) (lib : Libusb) (turns : ℕ) (devList : List ℕ) :
    ℕ → Option ℕ → ℤ → Cmd Host ℤ
  | _, none, changes => pure changes
  | 0, some _, _ => failure
  | n + 1, some bus, changes => do
    let c ← onBusses (load bus)
    let (r, newDevices) ← onDevices (findDevices A.device lib turns bus c.val.location devList none)
    if r < 0 then pure r
    else
      let l ← rescanDevices A.block lib turns c.val.devices newDevices
      onBusses (setVal bus { c.val with devices := l.known })
      findOnBusses A lib turns devList n c.next (changes + l.changes)

def usbFindDevices (A : Allocators) (lib : Libusb) (turns : ℕ) : Cmd Host ℤ := do
  let h ← get
  if !h.ctx then pure 0
  else
    match ← onHeld (libusbGetDeviceList lib) with
    | .error e => pure (compatErr e)
    | .ok devList => do
      let r ← findOnBusses A lib turns devList turns h.usbBusses 0
      -- also if a bus has made the loop return
      onHeld (libusbFreeDeviceList devList)
      pure r

/-! ### What can be initialized -/

/-- The descriptor of a device all of whose configurations can be had. -/
def available (lib : Libusb) (dev : ℕ) : Option DeviceDescriptor :=
  match lib.deviceDescriptor dev with
  | .error _ => none
  | .ok d => if (configurations lib dev d).all Except.isOk then some d else none

/-- What becomes of a device that is initialized. -/
def Initial (lib : Libusb) (dev : UsbDevice) (r : Option UsbDevice) : Prop :=
  match available lib dev.dev with
  | none => r = none
  | some d => ∃ a, r = some { dev with descriptor := d, config := some a }

section Initialize

variable {A : Allocator Block} {lib : Libusb} {s : Held} {dev : UsbDevice}

lemma endpointAsks_memory {src : LibusbEndpointDescriptor} {k : Ask Request}
    (hk : k ∈ endpointAsks src) : ∃ r, k = .memory r := by
  rw [endpointAsks] at hk
  split_ifs at hk
  · exact absurd hk List.not_mem_nil
  · exact ⟨_, List.mem_singleton.mp hk⟩

lemma ownerAsks_memory {P T S : Type} {sh : Shape P T S} {asks : S → List (Ask Request)}
    {own ownExtra : Request} {t : T} {k : Ask Request}
    (hasks : ∀ s, ∀ k ∈ asks s, ∃ r, k = .memory r) (hk : k ∈ ownerAsks sh asks own ownExtra t) :
    ∃ r, k = .memory r := by
  rw [ownerAsks, List.mem_cons, List.mem_append] at hk
  rcases hk with rfl | hk | hk
  · exact ⟨own, rfl⟩
  · obtain ⟨s, -, hks⟩ := List.mem_flatMap.mp hk
    exact hasks s k hks
  · split_ifs at hk
    · exact absurd hk List.not_mem_nil
    · exact ⟨ownExtra, List.mem_singleton.mp hk⟩

/-- Copying a configuration asks for nothing but memory. -/
lemma configDescriptorAsks_memory (src : LibusbConfigDescriptor) :
    ∀ k ∈ configDescriptorAsks src, ∃ r, k = .memory r := fun _ hk =>
  ownerAsks_memory (fun _ _ hk => ownerAsks_memory (fun _ _ hk => ownerAsks_memory
    (fun _ _ hk => endpointAsks_memory hk) hk) hk) hk

/-- With enough memory only something that libusb-1.0 does not have can be missing. -/
lemma firstFail_error {B K : Type} {A : Allocator B} (hA : ∀ n, A.fails n = false) {n : ℕ}
    {asks : List (Ask K)} {k : Ask K} (hk : firstFail A n asks = some k) :
    ∃ code, k = .error code := by
  induction asks generalizing n with
  | nil => exact absurd hk (Option.some_ne_none k).symm
  | cons x asks ih =>
    cases x with
    | memory x =>
      rw [firstFail, hA, if_neg Bool.false_ne_true] at hk
      exact ih hk
    | error code => exact ⟨code, (Option.some.inj hk).symm⟩

lemma available_of_holds {h : ℕ → Option Block} {l : List ℕ} (hdev : DeviceHolds h lib dev l) :
    available lib dev.dev = some dev.descriptor := by
  obtain ⟨a, es, l', -, -, -, hes⟩ := hdev.configs
  have hall : (configurations lib dev.dev dev.descriptor).all Except.isOk = true := by
    generalize configurations lib dev.dev dev.descriptor = cs at hes
    induction hes with
    | nil => rfl
    | @cons e s l es ss l' he _ ih =>
      cases s with
      | error x => exact he.elim
      | ok c => exact ih
  rw [available, hdev.descriptor]
  exact if_pos hall

lemma available_of_error {n : ℕ} {k : Ask Request} (hA : ∀ n, A.fails n = false)
    (hk : firstFail A n (deviceAsks lib dev.dev) = some k) : available lib dev.dev = none := by
  obtain ⟨code, rfl⟩ := firstFail_error hA hk
  have hmem := firstFail_mem hk
  rw [deviceAsks] at hmem
  rw [available]
  cases hd : lib.deviceDescriptor dev.dev with
  | error e => rfl
  | ok d =>
    rw [hd] at hmem
    refine if_neg fun hall => ?_
    rcases List.mem_cons.mp hmem with he | hmem
    · cases he
    obtain ⟨c, hc, hkc⟩ := List.mem_flatMap.mp hmem
    have hok := List.all_eq_true.mp hall c hc
    cases c with
    | error e => exact absurd hok Bool.false_ne_true
    | ok c =>
      obtain ⟨r, hr⟩ := configDescriptorAsks_memory c _ hkc
      cases hr

/-- With enough memory a device is initialized exactly if libusb-1.0 has its descriptors. -/
lemma initialized_spec (hA : ∀ n, A.fails n = false) (s : Held) (dev : UsbDevice) :
    Yields (initialized A lib dev) s fun r s' => Initial lib dev r ∧
      s'.lists = s.lists ∧ match r with
      | some dev' => dev'.dev = dev.dev ∧
        s'.refs = Function.update s.refs dev.dev (s.refs dev.dev + 1) ∧
        ∃ l, DeviceHolds s'.blocks.cells lib dev' l ∧ l.Nodup ∧ Gains l s.blocks s'.blocks
      | none => s'.refs = s.refs ∧ s'.blocks.cells = s.blocks.cells := by
  have hspec := initializeDevice_spec A lib s dev
  rw [initialized, yields_bind]
  cases hk : firstFail A s.blocks.asked (deviceAsks lib dev.dev) with
  | none =>
    rw [hk] at hspec
    refine hspec.mono ?_
    rintro ⟨r, dev'⟩ s' ⟨hr, hrefs, hlists, ⟨d, a, hdev⟩, l, hholds, hl, hgain⟩
    obtain rfl : r = 0 := hr
    obtain rfl : dev' = _ := hdev
    refine yields_pure.mpr ⟨?_, hlists, rfl, hrefs, l, hholds, hl, hgain⟩
    have havail := available_of_holds hholds
    rw [Initial, havail]
    exact ⟨a, rfl⟩
  | some k =>
    rw [hk] at hspec
    obtain ⟨code, rfl⟩ := firstFail_error hA hk
    dsimp only at hspec
    rw [if_neg (by exact Nat.lt_irrefl 3)] at hspec
    refine hspec.mono ?_
    rintro ⟨r, dev'⟩ s' ⟨-, hneg, hrefs, hlists, hblocks⟩
    dsimp only at hneg ⊢
    rw [if_pos hneg, yields_pure]
    refine ⟨?_, hlists, hrefs, hblocks⟩
    rw [Initial, available_of_error hA hk]

end Initialize

/-! ### What the devices hold -/

section Inventory

variable {A : Allocator Block} {lib : Libusb} {s : Held} {dev : UsbDevice} {devs : List UsbDevice}

lemma deviceHolds_frame {h h' : ℕ → Option Block} {l : List ℕ} (A : Allocator Block)
    (hdev : DeviceHolds h lib dev l) (hh : ∀ x ∈ l, h' x = h x) : DeviceHolds h' lib dev l := by
  obtain ⟨a, es, l', hconfig, rfl, ha, hes⟩ := hdev.configs
  exact ⟨hdev.descriptor, a, es, l', hconfig, rfl, (hh a List.mem_cons_self).trans ha,
    hes.frame (configs_copies A) fun x hx => hh x (List.mem_cons_of_mem _ hx)⟩

lemma deviceHolds_live {h : ℕ → Option Block} {l : List ℕ} (A : Allocator Block)
    (hdev : DeviceHolds h lib dev l) : ∀ x ∈ l, (h x).isSome := by
  obtain ⟨a, es, l', hconfig, rfl, ha, hes⟩ := hdev.configs
  intro x hx
  rcases List.mem_cons.mp hx with rfl | hx
  · rw [ha]
    rfl
  · exact hes.live (configs_copies A) x hx

lemma inventory_free (A : Allocator Block) (h : Inventory s (dev :: devs)) :
    Yields (freeDevice dev) s fun _ s' => Inventory s' devs ∧ s'.lists = s.lists := by
  obtain ⟨own, hown, hholds, hnodup, hall⟩ := h.blocks
  have hmem : dev ∈ own.map Prod.fst := hown.mem_iff.mpr List.mem_cons_self
  obtain ⟨⟨dev', l⟩, hx, hdev'⟩ := List.mem_map.mp hmem
  obtain rfl : dev' = dev := hdev'
  obtain ⟨own₁, own₂, rfl⟩ := List.append_of_mem hx
  obtain ⟨lib, hlib⟩ := hholds _ hx
  have hperm : ((own₁ ++ own₂).map Prod.fst).Perm devs := by
    rw [List.map_append, List.map_cons] at hown
    rw [List.map_append]
    exact (List.perm_middle.symm.trans hown).cons_inv
  have hsplit : ((own₁ ++ (dev', l) :: own₂).flatMap Prod.snd).Perm
      (l ++ (own₁ ++ own₂).flatMap Prod.snd) := by
    simp only [List.flatMap_append, List.flatMap_cons]
    exact List.perm_append_comm_assoc _ _ _
  obtain ⟨hl, hrest, hdisj⟩ := List.nodup_append'.mp (hsplit.nodup_iff.mp hnodup)
  refine (freeDevice_spec A hlib hl).mono ?_
  rintro _ s' ⟨hleaves, hrefs, hlists⟩
  have hkeep : ∀ x ∈ own₁ ++ own₂, ∀ a ∈ x.2, a ∉ l := fun x hx a ha hal =>
    hdisj hal (List.mem_flatMap.mpr ⟨x, hx, ha⟩)
  refine ⟨⟨⟨own₁ ++ own₂, hperm, fun x hx => ?_, hrest, fun a => ?_⟩, fun p => ?_⟩, hlists⟩
  · have hx' : x ∈ own₁ ++ (dev', l) :: own₂ := by
      rcases List.mem_append.mp hx with hx | hx
      · exact List.mem_append_left _ hx
      · exact List.mem_append_right _ (List.mem_cons_of_mem _ hx)
    obtain ⟨lib', hlib'⟩ := hholds x hx'
    exact ⟨lib', deviceHolds_frame A hlib' fun a ha => hleaves.apart a (hkeep x hx a ha)⟩
  · by_cases hal : a ∈ l
    · rw [hleaves.freed a hal List.not_mem_nil]
      exact ⟨fun hf => absurd hf Bool.false_ne_true, fun ha => absurd ha fun ha => hdisj hal ha⟩
    · rw [hleaves.apart a hal, hall a, hsplit.mem_iff, List.mem_append]
      exact ⟨fun ha => ha.resolve_left hal, .inr⟩
  · have hcount := h.refs p
    rw [List.countP_cons] at hcount
    rw [hrefs, hlists]
    by_cases hp : dev'.dev = p
    · subst hp
      rw [Function.update_self, hcount, decide_eq_true rfl, if_pos rfl]
      omega
    · rw [Function.update_of_ne (Ne.symm hp), hcount, decide_eq_false hp,
        if_neg Bool.false_ne_true]
      omega

lemma inventory_init (hA : ∀ n, A.fails n = false) (h : Inventory s devs) :
    Yields (initialized A lib dev) s fun r s' => Initial lib dev r ∧
      s'.lists = s.lists ∧ match r with
      | some dev' => Inventory s' (dev' :: devs)
      | none => Inventory s' devs := by
  refine (initialized_spec hA s dev).mono ?_
  rintro (_ | dev') s' ⟨hinit, hlists, hr⟩
  · refine ⟨hinit, hlists, ⟨?_, fun p => by rw [hr.1, hlists, h.refs p]⟩⟩
    have hblocks := h.blocks
    rwa [← hr.2] at hblocks
  · obtain ⟨hdev, hrefs, l, hholds, hl, hgain⟩ := hr
    obtain ⟨own, hown, hown', hnodup, hall⟩ := h.blocks
    have hfresh : ∀ a ∈ l, a ∉ own.flatMap Prod.snd := fun a ha hm => by
      have hsome := (hall a).mpr hm
      rw [hgain.freed a ha List.not_mem_nil] at hsome
      exact absurd hsome Bool.false_ne_true
    refine ⟨hinit, hlists, ⟨(dev', l) :: own, ?_, fun x hx => ?_, ?_, fun a => ?_⟩, fun p => ?_⟩
    · rw [List.map_cons]
      exact hown.cons dev'
    · rcases List.mem_cons.mp hx with rfl | hx
      · exact ⟨lib, hholds⟩
      · obtain ⟨lib', hlib'⟩ := hown' x hx
        exact ⟨lib', deviceHolds_frame A hlib' fun a ha => (hgain.apart a fun hal =>
          hfresh a hal (List.mem_flatMap.mpr ⟨x, hx, ha⟩)).symm⟩
    · rw [List.flatMap_cons]
      exact List.nodup_append'.mpr ⟨hl, hnodup, fun a ha ha' => hfresh a ha ha'⟩
    · rw [List.flatMap_cons, List.mem_append]
      by_cases hal : a ∈ l
      · exact ⟨fun _ => .inl hal, fun _ => deviceHolds_live A hholds a hal⟩
      · rw [← hgain.apart a hal, hall a]
        exact ⟨.inr, fun ha => ha.resolve_left hal⟩
    · rw [List.countP_cons, hrefs, hdev, hlists]
      by_cases hp : dev.dev = p
      · subst hp
        rw [Function.update_self, h.refs, decide_eq_true rfl, if_pos rfl]
        omega
      · rw [Function.update_of_ne (Ne.symm hp), h.refs, decide_eq_false hp,
          if_neg Bool.false_ne_true]
        omega

/-- The devices of one bus, next to all the others. -/
lemma device_accounts (hA : ∀ n, A.fails n = false) (others : List UsbDevice)
    (lists : List (List ℕ)) :
    Accounts (fun s devs => Inventory s (devs ++ others) ∧ s.lists = lists) (Initial lib) freeDevice
      (initialized A lib) where
  release := by
    intro s L₁ v L₂ ⟨h, hlists⟩
    have hperm : (L₁ ++ v :: L₂ ++ others).Perm (v :: (L₁ ++ L₂ ++ others)) :=
      List.perm_middle.append_right others
    exact (inventory_free A (h.perm hperm)).mono fun _ s' hs' => ⟨hs'.1, hs'.2.trans hlists⟩
  init := by
    intro s v L ⟨h, hlists⟩
    refine (inventory_init hA h).mono ?_
    rintro (_ | v') s' ⟨hinit, hkept, hinv⟩
    · exact ⟨hinit, hinv, hkept.trans hlists⟩
    · exact ⟨hinit, hinv, hkept.trans hlists⟩

/-- The list that was handed out last takes its references along. -/
lemma inventory_freeList {list : List ℕ} {ls : List (List ℕ)} (h : Inventory s devs)
    (hlists : s.lists = list :: ls) :
    Yields (libusbFreeDeviceList list) s fun _ s' => Inventory s' devs ∧ s'.lists = ls := by
  refine (yields_freeList hlists).mpr ⟨⟨h.blocks, fun p => ?_⟩, rfl⟩
  have hrefs := h.refs p
  rw [hlists, List.flatten_cons, List.count_append] at hrefs
  dsimp only
  omega

end Inventory

/-! ### What `find_devices` finds -/

/-- The devices of a listing that are on a bus. -/
def present (lib : Libusb) (location : UInt32) (devList : List ℕ) : List ℕ :=
  devList.filter fun dev => (lib.busNumber dev).toUInt32 = location

/-- What `find_devices` puts into a record. -/
def found (dev : UsbDevice) : ℕ × ℕ × UInt8 := (dev.dev, dev.bus, dev.devnum)

/-- The records of some devices of a listing. -/
def areFound (lib : Libusb) (bus : ℕ) (l : Links UsbDevice) (devs : List ℕ) : Prop :=
  (vals l).map found = devs.map fun dev => (dev, bus, lib.deviceAddress dev)

section FindDevices

variable {A : Allocator (Cell UsbDevice)} {lib : Libusb} {turns bus : ℕ} {location : UInt32}
  {m : DevMem} {b : Option ℕ}

lemma findDevices_spec {devList seen : List ℕ} {acc : Links UsbDevice}
    (hacc : IsList m.cells b acc) (hseen : areFound lib bus acc seen)
    (hturns : acc.length + devList.length ≤ turns) :
    Yields (findDevices A lib turns bus location devList b) m fun r m' =>
      (r = (-enomem, none) ∧ Leaves (addrs acc) [] m m' ∧ ∃ n, A.fails n = true) ∨
      (r.1 = 0 ∧ ∃ new, Prepends acc new m r.2 m' ∧
        areFound lib bus (new ++ acc) ((present lib location devList).reverse ++ seen)) := by
  induction devList generalizing m b acc seen with
  | nil =>
    rw [findDevices, yields_pure]
    exact .inr ⟨rfl, [], .refl hacc, hseen⟩
  | cons dev devList ih =>
    rw [List.length_cons] at hturns
    have hlen : acc.length ≤ turns := by omega
    rw [findDevices]
    by_cases hbus : (lib.busNumber dev).toUInt32 = location
    · have hpresent : present lib location (dev :: devList) =
          dev :: present lib location devList := List.filter_cons_of_pos (by simpa using hbus)
      rw [if_neg (not_not.mpr hbus), yields_bind, hpresent]
      refine (yields_malloc A m).mono ?_
      rintro (_ | a) m₁ ⟨-, hfails, hr⟩
      · have hacc₁ : IsList m₁.cells b acc := hr ▸ hacc
        dsimp only
        rw [yields_bind]
        refine (freeAll_spec hacc₁ hlen).mono fun _ m₂ h₂ =>
          yields_pure.mpr (.inl ⟨rfl, ?_, _, hfails⟩)
        exact ⟨fun x hx => by rw [h₂.apart x hx, hr], h₂.freed⟩
      · obtain ⟨hnone, hsome, hrest⟩ := hr
        obtain ⟨c, hc⟩ := Option.isSome_iff_exists.mp hsome
        dsimp only
        rw [yields_bind, yields_load hc, yields_bind, yields_setVal hc, yields_bind]
        refine (listAdd_new hacc hnone hrest _).mono fun b' m₂ hgrown => ?_
        have hseen' : areFound lib bus ((a, { c.val with
            dev := dev, bus := bus, devnum := lib.deviceAddress dev }) :: acc) (dev :: seen) :=
          congrArg ((dev, bus, lib.deviceAddress dev) :: ·) hseen
        refine (ih hgrown.list hseen'
          (by rw [List.singleton_append, List.length_cons]; omega)).mono ?_
        rintro r m₃ (⟨hr, hleaves, hrefused⟩ | ⟨hr, new, hnew, hloc⟩)
        · exact .inl ⟨hr, hgrown.leaves hleaves, hrefused⟩
        · refine .inr ⟨hr, _, hgrown.trans hnew, ?_⟩
          rwa [List.append_assoc, List.reverse_cons, List.append_assoc]
    · have hpresent : present lib location (dev :: devList) = present lib location devList :=
        List.filter_cons_of_neg (by simpa using hbus)
      rw [if_pos hbus, hpresent]
      exact ih hacc hseen (by omega)

end FindDevices

/-! ### A rescan of one bus -/

/-- The devices of a bus after a successful scan: those of the listing that had not been known and
can be initialized come first, those that are still there keep their records. -/
structure Scanned (lib : Libusb) (devList : List ℕ) (b : Bus) (added : Links UsbDevice) :
    Prop where
  devices : (vals added).map (fun dev => (dev.dev, dev.devnum, dev.descriptor)) =
    ((present lib b.location devList).filter fun dev =>
      lib.deviceAddress dev ∉ b.devices.map fun x => x.2.devnum).filterMap fun dev =>
        (available lib dev).map fun d => (dev, lib.deviceAddress dev, d)
  owner : ∀ x ∈ added, x.2.bus = b.addr

/-- The devices that stay. -/
def stay (lib : Libusb) (devList : List ℕ) (b : Bus) : Links UsbDevice :=
  b.devices.filter fun x => x.2.devnum ∈ (present lib b.location devList).map lib.deviceAddress

section Adopt

variable {lib : Libusb} {l l' : Links UsbDevice}

lemma adopts_devices (hl : Adopts (Initial lib) l l') :
    (vals l').map (fun dev => (dev.dev, dev.devnum, dev.descriptor)) =
      ((vals l).map found).filterMap fun x =>
        (available lib x.1).map fun d => (x.1, x.2.2, d) := by
  induction hl with
  | nil => rfl
  | @fails a v l l' hout _ ih =>
    rw [Initial] at hout
    have hnone : available lib v.dev = none := by
      cases hv : available lib v.dev with
      | none => rfl
      | some d =>
        rw [hv] at hout
        obtain ⟨a, ha⟩ := hout
        exact absurd ha (Option.some_ne_none _).symm
    simp only [vals, List.map_cons] at ih ⊢
    rw [List.filterMap_cons_none (by simp [found, hnone]), ih]
  | @works a v v' l l' hout _ ih =>
    rw [Initial] at hout
    cases hv : available lib v.dev with
    | none =>
      rw [hv] at hout
      exact absurd hout (Option.some_ne_none _)
    | some d =>
      rw [hv] at hout
      obtain ⟨a, ha⟩ := hout
      obtain rfl := Option.some.inj ha
      simp only [vals, List.map_cons] at ih ⊢
      rw [List.filterMap_cons_some (b := (v.dev, v.devnum, d)) (by simp [found, hv]), ih]

lemma adopts_owner (hl : Adopts (Initial lib) l l') {bus : ℕ} (hbus : ∀ x ∈ l, x.2.bus = bus) :
    ∀ x ∈ l', x.2.bus = bus := by
  induction hl with
  | nil => exact hbus
  | fails _ _ ih => exact ih fun x hx => hbus x (List.mem_cons_of_mem _ hx)
  | @works a v v' l l' hout _ ih =>
    intro x hx
    rcases List.mem_cons.mp hx with rfl | hx
    · have hv := hbus (a, v) List.mem_cons_self
      rw [Initial] at hout
      split at hout
      · exact absurd hout (Option.some_ne_none _)
      · obtain ⟨a, ha⟩ := hout
        obtain rfl := Option.some.inj ha
        exact hv
    · exact ih (fun y hy => hbus y (List.mem_cons_of_mem _ hy)) x hx

end Adopt

section RescanDevices

variable {A : Allocator Block} {lib : Libusb} {turns : ℕ} {h : Host} {devList : List ℕ} {b : Bus}

lemma areFound.numbers {l : Links UsbDevice} {devs : List ℕ} {bus : ℕ}
    (hl : areFound lib bus l devs) : (l.map fun x => x.2.devnum) = devs.map lib.deviceAddress := by
  have hmap := congrArg (List.map fun x : ℕ × ℕ × UInt8 => x.2.2) hl
  rw [List.map_map, List.map_map, List.map_map] at hmap
  exact hmap

lemma areFound.owner {l : Links UsbDevice} {devs : List ℕ} {bus : ℕ}
    (hl : areFound lib bus l devs) : ∀ x ∈ l, x.2.bus = bus := by
  intro x hx
  have hmem : found x.2 ∈ (vals l).map found :=
    List.mem_map.mpr ⟨x.2, List.mem_map.mpr ⟨x, hx, rfl⟩, rfl⟩
  rw [hl] at hmem
  obtain ⟨d, -, hd⟩ := List.mem_map.mp hmem
  exact (congrArg (fun y : ℕ × ℕ × UInt8 => y.2.1) hd).symm

/-- What is left of the new list, in terms of the listing. -/
lemma areFound.left {fresh : Links UsbDevice} {devs : List ℕ} {bus : ℕ} (numbers : List UInt8)
    (hfresh : areFound lib bus fresh devs.reverse) :
    (vals (fresh.filter fun y => y.2.devnum ∉ numbers)).map found =
      ((devs.filter fun dev => lib.deviceAddress dev ∉ numbers).map fun dev =>
        (dev, bus, lib.deviceAddress dev)).reverse := by
  have hvals : vals (fresh.filter fun y => y.2.devnum ∉ numbers) =
      (vals fresh).filter fun v => v.devnum ∉ numbers := by
    rw [vals, vals, List.filter_map]
    rfl
  have hfound : ∀ l : List UsbDevice, (l.filter fun v => v.devnum ∉ numbers).map found =
      (l.map found).filter fun x => x.2.2 ∉ numbers := by
    intro l
    rw [List.filter_map]
    rfl
  rw [hvals, hfound, hfresh, List.filter_map, ← List.map_reverse, ← List.filter_reverse]
  rfl

lemma Scanned.numbers {added : Links UsbDevice} (hadded : Scanned lib devList b added)
    (hdistinct : ((present lib b.location devList).map lib.deviceAddress).Nodup)
    (hnumbers : (b.devices.map fun x => x.2.devnum).Nodup) :
    ((added ++ stay lib devList b).map fun x => x.2.devnum).Nodup := by
  have hmap : (added.map fun x => x.2.devnum) =
      (((present lib b.location devList).filter fun dev =>
        lib.deviceAddress dev ∉ b.devices.map fun x => x.2.devnum).filter fun dev =>
          (available lib dev).isSome).map lib.deviceAddress := by
    have hproj := congrArg (List.map fun x : ℕ × UInt8 × DeviceDescriptor => x.2.1) hadded.devices
    rw [List.map_map, List.map_map] at hproj
    refine Eq.trans hproj ?_
    generalize (present lib b.location devList).filter _ = devs
    induction devs with
    | nil => rfl
    | cons d devs ih =>
      cases hd : available lib d with
      | none =>
        rw [List.filterMap_cons_none (by simp [hd]), List.filter_cons_of_neg (by simp [hd]), ih]
      | some desc =>
        rw [List.filterMap_cons_some (b := (d, lib.deviceAddress d, desc)) (by simp [hd]),
          List.filter_cons_of_pos (by simp [hd]), List.map_cons, List.map_cons, ih]
  rw [List.map_append, hmap]
  refine List.nodup_append'.mpr ⟨?_, hnumbers.sublist (List.filter_sublist.map _), ?_⟩
  · exact hdistinct.sublist ((List.filter_sublist.trans List.filter_sublist).map _)
  · intro x hx hx'
    obtain ⟨d, hd, rfl⟩ := List.mem_map.mp hx
    have hnew := of_decide_eq_true (List.mem_filter.mp (List.mem_filter.mp hd).1).2
    exact hnew ((List.filter_sublist.map _).subset hx')

lemma rescanDevices_spec (hA : ∀ n, A.fails n = false) {others : List UsbDevice}
    {known new : Option ℕ} {fresh : Links UsbDevice}
    (hknown : IsList h.devMem.cells known b.devices) (hnew : IsList h.devMem.cells new fresh)
    (hfresh : areFound lib b.addr fresh (present lib b.location devList).reverse)
    (hdisj : ∀ x ∈ addrs b.devices, x ∉ addrs fresh)
    (hnumbers : (b.devices.map fun x => x.2.devnum).Nodup)
    (hdistinct : ((present lib b.location devList).map lib.deviceAddress).Nodup)
    (hheld : Inventory h.held (vals b.devices ++ others))
    (hturns : b.devices.length ≤ turns) (hturns' : fresh.length ≤ turns) :
    Yields (rescanDevices A lib turns known new) h fun l h' => ∃ m s added,
      h' = { h with devMem := m, held := s } ∧ Scanned lib devList b added ∧
      IsList m.cells l.known (added ++ stay lib devList b) ∧
      Leaves (addrs b.devices ++ addrs fresh) (addrs (added ++ stay lib devList b)) h.devMem m ∧
      addrs (added ++ stay lib devList b) ⊆ addrs b.devices ++ addrs fresh ∧
      Inventory s (vals (added ++ stay lib devList b) ++ others) ∧ s.lists = h.held.lists ∧
      l.changes + (stay lib devList b).length = b.devices.length + added.length := by
  have hkeys' : (fresh.map fun x => x.2.devnum).Nodup := by
    rw [hfresh.numbers, List.map_reverse]
    exact List.nodup_reverse.mpr hdistinct
  have hrec := reconcile_sameKey hnumbers hkeys'
  rw [rescanDevices, yields_onPart]
  refine (rescan_spec (device_accounts hA others h.held.lists) hknown hnew hdisj ⟨hheld, rfl⟩ hturns
    hturns').mono ?_
  rintro l ⟨m, s⟩ ⟨adopted, hadopts, hsettles, hchanges⟩
  have hsame : reconcile (sameVal fun dev ndev : UsbDevice => dev.devnum = ndev.devnum)
      b.devices fresh = reconcile (sameKey (fun x : ℕ × UsbDevice => x.2.devnum)
        fun x : ℕ × UsbDevice => x.2.devnum) b.devices fresh := rfl
  have hstay : (b.devices.filter fun x => x.2.devnum ∈ fresh.map fun x => x.2.devnum) =
      stay lib devList b := by
    refine List.filter_congr fun x _ => ?_
    rw [hfresh.numbers, decide_eq_decide, List.map_reverse, List.mem_reverse]
  rw [hsame, hrec] at hadopts hsettles hchanges
  dsimp only at hadopts hsettles hchanges
  rw [hstay] at hsettles hchanges
  have hleaves := hsettles.leaves
  have hfewer := hsettles.fewer
  simp only [addrs, List.map_nil, List.append_nil] at hleaves hfewer
  refine ⟨m, s, adopted.reverse, rfl, ⟨?_, fun x hx => ?_⟩, hsettles.known, hleaves, hfewer,
    hsettles.share.1, hsettles.share.2, ?_⟩
  · have hdev := adopts_devices hadopts
    rw [hfresh.left] at hdev
    have hvals : vals adopted.reverse = (vals adopted).reverse := List.map_reverse
    rw [hvals, List.map_reverse, hdev, List.filterMap_reverse, List.reverse_reverse,
      List.filterMap_map]
    rfl
  · refine adopts_owner hadopts (fun y hy => ?_) x (List.mem_reverse.mp hx)
    exact hfresh.owner y (List.mem_filter.mp hy).1
  · rw [List.length_reverse]
    exact hchanges

end RescanDevices

/-! ### A rescan of all busses -/

/-- libusb-1.0 lists every device once: no two have the same number on the same bus. -/
def Distinct (lib : Libusb) (devList : List ℕ) : Prop :=
  (devList.map fun dev => (lib.busNumber dev, lib.deviceAddress dev)).Nodup

lemma Distinct.present {lib : Libusb} {devList : List ℕ} (h : Distinct lib devList)
    (location : UInt32) : ((present lib location devList).map lib.deviceAddress).Nodup := by
  have hsub : ((UsbDevices.present lib location devList).map fun dev =>
      (lib.busNumber dev, lib.deviceAddress dev)).Nodup := h.sublist (List.filter_sublist.map _)
  refine List.Nodup.map_on (fun d hd d' hd' he => ?_) hsub.of_map
  have hbus : ∀ x ∈ UsbDevices.present lib location devList,
      (lib.busNumber x).toUInt32 = location := fun x hx => by
    simpa using (List.mem_filter.mp hx).2
  have hnum : lib.busNumber d = lib.busNumber d' := by
    have := congrArg UInt32.toNat ((hbus d hd).trans (hbus d' hd').symm)
    rw [UInt8.toNat_toUInt32, UInt8.toNat_toUInt32] at this
    exact UInt8.toNat_inj.mp this
  exact List.inj_on_of_nodup_map hsub hd hd' (Prod.ext hnum he)

/-- Busses that have been scanned, and how many devices have come or gone. -/
inductive AllScanned (lib : Libusb) (devList : List ℕ) : List Bus → List Bus → ℤ → Prop
  | nil : AllScanned lib devList [] [] 0
  | cons {b added bs bs' n} : Scanned lib devList b added → AllScanned lib devList bs bs' n →
    AllScanned lib devList (b :: bs) ({ b with devices := added ++ stay lib devList b } :: bs')
      (added.length + (b.devices.length - (stay lib devList b).length) + n)

section AllScanned

variable {lib : Libusb} {devs : List ℕ} {bs bs' : List Bus} {n : ℤ}

lemma Scanned.mem {b : Bus} {added : Links UsbDevice}
    (hadded : Scanned lib devs b added) {x : ℕ × UsbDevice} (hx : x ∈ added) :
    ∃ d ∈ present lib b.location devs, lib.deviceAddress d = x.2.devnum ∧
      available lib d = some x.2.descriptor := by
  have hmem : (x.2.dev, x.2.devnum, x.2.descriptor) ∈
      (vals added).map fun dev => (dev.dev, dev.devnum, dev.descriptor) :=
    List.mem_map.mpr ⟨x.2, List.mem_map.mpr ⟨x, hx, rfl⟩, rfl⟩
  rw [hadded.devices] at hmem
  obtain ⟨d, hd, he⟩ := List.mem_filterMap.mp hmem
  obtain ⟨desc, hdesc, he⟩ := Option.map_eq_some_iff.mp he
  obtain ⟨-, he⟩ := Prod.mk.inj he
  obtain ⟨hnum, rfl⟩ := Prod.mk.inj he
  exact ⟨d, (List.mem_filter.mp hd).1, hnum, hdesc⟩

/-- Devices with different numbers on a bus are no more than those of the listing. -/
lemma Scanned.length_le {b : Bus} {added : Links UsbDevice}
    (hadded : Scanned lib devs b added)
    (hnumbers : ((added ++ stay lib devs b).map fun x => x.2.devnum).Nodup) :
    (added ++ stay lib devs b).length ≤ devs.length := by
  have hsub : ((added ++ stay lib devs b).map fun x => x.2.devnum) ⊆
      (present lib b.location devs).map lib.deviceAddress := by
    intro n hn
    obtain ⟨x, hx, rfl⟩ := List.mem_map.mp hn
    rcases List.mem_append.mp hx with hx | hx
    · obtain ⟨d, hd, hnum, -⟩ := Scanned.mem hadded hx
      exact hnum ▸ List.mem_map_of_mem hd
    · exact of_decide_eq_true (List.mem_filter.mp hx).2
  have hle := (hnumbers.subperm hsub).length_le
  rw [List.length_map, List.length_map] at hle
  exact hle.trans (List.length_filter_le _ _)

/-- What is registered on a bus that has been scanned. -/
lemma Scanned.registered {b : Bus} {added : Links UsbDevice} (hadded : Scanned lib devs b added)
    {devnum : UInt8} :
    devnum ∈ ((added ++ stay lib devs b).map fun x => x.2.devnum) ↔
      ∃ d ∈ present lib b.location devs, lib.deviceAddress d = devnum ∧
        (devnum ∈ (b.devices.map fun x => x.2.devnum) ∨ (available lib d).isSome) := by
  constructor
  · intro hn
    obtain ⟨x, hx, rfl⟩ := List.mem_map.mp hn
    rcases List.mem_append.mp hx with hx | hx
    · obtain ⟨d, hd, hnum, havail⟩ := hadded.mem hx
      exact ⟨d, hd, hnum, .inr (havail ▸ rfl)⟩
    · obtain ⟨hx, hlisted⟩ := List.mem_filter.mp hx
      obtain ⟨d, hd, hnum⟩ := List.mem_map.mp (of_decide_eq_true hlisted)
      exact ⟨d, hd, hnum, .inl (List.mem_map_of_mem hx)⟩
  · rintro ⟨d, hd, rfl, hwhy⟩
    rw [List.map_append, List.mem_append]
    by_cases hknown : lib.deviceAddress d ∈ b.devices.map fun x => x.2.devnum
    · obtain ⟨x, hx, hnum⟩ := List.mem_map.mp hknown
      refine .inr (List.mem_map.mpr ⟨x, List.mem_filter.mpr ⟨hx, decide_eq_true ?_⟩, hnum⟩)
      exact hnum ▸ List.mem_map_of_mem hd
    · obtain ⟨desc, hdesc⟩ := Option.isSome_iff_exists.mp (hwhy.resolve_left hknown)
      have hmem : (d, lib.deviceAddress d, desc) ∈
          (vals added).map fun dev => (dev.dev, dev.devnum, dev.descriptor) := by
        rw [hadded.devices]
        refine List.mem_filterMap.mpr ⟨d, List.mem_filter.mpr ⟨hd, decide_eq_true hknown⟩, ?_⟩
        rw [hdesc]
        rfl
      obtain ⟨v, hv, he⟩ := List.mem_map.mp hmem
      obtain ⟨x, hx, rfl⟩ := List.mem_map.mp hv
      exact .inl (List.mem_map.mpr ⟨x, hx, congrArg (fun y => y.2.1) he⟩)

lemma AllScanned.length_eq (hall : AllScanned lib devs bs bs' n) : bs'.length = bs.length := by
  induction hall with
  | nil => rfl
  | cons _ _ ih => rw [List.length_cons, List.length_cons, ih]

lemma AllScanned.devices_le (hall : AllScanned lib devs bs bs' n)
    (hnumbers : ∀ b ∈ bs', (b.devices.map fun d => d.2.devnum).Nodup) :
    ∀ b ∈ bs', b.devices.length ≤ devs.length := by
  induction hall with
  | nil => exact fun b hb => absurd hb List.not_mem_nil
  | cons hscanned _ ih =>
    intro b hb
    rcases List.mem_cons.mp hb with rfl | hb
    · exact hscanned.length_le (hnumbers _ List.mem_cons_self)
    · exact ih (fun b hb => hnumbers b (List.mem_cons_of_mem _ hb)) b hb

/-- What is registered after a scan of all busses. -/
lemma AllScanned.registered (hall : AllScanned lib devs bs bs' n) {location : UInt32}
    {devnum : UInt8} :
    (∃ b ∈ bs', b.location = location ∧ devnum ∈ b.devices.map fun x => x.2.devnum) ↔
      ∃ b ∈ bs, b.location = location ∧ ∃ d ∈ present lib location devs,
        lib.deviceAddress d = devnum ∧
          (devnum ∈ (b.devices.map fun x => x.2.devnum) ∨ (available lib d).isSome) := by
  induction hall with
  | nil => simp
  | @cons b added bs bs' n hscanned _ ih =>
    rw [List.exists_mem_cons_iff, List.exists_mem_cons_iff, ih]
    refine or_congr (and_congr_right fun hloc => ?_) Iff.rfl
    subst hloc
    exact hscanned.registered

/-- A device that is listed keeps its record. -/
lemma AllScanned.keeps (hall : AllScanned lib devs bs bs' n) {b : Bus} (hb : b ∈ bs)
    {d : ℕ × UsbDevice} (hd : d ∈ b.devices)
    (hlisted : d.2.devnum ∈ (present lib b.location devs).map lib.deviceAddress) :
    ∃ b' ∈ bs', b'.location = b.location ∧ d ∈ b'.devices := by
  induction hall with
  | nil => exact absurd hb List.not_mem_nil
  | cons _ _ ih =>
    rcases List.mem_cons.mp hb with rfl | hb
    · exact ⟨_, List.mem_cons_self, rfl, List.mem_append_right _
        (List.mem_filter.mpr ⟨hd, decide_eq_true hlisted⟩)⟩
    · obtain ⟨b', hb', hrest⟩ := ih hb
      exact ⟨b', List.mem_cons_of_mem _ hb', hrest⟩

end AllScanned

/-- The devices of the other busses, and those that are lost. -/
def others (done rest : List Bus) (lost : Links UsbDevice) : Links UsbDevice :=
  done.flatMap Bus.devices ++ rest.flatMap Bus.devices ++ lost

lemma devices_perm (done rest : List Bus) (b : Bus) (lost : Links UsbDevice) :
    (Registry.mk (done ++ b :: rest) lost).devices.Perm (b.devices ++ others done rest lost) := by
  simp only [Registry.devices, others, List.flatMap_append, List.flatMap_cons]
  have hswap := (List.perm_append_comm_assoc (done.flatMap Bus.devices) b.devices
    (rest.flatMap Bus.devices)).append_right lost
  simpa only [List.append_assoc] using hswap

section Replace

variable {h : Host} {done rest : List Bus} {b : Bus} {lost : Links UsbDevice}

/-- The devices of one bus have been replaced. -/
lemma Refines.replace (href : Refines h ⟨done ++ b :: rest, lost⟩) {m : DevMem} {s : Held}
    {ds fresh : Links UsbDevice} {first : Option ℕ} {c : Cell UsbBus}
    (hc : h.busMem.cells b.addr = some c) (hds : IsList m.cells first ds)
    (hleaves : Leaves (addrs b.devices ++ addrs fresh) (addrs ds) h.devMem m)
    (hsub : addrs ds ⊆ addrs b.devices ++ addrs fresh)
    (hfree : ∀ x ∈ addrs fresh, h.devMem.cells x = none)
    (howner : ∀ d ∈ ds, d.2.bus = b.addr) (hnumbers : (ds.map fun d => d.2.devnum).Nodup)
    (hheld : Inventory s (vals ds ++ vals (others done rest lost))) :
    Refines { h with
      devMem := m
      held := s
      busMem := h.busMem.set b.addr { c with val := ⟨b.location, first⟩ } }
      ⟨done ++ { b with devices := ds } :: rest, lost⟩ := by
  have hperm := (devices_perm done rest b lost).map Prod.fst
  have hperm' := (devices_perm done rest { b with devices := ds } lost).map Prod.fst
  rw [List.map_append] at hperm hperm'
  obtain ⟨-, hnodup, hdisj⟩ := List.nodup_append'.mp (hperm.nodup_iff.mp href.apart)
  have hall : ∀ x ∈ addrs (others done rest lost), (h.devMem.cells x).isSome := by
    intro x hx
    obtain ⟨⟨a, v⟩, hd, rfl⟩ := List.mem_map.mp hx
    rw [others, List.mem_append, List.mem_append] at hd
    rcases hd with (hd | hd) | hd
    · obtain ⟨b', hb', hd⟩ := List.mem_flatMap.mp hd
      exact (href.devices b' (List.mem_append_left _ hb')).allocated (List.mem_map_of_mem hd)
    · obtain ⟨b', hb', hd⟩ := List.mem_flatMap.mp hd
      exact (href.devices b' (List.mem_append_right _ (List.mem_cons_of_mem _ hb'))).allocated
        (List.mem_map_of_mem hd)
    · obtain ⟨c', hc', -⟩ := href.lost _ hd
      rw [hc']
      rfl
  have hkeep : ∀ x ∈ addrs (others done rest lost), m.cells x = h.devMem.cells x := by
    intro x hx
    refine hleaves.apart x fun hm => ?_
    rcases List.mem_append.mp hm with hm | hm
    · exact hdisj hm hx
    · have hsome := hall x hx
      rw [hfree x hm] at hsome
      exact absurd hsome Bool.false_ne_true
  have hother : ∀ b' ∈ done ++ rest, ∀ d ∈ b'.devices, d ∈ others done rest lost := by
    intro b' hb' d hd
    rw [others, List.mem_append, ← List.flatMap_append]
    exact .inl (List.mem_flatMap.mpr ⟨b', hb', hd⟩)
  have hcases : ∀ b' ∈ done ++ { b with devices := ds } :: rest,
      b' = { b with devices := ds } ∨ b' ∈ done ++ rest ∧ b' ∈ done ++ b :: rest := by
    intro b' hb'
    rcases List.mem_append.mp hb' with hb' | hb'
    · exact .inr ⟨List.mem_append_left _ hb', List.mem_append_left _ hb'⟩
    rcases List.mem_cons.mp hb' with hb' | hb'
    · exact .inl hb'
    · exact .inr ⟨List.mem_append_right _ hb',
        List.mem_append_right _ (List.mem_cons_of_mem _ hb')⟩
  have hmap : ∀ f : Bus → ℕ × UsbBus, ∀ x : Bus, (done ++ x :: rest).map f =
      done.map f ++ f x :: rest.map f := fun f x => by rw [List.map_append, List.map_cons]
  have hbusses := href.busses
  refine ⟨?_, fun b' hb' => ?_, fun d hd => ?_, ?_, ?_, fun b' hb' => ?_, fun b' hb' => ?_, ?_,
    fun a ha => ?_, fun a ha => ?_⟩
  · dsimp only at hbusses ⊢
    rw [hmap] at hbusses ⊢
    have hset := hbusses.setVal ⟨b.location, first⟩ hc
    have hlink : ({ b with devices := ds } : Bus).link = (b.addr, ⟨b.location, first⟩) := by
      rw [Bus.link, hds.begins]
    rwa [← hlink] at hset
  · rcases hcases b' hb' with rfl | ⟨hb', hb''⟩
    · exact hds.begins ▸ hds
    · exact (href.devices b' hb'').frame fun x hx => by
        obtain ⟨d, hd, rfl⟩ := List.mem_map.mp hx
        exact hkeep _ (List.mem_map_of_mem (hother b' hb' d hd))
  · obtain ⟨c', hc', hval⟩ := href.lost d hd
    refine ⟨c', ?_, hval⟩
    exact (hkeep _ (List.mem_map_of_mem (List.mem_append_right _ hd))).trans hc'
  · refine hperm'.nodup_iff.mpr (List.nodup_append'.mpr ⟨hds.nodup, hnodup, fun x hx hx' => ?_⟩)
    rcases List.mem_append.mp (hsub hx) with hm | hm
    · exact hdisj hm hx'
    · have hsome := hall x hx'
      rw [hfree x hm] at hsome
      exact absurd hsome Bool.false_ne_true
  · have hlocs := href.locations
    simp only [List.map_append, List.map_cons] at hlocs ⊢
    exact hlocs
  · rcases hcases b' hb' with rfl | ⟨-, hb''⟩
    · exact hnumbers
    · exact href.numbers b' hb''
  · rcases hcases b' hb' with rfl | ⟨-, hb''⟩
    · exact howner
    · exact href.owner b' hb''
  · have hvals := (devices_perm done rest { b with devices := ds } lost).map Prod.snd
    rw [List.map_append] at hvals
    exact hheld.perm hvals.symm
  · have haddrs : (done ++ { b with devices := ds } :: rest).map Bus.addr =
        (done ++ b :: rest).map Bus.addr := by simp
    rw [haddrs]
    rcases eq_or_ne a b.addr with rfl | hab
    · simp
    · exact href.allBusses a (by rwa [Mem.set_of_ne _ _ hab] at ha)
  · rw [hperm'.mem_iff, List.mem_append]
    by_cases hm : a ∈ addrs b.devices ++ addrs fresh
    · by_contra hout
      rw [not_or] at hout
      rw [hleaves.freed a hm hout.1] at ha
      exact absurd ha Bool.false_ne_true
    · rw [hleaves.apart a hm] at ha
      have hin := hperm.mem_iff.mp (href.allDevices a ha)
      rcases List.mem_append.mp hin with hin | hin
      · exact absurd (List.mem_append_left _ hin) hm
      · exact .inr hin

end Replace

section FindOnBusses

variable {A : Allocators} {lib : Libusb} {turns : ℕ} {h : Host} {devList : List ℕ}

lemma yields_onDevices {α : Type} {p : Cmd DevMem α} {Q : α → Host → Prop} :
    Yields (onDevices p) h Q ↔ Yields p h.devMem fun a m => Q a { h with devMem := m } :=
  yields_onPart

/-- One bus is scanned, or there is no memory for its new devices. -/
lemma findOnBusses_step (hA : ∀ n, A.block.fails n = false) (hdistinct : Distinct lib devList)
    {done rest : List Bus} {b : Bus} {lost : Links UsbDevice} {n : ℕ} {changes : ℤ}
    (href : Refines h ⟨done ++ b :: rest, lost⟩) (hlen : b.devices.length ≤ turns)
    (hturns : devList.length ≤ turns) {Q : ℤ → Host → Prop}
    (hfail : ∀ h', Refines h' ⟨done ++ b :: rest, lost⟩ → h'.held = h.held →
      (∃ k, A.device.fails k = true) → Q (-enomem) h')
    (hrest : ∀ h' added, Scanned lib devList b added → Refines h' ⟨done ++
      { b with devices := added ++ stay lib devList b } :: rest, lost⟩ →
      h'.held.lists = h.held.lists →
      Yields (findOnBusses A lib turns devList n (begins (rest.map Bus.link)) (changes +
        (added.length + (b.devices.length - (stay lib devList b).length)))) h' Q) :
    Yields (findOnBusses A lib turns devList (n + 1) (begins ((b :: rest).map Bus.link)) changes)
      h Q := by
  have hlinks : ((⟨done ++ b :: rest, lost⟩ : Registry).busses.map Bus.link) =
      done.map Bus.link ++ (b.addr, ⟨b.location, begins b.devices⟩) :: rest.map Bus.link := by
    rw [List.map_append, List.map_cons]
    rfl
  have hbusses := href.busses
  rw [hlinks] at hbusses
  obtain ⟨prev, hc⟩ := hbusses.link
  have hknown : IsList h.devMem.cells (begins b.devices) b.devices :=
    href.devices b (List.mem_append_right _ List.mem_cons_self)
  have hnone : areFound lib b.addr [] [] := rfl
  have hcursor : begins ((b :: rest).map Bus.link) = some b.addr := rfl
  have hperm := (devices_perm done rest b lost).map Prod.snd
  rw [List.map_append] at hperm
  rw [hcursor, findOnBusses, yields_bind, yields_onBusses, yields_load hc, yields_bind,
    yields_onDevices]
  refine (findDevices_spec (.nil _) hnone (by rw [List.length_nil]; omega)).mono ?_
  rintro ⟨r, new⟩ m₁ (⟨hr, hleaves, hrefused⟩ | ⟨hr, fresh, hnew, hfresh⟩)
  · obtain ⟨rfl, rfl⟩ := Prod.mk.inj hr
    have hcells : m₁.cells = h.devMem.cells := funext fun x => hleaves.apart x List.not_mem_nil
    dsimp only
    rw [if_pos (by decide), yields_pure]
    refine hfail _ ⟨href.busses, ?_, ?_, href.apart, href.locations, href.numbers, href.owner,
      href.held, href.allBusses, ?_⟩ rfl hrefused
    · exact hcells ▸ href.devices
    · exact hcells ▸ href.lost
    · exact hcells ▸ href.allDevices
  obtain rfl : r = 0 := hr
  dsimp only at hfresh hnew
  rw [List.append_nil] at hfresh
  obtain ⟨hlist, hfree, hapart⟩ := hnew
  rw [List.append_nil] at hlist hapart
  have hdisj : ∀ x ∈ addrs b.devices, x ∉ addrs fresh := fun x hx hx' => by
    have hsome := hknown.allocated hx
    rw [hfree x hx'] at hsome
    exact absurd hsome Bool.false_ne_true
  have hfreshlen : fresh.length ≤ turns := by
    have hnum := congrArg List.length hfresh.numbers
    rw [List.length_map, List.length_map, List.length_append, List.length_nil,
      List.length_reverse] at hnum
    have hpresent : (present lib b.location devList).length ≤ devList.length :=
      List.length_filter_le _ _
    omega
  rw [List.append_nil] at hfresh
  dsimp only
  rw [if_neg (by decide), yields_bind]
  refine (rescanDevices_spec (h := { h with devMem := m₁ }) hA (hknown.apart hapart hdisj) hlist
    hfresh hdisj (href.numbers b (List.mem_append_right _ List.mem_cons_self))
    (hdistinct.present _) (href.held.perm hperm) hlen hfreshlen).mono ?_
  rintro l h' ⟨m₂, s, added, rfl, hscanned, hds, hleaves, hsub, hheld, hlists, hchanges⟩
  have howner : ∀ d ∈ added ++ stay lib devList b, d.2.bus = b.addr := by
    intro d hd
    rcases List.mem_append.mp hd with hd | hd
    · exact hscanned.owner d hd
    · exact href.owner b (List.mem_append_right _ List.mem_cons_self) d (List.mem_filter.mp hd).1
  have hnumbers := hscanned.numbers (hdistinct.present _)
    (href.numbers b (List.mem_append_right _ List.mem_cons_self))
  have hboth : Leaves (addrs b.devices ++ addrs fresh) (addrs (added ++ stay lib devList b))
      h.devMem m₂ :=
    ⟨(hapart.mono (List.subset_append_right _ _)).trans hleaves.apart, hleaves.freed⟩
  have hnext := Refines.replace href hc hds hboth hsub hfree howner hnumbers hheld
  rw [yields_bind, yields_onBusses, yields_setVal hc]
  have hsum : changes + l.changes = changes +
      (added.length + (b.devices.length - (stay lib devList b).length)) := by omega
  rw [hsum]
  exact hrest _ added hscanned hnext hlists

/-- What has become of the busses from a cursor on. -/
def Found (A : Allocators) (lib : Libusb) (devList : List ℕ) (done rest : List Bus)
    (lost : Links UsbDevice) (lists : List (List ℕ)) (changes r : ℤ) (h : Host) : Prop :=
  h.held.lists = lists ∧ ∃ scanned scanned' left n, rest = scanned ++ left ∧
    AllScanned lib devList scanned scanned' n ∧
    Refines h ⟨done ++ (scanned' ++ left), lost⟩ ∧
    ((left = [] ∧ r = changes + n) ∨ (r = -enomem ∧ ∃ k, A.device.fails k = true))

lemma findOnBusses_spec (hA : ∀ n, A.block.fails n = false) (hdistinct : Distinct lib devList)
    (hturns : devList.length ≤ turns) {done rest : List Bus} {lost : Links UsbDevice} {n : ℕ}
    {changes : ℤ} (href : Refines h ⟨done ++ rest, lost⟩)
    (hlen : ∀ b ∈ rest, b.devices.length ≤ turns) (hn : rest.length ≤ n) :
    Yields (findOnBusses A lib turns devList n (begins (rest.map Bus.link)) changes) h
      (Found A lib devList done rest lost h.held.lists changes) := by
  induction rest generalizing h done n changes with
  | nil =>
    rw [List.map_nil, begins, List.head?_nil, Option.map_none, findOnBusses, yields_pure]
    exact ⟨rfl, [], [], [], 0, rfl, .nil, href, .inl ⟨rfl, (Int.add_zero _).symm⟩⟩
  | cons b rest ih =>
    obtain ⟨n, rfl⟩ : ∃ k, n = k + 1 :=
      ⟨n - 1, (Nat.sub_add_cancel (Nat.le_trans (Nat.succ_pos _) hn)).symm⟩
    refine findOnBusses_step hA hdistinct href (hlen b List.mem_cons_self) hturns ?_ ?_
    · intro h' href' hheld hrefused
      exact ⟨congrArg Held.lists hheld, [], [], b :: rest, 0, rfl, .nil, href',
        .inr ⟨rfl, hrefused⟩⟩
    · intro h' added hscanned href' hlists
      have happ : done ++ { b with devices := added ++ stay lib devList b } :: rest =
          (done ++ [{ b with devices := added ++ stay lib devList b }]) ++ rest := by simp
      rw [happ] at href'
      refine (ih href' (fun b' hb' => hlen b' (List.mem_cons_of_mem _ hb'))
        (Nat.le_of_succ_le_succ hn)).mono ?_
      rintro r h'' ⟨hlists', scanned, scanned', left, k, rfl, hall, hfound, hr⟩
      refine ⟨hlists'.trans hlists, b :: scanned, _, left, _, rfl, .cons hscanned hall, ?_, ?_⟩
      · rwa [List.append_assoc, List.singleton_append] at hfound
      · rcases hr with ⟨hleft, hr⟩ | hr
        · exact .inl ⟨hleft, by omega⟩
        · exact .inr hr

/-- A scan for devices leaves a registry as it is if libusb-1.0 lists nothing; otherwise it
brings the devices of every bus in line with the listing, or of the busses up to one for whose new
devices there is no memory. Nothing is touched that is not allocated, and the listing is given
back. -/
lemma usbFindDevices_spec (A : Allocators) (lib : Libusb) {R : Registry}
    (href : Refines h R) (hctx : h.ctx = true) (hA : ∀ n, A.block.fails n = false)
    (hdistinct : ∀ devs, lib.deviceList = .ok devs → Distinct lib devs)
    (hturns : R.busses.length ≤ turns) (hlen : ∀ b ∈ R.busses, b.devices.length ≤ turns)
    (hlist : ∀ devs, lib.deviceList = .ok devs → devs.length ≤ turns) :
    Yields (usbFindDevices A lib turns) h fun r h' =>
      (h' = h ∧ ∃ e, lib.deviceList = .error e ∧ r = compatErr e) ∨
      h'.held.lists = h.held.lists ∧ ∃ devList scanned scanned' left n,
        lib.deviceList = .ok devList ∧ R.busses = scanned ++ left ∧
          AllScanned lib devList scanned scanned' n ∧
        Refines h' ⟨scanned' ++ left, R.lost⟩ ∧
        ((left = [] ∧ r = n) ∨ (r = -enomem ∧ ∃ k, A.device.fails k = true)) := by
  have hget : (get : Cmd Host Host).run h = some (h, h) := rfl
  rw [usbFindDevices, yields_bind, yields_of_run hget, hctx, if_neg (by decide), yields_bind,
    yields_onHeld]
  cases hdevs : lib.deviceList with
  | error e =>
    rw [yields_error hdevs]
    exact yields_pure.mpr (.inl ⟨rfl, e, rfl, rfl⟩)
  | ok devList =>
    rw [yields_listed hdevs]
    have hall : Refines { h with held := h.held.listed devList } ⟨[] ++ R.busses, R.lost⟩ :=
      refines_held href (href.held.listed devList)
    have hloop : Yields (findOnBusses A lib turns devList turns (begins (R.busses.map Bus.link)) 0)
        _ _ := findOnBusses_spec hA (hdistinct devList hdevs) (hlist devList hdevs) hall hlen hturns
    rw [← href.busses.begins] at hloop
    dsimp only
    rw [yields_bind]
    refine hloop.mono ?_
    rintro r h' ⟨hlists, scanned, scanned', left, n, hsplit, hall, href', hr⟩
    rw [yields_bind, yields_onHeld]
    refine (inventory_freeList href'.held hlists).mono fun _ s hs => yields_pure.mpr ?_
    refine .inr ⟨hs.2, devList, scanned, scanned', left, n, rfl, hsplit, hall,
      refines_held href' hs.1, ?_⟩
    rwa [Int.zero_add] at hr

end FindOnBusses

end AmlogicUpdate.UsbDevices

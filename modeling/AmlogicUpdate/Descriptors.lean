import AmlogicUpdate.DeepCopy
import AmlogicUpdate.Usb

/-!
`usbcompat.h`: the configurations of a device, copied from libusb-1.0's into the records of
libusb-0.1.

Every array and every run of extra bytes is an allocation of its own. The `clear_*` functions give
back what a record points to and leave the pointers, and the `copy_*` functions clear what they
have made before they return an error, so a record whose copy fails is cleared by every caller
once more.
-/

namespace AmlogicUpdate.Descriptors

open Heap DeepCopy Usb

/-! ### libusb-1.0's descriptors -/

structure EndpointHead where
  bLength : UInt8
  bDescriptorType : UInt8
  bEndpointAddress : UInt8
  bmAttributes : UInt8
  wMaxPacketSize : UInt16
  bInterval : UInt8
  bRefresh : UInt8
  bSynchAddress : UInt8

structure InterfaceHead where
  bLength : UInt8
  bDescriptorType : UInt8
  bInterfaceNumber : UInt8
  bAlternateSetting : UInt8
  bNumEndpoints : UInt8
  bInterfaceClass : UInt8
  bInterfaceSubClass : UInt8
  bInterfaceProtocol : UInt8
  iInterface : UInt8

structure ConfigHead where
  bLength : UInt8
  bDescriptorType : UInt8
  wTotalLength : UInt16
  bNumInterfaces : UInt8
  bConfigurationValue : UInt8
  iConfiguration : UInt8
  bmAttributes : UInt8
  MaxPower : UInt8

structure LibusbEndpointDescriptor where
  head : EndpointHead
  extra : List UInt8

/-- `bNumEndpoints` is the length of the array. -/
structure LibusbInterfaceDescriptor where
  head : InterfaceHead
  endpoint : List LibusbEndpointDescriptor
  bNumEndpoints_eq : head.bNumEndpoints.toNat = endpoint.length
  extra : List UInt8

structure LibusbInterface where
  altsetting : List LibusbInterfaceDescriptor

/-- `bNumInterfaces` is the length of the array. -/
structure LibusbConfigDescriptor where
  head : ConfigHead
  interface : List LibusbInterface
  bNumInterfaces_eq : head.bNumInterfaces.toNat = interface.length
  extra : List UInt8

/-! ### libusb-0.1's records -/

structure UsbEndpointDescriptor where
  head : EndpointHead
  extra : Option ℕ
  extralen : ℕ

structure UsbInterfaceDescriptor where
  head : InterfaceHead
  endpoint : Option ℕ
  extra : Option ℕ
  extralen : ℕ

structure UsbInterface where
  altsetting : Option ℕ
  num_altsetting : ℕ

structure UsbConfigDescriptor where
  head : ConfigHead
  interface : Option ℕ
  extra : Option ℕ
  extralen : ℕ

/-- What an allocation holds. -/
inductive Block
  | bytes (l : List UInt8)
  | endpoints (l : List UsbEndpointDescriptor)
  | altsettings (l : List UsbInterfaceDescriptor)
  | interfaces (l : List UsbInterface)
  | configs (l : List UsbConfigDescriptor)

instance : Packs Block UInt8 where
  pack := .bytes
  unpack b := match b with
    | .bytes l => some l
    | _ => none
  unpack_pack _ := rfl
  zero := 0

instance : Packs Block UsbEndpointDescriptor where
  pack := .endpoints
  unpack b := match b with
    | .endpoints l => some l
    | _ => none
  unpack_pack _ := rfl
  zero := ⟨⟨0, 0, 0, 0, 0, 0, 0, 0⟩, none, 0⟩

instance : Packs Block UsbInterfaceDescriptor where
  pack := .altsettings
  unpack b := match b with
    | .altsettings l => some l
    | _ => none
  unpack_pack _ := rfl
  zero := ⟨⟨0, 0, 0, 0, 0, 0, 0, 0, 0⟩, none, none, 0⟩

instance : Packs Block UsbInterface where
  pack := .interfaces
  unpack b := match b with
    | .interfaces l => some l
    | _ => none
  unpack_pack _ := rfl
  zero := ⟨none, 0⟩

instance : Packs Block UsbConfigDescriptor where
  pack := .configs
  unpack b := match b with
    | .configs l => some l
    | _ => none
  unpack_pack _ := rfl
  zero := ⟨⟨0, 0, 0, 0, 0, 0, 0, 0⟩, none, none, 0⟩

/-- The heap of the descriptors. -/
abbrev Blocks : Type := Mem Block

/-! ### `clear_*` and `copy_*` -/

def clearEndpointDescriptor (ep : UsbEndpointDescriptor) : Cmd Blocks Unit :=
  match ep.extra with
  | some x => free x
  | none => pure ()

def copyEndpointDescriptor (A : Allocator Block) (dest : UsbEndpointDescriptor)
    (src : LibusbEndpointDescriptor) : Cmd Blocks (ℤ × UsbEndpointDescriptor) := do
  let dest := { dest with head := src.head, extralen := src.extra.length }
  if src.extra = [] then pure (0, dest)
  else do
    match ← mallocFor A (pack src.extra) with
    | none => pure (-enomem, { dest with extra := none })
    | some x => pure (0, { dest with extra := some x })

def interfaceDescriptorShape :
    Shape UsbInterfaceDescriptor LibusbInterfaceDescriptor LibusbEndpointDescriptor where
  array p := p.endpoint
  setArray x p := { p with endpoint := x }
  extra p := p.extra
  setExtra x p := { p with extra := x }
  count p := p.head.bNumEndpoints.toNat
  fill t p := { p with head := t.head }
  setLen t p := { p with extralen := t.extra.length }
  items t := t.endpoint
  bytes t := t.extra

def clearInterfaceDescriptor : UsbInterfaceDescriptor → Cmd Blocks Unit :=
  clearOwner interfaceDescriptorShape clearEndpointDescriptor

def copyInterfaceDescriptor (A : Allocator Block) : UsbInterfaceDescriptor →
    LibusbInterfaceDescriptor → Cmd Blocks (ℤ × UsbInterfaceDescriptor) :=
  copyOwner A interfaceDescriptorShape (copyEndpointDescriptor A) clearEndpointDescriptor

/-- An interface has no extra bytes. -/
def interfaceShape : Shape UsbInterface LibusbInterface LibusbInterfaceDescriptor where
  array p := p.altsetting
  setArray x p := { p with altsetting := x }
  extra _ := none
  setExtra _ p := p
  count p := p.num_altsetting
  fill t p := { p with num_altsetting := t.altsetting.length }
  setLen _ p := p
  items t := t.altsetting
  bytes _ := []

def clearInterface : UsbInterface → Cmd Blocks Unit :=
  clearOwner interfaceShape clearInterfaceDescriptor

def copyInterface (A : Allocator Block) : UsbInterface → LibusbInterface →
    Cmd Blocks (ℤ × UsbInterface) :=
  copyOwner A interfaceShape (copyInterfaceDescriptor A) clearInterfaceDescriptor

def configDescriptorShape :
    Shape UsbConfigDescriptor LibusbConfigDescriptor LibusbInterface where
  array p := p.interface
  setArray x p := { p with interface := x }
  extra p := p.extra
  setExtra x p := { p with extra := x }
  count p := p.head.bNumInterfaces.toNat
  fill t p := { p with head := t.head }
  setLen t p := { p with extralen := t.extra.length }
  items t := t.interface
  bytes t := t.extra

def clearConfigDescriptor : UsbConfigDescriptor → Cmd Blocks Unit :=
  clearOwner configDescriptorShape clearInterface

def copyConfigDescriptor (A : Allocator Block) : UsbConfigDescriptor → LibusbConfigDescriptor →
    Cmd Blocks (ℤ × UsbConfigDescriptor) :=
  copyOwner A configDescriptorShape (copyInterface A) clearInterface

/-! ### What a copy asks for -/

/-- The allocations of a copy, by what is put there. -/
inductive Request
  | configs
  | interfaces
  | configExtra
  | altsettings
  | endpoints
  | interfaceExtra
  | endpointExtra
  deriving DecidableEq

/-- How far out a record can be cleared without harm after the request has failed: an array that
could not be had is `NULL` in its owner, extra bytes that could not be had have made their owner
clear itself. -/
def age : Ask Request → ℕ
  | .memory .configs => 4
  | .memory .interfaces => 3
  | .memory .configExtra => 2
  | .memory .altsettings => 2
  | .memory .endpoints => 1
  | .memory .interfaceExtra => 0
  | .memory .endpointExtra => 0
  | .error _ => 3

def endpointAsks (src : LibusbEndpointDescriptor) : List (Ask Request) :=
  if src.extra = [] then [] else [.memory .endpointExtra]

def interfaceDescriptorAsks : LibusbInterfaceDescriptor → List (Ask Request) :=
  ownerAsks interfaceDescriptorShape endpointAsks .endpoints .interfaceExtra

def interfaceAsks : LibusbInterface → List (Ask Request) :=
  ownerAsks interfaceShape interfaceDescriptorAsks .altsettings .altsettings

def configDescriptorAsks : LibusbConfigDescriptor → List (Ask Request) :=
  ownerAsks configDescriptorShape interfaceAsks .interfaces .configExtra

lemma endpointAsks_age (src : LibusbEndpointDescriptor) : ∀ k ∈ endpointAsks src, age k ≤ 0 := by
  intro k hk
  rw [endpointAsks] at hk
  split_ifs at hk
  · exact absurd hk List.not_mem_nil
  · rw [List.mem_singleton.mp hk]
    exact Nat.le_refl 0

lemma interfaceDescriptorAsks_age (src : LibusbInterfaceDescriptor) :
    ∀ k ∈ interfaceDescriptorAsks src, age k ≤ 1 :=
  ownerAsks_age rfl (fun _ _ => rfl) (fun _ s _ => endpointAsks_age s) src

lemma interfaceAsks_age (src : LibusbInterface) : ∀ k ∈ interfaceAsks src, age k ≤ 2 :=
  ownerAsks_age rfl (fun _ h => absurd rfl h) (fun _ s _ => interfaceDescriptorAsks_age s) src

/-! ### What a copy is -/

/-- A copy of an endpoint, and where its extra bytes are. -/
inductive EndpointHolds (h : ℕ → Option Block) :
    UsbEndpointDescriptor → LibusbEndpointDescriptor → List ℕ → Prop
  | bare {src} : src.extra = [] → EndpointHolds h ⟨src.head, none, 0⟩ src []
  | extra {src x} : src.extra ≠ [] → h x = some (.bytes src.extra) →
    EndpointHolds h ⟨src.head, some x, src.extra.length⟩ src [x]

abbrev InterfaceDescriptorHolds : (ℕ → Option Block) → UsbInterfaceDescriptor →
    LibusbInterfaceDescriptor → List ℕ → Prop :=
  OwnerHolds interfaceDescriptorShape EndpointHolds

abbrev InterfaceHolds : (ℕ → Option Block) → UsbInterface → LibusbInterface → List ℕ → Prop :=
  OwnerHolds interfaceShape InterfaceDescriptorHolds

abbrev ConfigHolds : (ℕ → Option Block) → UsbConfigDescriptor → LibusbConfigDescriptor →
    List ℕ → Prop :=
  OwnerHolds configDescriptorShape InterfaceHolds

section Copies

variable (A : Allocator Block)

lemma endpoint_copies : Copies A (copyEndpointDescriptor A) clearEndpointDescriptor endpointAsks
    (gradeAt age 0) EndpointHolds (fun e => e.extra = none) (fun _ _ => False) where
  frame := by
    intro h h' e s l he hh
    cases he with
    | bare hnil => exact .bare hnil
    | extra hne hx => exact .extra hne ((hh _ List.mem_cons_self).trans hx)
  live := by
    intro h e s l he x hx
    cases he with
    | bare => exact absurd hx List.not_mem_nil
    | extra _ hb =>
      rw [List.mem_singleton.mp hx, hb]
      rfl
  clear_holds := by
    intro m e s l he _
    cases he with
    | bare => exact yields_pure.mpr (.of_apart (Apart.refl _ m) (List.nil_subset _))
    | extra _ hb =>
      refine (yields_free hb).mpr ⟨(Apart.refl _ m).erase List.mem_cons_self, fun y hy _ => ?_⟩
      rw [List.mem_singleton.mp hy]
      exact m.erase_same _
  clear_blank := by
    intro m e he
    rw [clearEndpointDescriptor, he]
    exact yields_pure.mpr rfl
  clear_dangles := fun h => h.elim
  zero_blank := rfl
  code_neg := by
    intro s k hk
    rw [endpointAsks] at hk
    split_ifs at hk
    · exact absurd hk List.not_mem_nil
    · rw [List.mem_singleton.mp hk]
      exact memory_code_neg _
  succeeds := by
    intro m s hnone
    rw [endpointAsks] at hnone ⊢
    rw [copyEndpointDescriptor]
    by_cases hextra : s.extra = []
    · simp only [if_pos hextra, yields_pure]
      refine ⟨trivial, rfl, [], ?_, List.nodup_nil, .of_apart (Apart.refl _ m) (List.nil_subset _)⟩
      rw [hextra]
      exact .bare hextra
    simp only [if_neg hextra, firstFail] at hnone ⊢
    rw [yields_bind]
    refine (yields_mallocFor A _ m).mono ?_
    rintro (_ | x) m₁ ⟨hasked, hr⟩
    · rw [hr.1] at hnone
      exact absurd hnone (Option.some_ne_none _)
    · exact yields_pure.mpr ⟨rfl, hasked, [x], .extra hextra hr.2.2, List.nodup_singleton x, hr.2.1⟩
  fails := by
    intro m s k hk _
    rw [endpointAsks] at hk
    rw [copyEndpointDescriptor]
    by_cases hextra : s.extra = []
    · rw [if_pos hextra] at hk
      exact absurd hk (Option.some_ne_none _).symm
    simp only [if_neg hextra, firstFail] at hk ⊢
    rw [yields_bind]
    refine (yields_mallocFor A _ m).mono ?_
    rintro (_ | x) m₁ ⟨-, hr⟩
    · rw [hr.1, if_pos rfl] at hk
      obtain rfl := Option.some.inj hk
      refine yields_pure.mpr ⟨rfl, hr.2, ?_⟩
      rw [gradeAt_clean (Nat.zero_le _)]
      rfl
    · rw [hr.1, if_neg Bool.false_ne_true] at hk
      exact absurd hk (Option.some_ne_none _).symm
  stuck := by
    intro m s k _ hk
    rw [gradeAt_clean (Nat.zero_le _)] at hk
    exact Grade.noConfusion hk

lemma interfaceDescriptor_copies : Copies A (copyInterfaceDescriptor A) clearInterfaceDescriptor
    interfaceDescriptorAsks (gradeAt age 1) InterfaceDescriptorHolds
    (ownsNothing interfaceDescriptorShape) (pointsTo interfaceDescriptorShape) := by
  refine Copies.owner ?_ ⟨rfl, rfl⟩ (endpoint_copies A) rfl (fun _ _ => rfl)
    fun _ s _ => endpointAsks_age s
  exact ⟨fun _ _ => rfl, fun _ _ => rfl, fun _ _ => rfl, fun _ _ => rfl, fun _ _ _ _ => rfl,
    fun _ _ => rfl, fun _ _ => rfl, fun _ _ => rfl, fun _ _ => rfl, fun _ _ => rfl,
    fun t _ => t.bNumEndpoints_eq⟩

lemma interface_copies : Copies A (copyInterface A) clearInterface interfaceAsks (gradeAt age 2)
    InterfaceHolds (ownsNothing interfaceShape) (pointsTo interfaceShape) := by
  refine Copies.owner ?_ ⟨rfl, rfl⟩ (interfaceDescriptor_copies A) rfl (fun _ h => absurd rfl h)
    fun _ s _ => interfaceDescriptorAsks_age s
  exact ⟨fun _ _ => rfl, fun _ _ => rfl, fun _ _ => rfl, fun _ _ => rfl,
    fun _ _ _ h => absurd rfl h,
    fun _ _ => rfl, fun _ _ => rfl, fun _ _ => rfl, fun _ _ => rfl, fun _ _ => rfl,
    fun _ _ => rfl⟩

lemma configDescriptor_copies : Copies A (copyConfigDescriptor A) clearConfigDescriptor
    configDescriptorAsks (gradeAt age 3) ConfigHolds (ownsNothing configDescriptorShape)
    (pointsTo configDescriptorShape) := by
  refine Copies.owner ?_ ⟨rfl, rfl⟩ (interface_copies A) rfl (fun _ _ => rfl)
    fun _ s _ => interfaceAsks_age s
  exact ⟨fun _ _ => rfl, fun _ _ => rfl, fun _ _ => rfl, fun _ _ => rfl, fun _ _ _ _ => rfl,
    fun _ _ => rfl, fun _ _ => rfl, fun _ _ => rfl, fun _ _ => rfl, fun _ _ => rfl,
    fun t _ => t.bNumInterfaces_eq⟩

end Copies

/-! ### `initialize_device` and `free_device` -/

/-- What the program reads of a device descriptor. -/
structure DeviceDescriptor where
  idVendor : UInt16
  idProduct : UInt16
  bNumConfigurations : UInt8

/-- What libusb-1.0 has to say about the attached devices, which it names by pointers. -/
structure Libusb where
  deviceList : Except LibusbError (List ℕ)
  busNumber : ℕ → UInt8
  deviceAddress : ℕ → UInt8
  deviceDescriptor : ℕ → Except LibusbError DeviceDescriptor
  configDescriptor : ℕ → ℕ → Except LibusbError LibusbConfigDescriptor

/-- A `struct usb_device` but for the links; `dev` is libusb-1.0's device. -/
structure UsbDevice where
  bus : ℕ
  descriptor : DeviceDescriptor
  config : Option ℕ
  dev : ℕ
  devnum : UInt8

/-- What devices hold: the heap of the descriptors, references to libusb-1.0's devices, and the
lists of devices that libusb-1.0 has handed out and not got back. -/
structure Held where
  blocks : Blocks
  refs : ℕ → ℤ
  lists : List (List ℕ)

def onBlocks {α : Type} (p : Cmd Blocks α) : Cmd Held α :=
  onPart Held.blocks (fun b s => { s with blocks := b }) p

def libusbRefDevice (dev : ℕ) : Cmd Held Unit :=
  modify fun s => { s with refs := Function.update s.refs dev (s.refs dev + 1) }

def libusbUnrefDevice (dev : ℕ) : Cmd Held Unit :=
  modify fun s => { s with refs := Function.update s.refs dev (s.refs dev - 1) }

/-- A list that is handed out holds a reference to each of its devices. -/
def Held.listed (devs : List ℕ) (s : Held) : Held :=
  { s with refs := fun p => s.refs p + devs.count p, lists := devs :: s.lists }

def libusbGetDeviceList (lib : Libusb) : Cmd Held (Except LibusbError (List ℕ)) :=
  match lib.deviceList with
  | .error e => pure (.error e)
  | .ok devs => do
    modify (Held.listed devs)
    pure (.ok devs)

/-- `libusb_free_device_list`, which is always told to give back the references, too. -/
def libusbFreeDeviceList (devs : List ℕ) : Cmd Held Unit := do
  let s ← get
  if devs ∈ s.lists then
    set { s with refs := fun p => s.refs p - devs.count p, lists := s.lists.erase devs }
  else failure

def clearDevice (dev : UsbDevice) : Cmd Blocks Unit :=
  let n := dev.descriptor.bNumConfigurations.toNat
  match dev.config with
  | some a => clearEach clearConfigDescriptor a n 0
  | none => if n = 0 then pure () else failure

def freeConfig (dev : UsbDevice) : Cmd Blocks Unit :=
  match dev.config with
  | some a => free a
  | none => pure ()

/-- The configurations that are copied for a device. -/
def configurations (lib : Libusb) (dev : ℕ) (d : DeviceDescriptor) :
    List (Except LibusbError LibusbConfigDescriptor) :=
  (List.range d.bNumConfigurations.toNat).map (lib.configDescriptor dev)

/-- `initialize_device` from the loop over the configurations on. -/
def copyConfigs (A : Allocator Block) (lib : Libusb) (dev : UsbDevice) (a : ℕ) :
    Cmd Held (ℤ × UsbDevice) := do
  let r ← onBlocks (copyEach (copyOrError compatErr (copyConfigDescriptor A)) a
    (configurations lib dev.dev dev.descriptor) 0)
  if r < 0 then
    onBlocks (clearDevice dev)
    onBlocks (freeConfig dev)
    pure (r, dev)
  else
    libusbRefDevice dev.dev
    pure (0, dev)

/-- What it returns, and the device as it is then. -/
def initializeDevice (A : Allocator Block) (lib : Libusb) (dev : UsbDevice) :
    Cmd Held (ℤ × UsbDevice) :=
  match lib.deviceDescriptor dev.dev with
  | .error e => pure (compatErr e, dev)
  | .ok d => do
    let dev := { dev with descriptor := d }
    let zeroed : List UsbConfigDescriptor := zeros Block d.bNumConfigurations.toNat
    match ← onBlocks (mallocFor A (pack zeroed)) with
    | none => pure (-enomem, { dev with config := none })
    | some a => copyConfigs A lib { dev with config := some a } a

/-- `free_device`, but for the device itself. -/
def freeDevice (dev : UsbDevice) : Cmd Held Unit := do
  onBlocks (clearDevice dev)
  onBlocks (freeConfig dev)
  libusbUnrefDevice dev.dev

/-- What `initialize_device` asks for. -/
def deviceAsks (lib : Libusb) (dev : ℕ) : List (Ask Request) :=
  match lib.deviceDescriptor dev with
  | .error e => [.error (compatErr e)]
  | .ok d => .memory .configs :: (configurations lib dev d).flatMap
      (asksOrError compatErr configDescriptorAsks)

/-- A device with copies of its configurations, and where they are. -/
structure DeviceHolds (h : ℕ → Option Block) (lib : Libusb) (dev : UsbDevice) (l : List ℕ) :
    Prop where
  descriptor : lib.deviceDescriptor dev.dev = .ok dev.descriptor
  configs : ∃ a es l', dev.config = some a ∧ l = a :: l' ∧ h a = some (.configs es) ∧
    HoldsEach (holdsOk ConfigHolds) h es (configurations lib dev.dev dev.descriptor) l'

section Devices

variable {A : Allocator Block} {lib : Libusb} {s : Held} {dev : UsbDevice} {l : List ℕ}

lemma yields_onBlocks {α : Type} {p : Cmd Blocks α} {Q : α → Held → Prop} :
    Yields (onBlocks p) s Q ↔ Yields p s.blocks fun a b => Q a { s with blocks := b } :=
  yields_onPart

lemma stuck_onBlocks {α : Type} {p : Cmd Blocks α} (h : Stuck p s.blocks) :
    Stuck (onBlocks p) s := by
  change (p.run s.blocks).map _ = none
  rw [show p.run s.blocks = none from h]
  rfl

lemma configs_copies (A : Allocator Block) :
    Copies A (copyOrError compatErr (copyConfigDescriptor A)) clearConfigDescriptor
      (asksOrError compatErr configDescriptorAsks) (gradeAt age 3) (holdsOk ConfigHolds)
      (ownsNothing configDescriptorShape) (pointsTo configDescriptorShape) :=
  (configDescriptor_copies A).orError compatErr_neg fun _ => rfl

lemma configurations_length (lib : Libusb) (dev : ℕ) (d : DeviceDescriptor) :
    (configurations lib dev d).length = d.bNumConfigurations.toNat := by
  rw [configurations, List.length_map, List.length_range]

lemma onBlocks_bind {α β : Type} (p : Cmd Blocks α) (f : α → Cmd Blocks β) :
    onBlocks (p >>= f) = onBlocks p >>= fun a => onBlocks (f a) := by
  funext s
  change ((p.run s.blocks).bind fun r => (f r.1).run r.2).map _ = ((p.run s.blocks).map _).bind _
  cases p.run s.blocks with
  | none => rfl
  | some r => rfl

/-- A device as a record that owns an array. -/
def deviceShape : Shape UsbDevice Unit (Except LibusbError LibusbConfigDescriptor) where
  array p := p.config
  setArray x p := { p with config := x }
  extra _ := none
  setExtra _ p := p
  count p := p.descriptor.bNumConfigurations.toNat
  fill _ p := p
  setLen _ p := p
  items _ := []
  bytes _ := []

/-- Clearing a device and giving back its configurations clears an array. -/
lemma clearDevice_freeConfig {a : ℕ} (hconfig : dev.config = some a) :
    (clearDevice dev >>= fun _ => freeConfig dev) =
      clearArray deviceShape clearConfigDescriptor dev := by
  rw [clearDevice, freeConfig, clearArray]
  simp only [deviceShape, hconfig]

/-- The array of the configurations has been allocated in `b₀`. -/
lemma copyConfigs_spec (A : Allocator Block) (lib : Libusb) (s : Held) (dev : UsbDevice)
    {b₀ : Blocks} {a : ℕ} (hconfig : dev.config = some a)
    (ha : s.blocks.cells a = some (.configs (zeros Block
      (configurations lib dev.dev dev.descriptor).length)))
    (hgain : Gains [a] b₀ s.blocks) :
    match firstFail A s.blocks.asked ((configurations lib dev.dev dev.descriptor).flatMap
        (asksOrError compatErr configDescriptorAsks)) with
    | none => Yields (copyConfigs A lib dev a) s fun r s' => r.1 = 0 ∧ r.2 = dev ∧
        s'.refs = Function.update s.refs dev.dev (s.refs dev.dev + 1) ∧ s'.lists = s.lists ∧
        ∃ es l, s'.blocks.cells a = some (.configs es) ∧ HoldsEach (holdsOk ConfigHolds)
          s'.blocks.cells es (configurations lib dev.dev dev.descriptor) l ∧ (a :: l).Nodup ∧
          Gains (a :: l) b₀ s'.blocks
    | some k => if age k < 3 then Stuck (copyConfigs A lib dev a) s else
        Yields (copyConfigs A lib dev a) s fun r s' => r.1 = k.code ∧ r.1 < 0 ∧
          s'.refs = s.refs ∧ s'.lists = s.lists ∧ s'.blocks.cells = b₀.cells := by
  have hc := configs_copies A
  have hcount := configurations_length lib dev.dev dev.descriptor
  cases hfirst : firstFail A s.blocks.asked ((configurations lib dev.dev dev.descriptor).flatMap
      (asksOrError compatErr configDescriptorAsks)) with
  | none =>
    rw [copyConfigs, yields_bind, yields_onBlocks]
    refine (copyEach_succeeds [] hc ha hfirst).mono ?_
    rintro r b ⟨rfl, -, es, l, ha', hes, hl, hgrown⟩
    rw [if_neg (by decide)]
    refine ⟨_, _, rfl, rfl, rfl, rfl, rfl, es, l, ha', hes, hl, fun x hx => ?_, fun x hx _ => ?_⟩
    · rw [List.mem_cons, not_or] at hx
      exact (hgain.apart x fun hm => hx.1 (List.mem_singleton.mp hm)).trans
        (hgrown.rest x hx.1 hx.2).symm
    · rcases eq_or_ne x a with rfl | hxa
      · exact hgain.freed x (List.mem_singleton_self x) List.not_mem_nil
      · exact (hgain.apart x fun hm => hxa (List.mem_singleton.mp hm)).trans
          (hgrown.fresh x ((List.mem_cons.mp hx).resolve_left hxa))
  | some k =>
    obtain ⟨c, -, hk⟩ := List.mem_flatMap.mp (firstFail_mem hfirst)
    have hneg : k.code < 0 := hc.code_neg hk
    dsimp only
    by_cases hstuck : gradeAt age 3 k = .stuck
    · have hage : age k < 3 := by
        by_contra hage
        rw [gradeAt_clean (Nat.not_lt.mp hage)] at hstuck
        exact Grade.noConfusion hstuck
      rw [if_pos hage, copyConfigs]
      exact (stuck_onBlocks (copyEach_stuck [] hc ha hfirst hstuck)).bind
    · have hfail := copyEach_fails [] hc ha hfirst hstuck
      by_cases hage : age k < 3
      · -- the copy has cleared itself, and clearing the device comes across it again
        rw [if_pos hage, copyConfigs]
        refine Yields.stuck_bind (yields_onBlocks.mpr (hfail.mono ?_))
        rintro r b ⟨rfl, es, ss', e, n, l, hlen, ha', hes, hl, hgrown, hspoilt⟩
        have hdangling : gradeAt age 3 k = .dangling := by
          cases hg : gradeAt age 3 k with
          | clean =>
            rw [gradeAt, if_neg (Nat.not_le.mpr hage)] at hg
            split_ifs at hg
          | dangling => rfl
          | stuck => exact absurd hg hstuck
        rw [hdangling] at hspoilt
        obtain ⟨d, hd, hnone⟩ := hspoilt
        rw [List.nil_append] at ha'
        have hclear : Stuck (clearArray deviceShape clearConfigDescriptor dev) b :=
          clearArray_dangles hc ha' hes hl hd hnone hconfig (hcount.symm.trans hlen.symm)
        rw [← clearDevice_freeConfig hconfig] at hclear
        rw [if_pos hneg, ← bind_assoc, ← onBlocks_bind]
        exact (stuck_onBlocks hclear).bind
      · rw [if_neg hage, copyConfigs, yields_bind, yields_onBlocks]
        refine hfail.mono ?_
        rintro r b ⟨rfl, es, ss', e, n, l, hlen, ha', hes, hl, hgrown, hspoilt⟩
        rw [gradeAt_clean (Nat.not_lt.mp hage)] at hspoilt
        have hblank : ownsNothing configDescriptorShape e := hspoilt
        rw [List.nil_append] at ha'
        have hclear : Yields (clearArray deviceShape clearConfigDescriptor dev) b
            fun _ b' => Leaves (a :: l) [] b b' :=
          clearArray_blank hc ha' hes hl hblank hconfig (hcount.symm.trans hlen.symm)
        rw [← clearDevice_freeConfig hconfig] at hclear
        rw [if_pos hneg, ← bind_assoc, ← onBlocks_bind, yields_bind, yields_onBlocks]
        refine hclear.mono fun _ b' hb' => yields_pure.mpr ⟨rfl, hneg, rfl, rfl, ?_⟩
        exact restored hgain hgrown hb'

/-- What becomes of a device that is initialized, by the first of its requests that is not
granted. -/
lemma initializeDevice_spec (A : Allocator Block) (lib : Libusb) (s : Held) (dev : UsbDevice) :
    match firstFail A s.blocks.asked (deviceAsks lib dev.dev) with
    | none => Yields (initializeDevice A lib dev) s fun r s' => r.1 = 0 ∧
        s'.refs = Function.update s.refs dev.dev (s.refs dev.dev + 1) ∧ s'.lists = s.lists ∧
        (∃ d a, r.2 = { dev with descriptor := d, config := some a }) ∧
        ∃ l, DeviceHolds s'.blocks.cells lib r.2 l ∧ l.Nodup ∧ Gains l s.blocks s'.blocks
    | some k => if age k < 3 then Stuck (initializeDevice A lib dev) s else
        Yields (initializeDevice A lib dev) s fun r s' => r.1 = k.code ∧ r.1 < 0 ∧
          s'.refs = s.refs ∧ s'.lists = s.lists ∧ s'.blocks.cells = s.blocks.cells := by
  rw [deviceAsks, initializeDevice]
  cases hdesc : lib.deviceDescriptor dev.dev with
  | error e =>
    simp only [firstFail]
    rw [if_neg (by exact Nat.lt_irrefl 3)]
    exact yields_pure.mpr ⟨rfl, compatErr_neg e, rfl, rfl, rfl⟩
  | ok d =>
    obtain ⟨r, b, hrun, hasked, hr⟩ := yields_mallocFor A
      (pack (zeros Block d.bNumConfigurations.toNat : List UsbConfigDescriptor)) s.blocks
    have hblocks : (onBlocks (mallocFor A
        (pack (zeros Block d.bNumConfigurations.toNat : List UsbConfigDescriptor)))).run s =
          some (r, { s with blocks := b }) := by
      change ((mallocFor A _).run s.blocks).map _ = _
      rw [hrun]
      rfl
    rw [firstFail]
    cases r with
    | none =>
      rw [if_pos hr.1]
      dsimp only
      rw [if_neg (by decide), yields_bind, yields_of_run hblocks]
      exact yields_pure.mpr ⟨rfl, memory_code_neg Request.configs, rfl, rfl, hr.2⟩
    | some a =>
      rw [if_neg (by rw [hr.1]; exact Bool.false_ne_true), ← hasked]
      have hlen := configurations_length lib dev.dev d
      have hspec := copyConfigs_spec A lib { s with blocks := b }
        { dev with descriptor := d, config := some a } rfl (by rw [hlen]; exact hr.2.2) hr.2.1
      cases hfirst : firstFail A b.asked ((configurations lib dev.dev d).flatMap
          (asksOrError compatErr configDescriptorAsks)) with
      | none =>
        rw [hfirst] at hspec
        dsimp only at hspec ⊢
        rw [yields_bind, yields_of_run hblocks]
        refine hspec.mono ?_
        rintro ⟨r, dev'⟩ s' ⟨hr₀, hdev, hrefs, hlists, es, l, ha', hes, hl, hgain⟩
        obtain rfl : dev' = { dev with descriptor := d, config := some a } := hdev
        exact ⟨hr₀, hrefs, hlists, ⟨d, a, rfl⟩, a :: l,
          ⟨hdesc, a, es, l, rfl, rfl, ha', hes⟩, hl, hgain⟩
      | some k =>
        rw [hfirst] at hspec
        dsimp only at hspec ⊢
        split_ifs at hspec ⊢ with hage
        · exact Yields.stuck_bind ((yields_of_run hblocks).mpr hspec)
        · rw [yields_bind, yields_of_run hblocks]
          exact hspec

/-- A device gives back what its initialization has taken. -/
lemma freeDevice_spec (A : Allocator Block) (hdev : DeviceHolds s.blocks.cells lib dev l)
    (hl : l.Nodup) : Yields (freeDevice dev) s fun _ s' => Leaves l [] s.blocks s'.blocks ∧
      s'.refs = Function.update s.refs dev.dev (s.refs dev.dev - 1) ∧ s'.lists = s.lists := by
  obtain ⟨a, es, l, hconfig, rfl, ha, hes⟩ := hdev.configs
  have hclear : Yields (clearArray deviceShape clearConfigDescriptor dev) s.blocks
      fun _ b => Leaves (a :: l) [] s.blocks b :=
    clearArray_holds (configs_copies A) ha hes hl hconfig
      ((configurations_length lib dev.dev dev.descriptor).symm.trans hes.length.symm)
  rw [← clearDevice_freeConfig hconfig] at hclear
  rw [freeDevice, ← bind_assoc, ← onBlocks_bind, yields_bind, yields_onBlocks]
  refine hclear.mono fun _ b hb => ?_
  exact ⟨_, _, rfl, hb, rfl, rfl⟩

/-- **Initializing a device never frees anything twice if and only if** the first request for
memory that is refused, if one is, is for the array of the configurations or for the array of the
interfaces of a configuration. -/
theorem initializeDevice_returns_iff (A : Allocator Block) (lib : Libusb) (s : Held)
    (dev : UsbDevice) : (∃ r, (initializeDevice A lib dev).run s = some r) ↔
      ∀ k, firstFail A s.blocks.asked (deviceAsks lib dev.dev) = some (.memory k) →
        k = .configs ∨ k = .interfaces := by
  have hspec := initializeDevice_spec A lib s dev
  have hreturns : ∀ {Q : ℤ × UsbDevice → Held → Prop}, Yields (initializeDevice A lib dev) s Q →
      ∃ r, (initializeDevice A lib dev).run s = some r := fun ⟨a, s', he, _⟩ => ⟨(a, s'), he⟩
  have hage : ∀ k : Request, ¬ age (.memory k) < 3 ↔ k = .configs ∨ k = .interfaces := by
    intro k
    cases k <;> decide
  constructor
  · rintro ⟨r, hr⟩ k hk
    rw [hk] at hspec
    dsimp only at hspec
    split_ifs at hspec with hlt
    · exact absurd (hspec.symm.trans hr) (Option.some_ne_none r).symm
    · exact (hage k).mp hlt
  · intro hclean
    cases hk : firstFail A s.blocks.asked (deviceAsks lib dev.dev) with
    | none =>
      rw [hk] at hspec
      exact hreturns hspec
    | some k =>
      rw [hk] at hspec
      dsimp only at hspec
      cases k with
      | error code => exact hreturns (if_neg (Nat.lt_irrefl 3) ▸ hspec)
      | memory k =>
        rw [if_neg ((hage k).mpr (hclean k hk))] at hspec
        exact hreturns hspec

/-- **A device that is freed gives back exactly what its initialization took**, and an
initialization that fails takes nothing. -/
theorem initializeDevice_freeDevice {r : ℤ × UsbDevice} {s' : Held} {A : Allocator Block}
    (h : (initializeDevice A lib dev).run s = some (r, s')) :
    (r.1 = 0 ∧ (∃ l, DeviceHolds s'.blocks.cells lib r.2 l) ∧
      ∃ s'', (freeDevice r.2).run s' = some ((), s'') ∧ s''.blocks.cells = s.blocks.cells ∧
        s''.refs = s.refs ∧ s''.lists = s.lists) ∨
      (r.1 < 0 ∧ s'.blocks.cells = s.blocks.cells ∧ s'.refs = s.refs ∧ s'.lists = s.lists) := by
  have hspec := initializeDevice_spec A lib s dev
  cases hk : firstFail A s.blocks.asked (deviceAsks lib dev.dev) with
  | some k =>
    rw [hk] at hspec
    dsimp only at hspec
    split_ifs at hspec
    · exact absurd (hspec.symm.trans h) (Option.some_ne_none _).symm
    · rw [yields_of_run h] at hspec
      obtain ⟨-, hneg, hrefs, hlists, hcells⟩ := hspec
      exact .inr ⟨hneg, hcells, hrefs, hlists⟩
  | none =>
    rw [hk] at hspec
    dsimp only at hspec
    rw [yields_of_run h] at hspec
    obtain ⟨hr, hrefs, hlists, ⟨d, a, hdev⟩, l, hholds, hl, hgain⟩ := hspec
    refine .inl ⟨hr, ⟨l, hholds⟩, ?_⟩
    obtain ⟨u, s'', hrun, hleaves, hrefs', hlists'⟩ := freeDevice_spec A hholds hl
    refine ⟨s'', hrun, funext fun x => ?_, ?_, hlists'.trans hlists⟩
    · by_cases hx : x ∈ l
      · rw [hleaves.freed x hx List.not_mem_nil, hgain.freed x hx List.not_mem_nil]
      · rw [hleaves.apart x hx, hgain.apart x hx]
    · have hsame : r.2.dev = dev.dev := by rw [hdev]
      rw [hrefs', hrefs, hsame, Function.update_self, Function.update_idem]
      simp

/-- One board with one configuration, on bus 1. -/
def oneBoard : Libusb where
  deviceList := .ok [7]
  busNumber _ := 1
  deviceAddress _ := 5
  deviceDescriptor _ := .ok ⟨0x1B8E, 0xC003, 1⟩
  configDescriptor _ _ := .ok ⟨⟨9, 2, 18, 1, 1, 0, 0x80, 250⟩,
    [⟨[⟨⟨9, 4, 0, 0, 0, 0xFF, 0, 0, 0⟩, [], rfl, []⟩]⟩], rfl, []⟩

theorem initializeDevice_freeDevice_oneBoard : ∃ r s' s'',
    (initializeDevice (.above (.bytes [])) oneBoard ⟨0, ⟨0, 0, 0⟩, none, 7, 5⟩).run
      ⟨Mem.empty _, fun _ => 0, []⟩ = some (r, s') ∧ r.1 = 0 ∧
        (freeDevice r.2).run s' = some ((), s'') ∧ s''.blocks.cells = fun _ => none := by
  have hzero : ((initializeDevice (.above (.bytes [])) oneBoard ⟨0, ⟨0, 0, 0⟩, none, 7, 5⟩).run
      ⟨Mem.empty _, fun _ => 0, []⟩).map (fun r => r.1.1) = some 0 := by decide +kernel
  obtain ⟨⟨r, s'⟩, hrun, hr⟩ := Option.map_eq_some_iff.mp hzero
  obtain ⟨-, -, s'', hfree, hcells, -⟩ | ⟨hneg, -⟩ := initializeDevice_freeDevice hrun
  · exact ⟨r, s', s'', hrun, hr, hfree, hcells⟩
  · exact absurd hr hneg.ne

end Devices

end AmlogicUpdate.Descriptors

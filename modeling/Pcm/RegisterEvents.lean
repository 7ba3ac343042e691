import Pcm.RawProgram
import Pcm.Lib.KeyedMap

/-!
# Register events

Events of a raw configuration that are registers to read: where the registers are is found out
when they are configured (`cpucounters.cpp:6348-6477`), kept in tables with hash functions and
comparisons of their own (`cpucounters.h:1567-1701`), and looked up again by the read functions
(`cpucounters.cpp:6878-7028`). Registers of the cores and of the sockets are not in these tables.
-/

namespace Pcm

/-- The kinds of registers that have locations. -/
inductive LocatedKind
  | pcicfg
  | mmio
  | pmt
  | tpmi
  deriving DecidableEq, Repr

namespace RegisterEvent

def name : RegisterEvent → String
  | package_msr => "package_msr"
  | thread_msr => "thread_msr"
  | pcicfg => "pcicfg"
  | mmio => "mmio"
  | pmt => "pmt"
  | tpmi => "tpmi"

def located : RegisterEvent → Option LocatedKind
  | package_msr | thread_msr => none
  | pcicfg => some .pcicfg
  | mmio => some .mmio
  | pmt => some .pmt
  | tpmi => some .tpmi

end RegisterEvent

def LocatedKind.event : LocatedKind → RegisterEvent
  | pcicfg => .pcicfg
  | mmio => .mmio
  | pmt => .pmt
  | tpmi => .tpmi

@[simp] theorem LocatedKind.located_event (kind : LocatedKind) :
    kind.event.located = some kind := by
  cases kind <;> rfl

theorem RegisterEvent.eq_event_of_located {event : RegisterEvent} {kind : LocatedKind}
    (located : event.located = some kind) : event = kind.event := by
  cases event <;> simp_all [RegisterEvent.located, LocatedKind.event]
  all_goals subst located; rfl

/-- The events of a configuration under the name of a type. -/
def RawPMUConfigs.registerEvents (configs : RawPMUConfigs) (event : RegisterEvent) :
    List RawEventConfig :=
  ((configs.entries.lookup event.name).getD {}).events

theorem registerEventOf_name (event : RegisterEvent) : registerEventOf event.name = some event := by
  cases event <;> rfl

theorem name_of_registerEventOf {name : String} {event : RegisterEvent}
    (h : registerEventOf name = some event) : name = event.name := by
  unfold registerEventOf at h
  split at h <;> simp_all [RegisterEvent.name]
  all_goals subst h; rfl

theorem pmuTypeOf_name (event : RegisterEvent) : pmuTypeOf event.name = none := by
  cases event <;> rfl

theorem entryAction_of_empty {entry : String × RawPMUConfig} (empty : entry.2.events = []) :
    entryAction entry = .skip := by
  unfold entryAction
  rw [if_pos]
  simpa [RawPMUConfig.events, List.isEmpty_iff] using empty

/-- The entries that configure register events. -/
theorem entryAction_register_iff {entry : String × RawPMUConfig} {event : RegisterEvent} :
    entryAction entry = .register event ↔ entry.1 = event.name ∧ entry.2.events ≠ [] := by
  constructor
  · intro action
    unfold entryAction at action
    split at action
    · simp at action
    · next some =>
      split at action
      · simp at action
      · split at action
        · simp at action
        · next registers =>
          refine ⟨name_of_registerEventOf ?_, ?_⟩
          · rw [registers, EntryAction.register.inj action]
          · simpa [RawPMUConfig.events, List.isEmpty_iff] using some
        · simp at action
  · rintro ⟨name, some⟩
    unfold entryAction
    have register : isRegisterEvent event.name = true := by
      rw [isRegisterEvent, registerEventOf_name]
      rfl
    have events : (entry.2.programmable.isEmpty && entry.2.fixed.isEmpty) = false := by
      simpa [RawPMUConfig.events, List.isEmpty_iff] using some
    simp [events, register, name, pmuTypeOf_name, registerEventOf_name]

/-- The names are those that are left when the core PMUs are programmed. -/
theorem lookup_uncoreEntries (configs : RawPMUConfigs) (event : RegisterEvent) :
    configs.uncoreEntries.lookup event.name = configs.entries.lookup event.name := by
  unfold RawPMUConfigs.uncoreEntries
  induction configs.entries with
  | nil => rfl
  | cons entry entries ih =>
      by_cases own : entry.1 = event.name
      · have kept : (entry.1 ≠ "core" && entry.1 ≠ "atom") = true := by
          rw [own]
          cases event <;> decide
        rw [List.filter_cons, if_pos kept, List.lookup_cons, List.lookup_cons, own,
          beq_self_eq_true]
      · have other : (event.name == entry.1) = false := by
          rw [beq_eq_false_iff_ne]
          exact Ne.symm own
        rw [List.lookup_cons, other, ← ih, List.filter_cons]
        split
        · rw [List.lookup_cons, other]
        · rfl

theorem nodup_uncoreEntries (configs : RawPMUConfigs) :
    (configs.uncoreEntries.map Prod.fst).Nodup := by
  have sublist : (configs.uncoreEntries.map Prod.fst).Sublist (configs.entries.map Prod.fst) :=
    List.filter_sublist.map Prod.fst
  have distinct : (configs.entries.map Prod.fst).Nodup := by
    refine configs.sorted.imp fun {a b} less => ?_
    rintro rfl
    exact String.lt_irrefl a less
  exact distinct.sublist sublist

/-! ## The machine -/

structure PciDevice where
  group : BitVec 32
  bus : BitVec 32
  device : BitVec 32
  function : BitVec 32
  deviceId : BitVec 32
  deriving DecidableEq, Repr

/-- What never changes: the devices, and the hash function of the library. -/
structure Platform where
  /-- `std::hash<uint64>`. -/
  stdHash : BitVec 64 → BitVec 64 := id
  /-- The devices that `forAllIntelDevices` comes by, in its order. -/
  intelDevices : List PciDevice := []
  /-- `PciHandleType::exists`. -/
  pciExists : PciDevice → Bool := fun _ => true
  /-- The base address registers of a device, by their offsets. -/
  pciBar : PciDevice → BitVec 64 → BitVec 32 := fun _ _ => 0
  /-- `TelemetryArray::numInstances`. -/
  numTelemetryArrays : BitVec 64 → Nat := fun _ => 0
  /-- `TPMIHandle::getNumInstances`. -/
  numTPMIInstances : Nat := 0
  /-- `getNumEntries` of the handle for an instance, an ID and an offset. -/
  numTPMIEntries : Nat → BitVec 64 → BitVec 32 → Nat := fun _ _ _ => 0

/-- What the registers hold when they are read. -/
structure RegisterReadings where
  pci32 : PciDevice → BitVec 32 → BitVec 32 := fun _ _ => 0
  pci64 : PciDevice → BitVec 32 → BitVec 64 := fun _ _ => 0
  mmio32 : BitVec 64 → BitVec 32 → BitVec 32 := fun _ _ => 0
  mmio64 : BitVec 64 → BitVec 32 → BitVec 64 := fun _ _ => 0
  /-- A word of a telemetry array: `readPMTRegisters` loads every array that it knows before it
  reads from one. -/
  telemetry : BitVec 64 → Nat → BitVec 64 → BitVec 64 := fun _ _ _ => 0
  /-- `read64` on the handle for an instance, an ID and an offset. -/
  tpmi : Nat → BitVec 64 → BitVec 32 → Nat → BitVec 64 := fun _ _ _ _ => 0

/-- `PCICFGRegisterEncoding` and its siblings: a handle, with an offset where it takes one. -/
def Location : LocatedKind → Type
  | .pcicfg => PciDevice × BitVec 32
  | .mmio => BitVec 64 × BitVec 32
  | .pmt => BitVec 64 × Nat
  | .tpmi => Nat × BitVec 64 × BitVec 32

/-! ## Keys -/

/-- `PCICFGRegisterEncodingCmp`. -/
def pcicfgCmp (a b : RawEventEncoding) : Bool :=
  a.get 0 == b.get 0 && a.get 1 == b.get 1 && a.get 5 == b.get 5

/-- The comparisons of the tables of locations. -/
def locationCmp : LocatedKind → RawEventEncoding → RawEventEncoding → Bool
  | .pcicfg, a, b => pcicfgCmp a b
  | .mmio, a, b => pcicfgCmp a b && a.get 3 == b.get 3 && a.get 4 == b.get 4
  | .pmt, a, b => a.get 0 == b.get 0
  | .tpmi, a, b => a.get 0 == b.get 0 && a.get 1 == b.get 1

/-- The comparisons of the tables of values: `PMTValues` compares whole encodings. -/
def valueCmp : LocatedKind → RawEventEncoding → RawEventEncoding → Bool
  | .pmt, a, b => a == b
  | kind, a, b => locationCmp kind a b

namespace LocatedKind

/-- The words that `locationCmp` looks at. -/
def locationFields : LocatedKind → List (Fin 6)
  | pcicfg => [0, 1, 5]
  | mmio => [0, 1, 5, 3, 4]
  | pmt => [0]
  | tpmi => [0, 1]

/-- The words that `valueCmp` looks at. -/
def valueFields : LocatedKind → List (Fin 6)
  | pmt => [0, 1, 2, 3, 4, 5]
  | kind => kind.locationFields

/-- The words that select what is read: the device, the offset, the base address registers and the
width, or the position of the bits. -/
def selectors : LocatedKind → List (Fin 6)
  | pmt => [0, 1, 3, 4]
  | kind => kind.locationFields

theorem locationCmp_iff (kind : LocatedKind) (a b : RawEventEncoding) :
    locationCmp kind a b = true ↔ ∀ i ∈ kind.locationFields, a.get i = b.get i := by
  cases kind <;> simp [locationCmp, pcicfgCmp, locationFields, and_assoc]

theorem valueCmp_iff (kind : LocatedKind) (a b : RawEventEncoding) :
    valueCmp kind a b = true ↔ ∀ i ∈ kind.valueFields, a.get i = b.get i := by
  cases kind with
  | pmt =>
      simp only [valueCmp, valueFields, beq_iff_eq]
      constructor
      · rintro rfl
        simp
      · intro same
        have all : ∀ j : Fin 6, j ∈ [0, 1, 2, 3, 4, 5] := by decide
        apply Vector.ext
        intro i bound
        exact same ⟨i, bound⟩ (all _)
  | pcicfg => exact locationCmp_iff .pcicfg a b
  | mmio => exact locationCmp_iff .mmio a b
  | tpmi => exact locationCmp_iff .tpmi a b

/-- Encodings that differ in a word that selects what is read have entries of their own. -/
theorem selectors_of_valueCmp {kind : LocatedKind} {a b : RawEventEncoding}
    (same : valueCmp kind a b = true) : ∀ i ∈ kind.selectors, a.get i = b.get i := by
  have subset : kind.selectors ⊆ kind.valueFields := by cases kind <;> decide
  exact fun i mem => (kind.valueCmp_iff a b).mp same i (subset mem)

end LocatedKind

namespace Platform

variable (p : Platform)

/-- `PCICFGRegisterEncodingHash`. -/
def pcicfgHash (e : RawEventEncoding) : BitVec 64 :=
  p.stdHash (e.get 0) ^^^ (p.stdHash (e.get 1) <<< 1) ^^^ (p.stdHash (e.get 5) <<< 2)

/-- The hash functions of the tables of locations. -/
def locationHash : LocatedKind → RawEventEncoding → BitVec 64
  | .pcicfg, e => p.pcicfgHash e
  | .mmio, e => p.pcicfgHash e ^^^ (p.stdHash (e.get 3) <<< 3) ^^^ (p.stdHash (e.get 4) <<< 4)
  | .pmt, e => p.stdHash (e.get 0)
  | .tpmi, e => p.stdHash (e.get 0) ^^^ (p.stdHash (e.get 1) <<< 1)

/-- The hash functions of the tables of values: `PMTValues` has `PMTRegisterEncodingHash2`. -/
def valueHash : LocatedKind → RawEventEncoding → BitVec 64
  | .pmt, e =>
      p.stdHash (e.get 0) ^^^ (p.stdHash (e.get 1) <<< 1) ^^^ (p.stdHash (e.get 3) <<< 2)
  | kind, e => p.locationHash kind e

theorem locationHash_eq (kind : LocatedKind) {a b : RawEventEncoding}
    (same : locationCmp kind a b = true) : p.locationHash kind a = p.locationHash kind b := by
  rw [LocatedKind.locationCmp_iff] at same
  cases kind <;> simp_all [LocatedKind.locationFields, locationHash, pcicfgHash]

theorem valueHash_eq {kind : LocatedKind} {a b : RawEventEncoding}
    (same : valueCmp kind a b = true) : p.valueHash kind a = p.valueHash kind b := by
  cases kind with
  | pmt => rw [beq_iff_eq.mp same]
  | pcicfg => exact p.locationHash_eq .pcicfg same
  | mmio => exact p.locationHash_eq .mmio same
  | tpmi => exact p.locationHash_eq .tpmi same

/-- `PCICFGRegisterLocations` and its siblings. -/
def locationKeying (kind : LocatedKind) : Keying RawEventEncoding where
  hash := p.locationHash kind
  same := locationCmp kind
  equivalence := by
    simp only [LocatedKind.locationCmp_iff]
    exact ⟨fun _ _ _ => rfl, fun ab i mem => (ab i mem).symm,
      fun ab bc i mem => (ab i mem).trans (bc i mem)⟩
  hash_eq := p.locationHash_eq kind

/-- `PCICFGValues` and its siblings. -/
def valueKeying (kind : LocatedKind) : Keying RawEventEncoding where
  hash := p.valueHash kind
  same := valueCmp kind
  equivalence := by
    simp only [LocatedKind.valueCmp_iff]
    exact ⟨fun _ _ _ => rfl, fun ab i mem => (ab i mem).symm,
      fun ab bc i mem => (ab i mem).trans (bc i mem)⟩
  hash_eq := p.valueHash_eq

/-! ## Locations -/

/-- `computeBarOffset` (`cpucounters.cpp:6422-6435`). -/
def computeBarOffset (device : PciDevice) (membarBits : BitVec 64) : BitVec 64 :=
  if membarBits ≠ 0 then
    let destPos := extractBits membarBits 32 39
    let numBits := extractBits membarBits 24 31
    let srcPos := extractBits membarBits 16 23
    let pcicfgOffset := extractBits membarBits 0 15
    let memBarOffset := p.pciBar device pcicfgOffset
    let field :=
      extractBits32 memBarOffset (srcPos.setWidth 32) ((srcPos + numBits - 1).setWidth 32)
    field.setWidth 64 <<< destPos
  else 0

/-- The devices with the ID of an event. -/
def devicesOf (e : RawEventEncoding) : List PciDevice :=
  p.intelDevices.filter fun d => e.get 0 == d.deviceId.setWidth 64 && p.pciExists d

/-- The page and the offset of a memory mapped register. -/
def mmioAddress (e : RawEventEncoding) (device : PciDevice) : BitVec 64 × BitVec 32 :=
  let memBar := p.computeBarOffset device (e.get 3) ||| p.computeBarOffset device (e.get 4)
  let addr := memBar + e.get 1
  (addr &&& ~~~4095#64, (addr &&& 4095#64).setWidth 32)

/-- The locations that the four loops `addLocations` find for an event. -/
def locate : (kind : LocatedKind) → RawEventEncoding → List (Location kind)
  | .pcicfg, e => (p.devicesOf e).map fun d => (d, (e.get 1).setWidth 32)
  | .mmio, e => (p.devicesOf e).map (p.mmioAddress e)
  | .pmt, e => (List.range (p.numTelemetryArrays (e.get 0))).map fun n => (e.get 0, n)
  | .tpmi, e => (List.range p.numTPMIInstances).map fun n => (n, e.get 0, (e.get 1).setWidth 32)

/-- Keys that compare equal have the same locations. -/
theorem locate_congr {kind : LocatedKind} {a b : RawEventEncoding}
    (same : (p.locationKeying kind).same a b = true) : p.locate kind a = p.locate kind b := by
  have fields := (kind.locationCmp_iff a b).mp same
  cases kind with
  | mmio =>
      have words : a.get 0 = b.get 0 ∧ a.get 1 = b.get 1 ∧ a.get 5 = b.get 5 ∧
          a.get 3 = b.get 3 ∧ a.get 4 = b.get 4 := by
        simpa [LocatedKind.locationFields] using fields
      have address : p.mmioAddress a = p.mmioAddress b := by
        funext device
        simp [mmioAddress, words]
      simp [locate, devicesOf, address, words]
  | _ => simp_all [LocatedKind.locationFields, locate, devicesOf]

/-- How many registers there are at a location: a TPMI handle has one for each entry. -/
def numEntries : (kind : LocatedKind) → Location kind → Nat
  | .tpmi, l => p.numTPMIEntries l.1 l.2.1 l.2.2
  | _, _ => 1

/-- The registers of an event. -/
def registersOf (kind : LocatedKind) (e : RawEventEncoding) : List (Location kind × Nat) :=
  (p.locate kind e).flatMap fun l => (List.range (p.numEntries kind l)).map fun n => (l, n)

end Platform

/-! ## Reading -/

/-- The choice by the width of a register (`cpucounters.cpp:6890-6907`, `6960-6977`). -/
def readWidth (width : BitVec 64) (value32 : BitVec 32) (value64 : BitVec 64) : BitVec 64 :=
  if width = 16 then (extractBits32 value32 0 15).setWidth 64
  else if width = 32 then value32.setWidth 64
  else if width = 64 then value64
  else -1

/-- What the four read functions record for one register at a location. -/
def RegisterReadings.readEntry (r : RegisterReadings) :
    (kind : LocatedKind) → RawEventEncoding → Location kind → Nat → BitVec 64
  | .pcicfg, e, l, _ => readWidth (e.get 5) (r.pci32 l.1 l.2) (r.pci64 l.1 l.2)
  | .mmio, e, l, _ => readWidth (e.get 5) (r.mmio32 l.1 l.2) (r.mmio64 l.1 l.2)
  | .pmt, e, l, _ => extractBits (r.telemetry l.1 l.2 (e.get 1)) ((e.get 3).setWidth 32).toNat
      ((e.get 4).setWidth 32).toNat
  | .tpmi, _, l, n => r.tpmi l.1 l.2.1 l.2.2 n

namespace Platform

variable (p : Platform)

/-- The values of an event: one for each of its registers. -/
def registerValues (r : RegisterReadings) (kind : LocatedKind) (e : RawEventEncoding) : List (BitVec 64) :=
  (p.registersOf kind e).map fun register => r.readEntry kind e register.1 register.2

/-- The words that select what is read decide about it. -/
theorem registerValues_congr (r : RegisterReadings) {kind : LocatedKind} {a b : RawEventEncoding}
    (same : ∀ i ∈ kind.selectors, a.get i = b.get i) :
    p.registerValues r kind a = p.registerValues r kind b := by
  have locations : p.locate kind a = p.locate kind b := by
    apply p.locate_congr
    have subset : kind.locationFields ⊆ kind.selectors := by cases kind <;> decide
    exact (kind.locationCmp_iff a b).mpr fun i mem => same i (subset mem)
  have entries : ∀ l n, r.readEntry kind a l n = r.readEntry kind b l n := by
    intro l n
    cases kind <;> simp_all [LocatedKind.selectors, LocatedKind.locationFields, RegisterReadings.readEntry]
  unfold registerValues registersOf
  simp only [locations, entries]

/-- The loop of `readPCICFGRegisters` and its siblings over the events of a configuration
(`cpucounters.cpp:6878-7028`), from an empty table: the locations afterwards, where `operator[]` may
have added some, and the values. -/
def readRegisters (r : RegisterReadings) (kind : LocatedKind) (config : RawPMUConfig)
    (locations : KeyedMap RawEventEncoding (List (Location kind))) :
    KeyedMap RawEventEncoding (List (Location kind)) ×
      KeyedMap RawEventEncoding (List (BitVec 64)) :=
  config.events.foldl
    (fun tables cfg =>
      let found := (p.locationKeying kind).getOrInsert tables.1 cfg.encoding []
      (found.2, tables.2.put cfg.encoding (found.1.flatMap fun l =>
        (List.range (p.numEntries kind l)).map (r.readEntry kind cfg.encoding l))))
    (locations, [])

/-- The loops `addLocations`. -/
def addLocations (kind : LocatedKind) (config : RawPMUConfig)
    (locations : KeyedMap RawEventEncoding (List (Location kind))) :
    KeyedMap RawEventEncoding (List (Location kind)) :=
  (config.events.map (·.encoding)).foldl
    (fun locations e => (p.locationKeying kind).ensure locations e (p.locate kind e)) locations

/-- With the locations of all events at hand, reading records the values of each. -/
theorem readRegisters_eq (r : RegisterReadings) {kind : LocatedKind} {config : RawPMUConfig}
    {locations : KeyedMap RawEventEncoding (List (Location kind))}
    (sound : (p.locationKeying kind).Sound (p.locate kind) locations)
    (holds : ∀ cfg ∈ config.events, (p.locationKeying kind).Holds locations cfg.encoding) :
    p.readRegisters r kind config locations =
      (locations, (config.events.map (·.encoding)).foldl
        (fun values e => KeyedMap.put values e (p.registerValues r kind e)) []) := by
  unfold readRegisters
  generalize config.events = events at holds ⊢
  generalize ([] : KeyedMap RawEventEncoding (List (BitVec 64))) = values
  induction events generalizing values with
  | nil => rfl
  | cons cfg events ih =>
      rw [List.foldl_cons, sound.getOrInsert_eq (holds cfg (List.mem_cons_self ..)),
        ih (fun other mem => holds other (List.mem_cons_of_mem _ mem))]
      have pushed : ((p.locate kind cfg.encoding).flatMap fun l =>
          (List.range (p.numEntries kind l)).map (r.readEntry kind cfg.encoding l)) =
          p.registerValues r kind cfg.encoding := by
        simp only [registerValues, registersOf, List.map_flatMap, List.map_map, Function.comp_def]
      rw [List.map_cons, List.foldl_cons, pushed]

end Platform

end Pcm

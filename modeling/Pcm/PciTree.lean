import Pcm.PciBusScan

/-!
# The tree of PCI devices

What `probeDeviceRange` builds from a range of buses whose bridges are properly nested, and `build_pci_tree`
(`pcm-iio-pmu.cpp:73-82`) prints: whether each function is in it once, and behind its bridges.
-/

namespace Pcm.Pci

open Bounded

/-! ## Trees -/

mutual

/-- A device and those behind it, with their levels. -/
def PciNode.rows (level : Nat) : PciNode → List (Nat × PciNode)
  | .mk dev children => (level, .mk dev children) :: buildPciTree (level + 1) children

/-- `build_pci_tree`, the devices of its rows with their levels. -/
def buildPciTree (level : Nat) : List PciNode → List (Nat × PciNode)
  | [] => []
  | child :: children => child.rows level ++ buildPciTree level children

end

/-- The devices in a tree. -/
def devices (nodes : List PciNode) : List PciDev := (buildPciTree 0 nodes).map (·.2.dev)

/-- A bridge that is found in the range, with its buses. -/
structure IsBridge (functions : Functions) (domain : BitVec 32) (secondary subordinate : UInt8) (a : Bdf)
    (bridge : PciDev) : Prop where
  range : InRange domain secondary subordinate a
  found : functions.found a = some bridge
  type1 : bridge.headerType = 1

/-- A function on a bus behind the bridge. -/
def Behind (functions : Functions) (domain : BitVec 32) (bridge : PciDev) (b : Bdf) (dev : PciDev) : Prop :=
  InRange domain bridge.secondaryBusNumber bridge.subordinateBusNumber b ∧ functions.found b = some dev

/-- The ranges of the bridges are properly nested. -/
structure Nested (functions : Functions) (domain : BitVec 32) (secondary subordinate : UInt8) : Prop where
  inside : ∀ a bridge, IsBridge functions domain secondary subordinate a bridge →
    a.busno < bridge.secondaryBusNumber ∧ bridge.secondaryBusNumber ≤ bridge.subordinateBusNumber ∧
      bridge.subordinateBusNumber ≤ subordinate
  within : ∀ a bridge b inner, IsBridge functions domain secondary subordinate a bridge →
    IsBridge functions domain bridge.secondaryBusNumber bridge.subordinateBusNumber b inner →
      inner.subordinateBusNumber ≤ bridge.subordinateBusNumber
  disjoint : ∀ a bridge b other, IsBridge functions domain secondary subordinate a bridge →
    IsBridge functions domain secondary subordinate b other → a.busno = b.busno → a ≠ b →
      bridge.subordinateBusNumber < other.secondaryBusNumber ∨ other.subordinateBusNumber < bridge.secondaryBusNumber

/-- Every function of the range is in the tree once, and is a descendant of the bridges it is behind. -/
structure TreeCorrect (functions : Functions) (domain : BitVec 32) (secondary subordinate : UInt8)
    (nodes : List PciNode) : Prop where
  once : ∀ a dev, InRange domain secondary subordinate a → functions.found a = some dev →
    ((devices nodes).map PciDev.bdf).count a = 1
  descendants : ∀ a bridge b dev, IsBridge functions domain secondary subordinate a bridge →
    Behind functions domain bridge b dev →
      ∃ row ∈ buildPciTree 0 nodes, row.2.dev = bridge ∧ dev ∈ devices row.2.children

section Tree

variable {functions : Functions} {domain : BitVec 32} {secondary subordinate : UInt8}

def leaf (dev : PciDev) : PciNode := .mk dev []

theorem buildPciTree_leaves (level : Nat) (devs : List PciDev) :
    buildPciTree level (devs.map leaf) = devs.map fun dev => (level, leaf dev) := by
  induction devs with
  | nil => rw [List.map_nil, List.map_nil, buildPciTree]
  | cons dev devs ih =>
      rw [List.map_cons, List.map_cons, buildPciTree, ih, leaf, PciNode.rows, buildPciTree]
      rfl

theorem devices_leaves (devs : List PciDev) : devices (devs.map leaf) = devs := by
  rw [devices, buildPciTree_leaves, List.map_map]
  exact List.map_id devs

/-- The functions found on the buses of the range, bus by bus. -/
def flatDevices (functions : Functions) (domain : BitVec 32) (secondary subordinate : UInt8) : List PciDev :=
  ((buses secondary subordinate).flatMap (addresses domain 32)).filterMap functions.found

theorem nodup_addresses (domain : BitVec 32) (bus : UInt8) : (addresses domain 32 bus).Nodup := by
  have injective : ∀ {m n : Nat}, m < 32 → n < 32 → UInt8.ofNat m = UInt8.ofNat n → m = n := by
    intro m n small small' same
    have equal := congrArg UInt8.toNat same
    rw [UInt8.toNat_ofNat_of_lt' (Nat.lt_trans small (by decide)),
      UInt8.toNat_ofNat_of_lt' (Nat.lt_trans small' (by decide))] at equal
    exact equal
  rw [addresses, List.nodup_flatMap]
  constructor
  · intro device _
    refine List.Nodup.map_on (fun m inM n inN same => ?_) List.nodup_range
    rw [List.mem_range] at inM inN
    exact injective (by omega) (by omega) (congrArg Bdf.funcno same)
  · refine List.Pairwise.imp_of_mem (fun {m n} inM inN different => ?_) (List.nodup_range (n := 32))
    rw [List.mem_range] at inM inN
    intro a first second
    obtain ⟨f, -, rfl⟩ := List.mem_map.mp first
    obtain ⟨g, -, same⟩ := List.mem_map.mp second
    exact different (injective inM inN (congrArg Bdf.devno same).symm)

theorem nodup_buses (secondary subordinate : UInt8) : (buses secondary subordinate).Nodup := by
  refine List.Nodup.map_on (fun m inM n inN same => ?_) List.nodup_range'
  rw [List.mem_range'_1] at inM inN
  have bound := subordinate.toNat_lt
  have equal := congrArg UInt8.toNat same
  rw [UInt8.toNat_ofNat_of_lt' (by simp [UInt8.size]; omega), UInt8.toNat_ofNat_of_lt' (by simp [UInt8.size]; omega)] at equal
  exact equal

theorem nodup_allAddresses (domain : BitVec 32) (secondary subordinate : UInt8) :
    ((buses secondary subordinate).flatMap (addresses domain 32)).Nodup := by
  rw [List.nodup_flatMap]
  refine ⟨fun bus _ => nodup_addresses domain bus, (nodup_buses secondary subordinate).imp ?_⟩
  intro bus other different a first second
  have own := ((mem_addresses (Nat.le_refl 32)).mp first).2.1
  have own' := ((mem_addresses (Nat.le_refl 32)).mp second).2.1
  exact different (own.symm.trans own')

theorem map_bdf_flatDevices (functions : Functions) (domain : BitVec 32) (secondary subordinate : UInt8) :
    (flatDevices functions domain secondary subordinate).map PciDev.bdf =
      ((buses secondary subordinate).flatMap (addresses domain 32)).filter (fun a => (functions.found a).isSome) := by
  rw [flatDevices]
  induction (buses secondary subordinate).flatMap (addresses domain 32) with
  | nil => rfl
  | cons a l ih =>
      cases there : functions.found a with
      | none =>
          rw [List.filterMap_cons_none there, ih, List.filter_cons_of_neg (by rw [there]; exact Bool.false_ne_true)]
      | some dev =>
          rw [List.filterMap_cons_some there, List.map_cons, ih, functions.own there,
            List.filter_cons_of_pos (by rw [there]; rfl)]

/-- Each function of the range is found once. -/
theorem count_flatDevices {a : Bdf} {dev : PciDev} (within : InRange domain secondary subordinate a)
    (there : functions.found a = some dev) :
    ((flatDevices functions domain secondary subordinate).map PciDev.bdf).count a = 1 := by
  obtain ⟨inBuses, member⟩ := inRange_iff.mp within
  rw [map_bdf_flatDevices]
  refine List.count_eq_one_of_mem ((nodup_allAddresses domain secondary subordinate).filter _) ?_
  exact List.mem_filter.mpr ⟨List.mem_flatMap.mpr ⟨a.busno, inBuses, member⟩, by rw [there]; rfl⟩

/-- In a nested range no bridge is descended to. -/
theorem Nested.not_deeper (nested : Nested functions domain secondary subordinate) {a : Bdf} {dev : PciDev}
    (within : InRange domain secondary subordinate a) (there : functions.found a = some dev) :
    ¬ (secondary < dev.secondaryBusNumber ∧ subordinate < dev.subordinateBusNumber) := by
  rintro ⟨deeper, higher⟩
  by_cases type1 : dev.headerType = 1
  · have inside := (nested.inside a dev ⟨within, there, type1⟩).2.2
    rw [UInt8.lt_iff_toNat_lt] at higher
    rw [UInt8.le_iff_toNat_le] at inside
    omega
  · have none : dev.secondaryBusNumber = 0 := by
      rw [PciDev.secondaryBusNumber, functions.noBridge there type1]
      rfl
    rw [none] at deeper
    exact Nat.not_lt_zero _ (UInt8.lt_iff_toNat_lt.mp deeper)

theorem probeChild_nested (nested : Nested functions domain secondary subordinate)
    (recurse : UInt8 → UInt8 → Option (List (UInt8 × List PciNode))) {a : Bdf}
    (within : InRange domain secondary subordinate a) :
    probeChild functions secondary subordinate recurse a = some ((functions.found a).toList.map leaf) := by
  rw [probeChild]
  cases there : functions.found a with
  | none => rfl
  | some dev => exact if_neg (nested.not_deeper within there)

theorem flatMap_toList {α β : Type} (f : α → Option β) (l : List α) : (l.flatMap fun a => (f a).toList) = l.filterMap f := by
  induction l with
  | nil => rfl
  | cons a l ih =>
      rw [List.flatMap_cons, ih]
      cases there : f a with
      | none => rw [List.filterMap_cons_none there]; rfl
      | some b => rw [List.filterMap_cons_some there]; rfl

/-- The tree of a nested range is flat. -/
theorem probeDeviceRange_nested (nested : Nested functions domain secondary subordinate) {fuel : Nat}
    {visits : List (UInt8 × List PciNode)}
    (ran : probeDeviceRange functions domain fuel secondary subordinate = some visits) :
    visits.flatMap Prod.snd = (flatDevices functions domain secondary subordinate).map leaf := by
  cases fuel with
  | zero => cases ran
  | succ fuel =>
      have top := (busLoop_visits ran).1
      have enough := busLoop_enough ran
      have visited : ∀ b ∈ buses secondary subordinate,
          visitFunctions (probeChild functions secondary subordinate (probeDeviceRange functions domain fuel))
            (addresses domain 32 b) = some ((addresses domain 32 b).flatMap fun a => (functions.found a).toList.map leaf) := by
        intro b inBuses
        refine visitFunctions_some (fun a member => probeChild_nested nested _ ?_)
        have own := ((mem_addresses (Nat.le_refl 32)).mp member).2.1
        rw [inRange_iff, own]
        exact ⟨inBuses, member⟩
      rw [probeDeviceRange, busLoop_some top visited enough] at ran
      rw [← Option.some.inj ran, List.flatMap_map, flatDevices, ← flatMap_toList, List.flatMap_assoc, List.map_flatMap]
      refine List.flatMap_congr (fun b _ => ?_)
      rw [List.map_flatMap]

/-- The scan of a nested range ends. -/
theorem exists_visits (nested : Nested functions domain secondary subordinate) (top : subordinate ≠ 255) :
    ∃ fuel visits, probeDeviceRange functions domain fuel secondary subordinate = some visits := by
  refine ⟨_, probeDeviceRange_some (Nat.le_add_left 256 secondary.toNat) (fun range reached => ?_)⟩
  rcases Relation.ReflTransGen.cases_head reached with same | ⟨next, ⟨a, dev, within, there, deeper, -⟩, -⟩
  · rw [← same]
    exact top
  · exact absurd deeper (nested.not_deeper within there)

theorem once_flat (a : Bdf) (dev : PciDev) (within : InRange domain secondary subordinate a)
    (there : functions.found a = some dev) :
    ((devices ((flatDevices functions domain secondary subordinate).map leaf)).map PciDev.bdf).count a = 1 := by
  rw [devices_leaves]
  exact count_flatDevices within there

/-- In a flat tree nothing is behind anything. -/
theorem not_descendant_flat {devs : List PciDev} {row : Nat × PciNode} (member : row ∈ buildPciTree 0 (devs.map leaf))
    (dev : PciDev) : dev ∉ devices row.2.children := by
  rw [buildPciTree_leaves] at member
  obtain ⟨other, -, rfl⟩ := List.mem_map.mp member
  exact List.not_mem_nil

/-- The tree is right exactly when there is nothing behind the bridges: all functions are in it once, and all on
the first level. -/
theorem treeCorrect_iff (nested : Nested functions domain secondary subordinate) (top : subordinate ≠ 255) :
    (∃ fuel visits, probeDeviceRange functions domain fuel secondary subordinate = some visits ∧
      TreeCorrect functions domain secondary subordinate (visits.flatMap Prod.snd)) ↔
      ∀ a bridge b dev, IsBridge functions domain secondary subordinate a bridge →
        ¬ Behind functions domain bridge b dev := by
  constructor
  · rintro ⟨fuel, visits, ran, correct⟩ a bridge b dev isBridge behind
    rw [probeDeviceRange_nested nested ran] at correct
    obtain ⟨row, member, -, inside⟩ := correct.descendants a bridge b dev isBridge behind
    exact not_descendant_flat member dev inside
  · intro nothing
    obtain ⟨fuel, visits, ran⟩ := exists_visits nested top
    refine ⟨fuel, visits, ran, ?_⟩
    rw [probeDeviceRange_nested nested ran]
    exact ⟨once_flat, fun a bridge b dev isBridge behind => absurd behind (nothing a bridge b dev isBridge)⟩

end Tree

/-! ## A bridge with a device behind it -/

/-- A bridge on bus 0 to bus 1. -/
def bridgeDev : PciDev := { exist := true, bdf := ⟨0, 0, 1, 0⟩, headerType := 1, offset18 := 0x00010100 }

def behindDev : PciDev := { exist := true, bdf := ⟨0, 1, 0, 0⟩ }

/-- The bridge, and what is behind it. -/
def bridged (behind : Option PciDev) (own : ∀ p ∈ behind, p = behindDev) : Functions where
  found := fun a => if a = bridgeDev.bdf then some bridgeDev else if a = behindDev.bdf then behind else none
  own := by
    intro a p found
    split at found
    · rename_i same
      rw [← Option.some.inj found, same]
    split at found
    · rename_i same
      rw [own p found, same]
    · cases found
  noBridge := by
    intro a p found other
    split at found
    · rw [← Option.some.inj found] at other
      exact absurd rfl other
    split at found
    · rw [own p found]
      rfl
    · cases found

section Bridged

variable {behind : Option PciDev} {own : ∀ p ∈ behind, p = behindDev} {secondary subordinate : UInt8}

theorem isBridge_bridged {a : Bdf} {p : PciDev} (isBridge : IsBridge (bridged behind own) 0 secondary subordinate a p) :
    a = bridgeDev.bdf ∧ p = bridgeDev := by
  have found := isBridge.found
  rw [bridged] at found
  dsimp only at found
  split at found
  · rename_i same
    exact ⟨same, (Option.some.inj found).symm⟩
  split at found
  · have type1 := isBridge.type1
    rw [own p found] at type1
    exact absurd type1 (by decide)
  · cases found

theorem nested_bridged : Nested (bridged behind own) 0 0 1 where
  inside := by
    intro a p isBridge
    obtain ⟨rfl, rfl⟩ := isBridge_bridged isBridge
    decide
  within := by
    intro a p b inner isBridge isInner
    obtain ⟨rfl, rfl⟩ := isBridge_bridged isBridge
    obtain ⟨rfl, rfl⟩ := isBridge_bridged isInner
    decide
  disjoint := by
    intro a p b other isBridge isOther _ different
    rw [(isBridge_bridged isBridge).1, (isBridge_bridged isOther).1] at different
    exact absurd rfl different

/-- Where nothing is behind the bridge the tree is right. -/
theorem treeCorrect_iff_bridge :
    ∃ fuel visits, probeDeviceRange (bridged none (fun _ none => by cases none)) 0 fuel 0 1 = some visits ∧
      TreeCorrect (bridged none (fun _ none => by cases none)) 0 0 1 (visits.flatMap Prod.snd) := by
  refine (treeCorrect_iff nested_bridged (by decide)).mpr ?_
  rintro a bridge b dev isBridge ⟨within, found⟩
  obtain ⟨-, rfl⟩ := isBridge_bridged isBridge
  have other : b ≠ bridgeDev.bdf := by
    rintro rfl
    exact absurd within.low (by decide)
  rw [bridged] at found
  dsimp only at found
  rw [if_neg other, ite_self] at found
  cases found

/-- The device behind the bridge is found, but not as a descendant of the bridge. -/
theorem tree_flattened : Nested (bridged (some behindDev) (fun _ same => (Option.mem_some.mp same).symm)) 0 0 1 ∧
    ¬ ∃ fuel visits,
      probeDeviceRange (bridged (some behindDev) (fun _ same => (Option.mem_some.mp same).symm)) 0 fuel 0 1 = some visits ∧
        TreeCorrect (bridged (some behindDev) (fun _ same => (Option.mem_some.mp same).symm)) 0 0 1
          (visits.flatMap Prod.snd) := by
  refine ⟨nested_bridged, ?_⟩
  rintro ⟨fuel, visits, ran, correct⟩
  rw [probeDeviceRange_nested nested_bridged ran] at correct
  obtain ⟨row, member, -, inside⟩ := correct.descendants ⟨0, 0, 1, 0⟩ bridgeDev ⟨0, 1, 0, 0⟩ behindDev
    ⟨⟨rfl, by decide, by decide, by decide, by decide⟩, rfl, rfl⟩
    ⟨⟨rfl, by decide, by decide, by decide, by decide⟩, rfl⟩
  exact not_descendant_flat member behindDev inside

end Bridged

end Pcm.Pci

import Mathlib.Data.List.Nodup
import Mathlib.Data.List.Range
import Mathlib.Logic.Relation
import Pcm.PciProbe

/-!
# Scanning PCI buses

The topology of the IIO stacks is found by scanning ranges of buses: `probeDeviceRange`
(`pcm-iio-topology.cpp:1613-1632`), which scans the range behind a bridge as well, and loops of the platform
mappings over the range of a root port (`pcm-iio-topology.cpp:244`, `:415`, `:460`, `:591`, `:631`, `:987`,
`:1214`, `:1235` and `:1465`). The loops count with an 8-bit bus number.
-/

namespace Pcm.Pci

def PciDev.secondaryBusNumber (p : PciDev) : UInt8 := .ofBitVec (p.offset18.extractLsb' 8 8)

def PciDev.subordinateBusNumber (p : PciDev) : UInt8 := .ofBitVec (p.offset18.extractLsb' 16 8)

/-- What `probe_pci` finds at the addresses: the bus numbers are read from bridges only. -/
structure Functions where
  found : Bdf → Option PciDev
  own : ∀ {a : Bdf} {p : PciDev}, found a = some p → p.bdf = a
  noBridge : ∀ {a : Bdf} {p : PciDev}, found a = some p → p.headerType ≠ 1 → p.offset18 = 0

/-- `struct pci` with its `child_pci_devs`. -/
inductive PciNode
  | mk (dev : PciDev) (children : List PciNode)

namespace PciNode

def dev : PciNode → PciDev
  | mk dev _ => dev

def children : PciNode → List PciNode
  | mk _ children => children

end PciNode

/-! ## The loops -/

section Loops

variable {T : Type}

/-- `for (uint8_t bus = secondary; bus <= subordinate; bus++)`, for at most so many iterations: the buses that
are visited, and what is found on them. -/
def busLoop (visit : UInt8 → Option (List T)) (subordinate : UInt8) : Nat → UInt8 → Option (List (UInt8 × List T))
  | 0, _ => none
  | fuel + 1, bus =>
      if bus ≤ subordinate then do
        let found ← visit bus
        let rest ← busLoop visit subordinate fuel (bus + 1)
        return (bus, found) :: rest
      else some []

/-- The two loops over the devices and functions of a bus. -/
def visitFunctions (visit : Bdf → Option (List T)) : List Bdf → Option (List T)
  | [] => some []
  | a :: rest => do
      let here ← visit a
      let others ← visitFunctions visit rest
      return here ++ others

end Loops

/-- The functions of the first devices of a bus. -/
def addresses (domain : BitVec 32) (devices : Nat) (bus : UInt8) : List Bdf :=
  (List.range devices).flatMap fun device => (List.range 8).map fun function =>
    ⟨domain, bus, .ofNat device, .ofNat function⟩

/-- A loop of a platform mapping over the buses behind a root port; all but two of them look at 32 devices of
each bus. -/
def scanBuses (functions : Functions) (domain : BitVec 32) (devices : Nat) (secondary subordinate : UInt8)
    (fuel : Nat) : Option (List (UInt8 × List PciDev)) :=
  busLoop (fun bus => some ((addresses domain devices bus).filterMap functions.found)) subordinate fuel secondary

/-- The body of the loops of `probeDeviceRange`, with the recursive call. -/
def probeChild (functions : Functions) (secondary subordinate : UInt8)
    (recurse : UInt8 → UInt8 → Option (List (UInt8 × List PciNode))) (a : Bdf) : Option (List PciNode) :=
  match functions.found a with
  | none => some []
  | some dev =>
      if secondary < dev.secondaryBusNumber ∧ subordinate < dev.subordinateBusNumber then
        (recurse dev.secondaryBusNumber dev.subordinateBusNumber).map
          fun visits => [.mk dev (visits.flatMap Prod.snd)]
      else some [.mk dev []]

/-- `probeDeviceRange`, for at most so many levels and iterations: the buses of the range that are visited, and
the devices found on them. -/
def probeDeviceRange (functions : Functions) (domain : BitVec 32) :
    Nat → UInt8 → UInt8 → Option (List (UInt8 × List PciNode))
  | 0, _, _ => none
  | fuel + 1, secondary, subordinate =>
      busLoop (fun bus => visitFunctions
          (probeChild functions secondary subordinate (probeDeviceRange functions domain fuel)) (addresses domain 32 bus))
        subordinate (fuel + 1) secondary

/-- The loop over the buses from a root bus on, up to one that has the device that is looked for
(`pcm-iio-topology.cpp:1178-1196`): the buses that are visited. -/
def rootLoop (wanted : UInt8 → Bool) : Nat → UInt8 → Option (List UInt8)
  | 0, _ => none
  | fuel + 1, bus =>
      if bus < 255 then
        if wanted bus then some [bus] else (rootLoop wanted fuel (bus + 1)).map (bus :: ·)
      else some []

/-- The buses of a range, in their order. -/
def buses (secondary subordinate : UInt8) : List UInt8 :=
  (List.range' secondary.toNat (subordinate.toNat + 1 - secondary.toNat)).map .ofNat

/-! ## One loop -/

section OneLoop

variable {T : Type} {visit : UInt8 → Option (List T)} {bus subordinate : UInt8} {fuel : Nat}

theorem toNat_succ (low : bus ≤ subordinate) (top : subordinate ≠ 255) : (bus + 1).toNat = bus.toNat + 1 := by
  have le : bus.toNat ≤ subordinate.toNat := UInt8.le_iff_toNat_le.mp low
  have bound : subordinate.toNat < 255 := by
    refine Nat.lt_of_le_of_ne (Nat.le_of_lt_succ subordinate.toNat_lt) (fun same => top ?_)
    exact UInt8.toNat_inj.mp same
  rw [UInt8.toNat_add]
  exact Nat.mod_eq_of_lt (by simp; omega)

theorem buses_cons (low : bus ≤ subordinate) (top : subordinate ≠ 255) :
    buses bus subordinate = bus :: buses (bus + 1) subordinate := by
  have le : bus.toNat ≤ subordinate.toNat := UInt8.le_iff_toNat_le.mp low
  have count : subordinate.toNat + 1 - bus.toNat = (subordinate.toNat + 1 - (bus.toNat + 1)) + 1 := by omega
  rw [buses, buses, toNat_succ low top, count, List.range'_succ, List.map_cons, UInt8.ofNat_toNat]

theorem buses_nil (high : ¬ bus ≤ subordinate) : buses bus subordinate = [] := by
  have lt : subordinate.toNat < bus.toNat := by
    rw [UInt8.le_iff_toNat_le] at high
    exact Nat.not_le.mp high
  rw [buses, show subordinate.toNat + 1 - bus.toNat = 0 by omega]
  rfl

theorem mem_buses {b : UInt8} : b ∈ buses bus subordinate ↔ bus ≤ b ∧ b ≤ subordinate := by
  rw [buses, List.mem_map]
  simp only [List.mem_range'_1, UInt8.le_iff_toNat_le]
  constructor
  · rintro ⟨n, ⟨low, high⟩, rfl⟩
    have small : n < 256 := by
      have := subordinate.toNat_lt
      omega
    rw [UInt8.toNat_ofNat_of_lt' small]
    omega
  · rintro ⟨low, high⟩
    exact ⟨b.toNat, by omega, UInt8.ofNat_toNat⟩

/-- No bus number is above the largest one. -/
theorem busLoop_top (visit : UInt8 → Option (List T)) (fuel : Nat) (bus : UInt8) : busLoop visit 255 fuel bus = none := by
  induction fuel generalizing bus with
  | zero => rfl
  | succ fuel ih =>
      have low : bus ≤ 255 := UInt8.le_iff_toNat_le.mpr (Nat.le_of_lt_succ bus.toNat_lt)
      rw [busLoop, if_pos low, ih]
      cases visit bus with
      | none => rfl
      | some found => rfl

theorem busLoop_visits {visits : List (UInt8 × List T)} (ran : busLoop visit subordinate fuel bus = some visits) :
    subordinate ≠ 255 ∧ visits.map Prod.fst = buses bus subordinate ∧ ∀ b ∈ buses bus subordinate, (visit b).isSome := by
  have top : subordinate ≠ 255 := by
    rintro rfl
    rw [busLoop_top] at ran
    cases ran
  refine ⟨top, ?_⟩
  induction fuel generalizing bus visits with
  | zero => cases ran
  | succ fuel ih =>
      rw [busLoop] at ran
      by_cases low : bus ≤ subordinate
      · rw [if_pos low] at ran
        cases here : visit bus with
        | none =>
            rw [here] at ran
            cases ran
        | some found =>
            cases later : busLoop visit subordinate fuel (bus + 1) with
            | none =>
                rw [here, later] at ran
                cases ran
            | some rest =>
                rw [here, later] at ran
                cases ran
                obtain ⟨same, all⟩ := ih later
                rw [buses_cons low top, List.map_cons, same]
                exact ⟨rfl, List.forall_mem_cons.mpr ⟨by rw [here]; rfl, all⟩⟩
      · rw [if_neg low] at ran
        cases ran
        rw [buses_nil low]
        exact ⟨rfl, fun b member => absurd member List.not_mem_nil⟩

theorem busLoop_enough {visits : List (UInt8 × List T)} (ran : busLoop visit subordinate fuel bus = some visits) :
    (buses bus subordinate).length < fuel := by
  have top := (busLoop_visits ran).1
  induction fuel generalizing bus visits with
  | zero => cases ran
  | succ fuel ih =>
      by_cases low : bus ≤ subordinate
      · rw [busLoop, if_pos low] at ran
        cases here : visit bus with
        | none =>
            rw [here] at ran
            cases ran
        | some found =>
            cases later : busLoop visit subordinate fuel (bus + 1) with
            | none =>
                rw [here, later] at ran
                cases ran
            | some rest =>
                rw [buses_cons low top, List.length_cons]
                exact Nat.succ_lt_succ (ih later)
      · rw [buses_nil low]
        exact Nat.succ_pos fuel

theorem length_buses (bus subordinate : UInt8) : (buses bus subordinate).length ≤ 256 := by
  have := subordinate.toNat_lt
  rw [buses, List.length_map, List.length_range']
  omega

theorem busLoop_some {found : UInt8 → List T} (top : subordinate ≠ 255)
    (visited : ∀ b ∈ buses bus subordinate, visit b = some (found b))
    (enough : (buses bus subordinate).length < fuel) :
    busLoop visit subordinate fuel bus = some ((buses bus subordinate).map fun b => (b, found b)) := by
  induction fuel generalizing bus with
  | zero => exact absurd enough (Nat.not_lt_zero _)
  | succ fuel ih =>
      rw [busLoop]
      by_cases low : bus ≤ subordinate
      · rw [buses_cons low top] at visited enough ⊢
        rw [if_pos low, visited bus List.mem_cons_self,
          ih (fun b member => visited b (List.mem_cons_of_mem bus member)) (Nat.lt_of_succ_lt_succ enough)]
        rfl
      · rw [if_neg low, buses_nil low]
        rfl

theorem visitFunctions_some {visit : Bdf → Option (List T)} {found : Bdf → List T} {l : List Bdf}
    (visited : ∀ a ∈ l, visit a = some (found a)) : visitFunctions visit l = some (l.flatMap found) := by
  induction l with
  | nil => rfl
  | cons a l ih =>
      rw [visitFunctions, visited a List.mem_cons_self, ih (fun b member => visited b (List.mem_cons_of_mem a member))]
      rfl

end OneLoop

/-! ## Termination -/

section Termination

variable {functions : Functions} {domain : BitVec 32} {secondary subordinate : UInt8}

/-- The address is that of a function on a bus of the range. -/
structure InRange (domain : BitVec 32) (secondary subordinate : UInt8) (a : Bdf) : Prop where
  domain : a.domainno = domain
  low : secondary ≤ a.busno
  high : a.busno ≤ subordinate
  device : a.devno < 32
  function : a.funcno < 8

/-- While this range is scanned, that of a bridge found in it is scanned as well. -/
def Descends (functions : Functions) (domain : BitVec 32) (range next : UInt8 × UInt8) : Prop :=
  ∃ a dev, InRange domain range.1 range.2 a ∧ functions.found a = some dev ∧
    (range.1 < dev.secondaryBusNumber ∧ range.2 < dev.subordinateBusNumber) ∧
    next = (dev.secondaryBusNumber, dev.subordinateBusNumber)

theorem mem_addresses {a : Bdf} {bus : UInt8} {devices : Nat} (fits : devices ≤ 32) :
    a ∈ addresses domain devices bus ↔
      a.domainno = domain ∧ a.busno = bus ∧ a.devno.toNat < devices ∧ a.funcno < 8 := by
  rw [addresses, List.mem_flatMap]
  simp only [List.mem_map, List.mem_range]
  constructor
  · rintro ⟨device, lowDevice, function, lowFunction, rfl⟩
    refine ⟨rfl, rfl, ?_, ?_⟩
    · have small : device < UInt8.size := Nat.lt_of_lt_of_le lowDevice (Nat.le_trans fits (by decide))
      rw [UInt8.toNat_ofNat_of_lt' small]
      exact lowDevice
    · have small : function < UInt8.size := Nat.lt_trans lowFunction (by decide)
      rw [UInt8.lt_iff_toNat_lt, UInt8.toNat_ofNat_of_lt' small]
      exact lowFunction
  · rintro ⟨rfl, rfl, lowDevice, lowFunction⟩
    refine ⟨a.devno.toNat, lowDevice, a.funcno.toNat, UInt8.lt_iff_toNat_lt.mp lowFunction, ?_⟩
    rw [UInt8.ofNat_toNat, UInt8.ofNat_toNat]

theorem inRange_iff {a : Bdf} : InRange domain secondary subordinate a ↔
    a.busno ∈ buses secondary subordinate ∧ a ∈ addresses domain 32 a.busno := by
  rw [mem_buses, mem_addresses (Nat.le_refl 32)]
  constructor
  · rintro ⟨own, low, high, device, function⟩
    exact ⟨⟨low, high⟩, own, rfl, UInt8.lt_iff_toNat_lt.mp device, function⟩
  · rintro ⟨⟨low, high⟩, own, -, device, function⟩
    exact ⟨own, low, high, UInt8.lt_iff_toNat_lt.mpr device, function⟩

/-- Each loop ends having visited each bus of its range once: those of the platform mappings, and that of
`probeDeviceRange` for the range and for all those it descends to; the loop from a root bus on may end early. -/
structure ScansEnd (functions : Functions) (domain : BitVec 32) (secondary subordinate : UInt8) : Prop where
  mappings : ∀ devices, ∃ fuel visits, scanBuses functions domain devices secondary subordinate fuel = some visits ∧
    visits.map Prod.fst = buses secondary subordinate
  ranges : ∀ range, Relation.ReflTransGen (Descends functions domain) (secondary, subordinate) range →
    ∃ fuel visits, probeDeviceRange functions domain fuel range.1 range.2 = some visits ∧
      visits.map Prod.fst = buses range.1 range.2
  roots : ∀ wanted, ∃ fuel visits, rootLoop wanted fuel secondary = some visits ∧ visits <+: buses secondary 254

theorem rootLoop_some {wanted : UInt8 → Bool} {n : Nat} {bus : UInt8} (left : 255 ≤ bus.toNat + n) :
    ∃ visits, rootLoop wanted (n + 1) bus = some visits ∧ visits <+: buses bus 254 := by
  induction n generalizing bus with
  | zero =>
      have high : ¬ bus < 255 := by
        rw [UInt8.lt_iff_toNat_lt]
        exact Nat.not_lt.mpr left
      exact ⟨[], if_neg high, List.nil_prefix⟩
  | succ n ih =>
      rw [rootLoop]
      by_cases below : bus < 255
      · have low : bus ≤ 254 := UInt8.le_iff_toNat_le.mpr (Nat.le_of_lt_succ (UInt8.lt_iff_toNat_lt.mp below))
        have top : (254 : UInt8) ≠ 255 := by decide
        rw [if_pos below, buses_cons low top]
        cases found : wanted bus with
        | true => exact ⟨[bus], rfl, List.prefix_cons_inj bus |>.mpr List.nil_prefix⟩
        | false =>
            obtain ⟨visits, ran, front⟩ := ih (by rw [toNat_succ low top]; omega)
            refine ⟨bus :: visits, ?_, (List.prefix_cons_inj bus).mpr front⟩
            rw [ran]
            rfl
      · exact ⟨[], if_neg below, List.nil_prefix⟩

theorem probeDeviceRange_visits {fuel : Nat} {visits : List (UInt8 × List PciNode)}
    (ran : probeDeviceRange functions domain fuel secondary subordinate = some visits) :
    subordinate ≠ 255 ∧ visits.map Prod.fst = buses secondary subordinate := by
  cases fuel with
  | zero => cases ran
  | succ fuel =>
      obtain ⟨top, same, -⟩ := busLoop_visits ran
      exact ⟨top, same⟩

theorem exists_of_forall_isSome {α β : Type} {visit : α → Option (List β)} {l : List α}
    (all : ∀ a ∈ l, (visit a).isSome) : ∃ found : α → List β, ∀ a ∈ l, visit a = some (found a) := by
  refine ⟨fun a => (visit a).getD [], fun a member => ?_⟩
  obtain ⟨found, same⟩ := Option.isSome_iff_exists.mp (all a member)
  dsimp only
  rw [same, Option.getD_some]

theorem busLoop_isSome {T : Type} {visit : UInt8 → Option (List T)} {fuel : Nat} (top : subordinate ≠ 255)
    (all : ∀ b ∈ buses secondary subordinate, (visit b).isSome) (enough : 256 < fuel) :
    ∃ visits, busLoop visit subordinate fuel secondary = some visits := by
  obtain ⟨found, visited⟩ := exists_of_forall_isSome all
  exact ⟨_, busLoop_some top visited (Nat.lt_of_le_of_lt (length_buses secondary subordinate) enough)⟩

/-- Enough levels and iterations, when none of the ranges reaches the largest bus number. -/
theorem probeDeviceRange_some {n : Nat} {secondary subordinate : UInt8} (left : 256 ≤ secondary.toNat + n)
    (low : ∀ range, Relation.ReflTransGen (Descends functions domain) (secondary, subordinate) range → range.2 ≠ 255) :
    ∃ visits, probeDeviceRange functions domain (n + 257) secondary subordinate = some visits := by
  induction n generalizing secondary subordinate with
  | zero =>
      have := secondary.toNat_lt
      omega
  | succ n ih =>
      rw [show n + 1 + 257 = (n + 257) + 1 by omega, probeDeviceRange]
      refine busLoop_isSome (low _ .refl) (fun b inBuses => ?_) (by omega)
      suffices ∀ a ∈ addresses domain 32 b, (probeChild functions secondary subordinate
          (probeDeviceRange functions domain (n + 257)) a).isSome by
        obtain ⟨found, visited⟩ := exists_of_forall_isSome this
        rw [visitFunctions_some visited]
        rfl
      intro a member
      have within : InRange domain secondary subordinate a := by
        have own := ((mem_addresses (Nat.le_refl 32)).mp member).2.1
        rw [inRange_iff, own]
        exact ⟨inBuses, member⟩
      rw [probeChild]
      cases there : functions.found a with
      | none => rfl
      | some dev =>
          dsimp only
          split
          · rename_i deeper
            -- The range behind the bridge begins at a larger bus number, which bounds the depth.
            have next : Descends functions domain (secondary, subordinate)
                (dev.secondaryBusNumber, dev.subordinateBusNumber) := ⟨a, dev, within, there, deeper, rfl⟩
            have larger := UInt8.lt_iff_toNat_lt.mp deeper.1
            obtain ⟨visits, ran⟩ := ih (by omega) (fun range reached => low range (.head next reached))
            rw [ran]
            rfl
          · rfl

/-- The scans end exactly when neither the range nor one that `probeDeviceRange` descends to reaches bus 255. -/
theorem scansEnd_iff (functions : Functions) (domain : BitVec 32) (secondary subordinate : UInt8) :
    ScansEnd functions domain secondary subordinate ↔
      ∀ range, Relation.ReflTransGen (Descends functions domain) (secondary, subordinate) range → range.2 ≠ 255 := by
  constructor
  · intro ends range reached
    obtain ⟨fuel, visits, ran, -⟩ := ends.ranges range reached
    exact (probeDeviceRange_visits ran).1
  · intro low
    constructor
    · intro devices
      obtain ⟨visits, ran⟩ := busLoop_isSome (low _ .refl)
        (fun b _ => (rfl : (some ((addresses domain devices b).filterMap functions.found)).isSome = true))
        (Nat.lt_succ_self 256)
      exact ⟨257, visits, ran, (busLoop_visits ran).2.1⟩
    · intro range reached
      obtain ⟨visits, ran⟩ := probeDeviceRange_some (Nat.le_add_left 256 range.1.toNat)
        (fun next later => low next (reached.trans later))
      exact ⟨_, visits, ran, (probeDeviceRange_visits ran).2⟩
    · intro wanted
      obtain ⟨visits, ran, front⟩ := @rootLoop_some wanted 255 secondary (Nat.le_add_left 255 secondary.toNat)
      exact ⟨256, visits, ran, front⟩

/-- There are no devices at all. -/
def noFunctions : Functions where
  found := fun _ => none
  own := fun found => by cases found
  noBridge := fun found => by cases found

/-- The loops over the buses up to 255 do not end, even when nothing is there. -/
theorem scans_endless : ¬ ScansEnd noFunctions 0 0 255 := by
  intro ends
  obtain ⟨fuel, visits, ran, -⟩ := ends.mappings 32
  rw [scanBuses, busLoop_top] at ran
  cases ran

end Termination

end Pcm.Pci

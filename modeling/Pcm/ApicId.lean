import Pcm.Bits
import Pcm.Topology
import Mathlib.Algebra.BigOperators.Group.List.Basic

/-!
# APIC ids

CPUID leaf 0x1F lists the levels of the system with the bits of the APIC id that tell the units of
each level apart (`cpucounters.cpp:1166-1208`), and `populateEntry` takes the ids of a logical
processor out of its APIC id (`cpucounters.cpp:1212-1267`). The end of a bit range is computed as
the next level's shift less one. On a level of width zero the end is before the begin, and
`extract_bits_32` swaps the two: it returns two bits of the neighbouring levels, or the whole APIC
id where the shift is zero.
-/

namespace Pcm.Topology

/-- `TopologyEntry::DomainTypeID`, which the code casts an 8-bit number to. -/
inductive DomainTypeID
  | invalidDomainTypeID
  | logicalProcessorDomain
  | coreDomain
  | moduleDomain
  | tileDomain
  | dieDomain
  | dieGrpDomain
  | socketPackageDomain
  | other (value : BitVec 32)
  deriving DecidableEq, Repr

namespace DomainTypeID

def ofBits (value : BitVec 32) : DomainTypeID :=
  match value.toNat with
  | 0 => invalidDomainTypeID
  | 1 => logicalProcessorDomain
  | 2 => coreDomain
  | 3 => moduleDomain
  | 4 => tileDomain
  | 5 => dieDomain
  | 6 => dieGrpDomain
  | 0xffff => socketPackageDomain
  | _ => other value

/-- The types 1 to 6, which leaf 0x1F enumerates. -/
def levels : List DomainTypeID :=
  [logicalProcessorDomain, coreDomain, moduleDomain, tileDomain, dieDomain, dieGrpDomain]

end DomainTypeID

/-- `domain`. -/
structure Domain where
  type : DomainTypeID
  levelShift : BitVec 32
  nextLevelShift : BitVec 32
  width : BitVec 32
  deriving DecidableEq, Repr

/-- The registers of a subleaf of CPUID leaf 0x1F. -/
structure Subleaf where
  eax : BitVec 32
  ecx : BitVec 32
  deriving DecidableEq, Repr

def Subleaf.type (r : Subleaf) : DomainTypeID := .ofBits (extractBits32 r.ecx 8 15)

def Subleaf.shift (r : Subleaf) : BitVec 32 := extractBits32 r.eax 0 4

/-- The loop over the subleaves, up to the first of invalid type. -/
def readDomains (levelShift : BitVec 32) : List Subleaf → List Domain
  | [] => []
  | r :: rest =>
      if r.type = .invalidDomainTypeID then []
      else
        { type := r.type, levelShift := levelShift, nextLevelShift := r.shift,
          width := r.shift - levelShift } :: readDomains r.shift rest

/-- The domain of the package, from the last level to the end of the APIC id. -/
def packageDomain (levelShift : BitVec 32) : Domain :=
  { type := .socketPackageDomain, levelShift := levelShift, nextLevelShift := 32,
    width := 32 - levelShift }

/-- `topologyDomains` (`cpucounters.cpp:1164-1197`). -/
def topologyDomains (subleaves : List Subleaf) : List Domain :=
  let domains := readDomains 0 subleaves
  match domains.getLast? with
  | none => []
  | some last => domains ++ [packageDomain last.nextLevelShift]

/-- `topologyDomainMap`: of two domains of one type the later one stays. -/
def topologyDomainMap (domains : List Domain) (t : DomainTypeID) : Option Domain :=
  domains.foldl (fun found d => if d.type = t then some d else found) none

/-- `getID` (`cpucounters.cpp:1226-1235`). -/
def getID (domains : List Domain) (apic_id : BitVec 32) (t : DomainTypeID) : BitVec 32 :=
  match topologyDomainMap domains t with
  | some d => extractBits32 apic_id d.levelShift (d.nextLevelShift - 1)
  | none => 0

/-- `socket_unique_core_id` (`cpucounters.cpp:1249-1260`); it throws without a core domain. -/
def socketUniqueCoreID (domains : List Domain) (apic_id : BitVec 32) : Option (BitVec 32) := do
  let d1 ← topologyDomainMap domains .coreDomain
  let d2 ← topologyDomainMap domains .socketPackageDomain
  return extractBits32 apic_id d1.levelShift (d2.levelShift - 1)

/-- What a processor reports about itself in CPUID leaves 0xB and 0x1F. -/
structure ApicIds where
  leafB : BitVec 32
  leaf1F : BitVec 32
  deriving DecidableEq, Repr

/-- `populateEntry` where leaf 0x1F lists levels (`cpucounters.cpp:1224-1261`). -/
def populateEntry (domains : List Domain) (l2CacheMaskShift : BitVec 32) (ids : ApicIds) :
    Option TopologyEntry := do
  let id := fun t => (getID domains ids.leaf1F t).toInt
  let tile_id := extractBits32 ids.leafB l2CacheMaskShift 31
  let socket_unique_core_id ← socketUniqueCoreID domains ids.leaf1F
  return {
    thread_id := id .logicalProcessorDomain
    core_id := id .coreDomain
    module_id := id .moduleDomain
    tile_id := if tile_id = 0 then id .tileDomain else tile_id.toInt
    die_id := id .dieDomain
    die_grp_id := id .dieGrpDomain
    socket_id := id .socketPackageDomain
    socket_unique_core_id := socket_unique_core_id.toInt }

/-! ## Lists of levels -/

/-- Levels of distinct types, the core level among them, with shifts that do not fall. -/
structure Leaf1F where
  subleaves : List Subleaf
  types : ∀ r ∈ subleaves, r.type ∈ DomainTypeID.levels
  distinct : (subleaves.map Subleaf.type).Nodup
  rising : (subleaves.map fun r => r.shift.toNat).Pairwise (· ≤ ·)
  hasCore : .coreDomain ∈ subleaves.map Subleaf.type

namespace Leaf1F

variable (leaf : Leaf1F)

/-- The levels without the package. -/
def levels : List Domain := readDomains 0 leaf.subleaves

/-- The levels and the package. -/
def domains : List Domain := topologyDomains leaf.subleaves

/-- The shift of the last level, where the package begins. -/
def packageShift : Nat := ((leaf.levels.getLast?.map Domain.nextLevelShift).getD 0).toNat

end Leaf1F

namespace Domain

/-- The bits of the level in an APIC id. -/
def field (d : Domain) (a : BitVec 32) : Nat := a.toNat / 2 ^ d.levelShift.toNat % 2 ^ d.width.toNat

/-- What the code reads on a level of width zero is zero, as it should be. -/
def Clear (d : Domain) (a : BitVec 32) : Prop :=
  if d.levelShift.toNat = 0 then a = 0
  else a.toNat / 2 ^ (d.levelShift.toNat - 1) % 4 = 0

end Domain

/-- The ids of an APIC id are its bits: they make it up, other APIC ids have others, and the core
id within the socket has the bits from the core level up to the package. -/
structure Decomposes (leaf : Leaf1F) (a : BitVec 32) : Prop where
  ids : ∀ d ∈ leaf.levels, (getID leaf.domains a d.type).toNat = d.field a
  package : (getID leaf.domains a .socketPackageDomain).toNat = a.toNat / 2 ^ leaf.packageShift
  sum : (leaf.domains.map fun d =>
    (getID leaf.domains a d.type).toNat * 2 ^ d.levelShift.toNat).sum = a.toNat
  differ : ∀ b, b ≠ a → ∃ d ∈ leaf.domains, getID leaf.domains b d.type ≠ getID leaf.domains a d.type
  socketUnique : ∀ core ∈ leaf.levels, core.type = .coreDomain →
    (socketUniqueCoreID leaf.domains a).map BitVec.toNat = some
      (a.toNat / 2 ^ core.levelShift.toNat % 2 ^ (leaf.packageShift - core.levelShift.toNat))

/-! ## Chains of levels -/

/-- Levels that begin at a shift, each where the one before it ends. -/
def Chained (shift : Nat) : List Domain → Prop
  | [] => True
  | d :: rest => d.levelShift.toNat = shift ∧ shift ≤ d.nextLevelShift.toNat ∧
      d.nextLevelShift.toNat ≤ 31 ∧ d.width.toNat = d.nextLevelShift.toNat - shift ∧
      Chained d.nextLevelShift.toNat rest

def lastShift (shift : Nat) : List Domain → Nat
  | [] => shift
  | d :: rest => lastShift d.nextLevelShift.toNat rest

theorem lastShift_eq (shift : BitVec 32) (domains : List Domain) : lastShift shift.toNat domains =
    ((domains.getLast?.map Domain.nextLevelShift).getD shift).toNat := by
  induction domains generalizing shift with
  | nil => rfl
  | cons d rest ih =>
      rw [lastShift, ih, List.getLast?_cons]
      cases rest.getLast? with
      | none => rfl
      | some last => rfl

theorem le_lastShift {shift : Nat} {domains : List Domain} (chain : Chained shift domains) :
    shift ≤ lastShift shift domains ∧
      ∀ d ∈ domains, d.nextLevelShift.toNat ≤ lastShift shift domains := by
  induction domains generalizing shift with
  | nil => exact ⟨le_refl _, by simp⟩
  | cons d rest ih =>
      obtain ⟨-, order, -, -, rest⟩ := chain
      obtain ⟨first, others⟩ := ih rest
      refine ⟨order.trans first, ?_⟩
      intro e mem
      rcases List.mem_cons.mp mem with rfl | mem
      · exact first
      · exact others e mem

theorem lastShift_le {shift : Nat} {domains : List Domain} (chain : Chained shift domains)
    (small : shift ≤ 31) : lastShift shift domains ≤ 31 := by
  induction domains generalizing shift with
  | nil => exact small
  | cons d rest ih => exact ih chain.2.2.2.2 chain.2.2.1

theorem chained_mem {shift : Nat} {domains : List Domain} (chain : Chained shift domains) {d : Domain}
    (mem : d ∈ domains) : d.levelShift.toNat ≤ d.nextLevelShift.toNat ∧
      d.nextLevelShift.toNat ≤ 31 ∧
      d.width.toNat = d.nextLevelShift.toNat - d.levelShift.toNat := by
  induction domains generalizing shift with
  | nil => simp at mem
  | cons e rest ih =>
      obtain ⟨first, order, small, width, rest⟩ := chain
      rcases List.mem_cons.mp mem with rfl | mem
      · rw [first]
        exact ⟨order, small, width⟩
      · exact ih rest mem

/-- The fields of a chain make up the bits between its ends. -/
theorem sum_field {shift : Nat} {domains : List Domain} (chain : Chained shift domains)
    (a : BitVec 32) : (domains.map fun d => d.field a * 2 ^ d.levelShift.toNat).sum +
      a.toNat % 2 ^ shift = a.toNat % 2 ^ lastShift shift domains := by
  induction domains generalizing shift with
  | nil => simp [lastShift]
  | cons d rest ih =>
      obtain ⟨first, order, -, width, rest⟩ := chain
      have next := ih rest
      have peel : a.toNat % 2 ^ d.nextLevelShift.toNat =
          a.toNat % 2 ^ shift + 2 ^ shift * (a.toNat / 2 ^ shift % 2 ^ d.width.toNat) := by
        rw [← Nat.mod_mul, ← Nat.pow_add, width, Nat.add_sub_cancel' order]
      rw [peel] at next
      rw [List.map_cons, List.sum_cons, lastShift, ← next, Domain.field, first, Nat.mul_comm]
      omega

theorem shift_le (r : Subleaf) : r.shift.toNat ≤ 31 := by
  rw [Subleaf.shift, extractBits32_toNat r.eax (by decide) (by decide)]
  have below := Nat.mod_lt (r.eax.toNat / 2 ^ (0 : BitVec 32).toNat)
    (show 0 < 2 ^ ((4 : BitVec 32).toNat - (0 : BitVec 32).toNat + 1) by decide)
  have value : 2 ^ ((4 : BitVec 32).toNat - (0 : BitVec 32).toNat + 1) = 32 := rfl
  omega

theorem chained_readDomains (levelShift : BitVec 32) {subleaves : List Subleaf}
    (rising : ((levelShift.toNat) :: subleaves.map fun r => r.shift.toNat).Pairwise (· ≤ ·)) :
    Chained levelShift.toNat (readDomains levelShift subleaves) := by
  induction subleaves generalizing levelShift with
  | nil => trivial
  | cons r rest ih =>
      rw [List.map_cons, List.pairwise_cons] at rising
      have order : levelShift.toNat ≤ r.shift.toNat := rising.1 _ List.mem_cons_self
      rw [readDomains]
      split
      · trivial
      · exact ⟨rfl, order, shift_le r, BitVec.toNat_sub_of_le (BitVec.le_def.mpr order), ih _ rising.2⟩

theorem map_type_readDomains {levelShift : BitVec 32} {subleaves : List Subleaf}
    (valid : ∀ r ∈ subleaves, r.type ≠ .invalidDomainTypeID) :
    (readDomains levelShift subleaves).map Domain.type = subleaves.map Subleaf.type := by
  induction subleaves generalizing levelShift with
  | nil => rfl
  | cons r rest ih =>
      rw [readDomains, if_neg (valid r List.mem_cons_self), List.map_cons, List.map_cons,
        ih (fun s mem => valid s (List.mem_cons_of_mem _ mem))]

theorem topologyDomainMap_of_mem {domains : List Domain} (distinct : (domains.map Domain.type).Nodup)
    {d : Domain} (mem : d ∈ domains) : topologyDomainMap domains d.type = some d := by
  have keep : ∀ (l : List Domain) (found : Option Domain), (∀ e ∈ l, e.type ≠ d.type) →
      l.foldl (fun found e => if e.type = d.type then some e else found) found = found := by
    intro l
    induction l with
    | nil => exact fun _ _ => rfl
    | cons e l ih =>
        intro found other
        rw [List.foldl_cons, if_neg (other e List.mem_cons_self)]
        exact ih found (fun e mem => other e (List.mem_cons_of_mem _ mem))
  obtain ⟨front, back, rfl⟩ := List.append_of_mem mem
  rw [List.map_append, List.map_cons, List.nodup_middle, List.nodup_cons] at distinct
  have other : ∀ e ∈ back, e.type ≠ d.type := by
    intro e inner same
    exact distinct.1 (List.mem_append_right _ (same ▸ List.mem_map_of_mem inner))
  rw [topologyDomainMap, List.foldl_append, List.foldl_cons, if_pos rfl]
  exact keep back (some d) other

/-! ## The bits that are read -/

theorem extract_wide {lo hi : BitVec 32} (wide : lo.toNat < hi.toNat) (small : hi.toNat ≤ 32)
    (a : BitVec 32) : (extractBits32 a lo (hi - 1)).toNat =
      a.toNat / 2 ^ lo.toNat % 2 ^ (hi.toNat - lo.toNat) := by
  have one : (1 : BitVec 32) ≤ hi := by
    rw [BitVec.le_def, show (1 : BitVec 32).toNat = 1 from rfl]
    omega
  have before : (hi - 1).toNat = hi.toNat - 1 := BitVec.toNat_sub_of_le one
  rw [extractBits32_toNat a (by omega) (by omega), before]
  congr 2
  omega

/-- On an empty range the code reads the two bits around it, or all bits. -/
theorem extract_empty {lo : BitVec 32} (small : lo.toNat ≤ 31) (a : BitVec 32) :
    (extractBits32 a lo (lo - 1)).toNat =
      if lo.toNat = 0 then a.toNat else a.toNat / 2 ^ (lo.toNat - 1) % 4 := by
  split
  · next zero =>
      have same : lo = 0 := BitVec.eq_of_toNat_eq zero
      rw [same, show (0 : BitVec 32) - 1 = -1 from rfl, extractBits32_all]
  · next pos =>
      have one : (1 : BitVec 32) ≤ lo := by
        rw [BitVec.le_def, show (1 : BitVec 32).toNat = 1 from rfl]
        omega
      have before : (lo - 1).toNat = lo.toNat - 1 := BitVec.toNat_sub_of_le one
      rw [extractBits32_comm a (by rw [BitVec.lt_def]; omega),
        extractBits32_toNat a (by omega) (by omega), before,
        show lo.toNat - (lo.toNat - 1) + 1 = 2 by omega]
      rfl

namespace Leaf1F

variable (leaf : Leaf1F)

theorem chained_levels : Chained 0 leaf.levels :=
  chained_readDomains 0 (List.pairwise_cons.mpr ⟨by simp, leaf.rising⟩)

theorem packageShift_eq : leaf.packageShift = lastShift 0 leaf.levels :=
  (lastShift_eq 0 leaf.levels).symm

theorem packageShift_le : leaf.packageShift ≤ 31 := by
  rw [packageShift_eq]
  exact lastShift_le leaf.chained_levels (by decide)

theorem types_levels : leaf.levels.map Domain.type = leaf.subleaves.map Subleaf.type := by
  apply map_type_readDomains
  intro r mem invalid
  have level := leaf.types r mem
  rw [invalid] at level
  simp [DomainTypeID.levels] at level

theorem exists_core : ∃ core ∈ leaf.levels, core.type = .coreDomain := by
  have core := leaf.hasCore
  rw [← types_levels] at core
  exact List.mem_map.mp core

/-- The package as the last domain. -/
def package : Domain := packageDomain ((leaf.levels.getLast?.map Domain.nextLevelShift).getD 0)

theorem package_levelShift : leaf.package.levelShift.toNat = leaf.packageShift := rfl

theorem domains_eq : leaf.domains = leaf.levels ++ [leaf.package] := by
  obtain ⟨core, mem, -⟩ := leaf.exists_core
  unfold domains topologyDomains package
  change (match leaf.levels.getLast? with | none => [] | some last => _) = _
  cases last : leaf.levels.getLast? with
  | none =>
      rw [List.getLast?_eq_none_iff] at last
      rw [last] at mem
      simp at mem
  | some d => rfl

theorem distinct_domains : (leaf.domains.map Domain.type).Nodup := by
  rw [domains_eq, List.map_append, types_levels]
  apply List.Nodup.append leaf.distinct (by simp)
  intro t mem package
  rw [List.map_singleton, List.mem_singleton] at package
  obtain ⟨r, inner, rfl⟩ := List.mem_map.mp mem
  have level := leaf.types r inner
  rw [package] at level
  simp [DomainTypeID.levels, Leaf1F.package, packageDomain] at level

theorem getID_of_mem {d : Domain} (mem : d ∈ leaf.domains) (a : BitVec 32) :
    getID leaf.domains a d.type = extractBits32 a d.levelShift (d.nextLevelShift - 1) := by
  rw [getID, topologyDomainMap_of_mem leaf.distinct_domains mem]

theorem mem_domains {d : Domain} (mem : d ∈ leaf.levels) : d ∈ leaf.domains := by
  rw [domains_eq]
  exact List.mem_append_left _ mem

theorem package_mem : leaf.package ∈ leaf.domains := by
  rw [domains_eq]
  exact List.mem_append_right _ (by simp)

/-- A level with bits of its own is read right. -/
theorem getID_wide {d : Domain} (mem : d ∈ leaf.levels) (wide : d.width.toNat ≠ 0) (a : BitVec 32) :
    (getID leaf.domains a d.type).toNat = d.field a := by
  obtain ⟨order, small, width⟩ := chained_mem leaf.chained_levels mem
  rw [leaf.getID_of_mem (leaf.mem_domains mem), extract_wide (by omega) (by omega), ← width]
  rfl

/-- A level of width zero is read right when the bits read in its place are zero. -/
theorem getID_empty_iff {d : Domain} (mem : d ∈ leaf.levels) (empty : d.width.toNat = 0)
    (a : BitVec 32) : (getID leaf.domains a d.type).toNat = d.field a ↔ d.Clear a := by
  obtain ⟨order, small, width⟩ := chained_mem leaf.chained_levels mem
  have same : d.nextLevelShift = d.levelShift := BitVec.eq_of_toNat_eq (by omega)
  rw [leaf.getID_of_mem (leaf.mem_domains mem), same, extract_empty (by omega), Domain.field, empty,
    Nat.pow_zero, Nat.mod_one, Domain.Clear]
  split
  · exact BitVec.toNat_inj (y := 0)
  · rfl

theorem getID_package (a : BitVec 32) : (getID leaf.domains a .socketPackageDomain).toNat =
    a.toNat / 2 ^ leaf.packageShift := by
  have shift := leaf.package_levelShift
  have small := leaf.packageShift_le
  have read := leaf.getID_of_mem leaf.package_mem a
  have below : a.toNat / 2 ^ leaf.packageShift < 2 ^ (32 - leaf.packageShift) := by
    rw [Nat.div_lt_iff_lt_mul (Nat.two_pow_pos _), ← Nat.pow_add,
      Nat.sub_add_cancel (by omega)]
    exact a.isLt
  have next : leaf.package.nextLevelShift.toNat = 32 := rfl
  rw [show getID leaf.domains a .socketPackageDomain = _ from read,
    extract_wide (by omega) (by omega), next, shift, Nat.mod_eq_of_lt below]

/-- The right ids of an APIC id make it up. -/
theorem sum_fields (a : BitVec 32) : (leaf.levels.map fun d => d.field a * 2 ^ d.levelShift.toNat).sum +
    a.toNat / 2 ^ leaf.packageShift * 2 ^ leaf.packageShift = a.toNat := by
  have sum := sum_field leaf.chained_levels a
  rw [Nat.pow_zero, Nat.mod_one, Nat.add_zero, ← packageShift_eq] at sum
  rw [sum, Nat.mul_comm]
  exact Nat.mod_add_div a.toNat _

/-- Different APIC ids differ in an id, whatever the code reads on the empty levels. -/
theorem exists_getID_ne {a b : BitVec 32} (other : b ≠ a) :
    ∃ d ∈ leaf.domains, getID leaf.domains b d.type ≠ getID leaf.domains a d.type := by
  by_contra all
  push Not at all
  apply other
  apply BitVec.eq_of_toNat_eq
  have package := congrArg BitVec.toNat (all leaf.package leaf.package_mem)
  rw [show leaf.package.type = .socketPackageDomain from rfl, leaf.getID_package,
    leaf.getID_package] at package
  have fields : leaf.levels.map (fun d => d.field b * 2 ^ d.levelShift.toNat) =
      leaf.levels.map (fun d => d.field a * 2 ^ d.levelShift.toNat) := by
    apply List.map_congr_left
    intro d mem
    congr 1
    by_cases empty : d.width.toNat = 0
    · rw [Domain.field, Domain.field, empty, Nat.pow_zero, Nat.mod_one, Nat.mod_one]
    · rw [← leaf.getID_wide mem empty b, ← leaf.getID_wide mem empty a,
        all d (leaf.mem_domains mem)]
  rw [← leaf.sum_fields b, ← leaf.sum_fields a, package, fields]

theorem socketUniqueCoreID_eq {core : Domain} (mem : core ∈ leaf.levels)
    (type : core.type = .coreDomain) (a : BitVec 32) : socketUniqueCoreID leaf.domains a =
      some (extractBits32 a core.levelShift (leaf.package.levelShift - 1)) := by
  have d1 := topologyDomainMap_of_mem leaf.distinct_domains (leaf.mem_domains mem)
  have d2 := topologyDomainMap_of_mem leaf.distinct_domains leaf.package_mem
  rw [type] at d1
  rw [show leaf.package.type = .socketPackageDomain from rfl] at d2
  simp [socketUniqueCoreID, d1, d2]

/-- The core id within the socket is right when there are bits for it, or when the two bits read
instead are zero. -/
theorem socketUnique_of_clear {core : Domain} (mem : core ∈ leaf.levels)
    (type : core.type = .coreDomain) {a : BitVec 32}
    (clear : core.width.toNat = 0 → core.Clear a) :
    (socketUniqueCoreID leaf.domains a).map BitVec.toNat = some
      (a.toNat / 2 ^ core.levelShift.toNat % 2 ^ (leaf.packageShift - core.levelShift.toNat)) := by
  obtain ⟨order, small, width⟩ := chained_mem leaf.chained_levels mem
  have last := (le_lastShift leaf.chained_levels).2 core mem
  rw [← packageShift_eq] at last
  have shift := leaf.package_levelShift
  rw [leaf.socketUniqueCoreID_eq mem type, Option.map_some]
  congr 1
  by_cases empty : core.levelShift.toNat = leaf.packageShift
  · have same : leaf.package.levelShift = core.levelShift := BitVec.eq_of_toNat_eq (by omega)
    have zero := clear (by omega)
    rw [same, extract_empty (by omega), empty, Nat.sub_self, Nat.pow_zero, Nat.mod_one, ← empty]
    rw [Domain.Clear] at zero
    split at zero
    · next first => rw [if_pos first, zero]; rfl
    · next later => rw [if_neg later, zero]
  · rw [extract_wide (by omega) (by have := leaf.packageShift_le; omega), shift]

end Leaf1F

/-- An APIC id is taken apart right exactly when the bits that are read for each empty level are
zero. -/
theorem decomposes_iff (leaf : Leaf1F) (a : BitVec 32) :
    Decomposes leaf a ↔ ∀ d ∈ leaf.levels, d.width.toNat = 0 → d.Clear a := by
  constructor
  · intro parts d mem empty
    exact (leaf.getID_empty_iff mem empty a).mp (parts.ids d mem)
  · intro clear
    have ids : ∀ d ∈ leaf.levels, (getID leaf.domains a d.type).toNat = d.field a := by
      intro d mem
      by_cases empty : d.width.toNat = 0
      · exact (leaf.getID_empty_iff mem empty a).mpr (clear d mem empty)
      · exact leaf.getID_wide mem empty a
    refine ⟨ids, leaf.getID_package a, ?_, fun b => leaf.exists_getID_ne, ?_⟩
    · have levels : leaf.levels.map (fun d =>
          (getID leaf.domains a d.type).toNat * 2 ^ d.levelShift.toNat) =
          leaf.levels.map fun d => d.field a * 2 ^ d.levelShift.toNat :=
        List.map_congr_left fun d mem => by rw [ids d mem]
      have sum := leaf.sum_fields a
      rw [← levels, ← leaf.getID_package, ← leaf.package_levelShift,
        show DomainTypeID.socketPackageDomain = leaf.package.type from rfl] at sum
      conv_lhs => rw [leaf.domains_eq, List.map_append, List.sum_append, ← leaf.domains_eq]
      simpa using sum
    · intro core mem type
      exact leaf.socketUnique_of_clear mem type (clear core mem)

/-! ## One thread per core -/

/-- A thread level of width zero below a core level of four bits. -/
def oneThreadPerCore : Leaf1F where
  subleaves := [⟨0, 0x100⟩, ⟨4, 0x201⟩]
  types := by decide
  distinct := by decide
  rising := by decide
  hasCore := by decide

/-- The thread id of APIC id 5 comes out as 5 instead of 0. -/
theorem oneThreadPerCore_not_decomposes :
    getID oneThreadPerCore.domains 5 .logicalProcessorDomain = 5 ∧
    ¬ Decomposes oneThreadPerCore 5 := by
  have read : getID oneThreadPerCore.domains 5 .logicalProcessorDomain = 5 := by decide
  refine ⟨read, ?_⟩
  intro parts
  have zero := parts.ids ⟨.logicalProcessorDomain, 0, 0, 0⟩ (by decide)
  rw [read] at zero
  revert zero
  decide

end Pcm.Topology

import Pcm.UncoreProgram

/-!
# The uncore units of a machine

The lists in which `PCM` and `ServerUncorePMUs` keep their units (`cpucounters.h:364-375`, `681-686`,
`817-820`). Programming takes links out of `xpiPMUs`; all other lists stay as the constructors leave
them. Different units have different registers, and a link in a list has its unit control register:
both are fields, so that no step can lose them.
-/

namespace Pcm

/-- The lists of a socket. -/
structure ServerUncorePMUs where
  imcPMUs : List UncorePMU := []
  edcPMUs : List UncorePMU := []
  xpiPMUs : List UncorePMU := []
  m3upiPMUs : List UncorePMU := []
  m2mPMUs : List UncorePMU := []
  haPMUs : List UncorePMU := []

inductive UncorePMUID
  | CBO_PMU_ID
  | MDF_PMU_ID
  | PCU_PMU_ID
  | UBOX_PMU_ID
  | PCIE_GEN5x16_PMU_ID
  | PCIE_GEN5x8_PMU_ID
  deriving DecidableEq, Repr

/-- The boxes of a Nehalem-EX or Westmere-EX uncore that have counters, as one core sees them. The
R-Box has two halves with a control register each. -/
structure BecktonPMUs where
  mb0 : UncorePMU
  mb1 : UncorePMU
  bb0 : UncorePMU
  bb1 : UncorePMU
  rLeft : UncorePMU
  rRight : UncorePMU

def BecktonPMUs.boxes (b : BecktonPMUs) : List UncorePMU :=
  [b.mb0, b.mb1, b.bb0, b.bb1, b.rLeft, b.rRight]

/-- All lists. `uncorePMUs` goes through the sockets and dies in order, `iioPMUs` and `irpPMUs` have
a map from stacks for each socket, and the old uncores are those of the online cores. -/
structure UnitLists where
  serverUncorePMUs : List ServerUncorePMUs := []
  uncorePMUs : UncorePMUID → List UncorePMU := fun _ => []
  iioPMUs : List (List (Nat × UncorePMU)) := []
  irpPMUs : List (List (Nat × UncorePMU)) := []
  cxlPMUs : List (UncorePMU × UncorePMU) := []
  nehalemPMUs : List UncorePMU := []
  becktonPMUs : List BecktonPMUs := []

/-- The types of units that a raw configuration can name. -/
inductive PmuType
  | m3upi | xpi | imc | ha | m2m | pcu | ubox | cbo | mdf | irp | iio | cxlcm | cxldp | pciex8 | pciex16
  deriving DecidableEq, Repr

inductive UnitKind
  | named (type : PmuType)
  | edc
  | nehalem
  | beckton
  deriving DecidableEq, Repr

namespace UnitLists

/-- The units of a type. -/
def named (u : UnitLists) : PmuType → List UncorePMU
  | .m3upi => u.serverUncorePMUs.flatMap (·.m3upiPMUs)
  | .xpi => u.serverUncorePMUs.flatMap (·.xpiPMUs)
  | .imc => u.serverUncorePMUs.flatMap (·.imcPMUs)
  | .ha => u.serverUncorePMUs.flatMap (·.haPMUs)
  | .m2m => u.serverUncorePMUs.flatMap (·.m2mPMUs)
  | .pcu => u.uncorePMUs .PCU_PMU_ID
  | .ubox => u.uncorePMUs .UBOX_PMU_ID
  | .cbo => u.uncorePMUs .CBO_PMU_ID
  | .mdf => u.uncorePMUs .MDF_PMU_ID
  | .irp => u.irpPMUs.flatMap (·.map Prod.snd)
  | .iio => u.iioPMUs.flatMap (·.map Prod.snd)
  | .cxlcm => u.cxlPMUs.map Prod.fst
  | .cxldp => u.cxlPMUs.map Prod.snd
  | .pciex8 => u.uncorePMUs .PCIE_GEN5x8_PMU_ID
  | .pciex16 => u.uncorePMUs .PCIE_GEN5x16_PMU_ID

def units (u : UnitLists) : UnitKind → List UncorePMU
  | .named type => u.named type
  | .edc => u.serverUncorePMUs.flatMap (·.edcPMUs)
  | .nehalem => u.nehalemPMUs
  | .beckton => u.becktonPMUs.flatMap (·.boxes)

/-- Another list of links for each socket. -/
def updateXPI (u : UnitLists) (f : List UncorePMU → List UncorePMU) : UnitLists :=
  { u with serverUncorePMUs := u.serverUncorePMUs.map fun s => { s with xpiPMUs := f s.xpiPMUs } }

/-- Only the links change. -/
theorem units_updateXPI (u : UnitLists) (f : List UncorePMU → List UncorePMU) {kind : UnitKind}
    (other : kind ≠ .named .xpi) : (u.updateXPI f).units kind = u.units kind := by
  cases kind with
  | named type =>
      cases type with
      | xpi => exact absurd rfl other
      | _ => simp [units, named, updateXPI, List.flatMap_map]
  | edc => simp [units, updateXPI, List.flatMap_map]
  | nehalem => rfl
  | beckton => rfl

theorem named_updateXPI (u : UnitLists) (f : List UncorePMU → List UncorePMU) :
    (u.updateXPI f).named .xpi = u.serverUncorePMUs.flatMap fun s => f s.xpiPMUs := by
  simp [named, updateXPI, List.flatMap_map]

theorem units_updateXPI_subset (u : UnitLists) {f : List UncorePMU → List UncorePMU}
    (sub : ∀ l, f l ⊆ l) (kind : UnitKind) : (u.updateXPI f).units kind ⊆ u.units kind := by
  by_cases links : kind = .named .xpi
  · subst links
    intro pmu mem
    rw [units, named_updateXPI] at mem
    obtain ⟨s, server, link⟩ := List.mem_flatMap.mp mem
    exact List.mem_flatMap.mpr ⟨s, server, sub _ link⟩
  · rw [units_updateXPI u f links]
    exact fun _ mem => mem

/-- The units that the routine for a type walks through. The routines for IO stacks take the stacks
below a bound (`cpucounters.cpp:10735-10772`, `10693-10702`). -/
def walked (u : UnitLists) (model : CpuModel) : PmuType → List UncorePMU
  | .iio =>
      let stacks_count := match model with
        | .GRR => 3
        | .GNR | .GNR_D | .SRF => 16
        | .SPR | .EMR => 12
        | .ICX => 6
        | .SNOWRIDGE => 5
        | .BDX => 1
        | _ => 6
      u.iioPMUs.flatMap fun stackMap => (List.range stacks_count).filterMap (stackMap.lookup ·)
  | .irp =>
      let getMaxNumOfIIOStacks := (u.iioPMUs.head?.map List.length).getD 0
      u.irpPMUs.flatMap fun stackMap => (List.range getMaxNumOfIIOStacks).filterMap (stackMap.lookup ·)
  | type => u.named type

theorem mem_of_lookup {stackMap : List (Nat × UncorePMU)} {n : Nat} {pmu : UncorePMU}
    (mem : pmu ∈ (List.range n).filterMap (stackMap.lookup ·)) : pmu ∈ stackMap.map Prod.snd := by
  obtain ⟨stack, -, found⟩ := List.mem_filterMap.mp mem
  obtain ⟨l₁, l₂, rfl, -⟩ := List.lookup_eq_some_iff.mp found
  simp

theorem walked_subset (u : UnitLists) (model : CpuModel) (type : PmuType) :
    u.walked model type ⊆ u.named type := by
  intro pmu mem
  cases type with
  | iio =>
      obtain ⟨stackMap, socket, link⟩ := List.mem_flatMap.mp mem
      exact List.mem_flatMap.mpr ⟨stackMap, socket, mem_of_lookup link⟩
  | irp =>
      obtain ⟨stackMap, socket, link⟩ := List.mem_flatMap.mp mem
      exact List.mem_flatMap.mpr ⟨stackMap, socket, mem_of_lookup link⟩
  | _ => exact mem

theorem walked_updateXPI (u : UnitLists) (f : List UncorePMU → List UncorePMU) (model : CpuModel)
    {type : PmuType} (other : type ≠ .xpi) :
    (u.updateXPI f).walked model type = u.walked model type := by
  have same : (u.updateXPI f).units (.named type) = u.units (.named type) :=
    u.units_updateXPI f fun h => other (UnitKind.named.inj h)
  cases type with
  | iio | irp => rfl
  | _ => exact same

end UnitLists

/-- The lists of a machine. -/
structure UncoreUnits extends UnitLists where
  distinct : ∀ kind kind', ∀ a ∈ toUnitLists.units kind, ∀ b ∈ toUnitLists.units kind',
    a.id = b.id → kind = kind' ∧ a = b
  links : ∀ pmu ∈ toUnitLists.named .xpi, pmu.unitControl = true

namespace UncoreUnits

/-- Links are taken out of the lists. -/
def dropLinks (u : UncoreUnits) (f : List UncorePMU → List UncorePMU) (sub : ∀ l, f l ⊆ l) :
    UncoreUnits where
  toUnitLists := u.updateXPI f
  distinct := fun kind kind' a ha b hb =>
    u.distinct kind kind' a (u.units_updateXPI_subset sub kind ha) b
      (u.units_updateXPI_subset sub kind' hb)
  links := fun pmu mem => u.links pmu (u.units_updateXPI_subset sub (.named .xpi) mem)

/-- `pmu` is of the given kind, or was: no other unit has its registers. -/
def Only (u : UncoreUnits) (kind : UnitKind) (pmu : UncorePMU) : Prop :=
  ∀ kind', ∀ other ∈ u.units kind', other.id = pmu.id → kind' = kind ∧ other = pmu

theorem only_of_mem {u : UncoreUnits} (kind : UnitKind) {pmu : UncorePMU}
    (mem : pmu ∈ u.units kind) :
    u.Only kind pmu := fun kind' other otherMem same =>
  u.distinct kind' kind other otherMem pmu mem same

theorem Only.dropLinks {u : UncoreUnits} {kind : UnitKind} {pmu : UncorePMU} (only : u.Only kind pmu)
    (f : List UncorePMU → List UncorePMU) (sub : ∀ l, f l ⊆ l) : (u.dropLinks f sub).Only kind pmu :=
  fun kind' other mem => only kind' other (u.units_updateXPI_subset sub kind' mem)

end UncoreUnits

end Pcm

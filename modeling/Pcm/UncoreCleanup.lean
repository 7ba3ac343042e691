import Pcm.PebsEnable
import Pcm.UncoreEvents

/-!
# What cleanup takes back

Sequences of programming calls followed by `cleanup` (`cpucounters.cpp:5267-5348`, `5462-5480`,
`9640-9662`). The routines that program units and those that clean them up walk through lists that
are written down separately: `m3upiPMUs` and the registers of old uncores are in none of the
latter, links can leave their list in between, and `cleanupPMU` returns early while Linux perf is
in use.
-/

namespace Pcm

open Uncore UncorePMU WriteLog

/-! ## Cleaning up -/

namespace UncoreUnits

/-- `ServerUncorePMUs::cleanupPMUs` (`cpucounters.cpp:9640-9662`). -/
def cleanupPMUs (s : ServerUncorePMUs) : Log :=
  s.xpiPMUs.flatMap cleanup ++ s.imcPMUs.flatMap cleanup ++ s.edcPMUs.flatMap cleanup ++
    s.m2mPMUs.flatMap cleanup ++ s.haPMUs.flatMap cleanup

/-- `cleanupUncorePMUs` (`cpucounters.cpp:5307-5348`), without the accelerators. -/
def cleanupUncorePMUs (u : UncoreUnits) : Log :=
  (u.iioPMUs.flatMap fun stackMap => stackMap.flatMap fun pmu => pmu.2.cleanup) ++
    (u.irpPMUs.flatMap fun stackMap => stackMap.flatMap fun pmu => pmu.2.cleanup) ++
    ([.CBO_PMU_ID, .MDF_PMU_ID, .PCU_PMU_ID, .UBOX_PMU_ID, .PCIE_GEN5x16_PMU_ID,
      .PCIE_GEN5x8_PMU_ID].flatMap fun id => (u.uncorePMUs id).flatMap cleanup) ++
    (u.cxlPMUs.flatMap fun pmus => pmus.1.cleanup ++ pmus.2.cleanup) ++
    u.serverUncorePMUs.flatMap cleanupPMUs

end UncoreUnits

/-- The kinds of units that the cleanup knows. -/
def UnitKind.isCleaned : UnitKind → Bool
  | .named .m3upi | .nehalem | .beckton => false
  | _ => true

namespace UncoreUnits

/-- The cleanup writes only what the cleanup of some unit writes. -/
theorem exists_unit_of_mem_cleanup {u : UncoreUnits} {w : Register × BitVec 64}
    (mem : w ∈ u.cleanupUncorePMUs) : ∃ pmu : UncorePMU, w ∈ pmu.cleanup := by
  simp only [cleanupUncorePMUs, cleanupPMUs, List.mem_append, List.mem_flatMap] at mem
  rcases mem with (((⟨-, -, p, -, h⟩ | ⟨-, -, p, -, h⟩) | ⟨-, -, p, -, h⟩) | ⟨p, -, h⟩) |
    ⟨-, -, (((⟨p, -, h⟩ | ⟨p, -, h⟩) | ⟨p, -, h⟩) | ⟨p, -, h⟩) | ⟨p, -, h⟩⟩
  · exact ⟨p.2, h⟩
  · exact ⟨p.2, h⟩
  · exact ⟨p, h⟩
  · rcases h with h | h
    · exact ⟨p.1, h⟩
    · exact ⟨p.2, h⟩
  · exact ⟨p, h⟩
  · exact ⟨p, h⟩
  · exact ⟨p, h⟩
  · exact ⟨p, h⟩
  · exact ⟨p, h⟩

/-- The cleanup comes by every unit of a kind that it knows. -/
theorem mem_cleanupUncorePMUs {u : UncoreUnits} {kind : UnitKind} (cleaned : kind.isCleaned)
    {pmu : UncorePMU} (mem : pmu ∈ u.units kind) {w : Register × BitVec 64}
    (h : w ∈ pmu.cleanup) : w ∈ u.cleanupUncorePMUs := by
  simp only [cleanupUncorePMUs, cleanupPMUs, List.mem_append, List.mem_flatMap]
  cases kind with
  | nehalem | beckton => simp [UnitKind.isCleaned] at cleaned
  | edc =>
      obtain ⟨s, hs, hp⟩ := List.mem_flatMap.mp mem
      exact Or.inr ⟨s, hs, Or.inl (Or.inl (Or.inr ⟨pmu, hp, h⟩))⟩
  | named type =>
      cases type with
      | m3upi => simp [UnitKind.isCleaned] at cleaned
      | xpi =>
          obtain ⟨s, hs, hp⟩ := List.mem_flatMap.mp mem
          exact Or.inr ⟨s, hs, Or.inl (Or.inl (Or.inl (Or.inl ⟨pmu, hp, h⟩)))⟩
      | imc =>
          obtain ⟨s, hs, hp⟩ := List.mem_flatMap.mp mem
          exact Or.inr ⟨s, hs, Or.inl (Or.inl (Or.inl (Or.inr ⟨pmu, hp, h⟩)))⟩
      | ha =>
          obtain ⟨s, hs, hp⟩ := List.mem_flatMap.mp mem
          exact Or.inr ⟨s, hs, Or.inr ⟨pmu, hp, h⟩⟩
      | m2m =>
          obtain ⟨s, hs, hp⟩ := List.mem_flatMap.mp mem
          exact Or.inr ⟨s, hs, Or.inl (Or.inr ⟨pmu, hp, h⟩)⟩
      | iio =>
          obtain ⟨m, hm, mapped⟩ := List.mem_flatMap.mp mem
          obtain ⟨p, hp, rfl⟩ := List.mem_map.mp mapped
          exact Or.inl (Or.inl (Or.inl (Or.inl ⟨m, hm, p, hp, h⟩)))
      | irp =>
          obtain ⟨m, hm, mapped⟩ := List.mem_flatMap.mp mem
          obtain ⟨p, hp, rfl⟩ := List.mem_map.mp mapped
          exact Or.inl (Or.inl (Or.inl (Or.inr ⟨m, hm, p, hp, h⟩)))
      | cxlcm =>
          obtain ⟨p, hp, rfl⟩ := List.mem_map.mp mem
          exact Or.inl (Or.inr ⟨p, hp, Or.inl h⟩)
      | cxldp =>
          obtain ⟨p, hp, rfl⟩ := List.mem_map.mp mem
          exact Or.inl (Or.inr ⟨p, hp, Or.inr h⟩)
      | cbo => exact Or.inl (Or.inl (Or.inr ⟨.CBO_PMU_ID, by simp, pmu, mem, h⟩))
      | mdf => exact Or.inl (Or.inl (Or.inr ⟨.MDF_PMU_ID, by simp, pmu, mem, h⟩))
      | pcu => exact Or.inl (Or.inl (Or.inr ⟨.PCU_PMU_ID, by simp, pmu, mem, h⟩))
      | ubox => exact Or.inl (Or.inl (Or.inr ⟨.UBOX_PMU_ID, by simp, pmu, mem, h⟩))
      | pciex16 => exact Or.inl (Or.inl (Or.inr ⟨.PCIE_GEN5x16_PMU_ID, by simp, pmu, mem, h⟩))
      | pciex8 => exact Or.inl (Or.inl (Or.inr ⟨.PCIE_GEN5x8_PMU_ID, by simp, pmu, mem, h⟩))

end UncoreUnits

/-- The unit control and counter control registers of a unit are left at zero. -/
structure WrittenBack (log : Log) (pmu : UncorePMU) : Prop where
  unitControl : pmu.has .unitControl → last log (pmu.register .unitControl) = some 0
  counterControl : ∀ c, pmu.has (.counterControl c) →
    last log (pmu.register (.counterControl c)) = some 0

theorem writtenBack_cleanup {u : UncoreUnits} {kind : UnitKind} {pmu : UncorePMU}
    (cleaned : kind.isCleaned) (mem : pmu ∈ u.units kind) : WrittenBack u.cleanupUncorePMUs pmu := by
  have zeros : ∀ r, ∀ w ∈ u.cleanupUncorePMUs, w.1 = r → w.2 = 0 := by
    intro r w h _
    obtain ⟨other, h⟩ := UncoreUnits.exists_unit_of_mem_cleanup h
    exact value_of_mem_cleanup h
  constructor
  · intro present
    refine last_eq_of_forall ⟨0, ?_⟩ (zeros _)
    exact UncoreUnits.mem_cleanupUncorePMUs cleaned mem (mem_cleanup_unitControl present)
  · intro c present
    refine last_eq_of_forall ⟨0, ?_⟩ (zeros _)
    exact UncoreUnits.mem_cleanupUncorePMUs cleaned mem (mem_cleanup_counterControl present)

/-! ## Counters that are written -/

/-- All counter control registers that a log writes belong to units with the given property. -/
def CountersIn (holds : Nat → Prop) (log : Log) : Prop :=
  ∀ w ∈ log, ∀ c, w.1.kind = .counterControl c → holds w.1.unit

section CountersIn

variable {holds : Nat → Prop}

theorem countersIn_nil : CountersIn holds [] := by
  intro w mem
  simp at mem

theorem CountersIn.append {a b : Log} (ha : CountersIn holds a) (hb : CountersIn holds b) :
    CountersIn holds (a ++ b) := by
  intro w mem
  rcases List.mem_append.mp mem with h | h
  · exact ha w h
  · exact hb w h

theorem CountersIn.flatMap {α : Type*} {l : List α} {f : α → Log}
    (h : ∀ a ∈ l, CountersIn holds (f a)) : CountersIn holds (l.flatMap f) := by
  intro w mem
  obtain ⟨a, ha, hw⟩ := List.mem_flatMap.mp mem
  exact h a ha w hw

theorem CountersIn.mono {holds' : Nat → Prop} {log : Log} (h : CountersIn holds log)
    (weaker : ∀ id, holds id → holds' id) : CountersIn holds' log :=
  fun w mem c kind => weaker _ (h w mem c kind)

theorem countersIn_owned {id : Nat} {log : Log} (owned : Owned id log) (h : holds id) :
    CountersIn holds log := by
  intro w mem c _
  rw [owned w mem]
  exact h

/-- A loop over units writes counters of these units only. -/
theorem countersIn_units {units : List UncorePMU} {pass : UncorePMU → Log}
    (owned : ∀ pmu, Owned pmu.id (pass pmu)) (h : ∀ pmu ∈ units, holds pmu.id) :
    CountersIn holds (units.flatMap pass) :=
  CountersIn.flatMap fun pmu mem => countersIn_owned (owned pmu) (h pmu mem)

theorem countersIn_programCbo {model : CpuModel} {events : Option (Nat → BitVec 64)}
    {opCode nc tid loc rem : BitVec 32} {units : List UncorePMU}
    (h : ∀ pmu ∈ units, holds pmu.id) :
    CountersIn holds (programCbo model events opCode nc tid loc rem units).log := by
  induction units with
  | nil => exact countersIn_nil
  | cons pmu units ih =>
      have first := h pmu List.mem_cons_self
      unfold programCbo
      split
      · exact countersIn_owned (owned_initFreeze _ _ _ _) first
      · exact (countersIn_owned (owned_programBox pmu) first).append
          (ih fun other mem => h other (List.mem_cons_of_mem _ mem))

theorem countersIn_initFreeze (model : CpuModel) (extra : BitVec 64) (readback : Option (BitVec 64))
    (pmu : UncorePMU) : CountersIn holds (pmu.initFreeze model extra readback).log := by
  have control : ∀ value, CountersIn holds (pmu.assign .unitControl value) := by
    intro value w mem c kind
    unfold UncorePMU.assign at mem
    split at mem
    · obtain rfl := List.mem_singleton.mp mem
      simp [register] at kind
    · simp at mem
  unfold initFreeze
  split
  · exact countersIn_nil
  · split
    · exact (control _).append (control _)
    · split
      · exact control _
      · exact (control _).append (control _)

/-- `programXPI` writes counters of links that are not found disabled. -/
theorem countersIn_programXPI {model : CpuModel} {readback : Nat → BitVec 64}
    {events : Option (Nat → BitVec 64)} {links : List UncorePMU}
    (h : ∀ link ∈ links, linkDisabled model readback link = false → holds link.id) :
    CountersIn holds (Uncore.programXPI model readback events links).2 := by
  refine CountersIn.flatMap fun link mem => ?_
  cases status : linkDisabled model readback link with
  | true =>
      rw [programLink_of_disabled status]
      exact countersIn_initFreeze _ _ _ _
  | false => exact countersIn_owned (owned_programLink model readback events link) (h link mem status)

end CountersIn

/-! ## Units that are still in a list -/

namespace UncoreUnits

/-- The cleanup walks through a unit with these registers, and would still do so if it were only for
some of the links. -/
def Survives (u : UncoreUnits) (keep : UncorePMU → Prop) (id : Nat) : Prop :=
  ∃ kind : UnitKind, kind.isCleaned = true ∧ ∃ pmu ∈ u.units kind, pmu.id = id ∧
    (kind = .named .xpi → keep pmu)

section Survives

variable {u : UncoreUnits} {keep : UncorePMU → Prop} {id : Nat}

theorem Survives.mono {keep' : UncorePMU → Prop} (h : u.Survives keep id)
    (weaker : ∀ link, keep link → keep' link) : u.Survives keep' id := by
  obtain ⟨kind, cleaned, pmu, mem, same, link⟩ := h
  exact ⟨kind, cleaned, pmu, mem, same, fun here => weaker pmu (link here)⟩

theorem survives_of_mem (kind : UnitKind) {pmu : UncorePMU} (mem : pmu ∈ u.units kind)
    (cleaned : kind.isCleaned = true) (other : kind ≠ .named .xpi) : u.Survives keep pmu.id :=
  ⟨kind, cleaned, pmu, mem, rfl, fun here => absurd here other⟩

theorem survives_of_link {link : UncorePMU} (mem : link ∈ u.named .xpi) (kept : keep link) :
    u.Survives keep link.id :=
  ⟨.named .xpi, rfl, link, mem, rfl, fun _ => kept⟩

/-- Units survive a step that takes out no link that is kept. -/
theorem Survives.dropLinks (h : u.Survives keep id) {f : List UncorePMU → List UncorePMU}
    (sub : ∀ l, f l ⊆ l)
    (stays : ∀ link ∈ u.named .xpi, keep link → link ∈ (u.dropLinks f sub).named .xpi) :
    (u.dropLinks f sub).Survives keep id := by
  obtain ⟨kind, cleaned, pmu, mem, same, link⟩ := h
  refine ⟨kind, cleaned, pmu, ?_, same, link⟩
  by_cases here : kind = .named .xpi
  · subst here
    exact stays pmu mem (link rfl)
  · exact (u.units_updateXPI f here).symm ▸ mem

theorem Survives.programXPI {model : CpuModel} {readback : Nat → BitVec 64}
    {events : Option (Nat → BitVec 64)} (h : u.Survives keep id)
    (enabled : ∀ link, keep link → linkDisabled model readback link = false) :
    (u.programXPI model readback events).1.Survives keep id :=
  h.dropLinks (programXPI_subset model readback events) fun link mem kept =>
    u.mem_links_programXPI.mpr ⟨mem, enabled link kept⟩

end Survives

end UncoreUnits

end Pcm

import Pcm.UncoreProgram

/-!
# Which routines leave a unit frozen

Every routine freezes its units before it programs them, and leaves it to `program` to let them run
again. `program` does so only if it is given an array and a value to unfreeze, and `programUBOX` gives
it none.
-/

namespace Pcm

open WriteLog UncorePMU Uncore

/-- The routines, with the arguments other than the events. -/
inductive Routine
  | programPCU (filter : BitVec 64)
  | programCbo (opCode nc tid loc rem : BitVec 32)
  | programCboRaw (filter0 filter1 : BitVec 64)
  | programMDF
  | programUBOX
  | programCXLCM
  | programCXLDP
  | programXPI (readback : Nat → BitVec 64)
  | programIMC
  | programEDC
  | programM2M
  | programM3UPI
  | programHA
  | programIIOCounters
  | programIRPCounters
  | programPCIe (n : Nat)

namespace Routine

def run (model : CpuModel) (events : Option (Nat → BitVec 64)) (units : List UncorePMU) :
    Routine → Outcome
  | programPCU filter => ⟨Uncore.programPCU model events units filter, true⟩
  | programCbo opCode nc tid loc rem => Uncore.programCbo model events opCode nc tid loc rem units
  | programCboRaw filter0 filter1 => ⟨Uncore.programCboRaw model events units filter0 filter1, true⟩
  | programMDF => ⟨Uncore.programMDF model events units, true⟩
  | programUBOX => ⟨Uncore.programUBOX model events units, true⟩
  | programCXLCM => ⟨Uncore.programCXLCM model events units, true⟩
  | programCXLDP => ⟨Uncore.programCXLDP model events units, true⟩
  | programXPI readback => ⟨(Uncore.programXPI model readback events units).2, true⟩
  | programIMC => ⟨Uncore.programIMC model events units, true⟩
  | programEDC => ⟨Uncore.programEDC model events units, true⟩
  | programM2M => ⟨Uncore.programM2M model events units, true⟩
  | programM3UPI => ⟨Uncore.programM3UPI model events units, true⟩
  | programHA => ⟨Uncore.programHA model events units, true⟩
  | programIIOCounters => ⟨Uncore.programIIOCounters model events units, true⟩
  | programIRPCounters => ⟨Uncore.programIRPCounters model events units, true⟩
  | programPCIe n => ⟨Uncore.programPCIe model events units n, true⟩

/-- The routine finds the unit disabled and gives it up. -/
def disables (model : CpuModel) (pmu : UncorePMU) : Routine → Bool
  | programXPI readback => linkDisabled model readback pmu
  | _ => false

end Routine

/-- The last value written to the unit control register has the freeze bit clear. -/
def Unfrozen (model : CpuModel) (log : Log) (pmu : UncorePMU) : Prop :=
  ∃ value, last log (pmu.register .unitControl) = some value ∧ value &&& model.freezeBit = 0

/-- The values with which the routines let a unit run. -/
def Runs (extra : BitVec 64) : Prop :=
  extra = UNC_PMON_UNIT_CTL_FRZ_EN ∨ extra = UNC_PMON_UNIT_CTL_RSV

theorem unfrozen_of_last {model : CpuModel} {log : Log} {pmu : UncorePMU} {value : BitVec 64}
    (h : last log (pmu.register .unitControl) = some value) :
    Unfrozen model log pmu ↔ value &&& model.freezeBit = 0 := by
  constructor
  · rintro ⟨other, same, clear⟩
    rw [h] at same
    rwa [Option.some.inj same]
  · intro clear
    exact ⟨value, h, clear⟩

theorem running_clear (model : CpuModel) {extra : BitVec 64} (runs : Runs extra) :
    (if model.sprUnitControl then 0 else extra) &&& model.freezeBit = 0 := by
  unfold CpuModel.freezeBit
  split
  · decide
  · rcases runs with rfl | rfl <;> decide

theorem frozen_set (model : CpuModel) {extra : BitVec 64} (runs : Runs extra) :
    (if model.sprUnitControl then SPR_UNC_PMON_UNIT_CTL_FRZ + SPR_UNC_PMON_UNIT_CTL_RST_CONTROL
      else extra + UNC_PMON_UNIT_CTL_FRZ) &&& model.freezeBit ≠ 0 := by
  unfold CpuModel.freezeBit
  split
  · decide
  · rcases runs with rfl | rfl <;> decide

theorem Runs.ne_zero {extra : BitVec 64} (runs : Runs extra) : extra ≠ 0 := by
  rcases runs with rfl | rfl <;> decide

theorem xpiExtra_runs (model : CpuModel) : Runs (xpiExtra model) := by
  unfold xpiExtra
  split
  · exact Or.inr rfl
  · exact Or.inl rfl

section Units

variable {model : CpuModel} {extra unfreeze : BitVec 64} {before after : SideWrites}
  {events : Option (Nat → BitVec 64)} {n : Nat} {units : List UncorePMU} {pmu : UncorePMU}

theorem only_of_nodup (distinct : (units.map (·.id)).Nodup) (mem : pmu ∈ units) :
    ∀ other ∈ units, other.id = pmu.id → other = pmu :=
  fun _ otherMem same => List.inj_on_of_nodup_map distinct otherMem mem same

/-- The units of a loop run again if the loop has events and unfreezes. -/
theorem unfrozen_boxes (runs : Runs extra) (unfreezes : unfreeze = extra ∨ unfreeze = 0)
    (distinct : (units.map (·.id)).Nodup) (mem : pmu ∈ units) (present : pmu.unitControl) :
    Unfrozen model (units.flatMap (programBox model extra unfreeze before after events n)) pmu ↔
      events.isSome ∧ unfreeze ≠ 0 := by
  rw [unfrozen_of_last ((last_flatMap_unit owned_programBox mem (only_of_nodup distinct mem) _).trans
    (last_programBox_unitControl present))]
  by_cases lets : events.isSome ∧ unfreeze ≠ 0
  · obtain rfl : unfreeze = extra := unfreezes.resolve_right lets.2
    rw [if_pos lets]
    exact iff_of_true (running_clear model runs) lets
  · rw [if_neg lets]
    exact iff_of_false (frozen_set model runs) lets

/-- The same for a routine that unfreezes with the value it froze with. -/
theorem unfrozen_plain (runs : Runs extra) (distinct : (units.map (·.id)).Nodup) (mem : pmu ∈ units)
    (present : pmu.unitControl) :
    Unfrozen model (units.flatMap (programBox model extra extra before after events n)) pmu ↔
      events.isSome := by
  rw [unfrozen_boxes runs (Or.inl rfl) distinct mem present, and_iff_left runs.ne_zero]

/-- A link runs again if it has events, and also if it is given up: then it was never frozen. -/
theorem unfrozen_links (readback : Nat → BitVec 64) (distinct : (units.map (·.id)).Nodup)
    (mem : pmu ∈ units) (present : pmu.unitControl) :
    Unfrozen model (programXPI model readback events units).2 pmu ↔
      events.isSome ∨ linkDisabled model readback pmu := by
  have runs := xpiExtra_runs model
  have one := last_flatMap_unit (owned_programLink model readback events) mem
    (only_of_nodup distinct mem) .unitControl
  have ok := (initFreeze_link model readback pmu).1
  cases status : linkDisabled model readback pmu with
  | true =>
      have layout : model.sprUnitControl = false := by
        cases layout : model.sprUnitControl with
        | false => rfl
        | true => simp [linkDisabled, layout] at status
      rw [programLink_of_disabled status, last_initFreeze_unitControl _ _ _ present, ok, status] at one
      rw [programXPI, unfrozen_of_last one]
      refine iff_of_true ?_ (Or.inr rfl)
      simpa [layout] using running_clear model runs
  | false =>
      rw [programLink_of_enabled status, last_append, last_program_unitControl _ _ _ _ present,
        last_initFreeze_unitControl _ _ _ present, ok, status] at one
      rw [programXPI]
      by_cases given : events.isSome
      · rw [if_pos ⟨given, runs.ne_zero⟩, Option.some_or] at one
        rw [unfrozen_of_last one]
        exact iff_of_true (running_clear model runs) (Or.inl given)
      · rw [if_neg (fun h => given h.1), Option.none_or] at one
        rw [unfrozen_of_last one]
        refine iff_of_false ?_ (by simpa using given)
        simpa using frozen_set model runs

theorem unfrozen_pcie (distinct : (units.map (·.id)).Nodup) (mem : pmu ∈ units)
    (present : pmu.unitControl) :
    Unfrozen model (programPCIe model events units n) pmu ↔ events.isSome := by
  have runs : Runs UNC_PMON_UNIT_CTL_FRZ_EN := Or.inl rfl
  have one := last_flatMap_unit (fun pmu => owned_program model events (min n 8)
    UNC_PMON_UNIT_CTL_FRZ_EN pmu) mem (only_of_nodup distinct mem) .unitControl
  rw [last_program_unitControl _ _ _ _ present] at one
  by_cases given : events.isSome
  · rw [if_pos ⟨given, runs.ne_zero⟩] at one
    rw [programPCIe, unfrozen_of_last one]
    exact iff_of_true (running_clear model runs) given
  · rw [if_neg (fun h => given h.1)] at one
    refine iff_of_false ?_ given
    rintro ⟨value, same, -⟩
    rw [programPCIe, one] at same
    simp at same

end Units

/-- A routine that unfreezes its units if it has events, and gives none up. -/
theorem Routine.unfrozen_iff_of_events {model : CpuModel} {routine : Routine}
    {events : Option (Nat → BitVec 64)} {log : Log} {pmu : UncorePMU}
    (h : Unfrozen model log pmu ↔ events.isSome) (other : routine ≠ .programUBOX)
    (keeps : routine.disables model pmu = false) :
    Unfrozen model log pmu ↔
      routine ≠ .programUBOX ∧ (events.isSome ∨ routine.disables model pmu) := by
  rw [h, keeps, and_iff_right other]
  simp

/-- A unit with a unit control register runs when a routine returns, exactly if the routine is not
`programUBOX` and either has events or gave the unit up. -/
theorem Routine.unfrozen_iff (model : CpuModel) (routine : Routine)
    (events : Option (Nat → BitVec 64)) (units : List UncorePMU)
    (distinct : (units.map (·.id)).Nodup) (pmu : UncorePMU) (mem : pmu ∈ units)
    (present : pmu.unitControl) (returns : (routine.run model events units).returns) :
    Unfrozen model (routine.run model events units).log pmu ↔
      routine ≠ .programUBOX ∧ (events.isSome ∨ routine.disables model pmu) := by
  have frzEn : Runs UNC_PMON_UNIT_CTL_FRZ_EN := Or.inl rfl
  have rsv : Runs UNC_PMON_UNIT_CTL_RSV := Or.inr rfl
  cases routine with
  | programUBOX =>
      have never : Unfrozen model (units.flatMap (programBox model UNC_PMON_UNIT_CTL_FRZ_EN 0
          (.assign .fixedCounterControl UCLK_FIXED_CTL_EN) .none events 2)) pmu ↔
          events.isSome ∧ (0 : BitVec 64) ≠ 0 :=
        unfrozen_boxes frzEn (Or.inr rfl) distinct mem present
      exact iff_of_false (fun h => (never.mp h).2 rfl) (fun h => h.1 rfl)
  | programXPI readback =>
      exact (unfrozen_links readback distinct mem present).trans (and_iff_right (by simp)).symm
  | programCbo opCode nc tid loc rem =>
      obtain ⟨filters, log⟩ := programCbo_log returns
      refine unfrozen_iff_of_events ?_ (by simp) rfl
      simp only [run, log]
      exact unfrozen_plain frzEn distinct mem present
  | programIMC =>
      have runs : Runs (if model = .SKX then UNC_PMON_UNIT_CTL_RSV
          else UNC_PMON_UNIT_CTL_FRZ_EN) := by
        split
        · exact rsv
        · exact frzEn
      exact unfrozen_iff_of_events (unfrozen_plain runs distinct mem present) (by simp) rfl
  | programPCIe n =>
      exact unfrozen_iff_of_events (unfrozen_pcie distinct mem present) (by simp) rfl
  | programPCU | programCboRaw | programMDF | programCXLCM | programCXLDP | programEDC =>
      exact unfrozen_iff_of_events (unfrozen_plain frzEn distinct mem present) (by simp) rfl
  | programM2M | programM3UPI | programHA | programIIOCounters | programIRPCounters =>
      exact unfrozen_iff_of_events (unfrozen_plain rsv distinct mem present) (by simp) rfl

/-- A unit of Sapphire Rapids that `programMDF` programs runs. -/
theorem Routine.unfrozen_iff_mdf :
    Unfrozen .SPR (programMDF.run .SPR (some fun _ => 1) [{ id := 0 }]).log { id := 0 } ↔
      programMDF ≠ .programUBOX ∧ ((some fun _ : Nat => (1 : BitVec 64)).isSome ∨
        programMDF.disables .SPR { id := 0 }) :=
  unfrozen_iff .SPR .programMDF (some fun _ => 1) [{ id := 0 }] (by decide) { id := 0 } (by simp) rfl
    rfl

/-- The UBOX of Sapphire Rapids is frozen after the call that `programCbo()` makes. -/
theorem Routine.ubox_left_frozen :
    ¬ ∀ (model : CpuModel) (routine : Routine) (events : Option (Nat → BitVec 64))
        (units : List UncorePMU), (units.map (·.id)).Nodup → ∀ pmu ∈ units, pmu.unitControl →
        (routine.run model events units).returns →
        Unfrozen model (routine.run model events units).log pmu := by
  intro all
  let ubox : UncorePMU := { id := 0, counterControl := [true, true], fixedCounterControl := true }
  obtain ⟨value, written, clear⟩ :=
    all .SPR .programUBOX none [ubox] (by decide) ubox (by simp) rfl rfl
  have frozen : last (programUBOX.run .SPR none [ubox]).log (ubox.register .unitControl) =
      some (SPR_UNC_PMON_UNIT_CTL_FRZ + SPR_UNC_PMON_UNIT_CTL_RST_CONTROL) := by decide
  rw [frozen] at written
  obtain rfl := Option.some.inj written
  exact absurd clear (by decide)

end Pcm

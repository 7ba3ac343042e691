import Pcm.CounterAgreement

/-!
# Aggregation of the memory bandwidths

`readAndAggregateMemoryBWCounters` keeps the readings of many cores in one field. An invalid
reading puts the marker `PCM_INVALID_QOS_MONITORING_DATA` there, and nothing looks at the field
before the next reading is added to it, so that the marker is lost with the next valid reading.
`operator +=` adds the markers of two states like numbers.
-/

namespace Pcm

open Accumulate

/-- The two fields of `readAndAggregateMemoryBWCounters`. -/
inductive BWField
  | memoryBWLocal
  | memoryBWTotal
  deriving DecidableEq, Repr

namespace BWField

def field : BWField → BasicField
  | memoryBWLocal => .memoryBWLocal
  | memoryBWTotal => .memoryBWTotal

/-- `CoreLocalMemoryBWMetricAvailable` and `CoreRemoteMemoryBWMetricAvailable`. -/
def available (m : Machine) : BWField → Bool
  | memoryBWLocal => m.coreLocalMemoryBWMetricAvailable
  | memoryBWTotal => m.coreRemoteMemoryBWMetricAvailable

def resctrl (core : Core) : BWField → BitVec 64
  | memoryBWLocal => core.resctrlMBL
  | memoryBWTotal => core.resctrlMBT

def counter (core : Core) : BWField → Option (BitVec 64)
  | memoryBWLocal => core.memoryBWLocal
  | memoryBWTotal => core.memoryBWTotal

/-- What a state has in the field; `none` for the marker. -/
def ofState (f : BWField) (s : BasicCounterState) : Option (BitVec 64) :=
  if f.field.get s = invalidQOSMonitoringData then none else some (f.field.get s)

/-- What a list of values should come to. -/
def total (values : List (Option (BitVec 64))) : BitVec 64 :=
  if none ∈ values then invalidQOSMonitoringData else (values.map (·.getD 0)).sum

end BWField

namespace Machine

variable (m : Machine)

/-- `readAndAggregateMemoryBWCounters` (`cpucounters.cpp:6626-6666`). -/
def readAndAggregateMemoryBWCounters (core : Core) (s : BasicCounterState) : BasicCounterState :=
  { s with
    memoryBWLocal := m.aggregateMemoryBW m.coreLocalMemoryBWMetricAvailable core.resctrlMBL
      core.memoryBWLocal s.memoryBWLocal
    memoryBWTotal := m.aggregateMemoryBW m.coreRemoteMemoryBWMetricAvailable core.resctrlMBT
      core.memoryBWTotal s.memoryBWTotal }

/-- The scaled reading of a core, `none` when it is invalid. A core without the counter reads
nothing. -/
def scaledReading (f : BWField) (core : Core) : Option (BitVec 64) :=
  if m.useResctrl then some (if f.available m then f.resctrl core / (1024 * 1024) else 0)
  else
    match f.counter core with
    | none => some 0
    | some raw =>
        if extractQOSMonitoring raw = invalidQOSMonitoringData then none
        else some (m.arith.scale (extractQOSMonitoring raw * m.l3ScalingFactor) (1024 * 1024))

/-- Both ways to combine the readings: the result is the same in every order, the sum of the
valid readings, or the marker if one is invalid. -/
structure Aggregates (cores : List Core) (states : List BasicCounterState) : Prop where
  read : ∀ f : BWField, ∀ order : List Core, order.Perm cores →
    f.field.get (order.foldl (fun s core => m.readAndAggregateMemoryBWCounters core s) {}) =
      BWField.total (cores.map (m.scaledReading f))
  combined : ∀ f : BWField, ∀ order : List BasicCounterState, order.Perm states →
    f.field.get (order.foldl BasicCounterState.add {}) = BWField.total (states.map f.ofState)

/-- A reading as an update: an invalid one takes the place of the field. -/
def readingUpdate : Option (BitVec 64) → Update (BitVec 64)
  | none => .assign invalidQOSMonitoringData
  | some v => .add v

@[simp] theorem isAssign_readingUpdate (reading : Option (BitVec 64)) :
    (readingUpdate reading).isAssign = reading.isNone := by
  cases reading with
  | none => rfl
  | some v => rfl

theorem memoryBWUpdate_eq (f : BWField) (core : Core) :
    m.memoryBWUpdate (f.available m) (f.resctrl core) (f.counter core) =
      readingUpdate (m.scaledReading f core) := by
  unfold memoryBWUpdate scaledReading
  cases m.useResctrl with
  | true => cases f.available m with
      | true => rfl
      | false => rfl
  | false =>
      cases f.counter core with
      | none => rfl
      | some raw =>
          by_cases invalid : extractQOSMonitoring raw = invalidQOSMonitoringData
          · simp [invalid, readingUpdate]
          · simp [invalid, readingUpdate]

theorem get_readAndAggregateMemoryBWCounters (f : BWField) (core : Core) (s : BasicCounterState) :
    f.field.get (m.readAndAggregateMemoryBWCounters core s) =
      (readingUpdate (m.scaledReading f core)).apply (f.field.get s) := by
  rw [← m.memoryBWUpdate_eq f core]
  cases f with
  | memoryBWLocal => exact m.aggregateMemoryBW_eq _ _ _ _
  | memoryBWTotal => exact m.aggregateMemoryBW_eq _ _ _ _

theorem any_readingUpdate (readings : List (Option (BitVec 64))) :
    (readings.map readingUpdate).any Update.isAssign = decide (none ∈ readings) := by
  induction readings with
  | nil => rfl
  | cons reading readings ih => cases reading <;> simp [ih]

theorem total_eq (readings : List (Option (BitVec 64))) :
    BWField.total readings = if (readings.map readingUpdate).any Update.isAssign
      then invalidQOSMonitoringData else ((readings.map readingUpdate).map Update.val).sum := by
  rw [any_readingUpdate]
  unfold BWField.total
  by_cases invalid : none ∈ readings
  · simp [invalid]
  · rw [if_neg invalid, if_neg (by simpa using invalid)]
    congr 1
    rw [List.map_map]
    apply List.map_congr_left
    intro reading mem
    cases reading with
    | none => exact absurd mem invalid
    | some v => rfl

/-- Reading cores into one state comes out right when all readings are valid, and when the valid
ones are all zero. -/
theorem read_iff (f : BWField) (cores : List Core) :
    (∀ order : List Core, order.Perm cores →
      f.field.get (order.foldl (fun s core => m.readAndAggregateMemoryBWCounters core s) {}) =
        BWField.total (cores.map (m.scaledReading f))) ↔
    (∀ core ∈ cores, m.scaledReading f core ≠ none) ∨
      ∀ core ∈ cores, ∀ v, m.scaledReading f core = some v → v = 0 := by
  have run : ∀ order : List Core,
      f.field.get (order.foldl (fun s core => m.readAndAggregateMemoryBWCounters core s) {}) =
        (order.map fun core => readingUpdate (m.scaledReading f core)).foldl Update.apply 0 := by
    intro order
    have updates := observe_foldl_update f.field.get
      (fun s core => m.readAndAggregateMemoryBWCounters core s) _ order
      (fun s core _ => m.get_readAndAggregateMemoryBWCounters f core s) {}
    rwa [BasicField.get_default] at updates
  have orders := Update.foldl_every_order_iff
    (fun core => readingUpdate (m.scaledReading f core)) cores
    (fun core _ assigns => show _ = invalidQOSMonitoringData by
      cases h : m.scaledReading f core with
      | none => rfl
      | some v => simp [h] at assigns)
  simp only [run, total_eq, List.map_map] at orders ⊢
  refine Iff.trans orders (or_congr ?_ ?_)
  · simp [Option.isSome_iff_ne_none]
  · refine forall₂_congr fun core _ => ?_
    cases h : m.scaledReading f core with
    | none => simp
    | some v => simp [readingUpdate, Update.val, Update.isAssign]

/-- `operator +=` is addition in these fields, so that only the markers matter. -/
theorem combined_iff (f : BWField) (states : List BasicCounterState) :
    (∀ order : List BasicCounterState, order.Perm states →
      f.field.get (order.foldl BasicCounterState.add {}) =
        BWField.total (states.map f.ofState)) ↔
    (∀ s ∈ states, f.field.get s ≠ invalidQOSMonitoringData) ∨
      (states.map f.field.get).sum = invalidQOSMonitoringData := by
  have run : ∀ order : List BasicCounterState, order.Perm states →
      f.field.get (order.foldl BasicCounterState.add {}) = (states.map f.field.get).sum := by
    intro order perm
    have sum := observe_foldl f.field.get BasicCounterState.add f.field.get order
      (fun s t _ => BasicField.get_add f.field s t) {}
    rw [BasicField.get_default, zero_add] at sum
    rw [sum]
    exact (perm.map _).sum_eq
  have once : (∀ order : List BasicCounterState, order.Perm states →
      f.field.get (order.foldl BasicCounterState.add {}) =
        BWField.total (states.map f.ofState)) ↔
      (states.map f.field.get).sum = BWField.total (states.map f.ofState) := by
    constructor
    · intro same
      rw [← same states (List.Perm.refl _), run states (List.Perm.refl _)]
    · intro same order perm
      rw [run order perm, same]
  rw [once]
  by_cases valid : ∀ s ∈ states, f.field.get s ≠ invalidQOSMonitoringData
  · have values : states.map f.ofState = (states.map f.field.get).map some := by
      rw [List.map_map]
      apply List.map_congr_left
      intro s mem
      rw [BWField.ofState, if_neg (valid s mem)]
      rfl
    have plain : BWField.total (states.map f.ofState) = (states.map f.field.get).sum := by
      rw [values, BWField.total, if_neg (by simp), List.map_map]
      exact congrArg List.sum (List.map_id _)
    rw [plain]
    exact iff_of_true rfl (.inl valid)
  · have marked : none ∈ states.map f.ofState := by
      push Not at valid
      obtain ⟨s, mem, marker⟩ := valid
      exact List.mem_map.mpr ⟨s, mem, if_pos marker⟩
    rw [BWField.total, if_pos marked]
    simp [valid]

/-- The bandwidths come out right exactly when no marker meets another value. -/
theorem aggregates_iff (cores : List Core) (states : List BasicCounterState) :
    m.Aggregates cores states ↔ ∀ f : BWField,
      ((∀ core ∈ cores, m.scaledReading f core ≠ none) ∨
        ∀ core ∈ cores, ∀ v, m.scaledReading f core = some v → v = 0) ∧
      ((∀ s ∈ states, f.field.get s ≠ invalidQOSMonitoringData) ∨
        (states.map f.field.get).sum = invalidQOSMonitoringData) := by
  constructor
  · intro right f
    exact ⟨(m.read_iff f cores).mp (right.read f), (combined_iff f states).mp (right.combined f)⟩
  · intro safe
    exact ⟨fun f => (m.read_iff f cores).mpr (safe f).1,
      fun f => (combined_iff f states).mpr (safe f).2⟩

/-! ## An invalid reading before a valid one of 1 MB -/

def bandwidthMachine : Machine where
  cpuFamilyModel := .SKX
  numSockets := 1
  cores := []
  socketsInRange := by simp
  arith := { scale := fun x d => x / BitVec.ofNat 64 d, share := fun part total slots => part * slots / total }
  l3ScalingFactor := 65536

def bandwidthCore (id : Nat) (reading : BitVec 64) : Core :=
  { osId := id, coreId := id, socketId := 0, msr := fun _ => 0, memoryBWLocal := some reading }

/-- Core 0 reports an error, core 1 reports 16 units of 64 KB. -/
def mixedCores : List Core := [bandwidthCore 0 (1 <<< 63), bandwidthCore 1 16]

theorem mixedCores_not_aggregates :
    (mixedCores.foldl (fun s core => bandwidthMachine.readAndAggregateMemoryBWCounters core s)
      {}).memoryBWLocal = 0 ∧
    (mixedCores.reverse.foldl
      (fun s core => bandwidthMachine.readAndAggregateMemoryBWCounters core s) {}).memoryBWLocal =
        invalidQOSMonitoringData ∧
    ¬ bandwidthMachine.Aggregates mixedCores [] := by
  have inOrder : (mixedCores.foldl (fun s core =>
      bandwidthMachine.readAndAggregateMemoryBWCounters core s) {}).memoryBWLocal = 0 := by
    decide
  refine ⟨inOrder, by decide, ?_⟩
  intro right
  have value := right.read .memoryBWLocal mixedCores (List.Perm.refl _)
  have expected : BWField.total (mixedCores.map (bandwidthMachine.scaledReading .memoryBWLocal)) =
      invalidQOSMonitoringData := by
    decide
  rw [expected] at value
  have zero : (0 : BitVec 64) = invalidQOSMonitoringData := inOrder.symm.trans value
  revert zero
  decide

end Machine

end Pcm

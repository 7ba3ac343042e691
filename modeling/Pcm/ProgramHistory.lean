import Pcm.CoreProgram
import Pcm.Lib.Accumulate
import Mathlib.Tactic.IntervalCases

/-!
# Programming after other programming

What a successful `program(mode, parameter)` leaves in the availability flags, `canUsePerf`, the
number of core counters and the event table, compared with what the same call leaves on a freshly
initialised instance. The flags are only ever set, perf is only ever given up, and the extended mode
does not touch the event table: what earlier calls have left there stays.
-/

namespace Pcm

/-- The members compared. -/
structure Observation where
  available : Metric → Bool
  canUsePerf : Bool
  coreGenCounterNumUsed : Nat
  /-- The entries of `coreEventDesc` below the number of counters. -/
  events : List EventDescription

namespace CoreState

def observe (s : CoreState) : Observation where
  available := s.available
  canUsePerf := s.canUsePerf
  coreGenCounterNumUsed := s.coreGenCounterNumUsed
  events := (List.range s.coreGenCounterNumUsed).map s.coreEventDesc

/-- A freshly initialised instance (`cpucounters.cpp:3222-3269`, `3349-3352`). -/
def fresh (nmiWatchdog : Option Int) : CoreState := { nmiWatchdog := nmiWatchdog }

/-- The state after a sequence of calls. -/
def run (inst : Instance) (s : CoreState) (calls : List Call) : CoreState :=
  calls.foldl (fun s call => (s.program inst call).2) s

/-! ## What a call leaves -/

section Prepare

variable (inst : Instance) (call : Call) (s : CoreState)

@[simp] theorem prepare_available : (s.prepare inst call).available = s.available := by
  unfold prepare disableNMIWatchdog
  split <;> rfl

@[simp] theorem prepare_canUsePerf :
    (s.prepare inst call).canUsePerf = (s.canUsePerf && !inst.dropsPerf call) := by
  unfold prepare disableNMIWatchdog
  split <;> rfl

@[simp] theorem prepare_numUsed :
    (s.prepare inst call).coreGenCounterNumUsed = s.coreGenCounterNumUsed := by
  unfold prepare disableNMIWatchdog
  split <;> rfl

@[simp] theorem prepare_coreEventDesc :
    (s.prepare inst call).coreEventDesc = s.coreEventDesc := by
  unfold prepare disableNMIWatchdog
  split <;> rfl

@[simp] theorem prepare_programmed :
    (s.prepare inst call).programmedCorePMU = s.programmedCorePMU := by
  unfold prepare disableNMIWatchdog
  split <;> rfl

end Prepare

theorem observe_programCores (inst : Instance) (call : Call) (s : CoreState) :
    (s.programCores inst call).2.observe = s.observe := by
  have core : ∀ (s : CoreState) (core : Nat × CoreInfo),
      (s.programCoreCounters inst call core.1 core.2).observe = s.observe := by
    intro s core
    unfold programCoreCounters
    split
    · rfl
    · split <;> rfl
  have cores := Accumulate.observe_foldl_const observe
    (fun s core => s.programCoreCounters inst call core.1 core.2) inst.onlineCores
    (fun s c _ => core s c) s
  refine Eq.trans ?_ cores
  unfold programCores
  simp only
  split <;> rfl

/-- A call that gets as far as the choice of events. -/
structure ReachesEvents (inst : Instance) (call : Call) (s : CoreState) : Prop where
  access : inst.noMsrAccess = false
  msr : (!(s.canUsePerf && !inst.dropsPerf call) && inst.noMSRMode) = false
  free : (!s.programmedCorePMU && !(s.canUsePerf && !inst.dropsPerf call) && call.pmuInUse) = false

/-- The events that a call chooses. -/
def chosen (inst : Instance) (call : Call) (s : CoreState) : Option CoreState :=
  ((s.prepare inst call).setMode call.request.mode).selectEvents inst call.request

/-- Such a call leaves what its events leave, whatever its outcome. -/
theorem ReachesEvents.observe_program {inst : Instance} {call : Call} {s after : CoreState}
    (reaches : ReachesEvents inst call s) (events : s.chosen inst call = some after) :
    (s.program inst call).2.observe = after.observe := by
  unfold chosen at events
  unfold program
  simp only [reaches.access, prepare_canUsePerf, prepare_programmed, reaches.msr, reaches.free,
    events, Bool.false_eq_true, if_false]
  split
  · exact observe_programCores inst call after
  · rfl

theorem reachesEvents_of_success {inst : Instance} {call : Call} {s : CoreState}
    (success : (s.program inst call).1 = .success) :
    ReachesEvents inst call s ∧ ∃ after, s.chosen inst call = some after := by
  unfold program at success
  simp only [prepare_canUsePerf, prepare_programmed] at success
  cases access : inst.noMsrAccess with
  | true => simp [access] at success
  | false =>
      simp only [access, Bool.false_eq_true, if_false] at success
      split at success
      · simp at success
      · next noExit =>
          split at success
          · simp at success
          · next notBusy =>
              refine ⟨⟨access, by simpa using noExit, by simpa using notBusy⟩, ?_⟩
              cases events : s.chosen inst call with
              | some after => exact ⟨after, rfl⟩
              | none =>
                  unfold chosen at events
                  simp [events] at success

end CoreState

/-! ## The plans -/

/-- A plan that assigns every entry it uses. -/
def EventPlan.Complete (plan : EventPlan) : Prop :=
  ∀ i < plan.numUsed, (plan.core.lookup i).isSome = true

instance (plan : EventPlan) : Decidable plan.Complete :=
  inferInstanceAs (Decidable (∀ i < plan.numUsed, (plan.core.lookup i).isSome = true))

/-- Every branch of the default events assigns the entries below its number of counters. -/
theorem defaultPlan_complete (inst : Instance) : inst.defaultPlan.Complete := by
  unfold Instance.defaultPlan
  dsimp only
  split
  · decide
  · split
    · split <;> decide
    -- one case per model, some of them with a choice by the number of counters
    · split <;> try split_ifs
      all_goals decide

theorem customPlan_complete (inst : Instance) (desc : Nat → EventDescription) :
    (inst.customPlan desc).Complete := by
  unfold Instance.customPlan
  dsimp only
  split_ifs
  · intro i (h : i < 4)
    interval_cases i <;> rfl
  · intro i (h : i < 3)
    interval_cases i <;> rfl
  · intro i (h : i < 2)
    interval_cases i <;> rfl

theorem assign_of_some (table : Nat → EventDescription) {entries : List (Nat × EventDescription)}
    {i : Nat} (has : (entries.lookup i).isSome = true) :
    assign table entries i = assign (fun _ => {}) entries i := by
  obtain ⟨desc, found⟩ := Option.isSome_iff_exists.mp has
  unfold assign
  rw [found]

/-- The flags that a call sets. -/
def Request.flags (inst : Instance) : Request → List Metric
  | defaultEvents _ | invalidMode _ => inst.defaultPlan.flags
  | _ => []

/-- The number of counters that an extended description asks for. -/
def ExtendedDescription.counters (desc : ExtendedDescription) : Option Nat :=
  if desc.gpCounterCfg.isSome || desc.gpCounterHybridAtomCfg.isSome then some desc.nGPCounters
  else none

namespace CoreState

/-- The state `s` before a call has nothing that shows after it. -/
structure NothingStale (inst : Instance) (call : Call) (s : CoreState) : Prop where
  flags : ∀ metric, s.available metric = true → metric ∈ call.request.flags inst
  perf : s.canUsePerf = false → inst.dropsPerf call = true
  /-- In extended mode the event table is as it was; so is the number of counters, if the call does
  not give one. -/
  events : ∀ p, call.request = .extCustomCoreEvents p →
    match p.bind ExtendedDescription.counters with
    | some n => ∀ i < n, s.coreEventDesc i = {}
    | none => s.coreGenCounterNumUsed = 0

theorem observation_ext {a b : CoreState} :
    a.observe = b.observe ↔
      a.available = b.available ∧ a.canUsePerf = b.canUsePerf ∧
      a.coreGenCounterNumUsed = b.coreGenCounterNumUsed ∧
      ∀ i < a.coreGenCounterNumUsed, a.coreEventDesc i = b.coreEventDesc i := by
  unfold observe
  rw [Observation.mk.injEq]
  refine and_congr_right fun _ => and_congr_right fun _ => and_congr_right fun same => ?_
  rw [← same, List.map_inj_left]
  simp

/-- A plan followed from two states. -/
theorem observe_follow_iff {plan : EventPlan} (complete : plan.Complete) {a b : CoreState} :
    (a.follow plan).observe = (b.follow plan).observe ↔
      (∀ metric, (a.available metric || decide (metric ∈ plan.flags)) =
        (b.available metric || decide (metric ∈ plan.flags))) ∧
      a.canUsePerf = b.canUsePerf := by
  rw [observation_ext]
  constructor
  · rintro ⟨flags, perf, -, -⟩
    exact ⟨fun metric => congrFun flags metric, perf⟩
  · rintro ⟨flags, perf⟩
    refine ⟨funext flags, perf, rfl, ?_⟩
    intro i h
    have has := complete i h
    simp only [follow]
    rw [assign_of_some a.coreEventDesc has, assign_of_some b.coreEventDesc has]

theorem flags_iff (s : CoreState) (flags : List Metric) :
    (∀ metric, (s.available metric || decide (metric ∈ flags)) =
      (false || decide (metric ∈ flags))) ↔
      ∀ metric, s.available metric = true → metric ∈ flags := by
  refine forall_congr' fun metric => ?_
  cases s.available metric <;> simp

theorem perf_iff (perf drops : Bool) :
    (perf && !drops) = (true && !drops) ↔ (perf = false → drops = true) := by
  cases perf <;> cases drops <;> simp

/-- The extended mode sets the number of counters, at most. -/
theorem selectEvents_extended (inst : Instance) (p : Option ExtendedDescription) (s : CoreState) :
    s.selectEvents inst (.extCustomCoreEvents p) = some { s with
      coreGenCounterNumUsed :=
        (p.bind ExtendedDescription.counters).getD s.coreGenCounterNumUsed } := by
  cases p with
  | none => rfl
  | some desc =>
      simp only [selectEvents, Option.bind_some, ExtendedDescription.counters]
      split <;> rfl

/-- Following a plan, from any state and from a fresh one. -/
theorem observe_planned_iff {inst : Instance} {call call' : Call} {s : CoreState} {w : Option Int}
    {plan : EventPlan} (complete : plan.Complete) (flags : call.request.flags inst = plan.flags)
    (planned : ∀ p, call.request ≠ .extCustomCoreEvents p)
    (drops : inst.dropsPerf call' = inst.dropsPerf call) (mode : ProgramMode) :
    (((s.prepare inst call).setMode mode).follow plan).observe =
        ((((fresh w).prepare inst call').setMode mode).follow plan).observe ↔
      NothingStale inst call s := by
  rw [observe_follow_iff complete]
  have available := flags_iff s plan.flags
  have perf := perf_iff s.canUsePerf (inst.dropsPerf call)
  simp only [setMode, prepare_available, prepare_canUsePerf, drops, fresh]
  rw [available, perf]
  constructor
  · rintro ⟨sets, latched⟩
    exact ⟨flags ▸ sets, latched, fun p ext => absurd ext (planned p)⟩
  · intro fine
    exact ⟨flags ▸ fine.flags, fine.perf⟩

/-- The number of counters and the event table in extended mode, against those of a fresh state. -/
theorem extended_events_iff (counters : Option Nat) (s : CoreState) :
    (counters.getD s.coreGenCounterNumUsed = counters.getD 0 ∧
        ∀ i < counters.getD s.coreGenCounterNumUsed, s.coreEventDesc i = {}) ↔
      match counters with
      | some n => ∀ i < n, s.coreEventDesc i = {}
      | none => s.coreGenCounterNumUsed = 0 := by
  cases counters with
  | some n =>
      rw [Option.getD_some, Option.getD_some]
      exact and_iff_right rfl
  | none =>
      rw [Option.getD_none, Option.getD_none]
      constructor
      · exact fun h => h.1
      · intro zero
        refine ⟨zero, fun i h => ?_⟩
        rw [zero] at h
        omega

/-- The extended mode, from any state and from a fresh one. -/
theorem observe_extended_iff {inst : Instance} {call call' : Call} {s : CoreState} {w : Option Int}
    {p : Option ExtendedDescription} (request : call.request = .extCustomCoreEvents p)
    (drops : inst.dropsPerf call' = inst.dropsPerf call) (mode : ProgramMode) :
    (((s.prepare inst call).setMode mode).selectEvents inst (.extCustomCoreEvents p)).map observe =
        ((((fresh w).prepare inst call').setMode mode).selectEvents inst
          (.extCustomCoreEvents p)).map observe ↔
      NothingStale inst call s := by
  have perf := perf_iff s.canUsePerf (inst.dropsPerf call)
  have events := extended_events_iff (p.bind ExtendedDescription.counters) s
  have flags : (s.available = fun _ => false) ↔
      ∀ metric, s.available metric = true → metric ∈ call.request.flags inst := by
    rw [funext_iff, request]
    refine forall_congr' fun metric => ?_
    cases s.available metric <;> simp [Request.flags]
  rw [selectEvents_extended, selectEvents_extended, Option.map_some, Option.map_some,
    Option.some.injEq, observation_ext]
  simp only [setMode, prepare_available, prepare_canUsePerf, prepare_numUsed,
    prepare_coreEventDesc, drops, fresh, perf, events, flags]
  constructor
  · rintro ⟨sets, latched, fresh⟩
    refine ⟨sets, latched, fun q ext => ?_⟩
    obtain rfl : p = q := by simpa [request] using ext
    exact fresh
  · intro fine
    exact ⟨fine.flags, fine.perf, fine.events p request⟩

/-- The choice of events, from any state and from a fresh one. -/
theorem observe_chosen_iff {inst : Instance} {call call' : Call} {s after freshAfter : CoreState}
    {w : Option Int} (request : call'.request = call.request)
    (drops : inst.dropsPerf call' = inst.dropsPerf call)
    (events : s.chosen inst call = some after)
    (freshEvents : (fresh w).chosen inst call' = some freshAfter) :
    after.observe = freshAfter.observe ↔ NothingStale inst call s := by
  unfold chosen at events freshEvents
  rw [request] at freshEvents
  cases req : call.request with
  | defaultEvents has | invalidMode has =>
      rw [req] at events freshEvents
      obtain rfl := Option.some.inj events
      obtain rfl := Option.some.inj freshEvents
      exact observe_planned_iff (defaultPlan_complete inst) (by rw [req]; rfl) (by simp [req]) drops _
  | customCoreEvents p =>
      rw [req] at events freshEvents
      cases p with
      | none => simp [selectEvents] at events
      | some desc =>
          have flags : call.request.flags inst = (inst.customPlan desc).flags := by
            rw [req]
            unfold Request.flags Instance.customPlan
            dsimp only
            split_ifs <;> rfl
          obtain rfl := Option.some.inj events
          obtain rfl := Option.some.inj freshEvents
          exact observe_planned_iff (customPlan_complete inst desc) flags (by simp [req]) drops _
  | extCustomCoreEvents p =>
      rw [req] at events freshEvents
      have extended := observe_extended_iff (s := s) (w := w) req drops
        (Request.extCustomCoreEvents p).mode
      rw [events, freshEvents, Option.map_some, Option.map_some, Option.some.injEq] at extended
      exact extended

/-- After any calls, a successful call leaves what it leaves alone on a fresh instance exactly
when nothing that the calls before it have left is stale. The PMU of the fresh instance is not in
use. -/
theorem program_forgets_iff (inst : Instance) (w w' : Option Int) (calls : List Call) (last : Call)
    (success : (((fresh w).run inst calls).program inst last).1 = .success) :
    (((fresh w).run inst calls).program inst last).2.observe =
        ((fresh w').program inst { last with pmuInUse := false }).2.observe ↔
      NothingStale inst last ((fresh w).run inst calls) := by
  obtain ⟨reaches, after, events⟩ := reachesEvents_of_success success
  have msr := reaches.msr
  have reachesFresh : ReachesEvents inst { last with pmuInUse := false } (fresh w') := by
    have drops : inst.dropsPerf { last with pmuInUse := false } = inst.dropsPerf last := rfl
    refine ⟨reaches.access, ?_, by simp⟩
    rw [drops]
    cases noMSR : inst.noMSRMode with
    | false => simp
    | true =>
        rw [noMSR] at msr
        cases dropped : inst.dropsPerf last with
        | false => rfl
        | true => simp [dropped] at msr
  have chooses : ∃ freshAfter,
      (fresh w').chosen inst { last with pmuInUse := false } = some freshAfter := by
    unfold chosen at events ⊢
    cases req : last.request with
    | customCoreEvents p =>
        rw [req] at events
        cases p with
        | none => simp [selectEvents] at events
        | some desc => exact ⟨_, rfl⟩
    | extCustomCoreEvents p => exact ⟨_, selectEvents_extended inst p _⟩
    | defaultEvents has => exact ⟨_, rfl⟩
    | invalidMode has => exact ⟨_, rfl⟩
  obtain ⟨freshAfter, freshEvents⟩ := chooses
  rw [reaches.observe_program events, reachesFresh.observe_program freshEvents]
  exact observe_chosen_iff rfl rfl events freshEvents

/-! ## Default events, then custom ones -/

/-- A Skylake server, read directly. -/
def skylakeServer : Instance where
  cpuFamilyModel := .SKX
  coreGenCounterNumMax := 8
  cores := [⟨true, false⟩]
  noPerf := true

def defaultCall : Call := { request := .defaultEvents false }

def customCall : Call := { request := .customCoreEvents (some fun i => ⟨BitVec.ofNat 32 i, 1⟩) }

theorem program_forgets_iff_same_mode :
    (((fresh none).run skylakeServer [defaultCall]).program skylakeServer defaultCall).1 = .success ∧
    (((fresh none).run skylakeServer [defaultCall]).program skylakeServer defaultCall).2.observe =
      ((fresh none).program skylakeServer { defaultCall with pmuInUse := false }).2.observe := by
  have success : (((fresh none).run skylakeServer [defaultCall]).program skylakeServer
      defaultCall).1 = .success := by decide
  refine ⟨success, (program_forgets_iff skylakeServer none none [defaultCall] defaultCall
    success).mpr ⟨?_, ?_, ?_⟩⟩
  · intro metric
    cases metric <;> decide
  · decide
  · intro p ext
    simp [defaultCall] at ext

/-- After the default events, custom events leave the L2 miss metric available: it now reports
whatever the third custom event counts. -/
theorem program_keeps_stale_flags :
    (((fresh none).run skylakeServer [defaultCall]).program skylakeServer customCall).1 = .success ∧
    (((fresh none).run skylakeServer [defaultCall]).program skylakeServer customCall).2.available
      .l2CacheMisses = true ∧
    ((fresh none).program skylakeServer { customCall with pmuInUse := false }).2.available
      .l2CacheMisses = false ∧
    (((fresh none).run skylakeServer [defaultCall]).program skylakeServer customCall).2.observe ≠
      ((fresh none).program skylakeServer { customCall with pmuInUse := false }).2.observe := by
  have stale : (((fresh none).run skylakeServer [defaultCall]).program skylakeServer
      customCall).2.available .l2CacheMisses = true := by decide
  have clean : ((fresh none).program skylakeServer
      { customCall with pmuInUse := false }).2.available .l2CacheMisses = false := by decide
  refine ⟨by decide, stale, clean, ?_⟩
  intro same
  have flag := congrFun (congrArg Observation.available same) .l2CacheMisses
  simp only [observe, stale, clean] at flag
  exact Bool.noConfusion flag

end CoreState

end Pcm

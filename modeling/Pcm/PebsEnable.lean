import Pcm.Lib.Accumulate
import Pcm.ProgramHistory

/-!
# IA32_PEBS_ENABLE

Which cores a call of `program` enables for load latency samples, and when `cleanupPMU` takes that
back. The flag `cleanupPEBS` remembers that some core was enabled; `cleanupPMU` does not get to it
while Linux perf is in use.
-/

namespace Pcm

namespace CoreState

/-- The state in which a call comes to the cores, if it does. -/
def beforeCores (inst : Instance) (call : Call) (s : CoreState) : Option CoreState :=
  if inst.noMsrAccess then none
  else if !(s.prepare inst call).canUsePerf && inst.noMSRMode then none
  else if !(s.prepare inst call).programmedCorePMU && !(s.prepare inst call).canUsePerf &&
      call.pmuInUse then none
  else match s.chosen inst call with
    | none => none
    | some after => if after.accepts inst call then some after else none

/-- `programCoreCounters` writes `IA32_PEBS_ENABLE` of the core. -/
def writesPebs (inst : Instance) (call : Call) (s : CoreState) (core : Nat × CoreInfo) : Bool :=
  !(s.canUsePerf && !call.perfOpens core.1) && s.pebsValue inst call.request core.2 ≠ 0

/-- The cores on which a call writes `IA32_PEBS_ENABLE`; the values are never zero. -/
def pebsWrites (inst : Instance) (call : Call) (s : CoreState) : List Nat :=
  match s.beforeCores inst call with
  | none => []
  | some before => (inst.onlineCores.filter (before.writesPebs inst call)).map Prod.fst

/-- The members on which the cleanup of PEBS depends. -/
def pebsFlags (s : CoreState) : Bool × Bool := (s.canUsePerf, s.cleanupPEBS)

/-- The members of a state from which `pebsValue` is computed. -/
def eventTables (s : CoreState) : Bool × Nat × (Nat → EventDescription) × (Nat → EventDescription) :=
  (s.canUsePerf, s.coreGenCounterNumUsed, s.coreEventDesc, s.hybridAtomEventDesc)

/-! ## The cores -/

section Cores

variable (inst : Instance) (call : Call)

theorem eventTables_programCoreCounters (s : CoreState) (core : Nat × CoreInfo) :
    (s.programCoreCounters inst call core.1 core.2).eventTables = s.eventTables := by
  unfold programCoreCounters
  split
  · rfl
  · split <;> rfl

theorem writesPebs_of_eventTables {s t : CoreState} (same : t.eventTables = s.eventTables)
    (core : Nat × CoreInfo) : t.writesPebs inst call core = s.writesPebs inst call core := by
  simp only [eventTables, Prod.mk.injEq] at same
  obtain ⟨perf, num, events, atom⟩ := same
  unfold writesPebs pebsValue eventOf
  rw [perf, num, events, atom]

theorem programCoreCounters_eq (s : CoreState) (core : Nat × CoreInfo) :
    s.programCoreCounters inst call core.1 core.2 =
      if s.writesPebs inst call core then
        { s with
          cleanupPEBS := true
          pebsEnable := fun k =>
            if k = core.1 then s.pebsValue inst call.request core.2 else s.pebsEnable k }
      else s := by
  unfold programCoreCounters writesPebs
  by_cases rejected : s.canUsePerf && !call.perfOpens core.1
  · simp [rejected]
  · by_cases zero : s.pebsValue inst call.request core.2 = 0
    · simp [zero]
    · simp [rejected]

/-- The loop over the cores sets the flag if it writes the register of any of them. -/
theorem cleanupPEBS_foldl (cores : List (Nat × CoreInfo)) (s : CoreState) :
    (cores.foldl (fun s core => s.programCoreCounters inst call core.1 core.2) s).cleanupPEBS =
      (s.cleanupPEBS || cores.any (s.writesPebs inst call)) := by
  induction cores generalizing s with
  | nil => simp
  | cons core cores ih =>
      have rest : (s.programCoreCounters inst call core.1 core.2).writesPebs inst call =
          s.writesPebs inst call :=
        funext fun _ => writesPebs_of_eventTables inst call
          (eventTables_programCoreCounters inst call s core) _
      rw [List.foldl_cons, ih, rest, List.any_cons, programCoreCounters_eq, ← Bool.or_assoc]
      split
      · next writes => simp [writes]
      · next writes => simp [writes]

theorem programCores_eq (s : CoreState) :
    (s.programCores inst call).2.pebsFlags =
        (s.canUsePerf, s.cleanupPEBS || inst.onlineCores.any (s.writesPebs inst call)) ∧
      (s.programCores inst call).2.pebsEnable =
        (inst.onlineCores.foldl (fun s core => s.programCoreCounters inst call core.1 core.2)
          s).pebsEnable := by
  have tables := Accumulate.observe_foldl_const eventTables
    (fun s core => s.programCoreCounters inst call core.1 core.2) inst.onlineCores
    (fun s c _ => eventTables_programCoreCounters inst call s c) s
  have perf := congrArg Prod.fst tables
  unfold programCores pebsFlags
  simp only
  split
  · refine ⟨Prod.ext perf ?_, rfl⟩
    exact cleanupPEBS_foldl inst call inst.onlineCores s
  · refine ⟨Prod.ext perf ?_, rfl⟩
    exact cleanupPEBS_foldl inst call inst.onlineCores s

end Cores

/-! ## One call -/

section Call

variable (inst : Instance) (call : Call) (s : CoreState)

/-- The choice of events leaves the PEBS members alone. -/
theorem pebs_chosen {after : CoreState} (events : s.chosen inst call = some after) :
    after.pebsFlags = (s.canUsePerf && !inst.dropsPerf call, s.cleanupPEBS) ∧
      after.pebsEnable = s.pebsEnable := by
  have prepared : ((s.prepare inst call).setMode call.request.mode).pebsFlags =
      (s.canUsePerf && !inst.dropsPerf call, s.cleanupPEBS) ∧
      ((s.prepare inst call).setMode call.request.mode).pebsEnable = s.pebsEnable := by
    unfold prepare disableNMIWatchdog
    split
    · exact ⟨rfl, rfl⟩
    · exact ⟨rfl, rfl⟩
  unfold chosen selectEvents at events
  split at events
  · simp at events
  · rw [← Option.some.inj events]
    exact prepared
  · split at events
    · rw [← Option.some.inj events]
      exact prepared
    · rw [← Option.some.inj events]
      exact prepared
  · rw [← Option.some.inj events]
    exact prepared
  · rw [← Option.some.inj events]
    exact prepared
  · rw [← Option.some.inj events]
    exact prepared

/-- A call that does not come to the cores leaves the register and the flag alone. -/
theorem program_of_not_before (none : s.beforeCores inst call = none) :
    (s.program inst call).2.pebsFlags =
        (s.canUsePerf && (inst.noMsrAccess || !inst.dropsPerf call), s.cleanupPEBS) ∧
      (s.program inst call).2.pebsEnable = s.pebsEnable := by
  have disabled : (s.disableNMIWatchdog inst).pebsFlags = s.pebsFlags ∧
      (s.disableNMIWatchdog inst).pebsEnable = s.pebsEnable := by
    unfold disableNMIWatchdog
    split
    · exact ⟨rfl, rfl⟩
    · exact ⟨rfl, rfl⟩
  have prepared : (s.prepare inst call).pebsFlags =
      (s.canUsePerf && !inst.dropsPerf call, s.cleanupPEBS) ∧
      (s.prepare inst call).pebsEnable = s.pebsEnable := by
    unfold prepare disableNMIWatchdog
    split
    · exact ⟨rfl, rfl⟩
    · exact ⟨rfl, rfl⟩
  unfold beforeCores chosen at none
  unfold program
  cases access : inst.noMsrAccess with
  | true => simpa [access, pebsFlags] using disabled
  | false =>
      simp only [access, Bool.false_eq_true, if_false, Bool.false_or] at none ⊢
      split
      · exact prepared
      · next msr =>
          split
          · exact prepared
          · next free =>
              rw [if_neg msr, if_neg free] at none
              split
              · exact prepared
              · next after events =>
                  rw [events] at none
                  split
                  · next accepted => simp [accepted] at none
                  · exact pebs_chosen inst call s events

theorem program_of_before {before : CoreState} (some : s.beforeCores inst call = some before) :
    s.program inst call = before.programCores inst call ∧ s.chosen inst call = .some before ∧
      inst.noMsrAccess = false := by
  unfold beforeCores at some
  split at some
  · simp at some
  · next access =>
      split at some
      · simp at some
      · next msr =>
          split at some
          · simp at some
          · next free =>
              split at some
              · simp at some
              · next after events =>
                  split at some
                  · next accepted =>
                      obtain rfl := Option.some.inj some
                      refine ⟨?_, events, by simpa using access⟩
                      unfold chosen at events
                      unfold program
                      simp only [access, if_neg msr, if_neg free, events, if_pos accepted,
                        Bool.false_eq_true, if_false]
                  · simp at some

/-- What a call does to the PEBS members, in terms of the registers it writes. -/
theorem pebsFlags_program :
    (s.program inst call).2.pebsFlags =
      (s.canUsePerf && (inst.noMsrAccess || !inst.dropsPerf call),
        s.cleanupPEBS || !(s.pebsWrites inst call).isEmpty) := by
  unfold pebsWrites
  cases before : s.beforeCores inst call with
  | none =>
      rw [(program_of_not_before inst call s before).1]
      simp
  | some after =>
      obtain ⟨programmed, events, access⟩ := program_of_before inst call s before
      obtain ⟨flags, -⟩ := pebs_chosen inst call s events
      rw [programmed, (programCores_eq inst call after).1]
      simp only [pebsFlags, Prod.mk.injEq] at flags
      rw [flags.1, flags.2, access, Bool.false_or]
      congr 2
      rw [Bool.eq_iff_iff]
      simp [List.filter_eq_nil_iff]

theorem pebsWrites_lt {i : Nat} (mem : i ∈ s.pebsWrites inst call) : i < inst.cores.length := by
  unfold pebsWrites at mem
  split at mem
  · simp at mem
  · obtain ⟨core, online, rfl⟩ := List.mem_map.mp mem
    have zipped := List.mem_of_mem_filter (List.mem_of_mem_filter online)
    exact List.mem_range.mp (List.of_mem_zip zipped).1

end Call

/-! ## Cleaning up -/

/-- Without perf, a set flag clears the register on all cores. -/
theorem pebsEnable_cleanup {inst : Instance} {s : CoreState} (access : inst.noMsrAccess = false)
    (flags : s.pebsFlags = (false, true)) {i : Nat} (bound : i < inst.cores.length) :
    (s.cleanup inst).pebsEnable i = 0 := by
  simp only [pebsFlags, Prod.mk.injEq] at flags
  have cleared : (s.cleanupPMU inst).pebsEnable i = 0 := by
    simp [cleanupPMU, flags.1, flags.2, bound]
  unfold cleanup
  rw [if_neg (by simp [access])]
  simp only
  split
  · exact cleared
  · exact cleared

end CoreState

end Pcm

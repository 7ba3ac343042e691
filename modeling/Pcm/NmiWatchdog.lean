import Pcm.CoreProgram
import Pcm.Lib.Accumulate

/-!
# The NMI watchdog

`program` switches the NMI watchdog off before anything else and notes that in
`needToRestoreNMIWatchdog`; `cleanup` switches it on again, unless it returns first because there is
no access to MSRs. Nothing between the two touches either, whatever the outcome.
-/

namespace Pcm.CoreState

/-- A call of one of the two forms of `program`. -/
inductive Step
  | program (call : Call)
  | programRaw (configs : RawPMUConfigs) (call : Call)

def Step.isProgram : Step → Bool
  | program _ => true
  | programRaw .. => false

def step (inst : Instance) (s : CoreState) : Step → CoreState
  | .program call => (s.program inst call).2
  | .programRaw configs call => (s.programRaw inst configs call).2

/-- The state after a sequence of calls. -/
def steps (inst : Instance) (s : CoreState) (calls : List Step) : CoreState :=
  calls.foldl (step inst) s

/-- The watchdog and the flag that asks for its restoration. -/
def watchdog (s : CoreState) : Option Int × Bool := (s.nmiWatchdog, s.needToRestoreNMIWatchdog)

/-! ## One call -/

section Call

variable (inst : Instance) (call : Call) (s : CoreState)

theorem watchdog_prepare : (s.prepare inst call).watchdog = (s.disableNMIWatchdog inst).watchdog := rfl

theorem watchdog_selectEvents {request : Request} {after : CoreState}
    (events : s.selectEvents inst request = some after) : after.watchdog = s.watchdog := by
  unfold selectEvents at events
  split at events
  · simp at events
  · rw [← Option.some.inj events]
    rfl
  · split at events
    · rw [← Option.some.inj events]
      rfl
    · rw [← Option.some.inj events]
  · rw [← Option.some.inj events]
  · rw [← Option.some.inj events]
    rfl
  · rw [← Option.some.inj events]
    rfl

theorem watchdog_programCores : (s.programCores inst call).2.watchdog = s.watchdog := by
  have core : ∀ (s : CoreState) (core : Nat × CoreInfo),
      (s.programCoreCounters inst call core.1 core.2).watchdog = s.watchdog := by
    intro s core
    unfold programCoreCounters
    split
    · rfl
    · split <;> rfl
  have cores := Accumulate.observe_foldl_const watchdog
    (fun s core => s.programCoreCounters inst call core.1 core.2) inst.onlineCores
    (fun s c _ => core s c) s
  refine Eq.trans ?_ cores
  unfold programCores
  simp only
  split <;> rfl

/-- On every one of its exits, `program` leaves the watchdog as its first lines do. -/
theorem watchdog_program :
    (s.program inst call).2.watchdog = (s.disableNMIWatchdog inst).watchdog := by
  unfold program
  split
  · rfl
  · simp only
    split
    · exact watchdog_prepare inst call s
    · split
      · exact watchdog_prepare inst call s
      · split
        · exact watchdog_prepare inst call s
        · next after events =>
            have chosen := watchdog_selectEvents inst _ events
            split
            · rw [watchdog_programCores, chosen]
              exact watchdog_prepare inst call s
            · exact chosen.trans (watchdog_prepare inst call s)

end Call

/-- The watchdog was `w` at first, and is still so or will be restored. -/
def Restorable (w : Option Int) (s : CoreState) : Prop :=
  s.watchdog = (w, false) ∨ (w = some 1 ∧ s.watchdog = (some 0, true))

theorem Restorable.disable {w : Option Int} {s : CoreState} (inst : Instance)
    (restorable : Restorable w s) : Restorable w (s.disableNMIWatchdog inst) := by
  unfold disableNMIWatchdog isNMIWatchdogEnabled
  split
  · next enabled =>
      simp only [Bool.and_eq_true, decide_eq_true_eq] at enabled
      rcases restorable with still | ⟨-, off⟩
      · have value : s.nmiWatchdog = w := congrArg Prod.fst still
        exact Or.inr ⟨value ▸ enabled.1, rfl⟩
      · have value : s.nmiWatchdog = some 0 := congrArg Prod.fst off
        rw [value] at enabled
        simp at enabled
  · exact restorable

theorem Restorable.step {w : Option Int} {s : CoreState} (inst : Instance)
    (restorable : Restorable w s) (call : Step) : Restorable w (s.step inst call) := by
  cases call with
  | program call =>
      unfold Restorable
      simp only [CoreState.step, watchdog_program]
      exact restorable.disable inst
  | programRaw configs call =>
      simp only [CoreState.step, programRaw]
      split
      · exact restorable
      · split
        · exact restorable
        · exact restorable
        · unfold Restorable
          rw [watchdog_program]
          exact restorable.disable inst

theorem Restorable.steps {w : Option Int} {s : CoreState} (inst : Instance)
    (restorable : Restorable w s) (calls : List Step) : Restorable w (s.steps inst calls) := by
  induction calls generalizing s with
  | nil => exact restorable
  | cons call calls ih => exact ih (restorable.step inst call)

/-- With access to MSRs, `cleanup` restores the watchdog. -/
theorem Restorable.cleanup {w : Option Int} {s : CoreState} {inst : Instance}
    (restorable : Restorable w s) (access : inst.noMsrAccess = false) :
    (s.cleanup inst).nmiWatchdog = w := by
  have pmu : (s.cleanupPMU inst).watchdog = s.watchdog := by
    unfold cleanupPMU
    simp only
    split <;> rfl
  unfold CoreState.cleanup
  rw [access, if_neg Bool.false_ne_true]
  rcases restorable with still | ⟨on, off⟩
  · rw [still] at pmu
    have flag : (s.cleanupPMU inst).needToRestoreNMIWatchdog = false := congrArg Prod.snd pmu
    simp only [flag, Bool.false_eq_true, if_false]
    exact congrArg Prod.fst pmu
  · rw [off] at pmu
    have flag : (s.cleanupPMU inst).needToRestoreNMIWatchdog = true := congrArg Prod.snd pmu
    simp only [flag, if_true]
    exact on.symm

/-! ## Without access to MSRs -/

/-- The watchdog is off for good once a call in some mode has found it on. -/
theorem watchdog_steps_of_no_access {inst : Instance} (noAccess : inst.noMsrAccess = true)
    (calls : List Step) (s : CoreState) :
    (s.steps inst calls).nmiWatchdog =
      if s.isNMIWatchdogEnabled && !inst.keepNMIWatchdog && calls.any Step.isProgram then some 0
      else s.nmiWatchdog := by
  induction calls generalizing s with
  | nil => simp [steps]
  | cons call calls ih =>
      change ((s.step inst call).steps inst calls).nmiWatchdog = _
      rw [ih]
      cases call with
      | program call =>
          have first : s.step inst (.program call) = s.disableNMIWatchdog inst := by
            simp only [step, CoreState.program]
            rw [noAccess]
            rfl
          rw [first]
          unfold disableNMIWatchdog
          by_cases enabled : (s.isNMIWatchdogEnabled && !inst.keepNMIWatchdog) = true
          · simp only [enabled, if_true, Bool.true_and, List.any_cons, Step.isProgram, Bool.true_or]
            simp [isNMIWatchdogEnabled]
          · simp only [enabled, Bool.false_and, if_false, Bool.false_eq_true]
      | programRaw configs call =>
          have nothing : s.step inst (.programRaw configs call) = s := by
            simp only [step, programRaw]
            rw [noAccess]
            rfl
          rw [nothing]
          simp [Step.isProgram]

/-- After any calls and `cleanup` the watchdog is as it was exactly when there is access to MSRs,
or it was not on, or it is to be kept, or no call in some mode was made. -/
theorem watchdog_restored_iff (inst : Instance) (w : Option Int) (calls : List Step) :
    ((CoreState.steps inst { nmiWatchdog := w } calls).cleanup inst).nmiWatchdog = w ↔
      inst.noMsrAccess = false ∨ w ≠ some 1 ∨ inst.keepNMIWatchdog = true ∨
        ∀ call ∈ calls, call.isProgram = false := by
  cases access : inst.noMsrAccess with
  | false =>
      have start : Restorable w ({ nmiWatchdog := w } : CoreState) := Or.inl rfl
      exact iff_of_true ((start.steps inst calls).cleanup access) (Or.inl rfl)
  | true =>
      have stays : ∀ s : CoreState, s.cleanup inst = s := by
        intro s
        unfold CoreState.cleanup
        rw [access]
        rfl
      rw [stays, watchdog_steps_of_no_access access]
      simp only [isNMIWatchdogEnabled, Bool.true_eq_false, false_or]
      by_cases on : w = some 1
      · subst on
        cases inst.keepNMIWatchdog with
        | true => simp
        | false =>
            by_cases programmed : calls.any Step.isProgram = true
            · have someProgram : ¬ ∀ call ∈ calls, call.isProgram = false := by
                intro none
                obtain ⟨call, mem, is⟩ := List.any_eq_true.mp programmed
                rw [none call mem] at is
                exact Bool.noConfusion is
              simp [programmed, someProgram]
            · have none : ∀ call ∈ calls, call.isProgram = false := by
                intro call mem
                by_contra is
                exact programmed (List.any_eq_true.mpr ⟨call, mem, by simpa using is⟩)
              simpa [programmed] using none
      · simp [on]

/-- A machine without access to MSRs. -/
def unprivileged : Instance where
  cpuFamilyModel := .SKX
  noMsrAccess := true
  coreGenCounterNumMax := 8
  cores := [⟨true, false⟩]

/-- One call there returns at once and leaves the watchdog off. -/
theorem watchdog_left_off :
    ((CoreState.steps unprivileged { nmiWatchdog := some 1 }
      [.program { request := .defaultEvents false }]).cleanup unprivileged).nmiWatchdog = some 0 ∧
    ¬ ((CoreState.steps unprivileged { nmiWatchdog := some 1 }
      [.program { request := .defaultEvents false }]).cleanup unprivileged).nmiWatchdog = some 1 := by
  decide

end Pcm.CoreState

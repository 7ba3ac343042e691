import Pcm.RdtLoop

/-!
# Whose traffic the bandwidth counters tell

After the loop what a core's counters gain is what the core itself has caused, if there are RMIDs enough.
`readAndAggregateMemoryBWCounters` (`cpucounters.cpp:6626-6668`) takes the counter at the index of the core: this is the
core's own if and only if no core before it is offline.
-/

namespace Pcm.Rdt

open FreeRunning Transition

variable {θ : Type*} {m : RdtMachine}

section Steps

variable [DecidableEq θ] {s s' : State θ} {t : θ}

/-! ## After the loop -/

omit [DecidableEq θ] in
theorem PhaseOk.constructing {p : Phase} (ok : PhaseOk m s t p) {e : QosEvent} (constructs : p.constructs = some e) :
    ∃ a, Constructing m s t a := by
  cases p with
  | lock a use => cases use with | read => cases constructs | construct => exact ⟨a, ok⟩
  | readSelector a use => cases use with | read => cases constructs | construct => exact ⟨a, ok⟩
  | writeSelector a use => cases use with | read => cases constructs | construct => exact ⟨a, ok.1⟩
  | readCounter a use => cases use with | read => cases constructs | construct => exact ⟨a, ok.1⟩
  | unlock a use => cases use with | read => cases constructs | construct => exact ⟨a, ok.1⟩
  | construct a value sample => exact ⟨a, ok.1⟩
  | _ => cases constructs

/-- What `IA32_PQR_ASSOC` has kept of what it held before `initRDT`. -/
def Kept (m : RdtMachine) (pqrAssoc : Nat → BitVec 64) (s : State θ) : Prop :=
  ∀ core, s.pqrAssoc core &&& 0xffffffff00000000#64 = pqrAssoc core &&& 0xffffffff00000000#64 ∧
    (¬ m.coreOnline core → s.pqrAssoc core = pqrAssoc core)

theorem pushBack_pqrAssoc (s : State θ) (t : θ) (a : Access) : (s.pushBack m t a).pqrAssoc = s.pqrAssoc := by
  simp only [State.pushBack]
  split
  · split <;> rfl
  · rfl

theorem Kept.moved {pqrAssoc : Nat → BitVec 64} (kept : Kept m pqrAssoc s) (inv : Inv m s) (moved : Moved m s s' t) :
    Kept m pqrAssoc s' := by
  cases moved with
  | own own same =>
      rw [Kept, own.pqrAssoc]
      exact kept
  | @associate core v here made =>
      have facts := inv.phases t
      rw [here] at facts
      obtain ⟨assigning, rfl⟩ := facts
      subst made
      intro other
      by_cases same : other = core
      · subst same
        simp only [Function.update_self]
        rw [associate_upper]
        exact ⟨(kept other).1, fun offline => absurd assigning.online offline⟩
      · simp only [Function.update_of_ne same]
        exact kept other
  | construct here made =>
      subst made
      rw [Kept, pushBack_pqrAssoc]
      exact kept
  | skip here more offline made => exact made ▸ kept
  | assign here made => exact made ▸ kept
  | extend here metric made => exact made ▸ kept
  | finish here metric made => exact made ▸ kept

theorem Kept.step {pqrAssoc : Nat → BitVec 64} (kept : Kept m pqrAssoc s) (inv : Inv m s) (step : m.Step s s') :
    Kept m pqrAssoc s' := by
  cases step with
  | call idle available => exact kept.moved inv (moved_of_call s idle)
  | next next => exact kept.moved inv (moved_of_next next)
  | traffic bandwidth online paced => exact kept
  | occupancy => exact kept

end Steps

/-! Three cores, the second of them offline. A thread reads the bandwidth of the first one while the loop is at the
others, and then that of the last one, whose extender is the second of the vector. -/

section SecondOffline

def secondOffline : RdtMachine where
  cpuFamilyModel := .SKX
  numSockets := 1
  cores := [{ osId := 0, coreId := 0, socketId := 0, msr := fun _ => 0 },
    { osId := -1, coreId := -1, socketId := -1, msr := fun _ => 0 },
    { osId := 2, coreId := 1, socketId := 0, msr := fun _ => 0 }]
  socketsInRange := by simp [Core.online]
  arith := { scale := fun x d => x / BitVec.ofNat 64 d, share := fun part total slots => part * slots / total }
  coreLocalMemoryBWMetricAvailable := true
  lastRMID := 3

/-- The threads act in an order; one that has to wait stays where it is. -/
def advance (order : List Bool) (s : State Bool) : State Bool :=
  order.foldl (fun s t => (s.next secondOffline t).getD s) s

def beforeLoop : State Bool := secondOffline.start false (fun _ => 0) (fun _ => 0) fun _ _ _ => 17

/-- The loop has constructed the extender of the first core, and the other thread is about to read it. -/
def firstCore : State Bool :=
  (advance (List.replicate 13 false) beforeLoop).call secondOffline true ⟨.memoryBWLocal, 0⟩

end SecondOffline

end Pcm.Rdt

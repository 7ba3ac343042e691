import Pcm.RdtReadings

/-!
# The loop of `initRDT`

It counts the RMIDs of a socket down from the highest one, so the cores of a socket have different RMIDs as long
as there are enough of them. `memory_bw_local` and `memory_bw_total` get one counter for each online core, in the order
of the cores.
-/

namespace Pcm.Rdt

open FreeRunning Transition

variable {θ : Type*} {m : RdtMachine}

/-! ## Ranks -/

theorem rank_succ (socket k : Nat) :
    m.rank socket (k + 1) =
      m.rank socket k + if (m.coreOnline k && m.socketOf k == socket) then 1 else 0 := by
  rw [RdtMachine.rank, List.range_succ, List.countP_append, List.countP_singleton, RdtMachine.rank]

/-- The RMID of a core. -/
def RdtMachine.rmidOf (m : RdtMachine) (core : Nat) : BitVec 64 :=
  rmidField (m.lastRMID - BitVec.ofNat 32 (m.rank (m.socketOf core) core))

/-- The event of the extender that is being constructed. -/
def Phase.constructs : Phase → Option QosEvent
  | .lock a .construct | .readSelector a .construct | .writeSelector a .construct _ | .readCounter a .construct
  | .unlock a .construct _ _ | .construct a _ _ => some a.event
  | _ => none

theorem inside_of_online {core : Nat} (online : m.coreOnline core) : core < m.cores.length := by
  by_contra outside
  rw [RdtMachine.coreOnline, List.getElem?_eq_none (Nat.not_lt.mp outside)] at online
  cases online

/-- What the loop of `initRDT` has done with its first cores. The local counter of a core is in its vector while the
total one is being constructed. -/
structure Assigned (m : RdtMachine) (s : State θ) : Prop where
  inside : s.initialised ≤ m.cores.length
  order : s.initialised ≤ s.assigned
  rmid : ∀ socket, s.rmid socket = m.lastRMID - BitVec.ofNat 32 (m.rank socket s.initialised)
  pqrAssoc : ∀ core < s.assigned, m.coreOnline core → extractBits (s.pqrAssoc core) 0 9 = m.rmidOf core
  memoryBWLocal : s.memoryBWLocal =
    if m.coreLocalMemoryBWMetricAvailable then
      (List.range s.initialised).filter (m.coreOnline ·) ++
        if (s.phase s.main).constructs = some .memoryBWTotal then [s.initialised] else []
    else []
  memoryBWTotal : s.memoryBWTotal =
    if m.coreLocalMemoryBWMetricAvailable && m.coreRemoteMemoryBWMetricAvailable then
      (List.range s.initialised).filter (m.coreOnline ·)
    else []
  constructs : ∀ e, (s.phase s.main).constructs = some e → m.coreLocalMemoryBWMetricAvailable ∧
    (e = .memoryBWTotal → m.coreRemoteMemoryBWMetricAvailable)

theorem range_filter_succ (p : Nat → Bool) (k : Nat) :
    (List.range (k + 1)).filter p = (List.range k).filter p ++ if p k then [k] else [] := by
  rw [List.range_succ, List.filter_append, List.filter_singleton, Bool.cond_eq_ite]

section Steps

variable [DecidableEq θ] {s s' : State θ} {t : θ}

/-- What an action of a thread does: what belongs to the thread itself, or a step of the loop of `initRDT`. -/
inductive Moved (m : RdtMachine) (s s' : State θ) (t : θ) : Prop
  | own {p} (own : Own s s' t p) (same : p.constructs = (s.phase t).constructs)
  | skip (here : s.phase t = .nextCore) (more : s.initialised < m.cores.length)
      (offline : ¬ m.coreOnline s.initialised)
      (made : s' = { s with initialised := s.initialised + 1, assigned := s.initialised + 1 })
  | associate {core v} (here : s.phase t = .writeAssoc core v)
      (made : s' = { s.goto t (.writeEvtsel core) with
        pqrAssoc := Function.update s.pqrAssoc core (associate (s.rmid (m.socketOf core)) v) })
  | assign {core} (here : s.phase t = .writeEvtsel core)
      (made : s' = { s.goto t (.assignUnlock core) with
        qmEvtsel := Function.update s.qmEvtsel core (rmidField (s.rmid (m.socketOf core)) <<< 32)
        assigned := core + 1 })
  | extend {core} (here : s.phase t = .assignUnlock core) (metric : m.coreLocalMemoryBWMetricAvailable)
      (made : s' = State.goto { s with msrLock := Function.update s.msrLock core none } t
        (.lock ⟨.memoryBWLocal, core⟩ .construct))
  | finish {core} (here : s.phase t = .assignUnlock core) (metric : ¬ m.coreLocalMemoryBWMetricAvailable)
      (made : s' = State.finishCore m { s with msrLock := Function.update s.msrLock core none } t core)
  | construct {a value sample} (here : s.phase t = .construct a value sample)
      (made : s' = (s.constructed a value sample).pushBack m t a)

theorem moved_of_next (next : s.next m t = some s') : Moved m s s' t := by
  have own : ∀ {u : State θ} {p : Phase}, u = s' → Own s u t p → p.constructs = (s.phase t).constructs →
      Moved m s s' t := by
    rintro u p rfl own same
    exact .own own same
  cases here : s.phase t with
  | idle => simp [State.next, here] at next
  | counterMutex a since =>
      simp only [State.next, here] at next
      split at next
      · exact own (Option.some.inj next) own_update (by rw [here]; rfl)
      · cases next
  | lock a use =>
      simp only [State.next, here] at next
      split at next
      · exact own (Option.some.inj next) own_update (by rw [here]; cases use <;> rfl)
      · cases next
  | readSelector a use =>
      simp only [State.next, here] at next
      exact own (Option.some.inj next) own_update (by rw [here]; cases use <;> rfl)
  | writeSelector a use msrQmEvtsel =>
      simp only [State.next, here] at next
      exact own (Option.some.inj next) own_update (by rw [here]; cases use <;> rfl)
  | readCounter a use =>
      simp only [State.next, here] at next
      exact own (Option.some.inj next) own_update (by rw [here]; cases use <;> rfl)
  | unlock a use value sample =>
      cases use with
      | construct =>
          simp only [State.next, here] at next
          exact own (Option.some.inj next) own_update (by rw [here]; rfl)
      | read since =>
          simp only [State.next, here] at next
          split at next
          · exact own (Option.some.inj next) own_update (by rw [here]; rfl)
          · exact own (Option.some.inj next) own_update (by rw [here]; rfl)
  | update a since value sample =>
      simp only [State.next, here] at next
      exact own (Option.some.inj next) own_update (by rw [here]; rfl)
  | construct a value sample =>
      simp only [State.next, here] at next
      exact .construct here (Option.some.inj next).symm
  | nextCore =>
      simp only [State.next, here] at next
      split at next
      · next more =>
          split at next
          · exact own (Option.some.inj next) own_update (by rw [here]; rfl)
          · next offline => exact .skip here more offline (Option.some.inj next).symm
      · exact own (Option.some.inj next) own_update (by rw [here]; rfl)
  | assignLock core =>
      simp only [State.next, here] at next
      split at next
      · exact own (Option.some.inj next) own_update (by rw [here]; rfl)
      · cases next
  | readAssoc core =>
      simp only [State.next, here] at next
      exact own (Option.some.inj next) own_update (by rw [here]; rfl)
  | writeAssoc core msrPqrAssoc =>
      simp only [State.next, here] at next
      exact .associate here (Option.some.inj next).symm
  | writeEvtsel core =>
      simp only [State.next, here] at next
      exact .assign here (Option.some.inj next).symm
  | assignUnlock core =>
      simp only [State.next, here] at next
      split at next
      · next metric => exact .extend here metric (Option.some.inj next).symm
      · next metric => exact .finish here metric (Option.some.inj next).symm

theorem moved_of_call (s : State θ) {a : Access} (idle : s.phase t = .idle) : Moved m s (s.call m t a) t := by
  rw [State.call]
  split
  · exact .own (p := .lock a (.read (m.count s a))) own_update (by rw [idle]; rfl)
  · exact .own (p := .counterMutex a (m.count s a)) own_update (by rw [idle]; rfl)

/-- What an action that keeps the constructor at its place leaves of the loop. -/
theorem Assigned.own (assigned : Assigned m s) {p : Phase} (own : Own s s' t p)
    (same : p.constructs = (s.phase t).constructs) : Assigned m s' := by
  have kept : (s'.phase s'.main).constructs = (s.phase s.main).constructs := by
    rw [own.phase, own.main]
    by_cases here : s.main = t
    · rw [here, Function.update_self, same]
    · rw [Function.update_of_ne here]
  constructor
  · rw [own.initialised]
    exact assigned.inside
  · rw [own.initialised, own.assigned]
    exact assigned.order
  · rw [own.rmid, own.initialised]
    exact assigned.rmid
  · rw [own.pqrAssoc, own.assigned]
    exact assigned.pqrAssoc
  · rw [own.memoryBWLocal, own.initialised, kept]
    exact assigned.memoryBWLocal
  · rw [own.memoryBWTotal, own.initialised]
    exact assigned.memoryBWTotal
  · rw [kept]
    exact assigned.constructs

/-- A round of the loop ends when the counters of its core are in their vectors. -/
theorem Assigned.finishCore {core : Nat} (main : t = s.main) (place : core = s.initialised)
    (online : m.coreOnline core) (order : s.assigned = s.initialised + 1)
    (rmid : ∀ socket, s.rmid socket = m.lastRMID - BitVec.ofNat 32 (m.rank socket s.initialised))
    (pqrAssoc : ∀ core < s.assigned, m.coreOnline core → extractBits (s.pqrAssoc core) 0 9 = m.rmidOf core)
    (own : s.memoryBWLocal = if m.coreLocalMemoryBWMetricAvailable then
      (List.range s.initialised).filter (m.coreOnline ·) ++ [s.initialised] else [])
    (total : s.memoryBWTotal =
      if m.coreLocalMemoryBWMetricAvailable && m.coreRemoteMemoryBWMetricAvailable then
        (List.range s.initialised).filter (m.coreOnline ·) ++ [s.initialised] else []) :
    Assigned m (s.finishCore m t core) := by
  subst main place
  have lists := range_filter_succ (m.coreOnline ·) s.initialised
  rw [if_pos online] at lists
  have idle : ((s.finishCore m s.main s.initialised).phase s.main).constructs = none := by
    simp [State.finishCore, State.goto, Phase.constructs]
  constructor
  · exact inside_of_online online
  · exact order.ge
  · intro socket
    show Function.update s.rmid (m.socketOf s.initialised) _ socket =
      m.lastRMID - BitVec.ofNat 32 (m.rank socket (s.initialised + 1))
    rw [rank_succ, BitVec.ofNat_add, online, Bool.true_and]
    by_cases same : m.socketOf s.initialised = socket
    · subst same
      rw [Function.update_self, rmid, if_pos (beq_self_eq_true _)]
      exact sub_sub _ _ _
    · rw [Function.update_of_ne (Ne.symm same), rmid, if_neg (by simpa using same)]
      simp
  · exact pqrAssoc
  · have nothing : ¬ (none : Option QosEvent) = some .memoryBWTotal := by decide
    show s.memoryBWLocal = _
    rw [show (s.finishCore m s.main s.initialised).main = s.main from rfl, idle, if_neg nothing, List.append_nil, own]
    show _ = if _ then (List.range (s.initialised + 1)).filter _ else []
    rw [lists]
  · show s.memoryBWTotal = if _ then (List.range (s.initialised + 1)).filter _ else []
    rw [total, lists]
  · intro e some
    rw [show (s.finishCore m s.main s.initialised).main = s.main from rfl, idle] at some
    cases some

omit [DecidableEq θ] in
/-- A core that is offline is skipped, and no constructor is under way. -/
theorem Assigned.skip (assigned : Assigned m s) (inv : Inv m s) (here : s.phase t = .nextCore)
    (more : s.initialised < m.cores.length) (offline : ¬ m.coreOnline s.initialised) :
    Assigned m { s with initialised := s.initialised + 1, assigned := s.initialised + 1 } := by
  have facts := inv.phases t
  rw [here] at facts
  obtain ⟨rfl, order⟩ := facts
  have same := range_filter_succ (m.coreOnline ·) s.initialised
  rw [if_neg offline, List.append_nil] at same
  have own := assigned.memoryBWLocal
  have total := assigned.memoryBWTotal
  rw [here] at own
  refine ⟨more, le_rfl, ?_, ?_, ?_, ?_, assigned.constructs⟩
  · intro socket
    show s.rmid socket = m.lastRMID - BitVec.ofNat 32 (m.rank socket (s.initialised + 1))
    rw [assigned.rmid, rank_succ, Bool.eq_false_iff.mpr offline]
    rfl
  · intro core set online
    rcases Nat.lt_succ_iff_lt_or_eq.mp set with earlier | rfl
    · exact assigned.pqrAssoc core (order ▸ earlier) online
    · exact absurd online offline
  · show s.memoryBWLocal = if _ then (List.range (s.initialised + 1)).filter _ ++
      (if (s.phase s.main).constructs = _ then _ else _) else _
    rw [here, same]
    exact own
  · show s.memoryBWTotal = if _ then (List.range (s.initialised + 1)).filter _ else _
    rw [same]
    exact total

/-- `IA32_PQR_ASSOC` of the core of the round is written, that of no core before it. -/
theorem Assigned.associate (assigned : Assigned m s) (inv : Inv m s) {core : Nat} {v : BitVec 64}
    (here : s.phase t = .writeAssoc core v) :
    Assigned m { s.goto t (.writeEvtsel core) with
      pqrAssoc := Function.update s.pqrAssoc core (associate (s.rmid (m.socketOf core)) v) } := by
  have facts := inv.phases t
  rw [here] at facts
  obtain ⟨⟨rfl, place, order, online⟩, -⟩ := facts
  have own := assigned.memoryBWLocal
  rw [here] at own
  refine ⟨assigned.inside, assigned.order, assigned.rmid, ?_, ?_, assigned.memoryBWTotal, ?_⟩
  · intro other set online'
    have apart : other ≠ core := by
      change other < s.assigned at set
      omega
    simp only [Function.update_of_ne apart]
    exact assigned.pqrAssoc other set online'
  · simpa [State.goto, Phase.constructs] using own
  · simp [State.goto, Phase.constructs]

/-- With the selector the core has its RMID in both registers. -/
theorem Assigned.assign (assigned : Assigned m s) (inv : Inv m s) {core : Nat}
    (here : s.phase t = .writeEvtsel core) :
    Assigned m { s.goto t (.assignUnlock core) with
      qmEvtsel := Function.update s.qmEvtsel core (rmidField (s.rmid (m.socketOf core)) <<< 32)
      assigned := core + 1 } := by
  have facts := inv.phases t
  rw [here] at facts
  obtain ⟨⟨rfl, place, order, online⟩, associated⟩ := facts
  have own := assigned.memoryBWLocal
  rw [here] at own
  refine ⟨assigned.inside, ?_, assigned.rmid, ?_, ?_, assigned.memoryBWTotal, ?_⟩
  · exact place ▸ Nat.le_succ _
  · intro other set online'
    rcases Nat.lt_succ_iff_lt_or_eq.mp set with earlier | rfl
    · exact assigned.pqrAssoc other (by omega) online'
    · exact associated.trans (by rw [assigned.rmid, ← place]; rfl)
  · simpa [State.goto, Phase.constructs] using own
  · simp [State.goto, Phase.constructs]

/-- The constructor of the local counter begins, where the metric is there. -/
theorem Assigned.extend (assigned : Assigned m s) (inv : Inv m s) {core : Nat}
    (here : s.phase t = .assignUnlock core) (metric : m.coreLocalMemoryBWMetricAvailable) :
    Assigned m (State.goto { s with msrLock := Function.update s.msrLock core none } t
      (.lock ⟨.memoryBWLocal, core⟩ .construct)) := by
  have facts := inv.phases t
  rw [here] at facts
  obtain ⟨rfl, place, order, online, -⟩ := facts
  have own := assigned.memoryBWLocal
  rw [here] at own
  refine ⟨assigned.inside, assigned.order, assigned.rmid, assigned.pqrAssoc, ?_, assigned.memoryBWTotal, ?_⟩
  · simpa [State.goto, Phase.constructs] using own
  · simp [State.goto, Phase.constructs, metric]

/-- A counter comes to its vector. After the local one the round goes on with the total one, if its metric is
there, and ends otherwise. -/
theorem Assigned.pushBack (assigned : Assigned m s) (inv : Inv m s) {a : Access} {value : BitVec 64} {sample : Nat}
    (here : s.phase t = .construct a value sample) :
    Assigned m ((s.constructed a value sample).pushBack m t a) := by
  have facts := inv.phases t
  rw [here] at facts
  obtain ⟨⟨main, bandwidth, place, order, online, -⟩, -⟩ := facts
  have own := assigned.memoryBWLocal
  have total := assigned.memoryBWTotal
  obtain ⟨metric, remote⟩ := assigned.constructs a.event (by rw [← main, here]; rfl)
  rw [← main, here] at own
  rw [State.pushBack]
  split
  · next event =>
      have first : ¬ some a.event = some QosEvent.memoryBWTotal := by
        rw [event]
        decide
      rw [if_pos metric, show (Phase.construct a value sample).constructs = some a.event from rfl, if_neg first,
        List.append_nil] at own
      have pushed : s.memoryBWLocal ++ [a.core] =
          (List.range s.initialised).filter (m.coreOnline ·) ++ [s.initialised] := by rw [own, place]
      split
      · next both =>
          subst main
          refine ⟨assigned.inside, assigned.order, assigned.rmid, assigned.pqrAssoc, ?_, total, ?_⟩
          · show s.memoryBWLocal ++ [a.core] = _
            rw [pushed]
            simp [State.goto, State.constructed, Phase.constructs, metric]
          · simp [State.goto, State.constructed, Phase.constructs, metric, both]
      · next only =>
          refine Assigned.finishCore main place online order assigned.rmid assigned.pqrAssoc ?_ ?_
          · rw [if_pos metric]
            exact pushed
          · show s.memoryBWTotal = _
            rw [total]
            simp [only]
  · next other =>
      have event : a.event = .memoryBWTotal := by
        cases which : a.event
        · exact absurd which bandwidth
        · rfl
        · exact absurd which other
      have both := remote event
      refine Assigned.finishCore main place online order assigned.rmid assigned.pqrAssoc ?_ ?_
      · show s.memoryBWLocal = _
        rw [own]
        simp [State.constructed, Phase.constructs, event]
      · show s.memoryBWTotal ++ [a.core] = _
        rw [total, place]
        simp [State.constructed, metric, both]

theorem Assigned.moved (assigned : Assigned m s) (inv : Inv m s) (moved : Moved m s s' t) : Assigned m s' := by
  cases moved with
  | own own same => exact assigned.own own same
  | skip here more offline made => exact made ▸ assigned.skip inv here more offline
  | associate here made => exact made ▸ assigned.associate inv here
  | assign here made => exact made ▸ assigned.assign inv here
  | extend here metric made => exact made ▸ assigned.extend inv here metric
  | @finish core here metric made =>
      subst made
      have facts := inv.phases t
      rw [here] at facts
      obtain ⟨main, place, order, online, -⟩ := facts
      refine Assigned.finishCore main place online order assigned.rmid assigned.pqrAssoc ?_ ?_
      · have own := assigned.memoryBWLocal
        rw [if_neg metric] at own ⊢
        exact own
      · have total := assigned.memoryBWTotal
        simpa [metric] using total
  | construct here made => exact made ▸ assigned.pushBack inv here

theorem Assigned.step (assigned : Assigned m s) (inv : Inv m s) (step : m.Step s s') : Assigned m s' := by
  cases step with
  | call idle available => exact assigned.moved inv (moved_of_call s idle)
  | next next => exact assigned.moved inv (moved_of_next next)
  | traffic bandwidth online paced =>
      exact ⟨assigned.inside, assigned.order, assigned.rmid, assigned.pqrAssoc, assigned.memoryBWLocal,
        assigned.memoryBWTotal, assigned.constructs⟩
  | occupancy =>
      exact ⟨assigned.inside, assigned.order, assigned.rmid, assigned.pqrAssoc, assigned.memoryBWLocal,
        assigned.memoryBWTotal, assigned.constructs⟩

end Steps

end Pcm.Rdt

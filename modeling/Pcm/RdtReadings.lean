import Pcm.RdtInvariant

/-!
# What the threads read of the monitoring counters

The lock of the MSR handle keeps the selection of an event and the read of the counter together, and
`CounterMutex` keeps the samples of one extender in order. In every run what is read of `IA32_QM_CTR` is the
counter asked for, of the core's own RMID, and a bandwidth counter returns what was counted since the construction
of its extender, at a moment between the call and the return.
-/

namespace Pcm.Rdt

open FreeRunning Transition Mutex

variable {θ : Type*} {m : RdtMachine}

/-! ## The actions of the threads -/

section Threads

variable [DecidableEq θ] {s s' : State θ} {t : θ} {p : Phase}

/-- A step that takes a thread to another place in the code keeps the invariant if it keeps the facts about the
registers and the extenders and disturbs no other thread. -/
theorem Inv.move (inv : Inv m s) (grows : Grows m s s') (phase : s'.phase = Function.update s.phase t p)
    (lock : Held s'.msrLock (Function.update (Phase.inLock ∘ s.phase) t p.inLock))
    (mutex : Held s'.counterMutex (Function.update (Phase.inMutex ∘ s.phase) t p.inMutex))
    (tuned : ∀ core < s'.assigned, m.coreOnline core →
      Tuned (extractBits (s'.pqrAssoc core) 0 9) (s'.qmEvtsel core))
    (listed : ∀ a, m.available s' a → a.core < s'.assigned ∧ m.coreOnline a.core)
    (extended : ∀ a, m.Extended s' a → ExtenderOk m s' a)
    (others : ∀ u, u ≠ t → Undisturbed m s s' u (s.phase u)) (here : PhaseOk m s' t p)
    (results : ∀ r ∈ s'.results, r ∈ s.results ∨ m.available s' r.access ∧ ResultOk s' r) : Inv m s' where
  lock := by
    rw [phase, Function.comp_update]
    exact lock
  mutex := by
    rw [phase, Function.comp_update]
    exact mutex
  tuned := tuned
  listed := listed
  extended := extended
  phases := by
    intro u
    rw [phase]
    by_cases same : u = t
    · subst same
      rw [Function.update_self]
      exact here
    · rw [Function.update_of_ne same]
      exact (inv.phases u).keep inv.listed grows (others u same)
  results := by
    intro r member
    rcases results r member with before | after
    · obtain ⟨available, ok⟩ := inv.results r before
      refine ⟨grows.available _ available, ?_⟩
      rw [ResultOk, grows.base _ available]
      exact ok
    · exact after

/-- What an action of a thread leaves as it is. -/
structure Own (s s' : State θ) (t : θ) (p : Phase) : Prop where
  main : s'.main = s.main
  initialised : s'.initialised = s.initialised
  assigned : s'.assigned = s.assigned
  rmid : s'.rmid = s.rmid
  pqrAssoc : s'.pqrAssoc = s.pqrAssoc
  memoryBWLocal : s'.memoryBWLocal = s.memoryBWLocal
  memoryBWTotal : s'.memoryBWTotal = s.memoryBWTotal
  extenders : s'.extenders = s.extenders
  monitor : s'.monitor = s.monitor
  traffic : s'.traffic = s.traffic
  base : s'.base = s.base
  phase : s'.phase = Function.update s.phase t p

/-- It may change the selectors, the locks and mutexes, the extenders with their samples, and the results. -/
theorem own_update {qmEvtsel : Nat → BitVec 64} {msrLock : Nat → Option θ} {counterMutex : Access → Option θ}
    {extender : Access → CounterWidthExtender} {results : List Result} {sampled : Access → Nat} :
    Own s
      { s with
        phase := Function.update s.phase t p
        qmEvtsel := qmEvtsel
        msrLock := msrLock
        counterMutex := counterMutex
        extender := extender
        results := results
        sampled := sampled } t p :=
  ⟨rfl, rfl, rfl, rfl, rfl, rfl, rfl, rfl, rfl, rfl, rfl, rfl⟩

theorem Own.count (own : Own s s' t p) (a : Access) : m.count s' a = m.count s a := by
  rw [RdtMachine.count, own.monitor, own.pqrAssoc, RdtMachine.count]

theorem Own.available (own : Own s s' t p) (a : Access) : m.available s' a ↔ m.available s a := by
  rw [RdtMachine.available, RdtMachine.available, own.initialised, own.extenders]

theorem Own.grows (own : Own s s' t p) : Grows m s s' where
  main := own.main
  available := fun a => (own.available a).mpr
  base := fun a _ => by rw [own.base]
  pqrAssoc := fun core _ => by rw [own.pqrAssoc]
  count := fun a _ _ => (own.count a).ge

/-- An action keeps the invariant if it changes registers and extenders only while it holds them. -/
theorem Inv.action (inv : Inv m s) (own : Own s s' t p)
    (lock : Held s'.msrLock (Function.update (Phase.inLock ∘ s.phase) t p.inLock))
    (mutex : Held s'.counterMutex (Function.update (Phase.inMutex ∘ s.phase) t p.inMutex))
    (register : ∀ core, s'.qmEvtsel core = s.qmEvtsel core ∨
      (s.phase t).inLock = some core ∧ Tuned (extractBits (s.pqrAssoc core) 0 9) (s'.qmEvtsel core))
    (extender : ∀ a, (s'.sampled a = s.sampled a ∧ s'.extender a = s.extender a) ∨
      (s.phase t).inMutex = some a ∧ ExtenderOk m s' a)
    (here : PhaseOk m s' t p)
    (results : ∀ r ∈ s'.results, r ∈ s.results ∨ m.available s r.access ∧ ResultOk s' r) : Inv m s' := by
  apply inv.move own.grows own.phase lock mutex
  · intro core set online
    rw [own.assigned] at set
    rw [own.pqrAssoc]
    rcases register core with same | ⟨-, tuned⟩
    · rw [same]
      exact inv.tuned core set online
    · exact tuned
  · intro a available
    rw [own.assigned]
    exact inv.listed a ((own.available a).mp available)
  · intro a ⟨bandwidth, available⟩
    rcases extender a with ⟨sampled, same⟩ | ⟨-, ok⟩
    · have before := inv.extended a ⟨bandwidth, (own.available a).mp available⟩
      rw [ExtenderOk, own.base, sampled, same, own.count]
      exact before
    · exact ok
  · intro u other
    refine ⟨?_, ?_, fun _ => ⟨own.initialised, own.assigned, own.rmid, own.pqrAssoc, own.extenders⟩, ?_⟩
    · intro core inside
      rcases register core with same | ⟨mine, -⟩
      · exact same
      · exact absurd (inv.lock.exclusive inside mine) other
    · intro a inside
      rcases extender a with ⟨same, -⟩ | ⟨mine, -⟩
      · exact same
      · exact absurd (inv.mutex.exclusive inside mine) other
    · intro a sample taken
      rw [own.count]
      exact ((inv.phases u).pending taken).2.2
  · exact here
  · intro r member
    rcases results r member with before | ⟨available, ok⟩
    · exact .inl before
    · exact .inr ⟨(own.available _).mpr available, ok⟩

/-- An action that changes only where the thread is, outside of locks and mutexes. -/
theorem Inv.goto (inv : Inv m s) (outside : (s.phase t).inLock = none ∧ (s.phase t).inMutex = none)
    (still : p.inLock = none ∧ p.inMutex = none) (ok : PhaseOk m s t p) : Inv m (s.goto t p) := by
  have own : Own s (s.goto t p) t p := own_update
  apply inv.action own
  · rw [still.1]
    exact inv.lock.stay outside.1
  · rw [still.2]
    exact inv.mutex.stay outside.2
  · exact fun core => .inl rfl
  · exact fun b => .inl ⟨rfl, rfl⟩
  · refine ok.keep inv.listed own.grows ⟨fun _ _ => rfl, fun _ _ => rfl, fun _ => ⟨rfl, rfl, rfl, rfl, rfl⟩, ?_⟩
    exact fun a sample taken => (ok.pending taken).2.2
  · exact fun r member => .inl member

omit [DecidableEq θ] in
/-- What is read where the register selects an event of the core's own RMID. -/
theorem qmCtr_of_selector {a : Access} (narrow : (extractBits (s.pqrAssoc a.core) 0 9).toNat < 2 ^ 10)
    (selected : s.qmEvtsel a.core = selector (extractBits (s.pqrAssoc a.core) 0 9) a.event.id) :
    m.qmCtr s a.core = reading a.event.id (m.count s a) := by
  rw [RdtMachine.qmCtr, selected, extractBits_selector_event narrow (id_small _),
    extractBits_selector_rmid narrow (id_small _), RdtMachine.count]

omit [DecidableEq θ] in
theorem Inv.tunedAt (inv : Inv m s) {a : Access} {use : Use} (ok : UseOk m s t a use) :
    Tuned (extractBits (s.pqrAssoc a.core) 0 9) (s.qmEvtsel a.core) := by
  obtain ⟨set, online⟩ := ok.setUp inv.listed
  exact inv.tuned a.core set online

/-- An action keeps the facts about what its counter is read for. -/
theorem Own.useOk (own : Own s s' t p) (inv : Inv m s) {a : Access} {use : Use} (ok : UseOk m s t a use) :
    UseOk m s' t a use :=
  UseOk.keep (p := .idle) ok inv.listed own.grows
    ⟨nofun, nofun, fun _ => ⟨own.initialised, own.assigned, own.rmid, own.pqrAssoc, own.extenders⟩, nofun⟩

/-- The mutex of an extender is taken. -/
theorem Inv.takeMutex (inv : Inv m s) {a : Access} {since : Nat} (here : s.phase t = .counterMutex a since)
    (free : s.counterMutex a = none) :
    Inv m { s.goto t (.lock a (.read since)) with
      counterMutex := Function.update s.counterMutex a (some t) } := by
  have own : Own s { s.goto t (.lock a (.read since)) with
      counterMutex := Function.update s.counterMutex a (some t) } t (.lock a (.read since)) := own_update
  have facts := inv.phases t
  rw [here] at facts
  have inside : (Phase.lock a (.read since)).inMutex = some a := if_neg facts.2
  apply inv.action own
  · exact inv.lock.stay (by simp [here, Phase.inLock])
  · rw [inside]
    exact inv.mutex.acquire free (by simp [here, Phase.inMutex])
  · exact fun core => .inl rfl
  · exact fun b => .inl ⟨rfl, rfl⟩
  · exact facts.1
  · exact fun r member => .inl member

/-- The lock of a core is taken. -/
theorem Inv.takeLock (inv : Inv m s) {a : Access} {use : Use} (here : s.phase t = .lock a use)
    (free : s.msrLock a.core = none) :
    Inv m { s.goto t (.readSelector a use) with
      msrLock := Function.update s.msrLock a.core (some t) } := by
  have own : Own s { s.goto t (.readSelector a use) with
      msrLock := Function.update s.msrLock a.core (some t) } t (.readSelector a use) := own_update
  have facts := inv.phases t
  rw [here] at facts
  apply inv.action own
  · exact inv.lock.acquire free (by simp [here, Phase.inLock])
  · exact inv.mutex.stay (by simp [here, Phase.inMutex])
  · exact fun core => .inl rfl
  · exact fun b => .inl ⟨rfl, rfl⟩
  · exact own.useOk inv facts
  · exact fun r member => .inl member

theorem Inv.readSelector (inv : Inv m s) {a : Access} {use : Use} (here : s.phase t = .readSelector a use) :
    Inv m (s.goto t (.writeSelector a use (s.qmEvtsel a.core))) := by
  have own : Own s (s.goto t (.writeSelector a use (s.qmEvtsel a.core))) t
      (.writeSelector a use (s.qmEvtsel a.core)) := own_update
  have facts := inv.phases t
  rw [here] at facts
  apply inv.action own
  · exact inv.lock.stay (by simp [here, Phase.inLock])
  · exact inv.mutex.stay (by simp [here, Phase.inMutex])
  · exact fun core => .inl rfl
  · exact fun b => .inl ⟨rfl, rfl⟩
  · exact ⟨own.useOk inv facts, rfl⟩
  · exact fun r member => .inl member

/-- The register is written under the lock, so it still has what was read of it. -/
theorem Inv.writeSelector (inv : Inv m s) {a : Access} {use : Use} {msrQmEvtsel : BitVec 64}
    (here : s.phase t = .writeSelector a use msrQmEvtsel) :
    Inv m { s.goto t (.readCounter a use) with
      qmEvtsel := Function.update s.qmEvtsel a.core (selectEvent a.event msrQmEvtsel) } := by
  have own : Own s { s.goto t (.readCounter a use) with
      qmEvtsel := Function.update s.qmEvtsel a.core (selectEvent a.event msrQmEvtsel) } t
      (.readCounter a use) := own_update
  have facts := inv.phases t
  rw [here] at facts
  obtain ⟨useOk, rfl⟩ := facts
  have tuned := inv.tunedAt useOk
  have written := tuned.selectEvent a.event
  apply inv.action own
  · exact inv.lock.stay (by simp [here, Phase.inLock])
  · exact inv.mutex.stay (by simp [here, Phase.inMutex])
  · intro core
    by_cases same : core = a.core
    · subst same
      refine .inr ⟨by rw [here]; rfl, ?_⟩
      simp only [Function.update_self, written]
      exact tuned_selector tuned.1 a.event
    · exact .inl (Function.update_of_ne same _ _)
  · exact fun b => .inl ⟨rfl, rfl⟩
  · refine ⟨own.useOk inv useOk, ?_⟩
    simp only [State.goto, Function.update_self]
    exact written
  · exact fun r member => .inl member

theorem Inv.readCounter (inv : Inv m s) {a : Access} {use : Use} (here : s.phase t = .readCounter a use) :
    Inv m (s.goto t (.unlock a use (m.qmCtr s a.core) (m.count s a))) := by
  have own : Own s (s.goto t (.unlock a use (m.qmCtr s a.core) (m.count s a))) t
      (.unlock a use (m.qmCtr s a.core) (m.count s a)) := own_update
  have facts := inv.phases t
  rw [here] at facts
  obtain ⟨useOk, selected⟩ := facts
  apply inv.action own
  · exact inv.lock.stay (by simp [here, Phase.inLock])
  · exact inv.mutex.stay (by simp [here, Phase.inMutex])
  · exact fun core => .inl rfl
  · exact fun b => .inl ⟨rfl, rfl⟩
  · refine ⟨own.useOk inv useOk, qmCtr_of_selector (inv.tunedAt useOk).narrow selected, ?_⟩
    cases use with
    | read since =>
        intro bandwidth
        exact ⟨(useOk.2 bandwidth).2, (inv.extended a ⟨bandwidth, useOk.1⟩).2.1, le_rfl⟩
    | construct => exact ⟨le_rfl, Nat.lt_add_of_pos_right (by decide)⟩
  · exact fun r member => .inl member

/-- The lock is given back, and a read of the occupancy returns. -/
theorem Inv.giveLock_occupancy (inv : Inv m s) {a : Access} {since sample : Nat} {value : BitVec 64}
    (here : s.phase t = .unlock a (.read since) value sample) (occupancy : a.event = .l3Occupancy) :
    Inv m (State.result m { s with msrLock := Function.update s.msrLock a.core none } t a since value
      sample) := by
  have own : Own s (State.result m { s with msrLock := Function.update s.msrLock a.core none } t a since
      value sample) t .idle := own_update
  have facts := inv.phases t
  rw [here] at facts
  obtain ⟨inCall, sampled, -⟩ := facts
  apply inv.action own
  · exact inv.lock.release (by simp [here, Phase.inLock])
  · exact inv.mutex.stay (by simp [here, Phase.inMutex, Use.inMutex, occupancy])
  · exact fun core => .inl rfl
  · exact fun b => .inl ⟨rfl, rfl⟩
  · trivial
  · intro r member
    rcases List.mem_cons.mp member with rfl | before
    · refine .inr ⟨inCall.1, ?_⟩
      rw [ResultOk, if_pos occupancy, sampled, reading, if_pos (by rw [occupancy])]
    · exact .inl before

/-- The lock is given back with what was read. -/
theorem Inv.giveLock (inv : Inv m s) {a : Access} {use : Use} {sample : Nat} {value : BitVec 64}
    (here : s.phase t = .unlock a use value sample) (still : p.inLock = none ∧ p.inMutex = use.inMutex a)
    (ok : ∀ s' : State θ, UseOk m s' t a use → SampleOk m s' a use value sample → PhaseOk m s' t p) :
    Inv m (State.goto { s with msrLock := Function.update s.msrLock a.core none } t p) := by
  have own : Own s (State.goto { s with msrLock := Function.update s.msrLock a.core none } t p) t p := own_update
  have facts := inv.phases t
  rw [here] at facts
  apply inv.action own
  · rw [still.1]
    exact inv.lock.release (by simp [here, Phase.inLock])
  · rw [still.2]
    exact inv.mutex.stay (by simp [here, Phase.inMutex])
  · exact fun core => .inl rfl
  · exact fun b => .inl ⟨rfl, rfl⟩
  · exact ok _ (own.useOk inv facts.1) facts.2
  · exact fun r member => .inl member

/-- The extender adds what was counted since its last sample, and the call returns. -/
theorem Inv.update (inv : Inv m s) {a : Access} {since sample : Nat} {value : BitVec 64}
    (here : s.phase t = .update a since value sample) :
    Inv m (State.result m { s with
      extender := Function.update s.extender a ((s.extender a).internalRead value).1
      sampled := Function.update s.sampled a sample
      counterMutex := Function.update s.counterMutex a none } t a since
        ((s.extender a).internalRead value).2 sample) := by
  have own : Own s (State.result m { s with
      extender := Function.update s.extender a ((s.extender a).internalRead value).1
      sampled := Function.update s.sampled a sample
      counterMutex := Function.update s.counterMutex a none } t a since
        ((s.extender a).internalRead value).2 sample) t .idle := own_update
  have facts := inv.phases t
  rw [here] at facts
  obtain ⟨inCall, bandwidth, read, order⟩ := facts
  obtain ⟨begun, later, before⟩ := order bandwidth
  obtain ⟨extended, -, close⟩ := inv.extended a ⟨bandwidth, inCall.1⟩
  rw [reading_bandwidth bandwidth] at read
  subst read
  have near : sample < s.sampled a + 2 ^ 24 := before.trans_lt close
  apply inv.action own
  · exact inv.lock.stay (by simp [here, Phase.inLock])
  · exact inv.mutex.release (by simp [here, Phase.inMutex])
  · exact fun core => .inl rfl
  · intro b
    by_cases same : b = a
    · subst same
      refine .inr ⟨by rw [here]; rfl, ?_⟩
      simp only [ExtenderOk, State.result, State.goto, Function.update_self]
      exact ⟨extended.internalRead (by decide) later near, before, by
        have := close
        change m.count s b < sample + 2 ^ 24
        omega⟩
    · exact .inl ⟨Function.update_of_ne same _ _, Function.update_of_ne same _ _⟩
  · trivial
  · intro r member
    rcases List.mem_cons.mp member with rfl | earlier
    · refine .inr ⟨inCall.1, ?_⟩
      rw [ResultOk, if_neg bandwidth]
      exact ⟨(inCall.2 bandwidth).1, begun, before, extended.read_result (by decide) later near⟩
    · exact .inl earlier

/-- The begin of a call keeps the invariant. -/
theorem Inv.call (inv : Inv m s) {a : Access} (idle : s.phase t = .idle) (available : m.available s a) :
    Inv m (s.call m t a) := by
  have inCall : InCall m s a (m.count s a) := by
    refine ⟨available, fun bandwidth => ?_⟩
    obtain ⟨extended, sampled, -⟩ := inv.extended a ⟨bandwidth, available⟩
    exact ⟨extended.order.trans sampled, le_rfl⟩
  have outside : (s.phase t).inLock = none ∧ (s.phase t).inMutex = none := by
    rw [idle]
    exact ⟨rfl, rfl⟩
  rw [State.call]
  split
  · next occupancy => exact inv.goto outside ⟨rfl, if_pos occupancy⟩ inCall
  · next bandwidth => exact inv.goto outside ⟨rfl, rfl⟩ ⟨inCall, bandwidth⟩

/-! ### The loop of `initRDT` -/

omit [DecidableEq θ] in
/-- The loop disturbs no other thread, where it writes only to a register that it has locked. -/
theorem Inv.undisturbed (inv : Inv m s) (main : t = s.main) {u : θ} (other : u ≠ t)
    (register : ∀ core, s'.qmEvtsel core = s.qmEvtsel core ∨ (s.phase t).inLock = some core)
    (sampled : ∀ a, m.available s a → s'.sampled a = s.sampled a) : Undisturbed m s s' u (s.phase u) where
  register := by
    intro core inside
    rcases register core with same | mine
    · exact same
    · exact absurd (inv.lock.exclusive inside mine) other
  sampled := fun a inside => sampled a ((inv.phases u).inMutex inside)
  loop := fun also => absurd (also.trans main.symm) other
  pace := fun a sample taken => absurd (((inv.phases u).pending taken).1.trans main.symm) other

omit [DecidableEq θ] in
theorem available_mono {a : Access} (available : m.available s a) (further : s.initialised ≤ s'.initialised)
    (kept : ∀ b ∈ s.extenders, b ∈ s'.extenders) : m.available s' a := by
  rw [RdtMachine.available] at available ⊢
  split at available
  · next occupancy =>
      rw [if_pos occupancy]
      exact ⟨available.1.trans_le further, available.2⟩
  · next bandwidth =>
      rw [if_neg bandwidth]
      exact kept a available

omit [DecidableEq θ] in
/-- What can be read after a step of the loop: the occupancy of its cores, and what extenders there are. -/
theorem listed_of_extenders (further : s'.initialised ≤ s'.assigned)
    (old : ∀ a ∈ s'.extenders, a.event ≠ .l3Occupancy → a.core < s'.assigned ∧ m.coreOnline a.core)
    {a : Access} (available : m.available s' a) : a.core < s'.assigned ∧ m.coreOnline a.core := by
  rw [RdtMachine.available] at available
  split at available
  · exact ⟨available.1.trans_le further, available.2⟩
  · next bandwidth => exact old a available bandwidth

omit [DecidableEq θ] in
theorem Inv.listedAt (inv : Inv m s) {a : Access} (member : a ∈ s.extenders) (bandwidth : a.event ≠ .l3Occupancy) :
    a.core < s.assigned ∧ m.coreOnline a.core :=
  inv.listed a ((mem_extenders bandwidth).mpr member)

omit [DecidableEq θ] in
theorem Inv.extendedAt (inv : Inv m s) {a : Access} (member : a ∈ s.extenders) (bandwidth : a.event ≠ .l3Occupancy) :
    ExtenderOk m s a :=
  inv.extended a ⟨bandwidth, (mem_extenders bandwidth).mpr member⟩

/-- A core that is offline is passed over. -/
theorem Inv.skipCore (inv : Inv m s) (here : s.phase t = .nextCore) (offline : ¬ m.coreOnline s.initialised) :
    Inv m { s with initialised := s.initialised + 1, assigned := s.initialised + 1 } := by
  have facts := inv.phases t
  rw [here] at facts
  obtain ⟨main, assigned⟩ := facts
  refine inv.move (p := .nextCore)
    ⟨rfl, fun a available => available_mono available (Nat.le_succ _) (fun _ => id), fun _ _ => rfl, fun _ _ => rfl,
      fun _ _ _ => le_rfl⟩
    ?_ (inv.lock.stay (by simp [here, Phase.inLock])) (inv.mutex.stay (by simp [here, Phase.inMutex])) ?_ ?_ ?_
    (fun u other => inv.undisturbed main other (fun _ => .inl rfl) (fun _ _ => rfl)) ⟨main, rfl⟩
    (fun r member => .inl member)
  · rw [← here, Function.update_eq_self]
  · intro core set online
    rcases Nat.lt_succ_iff_lt_or_eq.mp set with earlier | rfl
    · exact inv.tuned core (assigned ▸ earlier) online
    · exact absurd online offline
  · intro a available
    refine listed_of_extenders (le_refl (s.initialised + 1)) ?_ available
    intro b member bandwidth
    obtain ⟨set, online⟩ := inv.listedAt member bandwidth
    rw [assigned] at set
    exact ⟨Nat.lt_succ_of_lt set, online⟩
  · intro a ⟨bandwidth, available⟩
    have member := (mem_extenders bandwidth).mp available
    exact inv.extendedAt member bandwidth

/-- An action leaves its thread what concerns the loop. -/
theorem Own.undisturbed (own : Own s s' t p) : Undisturbed m s s' t .idle :=
  ⟨nofun, nofun, fun _ => ⟨own.initialised, own.assigned, own.rmid, own.pqrAssoc, own.extenders⟩, nofun⟩

theorem Inv.assignLock (inv : Inv m s) {core : Nat} (here : s.phase t = .assignLock core)
    (free : s.msrLock core = none) :
    Inv m { s.goto t (.readAssoc core) with msrLock := Function.update s.msrLock core (some t) } := by
  have own : Own s { s.goto t (.readAssoc core) with msrLock := Function.update s.msrLock core (some t) } t
      (.readAssoc core) := own_update
  have facts := inv.phases t
  rw [here] at facts
  apply inv.action own
  · exact inv.lock.acquire free (by simp [here, Phase.inLock])
  · exact inv.mutex.stay (by simp [here, Phase.inMutex])
  · exact fun core => .inl rfl
  · exact fun b => .inl ⟨rfl, rfl⟩
  · exact Assigning.keep facts own.grows own.undisturbed
  · exact fun r member => .inl member

theorem Inv.readAssoc (inv : Inv m s) {core : Nat} (here : s.phase t = .readAssoc core) :
    Inv m (s.goto t (.writeAssoc core (s.pqrAssoc core))) := by
  have own : Own s (s.goto t (.writeAssoc core (s.pqrAssoc core))) t (.writeAssoc core (s.pqrAssoc core)) := own_update
  have facts := inv.phases t
  rw [here] at facts
  apply inv.action own
  · exact inv.lock.stay (by simp [here, Phase.inLock])
  · exact inv.mutex.stay (by simp [here, Phase.inMutex])
  · exact fun core => .inl rfl
  · exact fun b => .inl ⟨rfl, rfl⟩
  · exact ⟨Assigning.keep facts own.grows own.undisturbed, rfl⟩
  · exact fun r member => .inl member

/-- The RMID goes to a core that nobody reads yet. -/
theorem Inv.writeAssoc (inv : Inv m s) {core : Nat} {msrPqrAssoc : BitVec 64}
    (here : s.phase t = .writeAssoc core msrPqrAssoc) :
    Inv m { s.goto t (.writeEvtsel core) with
      pqrAssoc := Function.update s.pqrAssoc core (associate (s.rmid (m.socketOf core)) msrPqrAssoc) } := by
  have facts := inv.phases t
  rw [here] at facts
  obtain ⟨⟨main, place, assigned, online⟩, -⟩ := facts
  have apart : ∀ other < s.assigned, other ≠ core := by omega
  let s' := { s.goto t (.writeEvtsel core) with
    pqrAssoc := Function.update s.pqrAssoc core (associate (s.rmid (m.socketOf core)) msrPqrAssoc) }
  have kept : ∀ other < s.assigned, s'.pqrAssoc other = s.pqrAssoc other :=
    fun other set => Function.update_of_ne (apart other set) _ _
  have count : ∀ a, a.core < s.assigned → m.count s' a = m.count s a := by
    intro a set
    rw [RdtMachine.count, kept a.core set]
    rfl
  have grows : Grows m s s' := ⟨rfl, fun a => id, fun _ _ => rfl, kept, fun a set _ => (count a set).ge⟩
  apply inv.move (p := .writeEvtsel core) grows rfl
    (inv.lock.stay (by simp [here, Phase.inLock])) (inv.mutex.stay (by simp [here, Phase.inMutex]))
  · intro other set online
    rw [kept other set]
    exact inv.tuned other set online
  · exact inv.listed
  · intro a extended
    rw [ExtenderOk, count a (inv.listed a extended.2).1]
    exact inv.extended a extended
  · exact fun u other => inv.undisturbed main other (fun _ => .inl rfl) (fun _ _ => rfl)
  · refine ⟨⟨main, place, assigned, online⟩, ?_⟩
    simp only [s', Function.update_self, extractBits_associate]
    rfl
  · exact fun r member => .inl member

theorem Inv.writeEvtsel (inv : Inv m s) {core : Nat} (here : s.phase t = .writeEvtsel core) :
    Inv m { s.goto t (.assignUnlock core) with
      qmEvtsel := Function.update s.qmEvtsel core (rmidField (s.rmid (m.socketOf core)) <<< 32)
      assigned := core + 1 } := by
  have facts := inv.phases t
  rw [here] at facts
  obtain ⟨⟨main, place, assigned, online⟩, associated⟩ := facts
  have setUp : core + 1 = s.assigned + 1 := by omega
  refine inv.move (p := .assignUnlock core)
    ⟨rfl, fun a => id, fun _ _ => rfl, fun _ _ => rfl, fun _ _ _ => le_rfl⟩ rfl
    (inv.lock.stay (by simp [here, Phase.inLock])) (inv.mutex.stay (by simp [here, Phase.inMutex])) ?_ ?_
    inv.extended ?_ ?_ (fun r member => .inl member)
  · intro other set online
    rcases Nat.lt_succ_iff_lt_or_eq.mp set with earlier | rfl
    · simp only [Function.update_of_ne earlier.ne]
      exact inv.tuned other (by omega) online
    · simp only [Function.update_self]
      rw [← associated]
      exact associated ▸ tuned_rmidField _
  · intro a available
    obtain ⟨set, online⟩ := inv.listed a available
    exact ⟨setUp ▸ Nat.lt_succ_of_lt set, online⟩
  · intro u other
    refine inv.undisturbed main other ?_ fun _ _ => rfl
    intro register
    by_cases same : register = core
    · exact .inr (by rw [here, same]; rfl)
    · exact .inl (Function.update_of_ne same _ _)
  · refine ⟨main, place, by simp only [place]; rfl, online, fun b member bandwidth => ?_⟩
    have set := (inv.listedAt member bandwidth).1
    omega

/-- The lock is given back, and the extenders of the core are about to be constructed. -/
theorem Inv.assignUnlock (inv : Inv m s) {core : Nat} (here : s.phase t = .assignUnlock core) :
    Inv m (State.goto { s with msrLock := Function.update s.msrLock core none } t
      (.lock ⟨.memoryBWLocal, core⟩ .construct)) := by
  have own : Own s (State.goto { s with msrLock := Function.update s.msrLock core none } t
      (.lock ⟨.memoryBWLocal, core⟩ .construct)) t (.lock ⟨.memoryBWLocal, core⟩ .construct) := own_update
  have facts := inv.phases t
  rw [here] at facts
  obtain ⟨main, place, assigned, online, fresh⟩ := facts
  apply inv.action own
  · exact inv.lock.release (by simp [here, Phase.inLock])
  · exact inv.mutex.stay (by simp [here, Phase.inMutex, Use.inMutex])
  · exact fun core => .inl rfl
  · exact fun b => .inl ⟨rfl, rfl⟩
  · have constructing : UseOk m s t ⟨.memoryBWLocal, core⟩ .construct :=
      ⟨main, (fun same => by cases same), place, assigned, online,
        fun b member bandwidth same => absurd same (fresh b member bandwidth)⟩
    exact own.useOk inv constructing
  · exact fun r member => .inl member

/-- The end of a round, from outside of locks and mutexes. -/
theorem Inv.finishCore (inv : Inv m s) {core : Nat} (main : t = s.main)
    (outside : (s.phase t).inLock = none ∧ (s.phase t).inMutex = none) (place : core = s.initialised)
    (assigned : s.assigned = s.initialised + 1) : Inv m (s.finishCore m t core) := by
  subst place
  refine inv.move (p := .nextCore)
    ⟨rfl, fun a available => available_mono available (Nat.le_succ _) (fun _ => id), fun _ _ => rfl, fun _ _ => rfl,
      fun _ _ _ => le_rfl⟩
    rfl (inv.lock.stay outside.1) (inv.mutex.stay outside.2) inv.tuned ?_ ?_
    (fun u other => inv.undisturbed main other (fun _ => .inl rfl) (fun _ _ => rfl)) ⟨main, assigned⟩
    (fun r member => .inl member)
  · intro a available
    refine listed_of_extenders ?_ ?_ available
    · exact assigned.ge
    · exact fun b member bandwidth => inv.listedAt member bandwidth
  · intro a ⟨bandwidth, available⟩
    have member := (mem_extenders bandwidth).mp available
    exact inv.extendedAt member bandwidth

/-- A new extender has sampled its counter less than a lap ago. -/
theorem Inv.constructed (inv : Inv m s) {a : Access} {value : BitVec 64} {sample : Nat}
    (here : s.phase t = .construct a value sample) (here' there : List Nat) :
    Inv m { (s.constructed a value sample).goto t .idle with memoryBWLocal := here', memoryBWTotal := there } := by
  have facts := inv.phases t
  rw [here] at facts
  obtain ⟨constructing, read, before, near⟩ := facts
  have bandwidth := constructing.bandwidth
  have setUp := (show UseOk m s t a .construct from constructing).setUp inv.listed
  have absent : ∀ {b}, m.available s b → b ≠ a := by
    rintro b available rfl
    have old := constructing.fresh b ((mem_extenders bandwidth).mp available) bandwidth rfl
    rw [old.1] at old
    cases old.2
  refine inv.move (p := .idle)
    ⟨rfl, fun b available => available_mono available le_rfl (fun _ => List.mem_cons_of_mem a),
      fun b available => Function.update_of_ne (absent available) _ _, fun _ _ => rfl, fun _ _ _ => le_rfl⟩
    rfl (inv.lock.stay (by simp [here, Phase.inLock])) (inv.mutex.stay (by simp [here, Phase.inMutex])) inv.tuned ?_ ?_
    ?_ trivial (fun r member => .inl member)
  · intro b available
    refine listed_of_extenders ?_ ?_ available
    · exact constructing.assigned ▸ Nat.le_succ _
    · intro c member bandwidth'
      rcases List.mem_cons.mp member with rfl | old
      · exact setUp
      · exact inv.listedAt old bandwidth'
  · intro b ⟨bandwidth', available⟩
    rcases List.mem_cons.mp ((mem_extenders bandwidth').mp available) with rfl | old
    · rw [reading_bandwidth bandwidth] at read
      simp only [ExtenderOk, State.goto, State.constructed, Function.update_self, read]
      exact ⟨CounterWidthExtender.inv_construct 24 sample, before, near⟩
    · have other := absent ((mem_extenders bandwidth').mpr old)
      simp only [ExtenderOk, State.goto, State.constructed, Function.update_of_ne other]
      exact inv.extendedAt old bandwidth'
  · intro u other
    exact inv.undisturbed constructing.main other (fun _ => .inl rfl)
      (fun b available => Function.update_of_ne (absent available) _ _)

theorem goto_goto (s : State θ) (t : θ) (p q : Phase) : (s.goto t p).goto t q = s.goto t q := by
  simp only [State.goto, Function.update_idem]

theorem goto_finishCore (s : State θ) (t : θ) (p : Phase) (core : Nat) :
    (s.goto t p).finishCore m t core = s.finishCore m t core := by
  simp only [State.finishCore, State.goto, Function.update_idem]

/-- The constructor ends, and the loop goes on. -/
theorem Inv.pushBack (inv : Inv m s) {a : Access} {value : BitVec 64} {sample : Nat}
    (here : s.phase t = .construct a value sample) : Inv m ((s.constructed a value sample).pushBack m t a) := by
  have facts := inv.phases t
  rw [here] at facts
  obtain ⟨main, bandwidth, place, assigned, online, fresh⟩ := facts.1
  have idle : ∀ here' there, (({ (s.constructed a value sample).goto t .idle with
      memoryBWLocal := here', memoryBWTotal := there } : State θ).phase t).inLock = none ∧
      (({ (s.constructed a value sample).goto t .idle with
      memoryBWLocal := here', memoryBWTotal := there } : State θ).phase t).inMutex = none := by
    intro here' there
    simp [State.goto, Phase.inLock, Phase.inMutex]
  rw [State.pushBack]
  split
  · next own =>
      have built := inv.constructed here (s.memoryBWLocal ++ [a.core]) s.memoryBWTotal
      let after := { s.constructed a value sample with memoryBWLocal := s.memoryBWLocal ++ [a.core] }
      split
      · have next := built.goto (idle _ _) (p := .lock ⟨.memoryBWTotal, a.core⟩ .construct) ⟨rfl, rfl⟩
          ⟨main, nofun, place, assigned, online, ?_⟩
        · exact (congrArg (Inv m) (goto_goto after t .idle (.lock ⟨.memoryBWTotal, a.core⟩ .construct))).mp next
        · intro b member bandwidth' same
          refine ⟨rfl, ?_⟩
          rcases List.mem_cons.mp member with rfl | old
          · exact own
          · exact (fresh b old bandwidth' same).2
      · have next := built.finishCore main (idle _ _) place assigned
        exact (congrArg (Inv m) (goto_finishCore after t .idle a.core)).mp next
  · have built := inv.constructed here s.memoryBWLocal (s.memoryBWTotal ++ [a.core])
    let after := { s.constructed a value sample with memoryBWTotal := s.memoryBWTotal ++ [a.core] }
    have next := built.finishCore main (idle _ _) place assigned
    exact (congrArg (Inv m) (goto_finishCore after t .idle a.core)).mp next

/-- Every action of a thread keeps the invariant. -/
theorem Inv.next (inv : Inv m s) (next : s.next m t = some s') : Inv m s' := by
  cases here : s.phase t with
  | idle => simp [State.next, here] at next
  | counterMutex a since =>
      simp only [State.next, here] at next
      split at next
      · next free =>
          cases next
          exact inv.takeMutex here free
      · cases next
  | lock a use =>
      simp only [State.next, here] at next
      split at next
      · next free =>
          cases next
          exact inv.takeLock here free
      · cases next
  | readSelector a use =>
      simp only [State.next, here] at next
      cases next
      exact inv.readSelector here
  | writeSelector a use msrQmEvtsel =>
      simp only [State.next, here] at next
      cases next
      exact inv.writeSelector here
  | readCounter a use =>
      simp only [State.next, here] at next
      cases next
      exact inv.readCounter here
  | unlock a use value sample =>
      cases use with
      | construct =>
          simp only [State.next, here] at next
          cases next
          exact inv.giveLock here ⟨rfl, rfl⟩ fun _ constructing ok => ⟨constructing, ok⟩
      | read since =>
          simp only [State.next, here] at next
          split at next
          · next occupancy =>
              cases next
              exact inv.giveLock_occupancy here occupancy
          · next bandwidth =>
              cases next
              exact inv.giveLock here ⟨rfl, (if_neg bandwidth).symm⟩ fun _ inCall ok => ⟨inCall, bandwidth, ok⟩
  | update a since value sample =>
      simp only [State.next, here] at next
      cases next
      exact inv.update here
  | construct a value sample =>
      simp only [State.next, here] at next
      cases next
      exact inv.pushBack here
  | nextCore =>
      have facts := inv.phases t
      rw [here] at facts
      have outside : (s.phase t).inLock = none ∧ (s.phase t).inMutex = none := by
        rw [here]
        exact ⟨rfl, rfl⟩
      simp only [State.next, here] at next
      split at next
      · split at next
        · next online =>
            cases next
            exact inv.goto outside ⟨rfl, rfl⟩ ⟨facts.1, rfl, facts.2, online⟩
        · next offline =>
            cases next
            exact inv.skipCore here offline
      · cases next
        exact inv.goto outside ⟨rfl, rfl⟩ trivial
  | assignLock core =>
      simp only [State.next, here] at next
      split at next
      · next free =>
          cases next
          exact inv.assignLock here free
      · cases next
  | readAssoc core =>
      simp only [State.next, here] at next
      cases next
      exact inv.readAssoc here
  | writeAssoc core msrPqrAssoc =>
      simp only [State.next, here] at next
      cases next
      exact inv.writeAssoc here
  | writeEvtsel core =>
      simp only [State.next, here] at next
      cases next
      exact inv.writeEvtsel here
  | assignUnlock core =>
      have facts := inv.phases t
      rw [here] at facts
      have free := inv.assignUnlock here
      simp only [State.next, here] at next
      split at next
      · cases next
        exact free
      · cases next
        rw [← goto_finishCore _ t (.lock ⟨.memoryBWLocal, core⟩ .construct)]
        refine free.finishCore facts.main ?_ facts.here facts.assigned
        simp [State.goto, Phase.inLock, Phase.inMutex, Use.inMutex]

end Threads

/-! ## The hardware -/

section Hardware

variable {s : State θ}

theorem le_count_addTraffic (a b : Access) (n : Nat) : m.count s b ≤ m.count (m.addTraffic a n s) b := by
  simp only [RdtMachine.count, RdtMachine.addTraffic]
  split
  · exact Nat.le_add_right _ _
  · exact le_rfl

theorem count_setOccupancy {a : Access} (bandwidth : a.event ≠ .l3Occupancy) (socket : Nat)
    (rmid : BitVec 64) (n : Nat) : m.count (s.setOccupancy socket rmid n) a = m.count s a :=
  if_neg fun same => bandwidth (id_injective same.2.2)

theorem Inv.traffic (inv : Inv m s) {a : Access} {n : Nat} (paced : m.Paced (m.addTraffic a n s)) :
    Inv m (m.addTraffic a n s) where
  lock := inv.lock
  mutex := inv.mutex
  tuned := inv.tuned
  listed := inv.listed
  extended := by
    intro b extended
    obtain ⟨ok, sampled, -⟩ := inv.extended b extended
    exact ⟨ok, sampled.trans (le_count_addTraffic a b n), paced.extended b extended⟩
  phases := fun t => (inv.phases t).keep inv.listed
    ⟨rfl, fun _ => id, fun _ _ => rfl, fun _ _ => rfl, fun b _ _ => le_count_addTraffic a b n⟩
    ⟨fun _ _ => rfl, fun _ _ => rfl, fun _ => ⟨rfl, rfl, rfl, rfl, rfl⟩, paced.pending t⟩
  results := inv.results

theorem Inv.occupancy (inv : Inv m s) (socket : Nat) (rmid : BitVec 64) (n : Nat) :
    Inv m (s.setOccupancy socket rmid n) where
  lock := inv.lock
  mutex := inv.mutex
  tuned := inv.tuned
  listed := inv.listed
  extended := by
    intro b extended
    rw [ExtenderOk, count_setOccupancy extended.1]
    exact inv.extended b extended
  phases := by
    intro t
    refine (inv.phases t).keep inv.listed
      ⟨rfl, fun _ => id, fun _ _ => rfl, fun _ _ => rfl,
        fun b _ bandwidth => (count_setOccupancy bandwidth socket rmid n).ge⟩
      ⟨fun _ _ => rfl, fun _ _ => rfl, fun _ => ⟨rfl, rfl, rfl, rfl, rfl⟩, fun a sample taken => ?_⟩
    obtain ⟨-, bandwidth, near⟩ := (inv.phases t).pending taken
    rw [count_setOccupancy bandwidth]
    exact near
  results := inv.results

end Hardware

/-! ## Every run -/

section Runs

variable [DecidableEq θ] {s s' : State θ} {main : θ} {pqrAssoc qmEvtsel : Nat → BitVec 64}
  {monitor : Nat → BitVec 64 → BitVec 64 → Nat}

theorem inv_start : Inv m (m.start main pqrAssoc qmEvtsel monitor) := by
  have nothing : ∀ a, ¬ m.available (m.start main pqrAssoc qmEvtsel monitor) a := by
    intro a available
    rw [RdtMachine.available] at available
    split at available
    · exact Nat.not_lt_zero _ available.1
    · cases available
  have place : ∀ t, (m.start main pqrAssoc qmEvtsel monitor).phase t = .nextCore ∧ t = main ∨
      (m.start main pqrAssoc qmEvtsel monitor).phase t = .idle := by
    intro t
    by_cases same : t = main
    · subst same
      exact .inl ⟨by simp [RdtMachine.start], rfl⟩
    · exact .inr (by simp [RdtMachine.start, same])
  have outside : Phase.inLock ∘ (m.start main pqrAssoc qmEvtsel monitor).phase = fun _ => none := by
    funext t
    rcases place t with ⟨here, -⟩ | here <;> rw [Function.comp_apply, here] <;> rfl
  have free : Phase.inMutex ∘ (m.start main pqrAssoc qmEvtsel monitor).phase = fun _ => none := by
    funext t
    rcases place t with ⟨here, -⟩ | here <;> rw [Function.comp_apply, here] <;> rfl
  refine ⟨?_, ?_, fun core set => absurd set (Nat.not_lt_zero core), fun a available => absurd available (nothing a),
    fun a extended => absurd extended.2 (nothing a), ?_,
    fun r member => absurd member List.not_mem_nil⟩
  · rw [outside]
    exact held_free
  · rw [free]
    exact held_free
  · intro t
    rcases place t with ⟨here, same⟩ | here
    · rw [here]
      exact ⟨same, rfl⟩
    · rw [here]
      trivial

theorem Inv.step (inv : Inv m s) (step : m.Step s s') : Inv m s' := by
  cases step with
  | call idle available => exact inv.call idle available
  | next next => exact inv.next next
  | traffic bandwidth online paced => exact inv.traffic paced
  | occupancy => exact inv.occupancy _ _ _

theorem inv_reachable (reached : Reachable m.Step (m.start main pqrAssoc qmEvtsel monitor) s) : Inv m s :=
  reached.invariant inv_start fun inv step => inv.step step

/-- A thread that is inside of a lock does not wait. -/
theorem next_of_inLock {t : θ} {core : Nat} (inside : (s.phase t).inLock = some core) :
    ∃ s', s.next m t = some s' := by
  cases here : s.phase t <;> rw [here] at inside <;> cases inside
  case unlock a use value sample =>
    cases use with
    | construct => simp only [State.next, here]; exact ⟨_, rfl⟩
    | read since => simp only [State.next, here]; split <;> exact ⟨_, rfl⟩
  case assignUnlock => simp only [State.next, here]; split <;> exact ⟨_, rfl⟩
  all_goals simp only [State.next, here]; exact ⟨_, rfl⟩

/-- While a thread is in a call or in the loop of `initRDT`, some thread can go on: the holder of a lock never waits,
and the holder of a `CounterMutex` waits at most for a lock. -/
theorem Inv.progress (inv : Inv m s) {t : θ} (busy : s.phase t ≠ .idle) :
    ∃ u s', s.next m u = some s' := by
  have held : ∀ {core}, s.msrLock core ≠ none → ∃ u s', s.next m u = some s' := by
    intro core taken
    obtain ⟨v, inside⟩ := inv.lock.inside taken
    exact ⟨v, next_of_inLock inside⟩
  have locking : ∀ {u a use}, s.phase u = .lock a use → ∃ u s', s.next m u = some s' := by
    intro u a use here
    by_cases free : s.msrLock a.core = none
    · exact ⟨u, by simp [State.next, here, free]⟩
    · exact held free
  have extending : ∀ {u a}, (s.phase u).inMutex = some a → ∃ u s', s.next m u = some s' := by
    intro u a inside
    cases here : s.phase u with
    | lock a use => exact locking here
    | update a since value sample => exact ⟨u, by simp [State.next, here]⟩
    | readSelector a use => exact ⟨u, next_of_inLock (by rw [here]; rfl)⟩
    | writeSelector a use msrQmEvtsel => exact ⟨u, next_of_inLock (by rw [here]; rfl)⟩
    | readCounter a use => exact ⟨u, next_of_inLock (by rw [here]; rfl)⟩
    | unlock a use value sample => exact ⟨u, next_of_inLock (by rw [here]; rfl)⟩
    | _ => rw [here] at inside; cases inside
  cases here : s.phase t with
  | idle => exact absurd here busy
  | counterMutex a since =>
      by_cases free : s.counterMutex a = none
      · exact ⟨t, by simp [State.next, here, free]⟩
      · obtain ⟨v, inside⟩ := inv.mutex.inside free
        exact extending inside
  | lock a use => exact locking here
  | update a since value sample => exact ⟨t, by simp [State.next, here]⟩
  | construct a value sample => exact ⟨t, by simp [State.next, here]⟩
  | nextCore =>
      refine ⟨t, ?_⟩
      simp only [State.next, here]
      split
      · split <;> exact ⟨_, rfl⟩
      · exact ⟨_, rfl⟩
  | assignLock core =>
      by_cases free : s.msrLock core = none
      · exact ⟨t, by simp [State.next, here, free]⟩
      · exact held free
  | _ => exact ⟨t, next_of_inLock (by rw [here]; rfl)⟩

end Runs

end Pcm.Rdt

import Pcm.Rdt

/-!
# What holds between two accesses to the monitoring registers

The fields of `IA32_PQR_ASSOC` and `IA32_QM_EVTSEL`, what holds of a thread by its place in the code, and what a step
of another thread must leave as it is for that.
-/

namespace Pcm.Rdt

open FreeRunning Transition Mutex

/-! ## The fields of the registers -/

/-- `IA32_QM_EVTSEL` with an RMID and an event. -/
def selector (rmid event : BitVec 64) : BitVec 64 := (rmid <<< 32) ||| event

theorem extractBits_associate (rmid : BitVec 32) (x : BitVec 64) :
    extractBits (associate rmid x) 0 9 = rmidField rmid := by
  have upper : x &&& 0xffffffff00000000#64 &&& ((1#64 <<< 10) - 1) = 0 := by
    rw [BitVec.and_assoc]
    exact BitVec.and_zero
  have mask : buildBit 0 9 = (1#64 <<< 10) - 1 := by decide
  have own : rmidField rmid &&& ((1#64 <<< 10) - 1) = rmidField rmid := by
    rw [rmidField, BitVec.and_assoc, BitVec.and_self]
  simp only [extractBits, if_pos (Nat.zero_le 9), mask, BitVec.ushiftRight_zero]
  rw [associate, BitVec.and_comm, BitVec.and_or_distrib_left, BitVec.and_comm _ (x &&& _),
    BitVec.and_comm _ (rmidField rmid), upper, own]
  exact BitVec.zero_or

theorem associate_upper (rmid : BitVec 32) (x : BitVec 64) :
    associate rmid x &&& 0xffffffff00000000#64 = x &&& 0xffffffff00000000#64 := by
  have none : rmidField rmid &&& 0xffffffff00000000#64 = 0 := by
    rw [rmidField, BitVec.and_assoc]
    exact BitVec.and_zero
  rw [associate, BitVec.and_comm, BitVec.and_or_distrib_left, BitVec.and_comm _ (rmidField rmid), none,
    BitVec.and_comm, BitVec.and_assoc]
  simp

section Selector

variable {rmid event : BitVec 64}

theorem selector_toNat (narrow : rmid.toNat < 2 ^ 10) (small : event.toNat < 2 ^ 8) :
    (selector rmid event).toNat = rmid.toNat * 2 ^ 32 + event.toNat := by
  have fits : rmid.toNat * 2 ^ 32 < 2 ^ 64 := by omega
  rw [selector, BitVec.toNat_or, BitVec.toNat_shiftLeft, Nat.shiftLeft_eq, Nat.mod_eq_of_lt fits,
    Nat.mul_comm, Nat.two_pow_add_eq_or_of_lt (by omega)]

theorem extractBits_selector_rmid (narrow : rmid.toNat < 2 ^ 10) (small : event.toNat < 2 ^ 8) :
    extractBits (selector rmid event) 32 41 = rmid := by
  apply BitVec.eq_of_toNat_eq
  rw [extractBits_toNat _ (by decide) (by decide), selector_toNat narrow small]
  omega

theorem extractBits_selector_event (narrow : rmid.toNat < 2 ^ 10) (small : event.toNat < 2 ^ 8) :
    extractBits (selector rmid event) 0 7 = event := by
  apply BitVec.eq_of_toNat_eq
  rw [extractBits_toNat _ (by decide) (by decide), selector_toNat narrow small]
  omega

/-- `IA32_QM_EVTSEL` has the RMID, and an event that `selectEvent` clears before it sets its own. -/
def Tuned (rmid msrQmEvtsel : BitVec 64) : Prop :=
  rmid &&& ((1#64 <<< 10) - 1) = rmid ∧ ∃ event, event &&& 15 = event ∧ msrQmEvtsel = selector rmid event

theorem Tuned.narrow {x : BitVec 64} (tuned : Tuned rmid x) : rmid.toNat < 2 ^ 10 := by
  have mask : ((1#64 <<< 10) - 1).toNat = 2 ^ 10 - 1 := rfl
  rw [← tuned.1, BitVec.toNat_and, mask, Nat.and_two_pow_sub_one_eq_mod]
  exact Nat.mod_lt _ (by decide)

theorem Tuned.selectEvent {x : BitVec 64} (tuned : Tuned rmid x) (e : QosEvent) :
    selectEvent e x = selector rmid e.id := by
  obtain ⟨own, event, low, rfl⟩ := tuned
  have upper : rmid <<< 32 &&& 0xfffffffffffffff0#64 = rmid <<< 32 := by
    rw [← own, BitVec.shiftLeft_and_distrib, BitVec.and_assoc]
    rfl
  have cleared : event &&& 0xfffffffffffffff0#64 = 0#64 := by
    rw [← low, BitVec.and_assoc]
    exact BitVec.and_zero
  have id : e.id &&& ((1#64 <<< 8) - 1) = e.id := by cases e <;> rfl
  rw [Rdt.selectEvent, selector, BitVec.and_comm, BitVec.and_or_distrib_left, BitVec.and_comm _ (rmid <<< 32),
    BitVec.and_comm _ event, upper, cleared, id, BitVec.or_zero, selector]

theorem tuned_selector (own : rmid &&& ((1#64 <<< 10) - 1) = rmid) (e : QosEvent) :
    Tuned rmid (selector rmid e.id) :=
  ⟨own, e.id, by cases e <;> rfl, rfl⟩

theorem tuned_rmidField (rmid : BitVec 32) : Tuned (rmidField rmid) (rmidField rmid <<< 32) :=
  ⟨by rw [rmidField, BitVec.and_assoc, BitVec.and_self], 0, rfl, by rw [selector]; exact BitVec.or_zero.symm⟩

end Selector

theorem id_small (e : QosEvent) : e.id.toNat < 2 ^ 8 := by cases e <;> decide

theorem id_injective {e f : QosEvent} (same : e.id = f.id) : e = f := by
  cases e <;> cases f <;> first | rfl | (exact absurd same (by decide))

theorem reading_bandwidth {e : QosEvent} (other : e ≠ .l3Occupancy) (n : Nat) : reading e.id n = raw 24 n :=
  if_neg fun same => other (id_injective same)

/-! ## Where the code of a thread is -/

/-- The core whose lock the code is inside of. -/
def Phase.inLock : Phase → Option Nat
  | .readSelector a _ | .writeSelector a _ _ | .readCounter a _ | .unlock a _ _ _ => some a.core
  | .readAssoc core | .writeAssoc core _ | .writeEvtsel core | .assignUnlock core => some core
  | .idle | .counterMutex _ _ | .lock _ _ | .update _ _ _ _ | .construct _ _ _ | .nextCore | .assignLock _ => none

/-- A call holds the mutex of its extender while it reads the counter, a constructor needs none. -/
def Use.inMutex (a : Access) : Use → Option Access
  | .read _ => if a.event = .l3Occupancy then none else some a
  | .construct => none

/-- The extender whose `CounterMutex` the code is inside of. -/
def Phase.inMutex : Phase → Option Access
  | .lock a use | .readSelector a use | .writeSelector a use _ | .readCounter a use | .unlock a use _ _ =>
      use.inMutex a
  | .update a _ _ _ => some a
  | .idle | .counterMutex _ _ | .construct _ _ _ | .nextCore | .assignLock _ | .readAssoc _ | .writeAssoc _ _
  | .writeEvtsel _ | .assignUnlock _ => none

variable {θ : Type*} {m : RdtMachine}

/-- A call that began when the counter was at `since`. -/
def InCall (m : RdtMachine) (s : State θ) (a : Access) (since : Nat) : Prop :=
  m.available s a ∧ (a.event ≠ .l3Occupancy → s.base a ≤ since ∧ since ≤ m.count s a)

/-- The constructor of an extender that is not there yet, of a core whose registers have its RMID. -/
structure Constructing (m : RdtMachine) (s : State θ) (t : θ) (a : Access) : Prop where
  main : t = s.main
  bandwidth : a.event ≠ .l3Occupancy
  core : a.core = s.initialised
  assigned : s.assigned = s.initialised + 1
  online : m.coreOnline a.core
  fresh : ∀ b ∈ s.extenders, b.event ≠ .l3Occupancy → b.core = a.core →
    a.event = .memoryBWTotal ∧ b.event = .memoryBWLocal

def UseOk (m : RdtMachine) (s : State θ) (t : θ) (a : Access) : Use → Prop
  | .read since => InCall m s a since
  | .construct => Constructing m s t a

/-- What was read of `IA32_QM_CTR` is the counter asked for, and was read during the call, or less than a lap ago. -/
def SampleOk (m : RdtMachine) (s : State θ) (a : Access) (use : Use) (value : BitVec 64) (sample : Nat) : Prop :=
  value = reading a.event.id sample ∧
    match use with
    | .read since => a.event ≠ .l3Occupancy → since ≤ sample ∧ s.sampled a ≤ sample ∧ sample ≤ m.count s a
    | .construct => sample ≤ m.count s a ∧ m.count s a < sample + 2 ^ 24

/-- The loop of `initRDT` at a core that has no RMID yet. -/
structure Assigning (m : RdtMachine) (s : State θ) (t : θ) (core : Nat) : Prop where
  main : t = s.main
  here : core = s.initialised
  assigned : s.assigned = s.initialised
  online : m.coreOnline core

/-- And at one that has it, but no extenders. -/
structure AssignedTo (m : RdtMachine) (s : State θ) (t : θ) (core : Nat) : Prop where
  main : t = s.main
  here : core = s.initialised
  assigned : s.assigned = s.initialised + 1
  online : m.coreOnline core
  fresh : ∀ b ∈ s.extenders, b.event ≠ .l3Occupancy → b.core ≠ core

/-- What holds of a thread, by its place in the code. -/
def PhaseOk (m : RdtMachine) (s : State θ) (t : θ) : Phase → Prop
  | .idle => True
  | .counterMutex a since => InCall m s a since ∧ a.event ≠ .l3Occupancy
  | .lock a use => UseOk m s t a use
  | .readSelector a use => UseOk m s t a use
  | .writeSelector a use msrQmEvtsel => UseOk m s t a use ∧ msrQmEvtsel = s.qmEvtsel a.core
  | .readCounter a use =>
      UseOk m s t a use ∧ s.qmEvtsel a.core = selector (extractBits (s.pqrAssoc a.core) 0 9) a.event.id
  | .unlock a use value sample => UseOk m s t a use ∧ SampleOk m s a use value sample
  | .update a since value sample =>
      InCall m s a since ∧ a.event ≠ .l3Occupancy ∧ SampleOk m s a (.read since) value sample
  | .construct a value sample => Constructing m s t a ∧ SampleOk m s a .construct value sample
  | .nextCore => t = s.main ∧ s.assigned = s.initialised
  | .assignLock core => Assigning m s t core
  | .readAssoc core => Assigning m s t core
  | .writeAssoc core msrPqrAssoc => Assigning m s t core ∧ msrPqrAssoc = s.pqrAssoc core
  | .writeEvtsel core =>
      Assigning m s t core ∧ extractBits (s.pqrAssoc core) 0 9 = rmidField (s.rmid (m.socketOf core))
  | .assignUnlock core => AssignedTo m s t core

/-- What a call has returned: the occupancy read, or what was counted since the construction of the extender. -/
def ResultOk (s : State θ) (r : Result) : Prop :=
  if r.access.event = .l3Occupancy then r.value = BitVec.ofNat 64 r.sample
  else s.base r.access ≤ r.since ∧ r.since ≤ r.sample ∧ r.sample ≤ r.upTo ∧
    r.value = raw 24 (s.base r.access) + BitVec.ofNat 64 (r.sample - s.base r.access)

/-- An extender, with the counts at its construction and its last sample. -/
def ExtenderOk (m : RdtMachine) (s : State θ) (a : Access) : Prop :=
  CounterWidthExtender.Inv 24 (s.base a) (s.sampled a) (s.extender a) ∧ s.sampled a ≤ m.count s a ∧
    m.count s a < s.sampled a + 2 ^ 24

/-- What holds in every state of a run. -/
structure Inv (m : RdtMachine) (s : State θ) : Prop where
  lock : Held s.msrLock (Phase.inLock ∘ s.phase)
  mutex : Held s.counterMutex (Phase.inMutex ∘ s.phase)
  tuned : ∀ core < s.assigned, m.coreOnline core → Tuned (extractBits (s.pqrAssoc core) 0 9) (s.qmEvtsel core)
  listed : ∀ a, m.available s a → a.core < s.assigned ∧ m.coreOnline a.core
  extended : ∀ a, m.Extended s a → ExtenderOk m s a
  phases : ∀ t, PhaseOk m s t (s.phase t)
  results : ∀ r ∈ s.results, m.available s r.access ∧ ResultOk s r

theorem mem_extenders {s : State θ} {a : Access} (bandwidth : a.event ≠ .l3Occupancy) :
    m.available s a ↔ a ∈ s.extenders := by
  rw [RdtMachine.available, if_neg bandwidth]

/-! ## What keeps the facts about a thread -/

section Keep

variable {s s' : State θ} {t : θ} {p : Phase}

/-- What every step leaves to the calls: the counters that can be read stay, with the RMIDs of their cores and the
counts at which they began, and only grow. -/
structure Grows (m : RdtMachine) (s s' : State θ) : Prop where
  main : s'.main = s.main
  available : ∀ a, m.available s a → m.available s' a
  base : ∀ a, m.available s a → s'.base a = s.base a
  pqrAssoc : ∀ core < s.assigned, s'.pqrAssoc core = s.pqrAssoc core
  count : ∀ a, a.core < s.assigned → a.event ≠ .l3Occupancy → m.count s a ≤ m.count s' a

/-- What a step leaves to a thread at a place in the code: the register and the extender that it holds, the state of
the loop, and the pace of the sample that it has taken. -/
structure Undisturbed (m : RdtMachine) (s s' : State θ) (t : θ) (p : Phase) : Prop where
  register : ∀ core, p.inLock = some core → s'.qmEvtsel core = s.qmEvtsel core
  sampled : ∀ a, p.inMutex = some a → s'.sampled a = s.sampled a
  loop : t = s.main → s'.initialised = s.initialised ∧ s'.assigned = s.assigned ∧ s'.rmid = s.rmid ∧
    s'.pqrAssoc = s.pqrAssoc ∧ s'.extenders = s.extenders
  pace : ∀ a sample, p.pending = some (a, sample) → m.count s' a < sample + 2 ^ 24

theorem InCall.keep {a : Access} {since : Nat} (inCall : InCall m s a since)
    (listed : ∀ a, m.available s a → a.core < s.assigned ∧ m.coreOnline a.core) (grows : Grows m s s') :
    InCall m s' a since := by
  refine ⟨grows.available a inCall.1, fun bandwidth => ?_⟩
  rw [grows.base a inCall.1]
  obtain ⟨after, before⟩ := inCall.2 bandwidth
  exact ⟨after, before.trans (grows.count a (listed a inCall.1).1 bandwidth)⟩

theorem Constructing.keep {a : Access} (constructing : Constructing m s t a) (grows : Grows m s s')
    (undisturbed : Undisturbed m s s' t p) : Constructing m s' t a := by
  obtain ⟨main, bandwidth, core, assigned, online, fresh⟩ := constructing
  obtain ⟨initialised, assigned', -, -, extenders⟩ := undisturbed.loop main
  exact ⟨main.trans grows.main.symm, bandwidth, core.trans initialised.symm, by rw [assigned', initialised, assigned],
    online, by rw [extenders]; exact fresh⟩

theorem UseOk.keep {a : Access} {use : Use} (ok : UseOk m s t a use)
    (listed : ∀ a, m.available s a → a.core < s.assigned ∧ m.coreOnline a.core) (grows : Grows m s s')
    (undisturbed : Undisturbed m s s' t p) : UseOk m s' t a use := by
  cases use with
  | read since => exact InCall.keep ok listed grows
  | construct => exact Constructing.keep ok grows undisturbed

theorem UseOk.setUp {a : Access} {use : Use} (ok : UseOk m s t a use)
    (listed : ∀ a, m.available s a → a.core < s.assigned ∧ m.coreOnline a.core) :
    a.core < s.assigned ∧ m.coreOnline a.core := by
  cases use with
  | read since => exact listed a ok.1
  | construct =>
      refine ⟨?_, ok.online⟩
      rw [ok.core, ok.assigned]
      exact Nat.lt_succ_self _

theorem SampleOk.keep {a : Access} {use : Use} {value : BitVec 64} {sample : Nat}
    (ok : SampleOk m s a use value sample) (setUp : a.core < s.assigned)
    (bandwidth : use = .construct → a.event ≠ .l3Occupancy) (grows : Grows m s s')
    (sampled : a.event ≠ .l3Occupancy → use ≠ .construct → s'.sampled a = s.sampled a)
    (pace : use = .construct → m.count s' a < sample + 2 ^ 24) : SampleOk m s' a use value sample := by
  refine ⟨ok.1, ?_⟩
  cases use with
  | read since =>
      intro other
      obtain ⟨after, later, before⟩ := ok.2 other
      rw [sampled other nofun]
      exact ⟨after, later, before.trans (grows.count a setUp other)⟩
  | construct => exact ⟨ok.2.1.trans (grows.count a setUp (bandwidth rfl)), pace rfl⟩

theorem Assigning.keep {core : Nat} (assigning : Assigning m s t core) (grows : Grows m s s')
    (undisturbed : Undisturbed m s s' t p) : Assigning m s' t core := by
  obtain ⟨main, here, assigned, online⟩ := assigning
  obtain ⟨initialised, assigned', -⟩ := undisturbed.loop main
  exact ⟨main.trans grows.main.symm, here.trans initialised.symm, by rw [assigned', initialised, assigned], online⟩

/-- The facts about a thread stay where its counter only grows and nothing changes what it holds. -/
theorem PhaseOk.keep (ok : PhaseOk m s t p)
    (listed : ∀ a, m.available s a → a.core < s.assigned ∧ m.coreOnline a.core) (grows : Grows m s s')
    (undisturbed : Undisturbed m s s' t p) : PhaseOk m s' t p := by
  cases p with
  | idle => trivial
  | counterMutex a since => exact ⟨ok.1.keep listed grows, ok.2⟩
  | lock a use => exact UseOk.keep ok listed grows undisturbed
  | readSelector a use => exact UseOk.keep ok listed grows undisturbed
  | writeSelector a use msrQmEvtsel =>
      refine ⟨ok.1.keep listed grows undisturbed, ?_⟩
      rw [undisturbed.register a.core rfl]
      exact ok.2
  | readCounter a use =>
      refine ⟨ok.1.keep listed grows undisturbed, ?_⟩
      rw [undisturbed.register a.core rfl, grows.pqrAssoc a.core (ok.1.setUp listed).1]
      exact ok.2
  | unlock a use value sample =>
      refine ⟨ok.1.keep listed grows undisturbed, ok.2.keep (ok.1.setUp listed).1 ?_ grows ?_ ?_⟩
      · rintro rfl
        exact ok.1.bandwidth
      · intro bandwidth call
        cases use with
        | read since => exact undisturbed.sampled a (if_neg bandwidth)
        | construct => exact absurd rfl call
      · rintro rfl
        exact undisturbed.pace a sample rfl
  | update a since value sample =>
      exact ⟨ok.1.keep listed grows, ok.2.1, ok.2.2.keep (listed a ok.1.1).1 nofun grows
        (fun _ _ => undisturbed.sampled a rfl) nofun⟩
  | construct a value sample =>
      have setUp := (show UseOk m s t a .construct from ok.1).setUp listed
      exact ⟨ok.1.keep grows undisturbed, ok.2.keep setUp.1 (fun _ => ok.1.bandwidth) grows
        (fun _ call => absurd rfl call) (fun _ => undisturbed.pace a sample rfl)⟩
  | nextCore =>
      obtain ⟨initialised, assigned, -⟩ := undisturbed.loop ok.1
      exact ⟨ok.1.trans grows.main.symm, by rw [assigned, initialised, ok.2]⟩
  | assignLock core => exact Assigning.keep ok grows undisturbed
  | readAssoc core => exact Assigning.keep ok grows undisturbed
  | writeAssoc core msrPqrAssoc =>
      refine ⟨ok.1.keep grows undisturbed, ?_⟩
      rw [(undisturbed.loop ok.1.main).2.2.2.1]
      exact ok.2
  | writeEvtsel core =>
      obtain ⟨-, -, rmid, pqrAssoc, -⟩ := undisturbed.loop ok.1.main
      refine ⟨ok.1.keep grows undisturbed, ?_⟩
      rw [rmid, pqrAssoc]
      exact ok.2
  | assignUnlock core =>
      obtain ⟨main, here, assigned, online, fresh⟩ := ok
      obtain ⟨initialised, assigned', -, -, extenders⟩ := undisturbed.loop main
      exact ⟨main.trans grows.main.symm, here.trans initialised.symm, by rw [assigned', initialised, assigned], online,
        by rw [extenders]; exact fresh⟩

/-- A sample that waits for the end of a constructor is that of the loop, and keeps its pace. -/
theorem PhaseOk.pending (ok : PhaseOk m s t p) {a : Access} {sample : Nat} (taken : p.pending = some (a, sample)) :
    t = s.main ∧ a.event ≠ .l3Occupancy ∧ m.count s a < sample + 2 ^ 24 := by
  cases p with
  | unlock b use value n =>
      cases use with
      | read since => cases taken
      | construct =>
          cases taken
          exact ⟨ok.1.main, ok.1.bandwidth, ok.2.2.2⟩
  | construct b value n =>
      cases taken
      exact ⟨ok.1.main, ok.1.bandwidth, ok.2.2.2⟩
  | _ => cases taken

/-- Who holds the mutex of an extender reads a counter that can be read. -/
theorem PhaseOk.inMutex (ok : PhaseOk m s t p) {a : Access} (inside : p.inMutex = some a) : m.available s a := by
  have reading_ : ∀ {b : Access} {use : Use}, UseOk m s t b use → use.inMutex b = some a → m.available s a := by
    intro b use useOk inside
    cases use with
    | construct => cases inside
    | read since =>
        simp only [Use.inMutex] at inside
        split at inside
        · cases inside
        · cases inside
          exact useOk.1
  cases p with
  | lock b use => exact reading_ ok inside
  | readSelector b use => exact reading_ ok inside
  | writeSelector b use msrQmEvtsel => exact reading_ ok.1 inside
  | readCounter b use => exact reading_ ok.1 inside
  | unlock b use value sample => exact reading_ ok.1 inside
  | update b since value sample =>
      cases inside
      exact ok.1.1
  | _ => cases inside

end Keep

end Pcm.Rdt

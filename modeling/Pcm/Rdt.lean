import Pcm.ReadCounters
import Pcm.WidthExtender
import Pcm.Lib.Mutex
import Pcm.Lib.Transition

/-!
# Resource monitoring

`initRDT` (`cpucounters.cpp:622-710`) gives each core a resource monitoring ID, and the threads of PCM read
the monitoring counters of a core through one pair of registers: they select an event in `IA32_QM_EVTSEL`
and read `IA32_QM_CTR` under the lock of the core's MSR handle, in `readAndAggregate`
(`cpucounters.cpp:5835-5845`) for the cache occupancy and in `MBLCounter` and `MBTCounter`
(`width_extender.h:73-118`) for the memory bandwidth. A bandwidth counter is read through its
`CounterWidthExtender`, which holds `CounterMutex` meanwhile.

The threads interleave register access by register access, the thread that runs the loop of `initRDT`
among them: the extenders that it has constructed are read by threads of their own while it goes on. What a thread
does between two accesses to registers or mutexes belongs to the access before.
-/

namespace Pcm.Rdt

open FreeRunning Transition Mutex

/-! ## The registers -/

/-- The events of `IA32_QM_EVTSEL`. -/
inductive QosEvent
  | l3Occupancy
  | memoryBWTotal
  | memoryBWLocal
  deriving DecidableEq, Repr

def QosEvent.id : QosEvent → BitVec 64
  | .l3Occupancy => 1
  | .memoryBWTotal => 2
  | .memoryBWLocal => 3

/-- What `initQOSevent` (`cpucounters.cpp:712-723`), `MBLCounter` and `MBTCounter` write to
`IA32_QM_EVTSEL` where they have read `msrQmEvtsel`. -/
def selectEvent (e : QosEvent) (msrQmEvtsel : BitVec 64) : BitVec 64 :=
  (msrQmEvtsel &&& 0xfffffffffffffff0#64) ||| (e.id &&& ((1#64 <<< 8) - 1))

/-- `rmid & ((1ULL<<10)-1ULL)` -/
def rmidField (rmid : BitVec 32) : BitVec 64 := rmid.setWidth 64 &&& ((1#64 <<< 10) - 1)

/-- What `initRDT` writes to `IA32_PQR_ASSOC`; the class of service in the upper half stays. -/
def associate (rmid : BitVec 32) (msrPqrAssoc : BitVec 64) : BitVec 64 :=
  (msrPqrAssoc &&& 0xffffffff00000000#64) ||| rmidField rmid

/-- What `IA32_QM_CTR` shows after `n` units where its bits for errors and for missing data, 63 and 62, are clear; the
bandwidth counters have 24 bits. -/
def reading (event : BitVec 64) (n : Nat) : BitVec 64 :=
  if event = QosEvent.l3Occupancy.id then BitVec.ofNat 64 n else raw 24 n

/-- The machine, with the highest RMID, which `CPUID` tells. -/
structure RdtMachine extends Machine where
  lastRMID : BitVec 32

namespace RdtMachine

variable (m : RdtMachine)

def coreOnline (core : Nat) : Bool := m.cores[core]?.any Core.online

/-- `topology[core].socket_id` -/
def socketOf (core : Nat) : Nat := (m.cores[core]?.map Core.socket).getD 0

/-- How many of the first `k` cores are online and on a socket. -/
def rank (socket k : Nat) : Nat :=
  (List.range k).countP fun core => m.coreOnline core && m.socketOf core == socket

end RdtMachine

/-! ## The state -/

/-- A counter of a core. -/
structure Access where
  event : QosEvent
  core : Nat
  deriving DecidableEq, Repr

/-- What a counter is read for: for a call that began when the counter was at `since`, or in the constructor of its
extender. -/
inductive Use
  | read (since : Nat)
  | construct

/-- Where a thread is. In a call: about to take `CounterMutex`. In reading a counter: about to take the lock of the MSR
handle, to read or write `IA32_QM_EVTSEL`, to read `IA32_QM_CTR`, or to give the lock back. With what has been read:
about to add it to the extended value and give the mutex back, or to construct the extender. In the loop of `initRDT`:
about to look at the next core, to take its lock, to read or write `IA32_PQR_ASSOC`, to write `IA32_QM_EVTSEL`, or to
give the lock back. `sample` is what the counter had counted when `IA32_QM_CTR` was read. -/
inductive Phase
  | idle
  | counterMutex (a : Access) (since : Nat)
  | lock (a : Access) (use : Use)
  | readSelector (a : Access) (use : Use)
  | writeSelector (a : Access) (use : Use) (msrQmEvtsel : BitVec 64)
  | readCounter (a : Access) (use : Use)
  | unlock (a : Access) (use : Use) (value : BitVec 64) (sample : Nat)
  | update (a : Access) (since : Nat) (value : BitVec 64) (sample : Nat)
  | construct (a : Access) (value : BitVec 64) (sample : Nat)
  | nextCore
  | assignLock (core : Nat)
  | readAssoc (core : Nat)
  | writeAssoc (core : Nat) (msrPqrAssoc : BitVec 64)
  | writeEvtsel (core : Nat)
  | assignUnlock (core : Nat)

/-- The sample that the constructor of an extender has taken. -/
def Phase.pending : Phase → Option (Access × Nat)
  | .unlock a .construct _ sample => some (a, sample)
  | .construct a _ sample => some (a, sample)
  | _ => none

/-- What a call has returned, with the counts at its begin, at its sample and at its end. -/
structure Result where
  access : Access
  since : Nat
  value : BitVec 64
  sample : Nat
  upTo : Nat

structure State (θ : Type*) where
  /-- The thread that runs `initRDT`. -/
  main : θ
  /-- How many cores the loop of `initRDT` has been through, and how many have their RMID in both registers. -/
  initialised : Nat := 0
  assigned : Nat := 0
  rmid : Nat → BitVec 32
  pqrAssoc : Nat → BitVec 64
  qmEvtsel : Nat → BitVec 64
  /-- `memory_bw_local` and `memory_bw_total`, by the cores of their counters. -/
  memoryBWLocal : List Nat := []
  memoryBWTotal : List Nat := []
  msrLock : Nat → Option θ := fun _ => none
  counterMutex : Access → Option θ := fun _ => none
  extender : Access → CounterWidthExtender := fun _ => .construct 24 0
  /-- The extenders that are constructed; each has a thread of its own from then on. -/
  extenders : List Access := []
  phase : θ → Phase
  results : List Result := []
  /-- What the hardware has counted, by socket, RMID and event. -/
  monitor : Nat → BitVec 64 → BitVec 64 → Nat
  /-- What each core has caused. -/
  traffic : Access → Nat := fun _ => 0
  /-- The counts at the construction of an extender and at its last sample. -/
  base : Access → Nat := fun _ => 0
  sampled : Access → Nat := fun _ => 0

variable {θ : Type*}

namespace RdtMachine

variable (m : RdtMachine)

/-- What the hardware has counted for the RMID of a core. -/
def count (s : State θ) (a : Access) : Nat :=
  s.monitor (m.socketOf a.core) (extractBits (s.pqrAssoc a.core) 0 9) a.event.id

/-- `IA32_QM_CTR` of a core: the counter that its `IA32_QM_EVTSEL` selects. -/
def qmCtr (s : State θ) (core : Nat) : BitVec 64 :=
  let event := extractBits (s.qmEvtsel core) 0 7
  reading event (s.monitor (m.socketOf core) (extractBits (s.qmEvtsel core) 32 41) event)

/-- The counters that a thread can read: those of the extenders there are, and the occupancy of a core that is
set up. -/
def available (s : State θ) (a : Access) : Prop :=
  if a.event = .l3Occupancy then a.core < s.initialised ∧ m.coreOnline a.core else a ∈ s.extenders

end RdtMachine

namespace State

/-- The occupancy of an RMID changes in any way. -/
def setOccupancy (s : State θ) (socket : Nat) (rmid : BitVec 64) (n : Nat) : State θ :=
  { s with monitor := fun d r event =>
      if d = socket ∧ r = rmid ∧ event = QosEvent.l3Occupancy.id then n else s.monitor d r event }

variable [DecidableEq θ]

def goto (s : State θ) (t : θ) (phase : Phase) : State θ :=
  { s with phase := Function.update s.phase t phase }

/-- The begin of a call: the cache occupancy is read without an extender. -/
def call (m : RdtMachine) (s : State θ) (t : θ) (a : Access) : State θ :=
  if a.event = .l3Occupancy then s.goto t (.lock a (.read (m.count s a)))
  else s.goto t (.counterMutex a (m.count s a))

/-- The end of a call. -/
def result (m : RdtMachine) (s : State θ) (t : θ) (a : Access) (since : Nat) (value : BitVec 64)
    (sample : Nat) : State θ :=
  { s.goto t .idle with results := ⟨a, since, value, sample, m.count s a⟩ :: s.results }

/-- The end of a round of the loop over the cores. -/
def finishCore (m : RdtMachine) (s : State θ) (t : θ) (core : Nat) : State θ :=
  { s.goto t .nextCore with
    rmid := Function.update s.rmid (m.socketOf core) (s.rmid (m.socketOf core) - 1)
    initialised := core + 1 }

/-- The end of the constructor of a `CounterWidthExtender`, whose thread is started. -/
def constructed (s : State θ) (a : Access) (value : BitVec 64) (sample : Nat) : State θ :=
  { s with
    extender := Function.update s.extender a (.construct 24 value)
    extenders := a :: s.extenders
    base := Function.update s.base a sample
    sampled := Function.update s.sampled a sample }

/-- An extender goes into its vector, and the loop goes on to the other one of the core or ends its round. -/
def pushBack (m : RdtMachine) (s : State θ) (t : θ) (a : Access) : State θ :=
  if a.event = .memoryBWLocal then
    let s := { s with memoryBWLocal := s.memoryBWLocal ++ [a.core] }
    if m.coreRemoteMemoryBWMetricAvailable then s.goto t (.lock ⟨.memoryBWTotal, a.core⟩ .construct)
    else s.finishCore m t a.core
  else { s with memoryBWTotal := s.memoryBWTotal ++ [a.core] }.finishCore m t a.core

/-- The next action of a thread; `none` if it is idle or has to wait. -/
def next (m : RdtMachine) (s : State θ) (t : θ) : Option (State θ) :=
  match s.phase t with
  | .idle => none
  | .counterMutex a since =>
      if s.counterMutex a = none then
        some { s.goto t (.lock a (.read since)) with
          counterMutex := Function.update s.counterMutex a (some t) }
      else none
  -- `operator()` of the raw counter, or the block of `readAndAggregate`
  | .lock a use =>
      if s.msrLock a.core = none then
        some { s.goto t (.readSelector a use) with msrLock := Function.update s.msrLock a.core (some t) }
      else none
  | .readSelector a use => some (s.goto t (.writeSelector a use (s.qmEvtsel a.core)))
  | .writeSelector a use msrQmEvtsel =>
      some { s.goto t (.readCounter a use) with
        qmEvtsel := Function.update s.qmEvtsel a.core (selectEvent a.event msrQmEvtsel) }
  | .readCounter a use => some (s.goto t (.unlock a use (m.qmCtr s a.core) (m.count s a)))
  | .unlock a use value sample =>
      let s := { s with msrLock := Function.update s.msrLock a.core none }
      match use with
      | .construct => some (s.goto t (.construct a value sample))
      | .read since =>
          if a.event = .l3Occupancy then some (s.result m t a since value sample)
          else some (s.goto t (.update a since value sample))
  | .update a since value sample =>
      let read := (s.extender a).internalRead value
      let s := { s with
        extender := Function.update s.extender a read.1
        sampled := Function.update s.sampled a sample
        counterMutex := Function.update s.counterMutex a none }
      some (s.result m t a since read.2 sample)
  | .construct a value sample => some ((s.constructed a value sample).pushBack m t a)
  -- the loop of `initRDT`
  | .nextCore =>
      if s.initialised < m.cores.length then
        if m.coreOnline s.initialised then some (s.goto t (.assignLock s.initialised))
        else some { s with initialised := s.initialised + 1, assigned := s.initialised + 1 }
      else some (s.goto t .idle)
  | .assignLock core =>
      if s.msrLock core = none then
        some { s.goto t (.readAssoc core) with msrLock := Function.update s.msrLock core (some t) }
      else none
  | .readAssoc core => some (s.goto t (.writeAssoc core (s.pqrAssoc core)))
  | .writeAssoc core msrPqrAssoc =>
      some { s.goto t (.writeEvtsel core) with
        pqrAssoc := Function.update s.pqrAssoc core (associate (s.rmid (m.socketOf core)) msrPqrAssoc) }
  | .writeEvtsel core =>
      some { s.goto t (.assignUnlock core) with
        qmEvtsel := Function.update s.qmEvtsel core (rmidField (s.rmid (m.socketOf core)) <<< 32)
        assigned := core + 1 }
  | .assignUnlock core =>
      let s := { s with msrLock := Function.update s.msrLock core none }
      if m.coreLocalMemoryBWMetricAvailable then some (s.goto t (.lock ⟨.memoryBWLocal, core⟩ .construct))
      else some (s.finishCore m t core)

end State

namespace RdtMachine

variable (m : RdtMachine)

/-- A core causes `n` units of an event, which count for its RMID. -/
def addTraffic (a : Access) (n : Nat) (s : State θ) : State θ :=
  { s with
    monitor := fun socket rmid event =>
      if socket = m.socketOf a.core ∧ rmid = extractBits (s.pqrAssoc a.core) 0 9 ∧ event = a.event.id then
        s.monitor socket rmid event + n
      else s.monitor socket rmid event
    traffic := Function.update s.traffic a (s.traffic a + n) }

/-- The counters with an extender. -/
def Extended (s : State θ) (a : Access) : Prop :=
  a.event ≠ .l3Occupancy ∧ m.available s a

/-- No counter is a whole lap ahead of what its extender has last sampled, or of what its constructor has: the
thread of the extender, which samples every second, sees to that. -/
structure Paced (s : State θ) : Prop where
  extended : ∀ a, m.Extended s a → m.count s a < s.sampled a + 2 ^ 24
  pending : ∀ t a sample, (s.phase t).pending = some (a, sample) → m.count s a < sample + 2 ^ 24

variable [DecidableEq θ]

/-- One step, of a thread or of the hardware. -/
inductive Step : State θ → State θ → Prop
  | call {s t a} : s.phase t = .idle → m.available s a → Step s (s.call m t a)
  | next {s s' t} : s.next m t = some s' → Step s s'
  | traffic {s a n} : a.event ≠ .l3Occupancy → m.coreOnline a.core → m.Paced (m.addTraffic a n s) →
      Step s (m.addTraffic a n s)
  | occupancy {s socket rmid n} : Step s (s.setOccupancy socket rmid n)

/-- At the loop of `initRDT`, with whatever the registers hold. -/
def start (m : RdtMachine) (main : θ) (pqrAssoc qmEvtsel : Nat → BitVec 64)
    (monitor : Nat → BitVec 64 → BitVec 64 → Nat) : State θ where
  main := main
  rmid := fun _ => m.lastRMID
  pqrAssoc := pqrAssoc
  qmEvtsel := qmEvtsel
  phase := Function.update (fun _ => .idle) main .nextCore
  monitor := monitor

end RdtMachine

end Pcm.Rdt

import Mathlib.Data.List.FinRange
import Pcm.CoreTaskQueue
import Pcm.CounterStateWrites

/-!
# The tasks of getAllCounterStates

`getAllCounterStates` (`cpucounters.cpp:7185-7254`) queues one task for each online core and one for
each socket, the latter on the socket's reference core, and adds the states up when all futures are
ready. The tasks of the cores of one socket and the task of the socket itself write to the same
`SocketCounterState` at the same time. Whatever the workers do first, `Machine.getAllCounterStates`
is what comes out, in every call of a session.
-/

namespace Pcm.Machine

open Interleaving Transition CoreTaskQueue
open Accumulate (modify)

/-! ## Tasks and their actions -/

/-- The vectors that the tasks write to. -/
structure SharedStates where
  socketStates : Nat → SocketCounterState := fun _ => {}
  coreStates : Nat → BasicCounterState := fun _ => {}

/-- The actions of the tasks on a machine with `n` cores: writes to one member of `coreStates[core]` or
`socketStates[socket]`. -/
inductive TaskAction (n : Nat)
  | core (core : Fin n) (write : BasicWrite)
  /-- One `atomic_fetch_add` of `readAndAggregatePackageCStateResidencies`. -/
  | packageCState (core : Fin n) (i : CState)
  | uncore (socket : Nat) (write : UncoreWrite)
  | basic (socket : Nat) (write : BasicWrite)
  deriving DecidableEq

/-- The members that the actions write to. -/
inductive Location (n : Nat)
  | core (core : Fin n) (member : BasicMember)
  | uncore (socket : Nat) (member : UncoreMember)
  | basic (socket : Nat) (member : BasicMember)
  deriving DecidableEq

/-- `CStateResidency[i] += value` -/
def addResidency (i : CState) (value : BitVec 64) (s : UncoreCounterState) : UncoreCounterState :=
  { s with cStateResidency := modify s.cStateResidency i (· + value) }

/-- `cCStateResidency[i]` (`cpucounters.cpp:6860-6865`). -/
def packageResidency (m : Machine) (core : Core) (i : CState) : BitVec 64 :=
  if m.pkgCStateMsr i ≠ 0 then core.msr (m.pkgCStateMsr i) else 0

section Tasks

variable {n : Nat} (m : Machine) (size : m.cores.length = n)

def coreAt (core : Fin n) : Core := m.cores.get ⟨core, by omega⟩

/-- `socketRefCore[socket]`, or 0 (`cpucounters.cpp:1589-1596`, `7215-7216`). -/
def refCore (pos : 0 < n) (socket : Nat) : Fin n :=
  ((List.finRange n).filter fun core =>
    (m.coreAt size core).online && (m.coreAt size core).socket == socket).getLast?.getD ⟨0, pos⟩

def TaskAction.perform : TaskAction n → SharedStates → SharedStates
  | .core c write, s => { s with coreStates := modify s.coreStates c write.perform }
  | .packageCState c i, s =>
      { s with
        socketStates := modify s.socketStates (m.coreAt size c).socket fun state =>
          { state with
            uncore := addResidency i (m.packageResidency (m.coreAt size c) i) state.uncore } }
  | .uncore k write, s =>
      { s with
        socketStates := modify s.socketStates k fun state => { state with uncore := write.perform state.uncore } }
  | .basic k write, s =>
      { s with
        socketStates := modify s.socketStates k fun state => { state with basic := write.perform state.basic } }

def TaskAction.location : TaskAction n → Location n
  | .core c write => .core c write.member
  | .packageCState c i => .uncore (m.coreAt size c).socket (.field (.cStateResidency i))
  | .uncore k write => .uncore k write.member
  | .basic k write => .basic k write.member

/-- Whether an action is atomic. -/
def TaskAction.isAtomic : TaskAction n → Bool
  | .packageCState _ _ => true
  | _ => false

/-- The task of a core (`cpucounters.cpp:7200-7208`). -/
def coreActions (readAndAggregateSocketUncoreCounters : Bool) (core : Fin n) :
    List (TaskAction n) :=
  (m.coreWrites (m.coreAt size core)).map (.core core) ++
    (if readAndAggregateSocketUncoreCounters then
        ((List.finRange 11).filter fun i => m.packageResidency (m.coreAt size core) i ≠ 0).map
          (.packageCState core)
      else []) ++
    (readMSRsWrites (m.coreAt size core).msr m.threadMSRConfig).map (.core core)

/-- The task of a socket (`cpucounters.cpp:7217-7223`). -/
def socketActions (pos : 0 < n) (socket : Nat) : List (TaskAction n) :=
  (m.uncoreWrites socket).map (.uncore socket) ++
    (m.packageThermalWrites socket ++
      readMSRsWrites (m.coreAt size (m.refCore size pos socket)).msr m.packageMSRConfig).map (.basic socket)

def coreTasks (readAndAggregateSocketUncoreCounters : Bool) : List (Fin n × List (TaskAction n)) :=
  ((List.finRange n).filter fun core => (m.coreAt size core).online).map fun core =>
    (core, m.coreActions size readAndAggregateSocketUncoreCounters core)

def socketTasks (pos : 0 < n) : List (Fin n × List (TaskAction n)) :=
  (List.range m.numSockets).map fun socket => (m.refCore size pos socket, m.socketActions size pos socket)

/-- What `getAllCounterStates` pushes, in its order. -/
def tasks (pos : 0 < n) (readAndAggregateSocketUncoreCounters : Bool) :
    List (Fin n × List (TaskAction n)) :=
  m.coreTasks size readAndAggregateSocketUncoreCounters ++
    if readAndAggregateSocketUncoreCounters then m.socketTasks size pos else []

/-- What `getAllCounterStates` does after its waits (`cpucounters.cpp:7241-7251`). -/
def collect (s : SharedStates) : AllCounterStates :=
  let socketStates := ((List.finRange n).filter fun core => (m.coreAt size core).online).foldl
    (fun states core =>
      modify states (m.coreAt size core).socket (·.addBasic (s.coreStates core))) s.socketStates
  { systemState := (List.range m.numSockets).foldl
      (fun system socket => system.addSocket (socketStates socket))
      (SystemCounterState.construct m.numSockets)
    socketStates := socketStates
    coreStates := (List.finRange n).map fun core : Fin n => s.coreStates core }

/-! ## Actions on different queues commute -/

/-- A write to the uncore counters neither sees nor changes what is added to a package C-state. -/
theorem perform_addResidency (write : UncoreWrite) (i : CState) (value : BitVec 64) (s : UncoreCounterState) :
    write.perform (addResidency i value s) = addResidency i value (write.perform s) := by
  cases write with
  | clearUFSStatus => rfl
  | pushUFSStatus v => rfl
  | add f v =>
      cases f with
      | cStateResidency j =>
          simp only [UncoreWrite.perform, UncoreField.modify, addResidency]
          rw [Accumulate.modify_comm]
          exact fun _ old => add_right_comm old value v
      | _ => rfl

theorem addResidency_comm (i j : CState) (v w : BitVec 64) (s : UncoreCounterState) :
    addResidency i v (addResidency j w s) = addResidency j w (addResidency i v s) := by
  simp only [addResidency]
  rw [Accumulate.modify_comm]
  intro _ value
  exact add_right_comm value w v

/-- The queue that an action is done on. -/
def TaskAction.queue (pos : 0 < n) : TaskAction n → Fin n
  | .core c _ => c
  | .packageCState c _ => c
  | .uncore k _ => m.refCore size pos k
  | .basic k _ => m.refCore size pos k

theorem TaskAction.commute (pos : 0 < n) (a b : TaskAction n)
    (apart : a.queue m size pos ≠ b.queue m size pos) :
    Function.Commute (a.perform m size) (b.perform m size) := by
  intro s
  have sockets : ∀ {k l : Nat}, m.refCore size pos k ≠ m.refCore size pos l → k ≠ l :=
    fun differ same => differ (congrArg (m.refCore size pos) same)
  cases a with
  | core c write =>
      cases b with
      | core d other =>
          have differ : (c : Nat) ≠ d := fun same => apart (Fin.ext same)
          simp only [perform]
          rw [Accumulate.modify_comm _ _ _ fun same => absurd same differ]
      | _ => rfl
  | packageCState c i =>
      cases b with
      | core d other => rfl
      | packageCState d j =>
          simp only [perform]
          rw [Accumulate.modify_comm]
          intro _ state
          rw [addResidency_comm]
      | uncore k other =>
          simp only [perform]
          rw [Accumulate.modify_comm]
          intro _ state
          rw [perform_addResidency]
      | basic k other =>
          simp only [perform]
          rw [Accumulate.modify_comm]
          intro _ state
          rfl
  | uncore k write =>
      cases b with
      | core d other => rfl
      | packageCState d j =>
          simp only [perform]
          rw [Accumulate.modify_comm]
          intro _ state
          rw [perform_addResidency]
      | uncore l other =>
          simp only [perform]
          rw [Accumulate.modify_comm _ _ _ fun same => absurd same (sockets apart)]
      | basic l other =>
          simp only [perform]
          rw [Accumulate.modify_comm _ _ _ fun same => absurd same (sockets apart)]
  | basic k write =>
      cases b with
      | core d other => rfl
      | packageCState d j =>
          simp only [perform]
          rw [Accumulate.modify_comm]
          intro _ state
          rfl
      | uncore l other =>
          simp only [perform]
          rw [Accumulate.modify_comm _ _ _ fun same => absurd same (sockets apart)]
      | basic l other =>
          simp only [perform]
          rw [Accumulate.modify_comm _ _ _ fun same => absurd same (sockets apart)]

/-- The actions of a core's task. -/
theorem mem_coreActions {flag : Bool} {c : Fin n} {a : TaskAction n} (inside : a ∈ m.coreActions size flag c) :
    (∃ write, a = .core c write) ∨ ∃ i, a = .packageCState c i := by
  simp only [coreActions, List.mem_append, List.mem_map] at inside
  rcases inside with (⟨write, -, rfl⟩ | added) | ⟨write, -, rfl⟩
  · exact .inl ⟨write, rfl⟩
  · cases flag with
    | false => cases added
    | true =>
        obtain ⟨i, -, rfl⟩ := List.mem_map.mp added
        exact .inr ⟨i, rfl⟩
  · exact .inl ⟨write, rfl⟩

/-- The actions of a socket's task. -/
theorem mem_socketActions {pos : 0 < n} {socket : Nat} {a : TaskAction n}
    (inside : a ∈ m.socketActions size pos socket) :
    (∃ write ∈ m.uncoreWrites socket, a = .uncore socket write) ∨ ∃ write, a = .basic socket write := by
  rcases List.mem_append.mp inside with uncore | basic
  · obtain ⟨write, listed, rfl⟩ := List.mem_map.mp uncore
    exact .inl ⟨write, listed, rfl⟩
  · obtain ⟨write, -, rfl⟩ := List.mem_map.mp basic
    exact .inr ⟨write, rfl⟩

/-- Each action is one of a core's task on the core's queue, or of a socket's on that of its reference core. -/
theorem mem_tasks (pos : 0 < n) {flag : Bool} {k : Fin n} {a : TaskAction n}
    (member : (k, a) ∈ inOrder (m.tasks size pos flag)) :
    (∃ write, a = .core k write) ∨ (∃ i, a = .packageCState k i) ∨
      ∃ socket, k = m.refCore size pos socket ∧
        ((∃ write ∈ m.uncoreWrites socket, a = .uncore socket write) ∨ ∃ write, a = .basic socket write) := by
  obtain ⟨task, pushed, inside⟩ := mem_inOrder.mp member
  rcases List.mem_append.mp pushed with core | socket
  · obtain ⟨c, -, same⟩ := List.mem_map.mp core
    cases same
    rcases m.mem_coreActions size inside with write | added
    · exact .inl write
    · exact .inr (.inl added)
  · cases flag with
    | false => cases socket
    | true =>
        obtain ⟨number, -, same⟩ := List.mem_map.mp socket
        cases same
        exact .inr (.inr ⟨number, rfl, m.mem_socketActions size inside⟩)

theorem queue_of_mem_tasks (pos : 0 < n) {flag : Bool} {k : Fin n} {a : TaskAction n}
    (member : (k, a) ∈ inOrder (m.tasks size pos flag)) : a.queue m size pos = k := by
  rcases m.mem_tasks size pos member with
    ⟨write, rfl⟩ | ⟨i, rfl⟩ | ⟨socket, rfl, ⟨write, -, rfl⟩ | ⟨write, rfl⟩⟩ <;> rfl

theorem tasks_independent (pos : 0 < n) (flag : Bool) :
    Independent (TaskAction.perform m size) fun k a => (k, a) ∈ inOrder (m.tasks size pos flag) := by
  intro k l apart a b ofK ofL
  apply TaskAction.commute m size pos
  rw [m.queue_of_mem_tasks size pos ofK, m.queue_of_mem_tasks size pos ofL]
  exact apart

/-- Where two workers write to the same member, both do so with atomic additions. -/
theorem tasks_raceFree (pos : 0 < n) {flag : Bool} {k l : Fin n} {a b : TaskAction n} (apart : k ≠ l)
    (ofK : (k, a) ∈ inOrder (m.tasks size pos flag)) (ofL : (l, b) ∈ inOrder (m.tasks size pos flag))
    (same : a.location m size = b.location m size) : a.isAtomic ∧ b.isAtomic := by
  rcases m.mem_tasks size pos ofK with ⟨write, rfl⟩ | ⟨i, rfl⟩ | ⟨socket, rfl, ⟨write, listed, rfl⟩ | ⟨write, rfl⟩⟩ <;>
    rcases m.mem_tasks size pos ofL with
      ⟨write', rfl⟩ | ⟨j, rfl⟩ | ⟨socket', rfl, ⟨write', listed', rfl⟩ | ⟨write', rfl⟩⟩ <;>
    simp only [TaskAction.location, Location.core.injEq, Location.uncore.injEq, Location.basic.injEq, reduceCtorEq]
      at same
  · exact absurd same.1 apart
  · exact ⟨rfl, rfl⟩
  · exact absurd same.2.symm (m.member_uncoreWrites listed' i)
  · exact absurd same.2 (m.member_uncoreWrites listed j)
  · exact absurd (congrArg (m.refCore size pos) same.1) apart
  · exact absurd (congrArg (m.refCore size pos) same.1) apart

/-! ## The tasks one after another -/

theorem cores_eq : m.cores = (List.finRange n).map (m.coreAt size) := by
  subst size
  exact (List.map_get_finRange m.cores).symm

theorem onlineCores_eq :
    m.onlineCores =
      ((List.finRange n).filter fun c => (m.coreAt size c).online).map (m.coreAt size) := by
  unfold onlineCores
  nth_rewrite 1 [m.cores_eq size]
  rw [List.filter_map]
  rfl

/-- The reference core of the tasks is that of `taskMsr`. -/
theorem refCore_msr (pos : 0 < n) (socket : Nat) :
    (m.coreAt size (m.refCore size pos socket)).msr = m.taskMsr socket := by
  have ref : m.socketRefCore socket =
      ((List.finRange n).filter fun c =>
        (m.coreAt size c).online && (m.coreAt size c).socket == socket).getLast?.map
        (m.coreAt size) := by
    unfold socketRefCore socketCores
    rw [m.onlineCores_eq size, List.filter_map, List.filter_filter, List.getLast?_map]
    congr 2
    apply List.filter_congr
    intro c _
    exact Bool.and_comm _ _
  funext a
  unfold refCore taskMsr
  rw [ref]
  cases ((List.finRange n).filter fun c =>
    (m.coreAt size c).online && (m.coreAt size c).socket == socket).getLast? with
  | some c => rfl
  | none =>
      have first : m.cores.head? = some (m.coreAt size ⟨0, pos⟩) := by
        rw [List.head?_eq_getElem?, List.getElem?_eq_getElem (by omega)]
        rfl
      rw [first]
      rfl

/-- The additions of a core's task are `readAndAggregatePackageCStateResidencies`. -/
theorem foldl_addResidency (core : Core) (s : UncoreCounterState) :
    ((List.finRange 11).filter fun i => m.packageResidency core i ≠ 0).foldl
      (fun s i => addResidency i (m.packageResidency core i) s) s =
      m.readPackageCStateResidencies core s := by
  have only : ∀ (l : List CState) (s : UncoreCounterState),
      l.foldl (fun s i => addResidency i (m.packageResidency core i) s) s =
        { s with
          cStateResidency := l.foldl
            (fun values i => modify values i (· + m.packageResidency core i)) s.cStateResidency } := by
    intro l
    induction l with
    | nil => exact fun s => rfl
    | cons i l ih => exact fun s => ih _
  rw [only]
  unfold readPackageCStateResidencies
  congr 1
  funext i
  have nodup := (List.nodup_finRange 11).filter fun i => m.packageResidency core i ≠ 0
  have value := Accumulate.foldl_modify_nodup Function.injective_id
    (fun i value => value + m.packageResidency core i) nodup s.cStateResidency i
  simpa [packageResidency] using value

/-- What the task of a core leaves in `coreStates`. -/
def writeCoreState (states : Nat → BasicCounterState) (c : Fin n) : Nat → BasicCounterState :=
  modify states (c : Nat) fun state =>
    readMSRs (m.coreAt size c).msr m.threadMSRConfig (m.readAndAggregate (m.coreAt size c) state)

theorem core_foldl (c : Fin n) (writes : List BasicWrite) (s : SharedStates) :
    (writes.map (TaskAction.core c)).foldl (fun s a => a.perform m size s) s =
      { s with coreStates := modify s.coreStates c fun state => writes.foldl BasicWrite.perform state } := by
  induction writes generalizing s with
  | nil => exact congrArg (SharedStates.mk s.socketStates) (Accumulate.modify_eq_self s.coreStates (c : Nat)).symm
  | cons write writes ih =>
      rw [List.map_cons, List.foldl_cons, ih]
      simp only [TaskAction.perform, Accumulate.modify_modify, List.foldl_cons]

theorem uncore_foldl (socket : Nat) (writes : List UncoreWrite) (s : SharedStates) :
    (writes.map (TaskAction.uncore socket)).foldl (fun s (a : TaskAction n) => a.perform m size s) s =
      { s with
        socketStates := modify s.socketStates socket fun state =>
          { state with uncore := writes.foldl UncoreWrite.perform state.uncore } } := by
  induction writes generalizing s with
  | nil =>
      exact congrArg (SharedStates.mk · s.coreStates) (Accumulate.modify_eq_self s.socketStates socket).symm
  | cons write writes ih =>
      rw [List.map_cons, List.foldl_cons, ih]
      simp only [TaskAction.perform, Accumulate.modify_modify, List.foldl_cons]

theorem basic_foldl (socket : Nat) (writes : List BasicWrite) (s : SharedStates) :
    (writes.map (TaskAction.basic socket)).foldl (fun s (a : TaskAction n) => a.perform m size s) s =
      { s with
        socketStates := modify s.socketStates socket fun state =>
          { state with basic := writes.foldl BasicWrite.perform state.basic } } := by
  induction writes generalizing s with
  | nil =>
      exact congrArg (SharedStates.mk · s.coreStates) (Accumulate.modify_eq_self s.socketStates socket).symm
  | cons write writes ih =>
      rw [List.map_cons, List.foldl_cons, ih]
      simp only [TaskAction.perform, Accumulate.modify_modify, List.foldl_cons]

theorem packageCState_foldl (c : Fin n) (l : List CState) (s : SharedStates) :
    (l.map (TaskAction.packageCState c)).foldl (fun s a => a.perform m size s) s =
      { s with
        socketStates := modify s.socketStates (m.coreAt size c).socket fun state =>
          { state with
            uncore := l.foldl (fun s i => addResidency i (m.packageResidency (m.coreAt size c) i) s)
              state.uncore } } := by
  induction l generalizing s with
  | nil =>
      exact congrArg (SharedStates.mk · s.coreStates) (Accumulate.modify_eq_self s.socketStates _).symm
  | cons i l ih =>
      rw [List.map_cons, List.foldl_cons, ih]
      simp only [TaskAction.perform, Accumulate.modify_modify, List.foldl_cons]

theorem coreActions_foldl (flag : Bool) (c : Fin n) (s : SharedStates) :
    (m.coreActions size flag c).foldl (fun s a => a.perform m size s) s =
      { socketStates :=
          if flag then modify s.socketStates (m.coreAt size c).socket (m.coreTask (m.coreAt size c))
          else s.socketStates
        coreStates := m.writeCoreState size s.coreStates c } := by
  rw [coreActions, List.foldl_append, List.foldl_append, core_foldl, core_foldl]
  cases flag with
  | false =>
      simp only [Bool.false_eq_true, if_false, List.foldl_nil, Accumulate.modify_modify, foldl_coreWrites,
        foldl_readMSRsWrites]
      rfl
  | true =>
      simp only [if_true, packageCState_foldl, foldl_addResidency, Accumulate.modify_modify, foldl_coreWrites,
        foldl_readMSRsWrites]
      rfl

theorem socketActions_foldl (pos : 0 < n) (socket : Nat) (s : SharedStates) :
    (m.socketActions size pos socket).foldl (fun s a => a.perform m size s) s =
      { s with socketStates := modify s.socketStates socket (m.socketTask socket) } := by
  rw [socketActions, List.foldl_append, uncore_foldl, basic_foldl]
  simp only [Accumulate.modify_modify, List.foldl_append, foldl_uncoreWrites, foldl_packageThermalWrites,
    foldl_readMSRsWrites, refCore_msr]
  rfl

theorem coreTasks_foldl (flag : Bool) (l : List (Fin n)) (s : SharedStates) :
    (l.map fun c => (c, m.coreActions size flag c)).foldl
      (fun s task => task.2.foldl (fun s a => a.perform m size s) s) s =
      { socketStates :=
          if flag then
            l.foldl (fun states c =>
              modify states (m.coreAt size c).socket (m.coreTask (m.coreAt size c))) s.socketStates
          else s.socketStates
        coreStates := l.foldl (m.writeCoreState size) s.coreStates } := by
  induction l generalizing s with
  | nil => cases flag <;> rfl
  | cons c l ih =>
      rw [List.map_cons, List.foldl_cons, ih, coreActions_foldl]
      cases flag <;> rfl

theorem socketTasks_foldl (pos : 0 < n) (l : List Nat) (s : SharedStates) :
    (l.map fun k => (m.refCore size pos k, m.socketActions size pos k)).foldl
      (fun s task => task.2.foldl (fun s a => a.perform m size s) s) s =
      { s with
        socketStates :=
          l.foldl (fun states k => modify states k (m.socketTask k)) s.socketStates } := by
  induction l generalizing s with
  | nil => rfl
  | cons k l ih =>
      rw [List.map_cons, List.foldl_cons, ih, socketActions_foldl]
      rfl

/-- The tasks in the order in which they are queued give `getAllCounterStates`. -/
theorem collect_inOrder (pos : 0 < n) (flag : Bool) :
    m.collect size (perform (TaskAction.perform m size) {} (inOrder (m.tasks size pos flag))) =
      m.getAllCounterStates flag := by
  have tasks : perform (TaskAction.perform m size) {} (inOrder (m.tasks size pos flag)) =
      { socketStates :=
          if flag then
            (List.range m.numSockets).foldl
              (fun states socket => modify states socket (m.socketTask socket))
              (m.onlineCores.foldl
                (fun states core => modify states core.socket (m.coreTask core)) fun _ => {})
          else fun _ => {}
        coreStates := ((List.finRange n).filter fun c => (m.coreAt size c).online).foldl
          (m.writeCoreState size) fun _ => {} } := by
    rw [perform_inOrder, Machine.tasks, List.foldl_append, coreTasks, coreTasks_foldl,
      m.onlineCores_eq size, List.foldl_map]
    cases flag with
    | false => rfl
    | true =>
        simp only [if_true, socketTasks, socketTasks_foldl]
  have core : ∀ c : Fin n, ((List.finRange n).filter fun c => (m.coreAt size c).online).foldl
      (m.writeCoreState size) (fun _ => {}) (c : Nat) = m.coreState (m.coreAt size c) := by
    intro c
    have nodup := (List.nodup_finRange n).filter fun c => (m.coreAt size c).online
    refine (Accumulate.foldl_modify_nodup Fin.val_injective
      (fun c state => readMSRs (m.coreAt size c).msr m.threadMSRConfig
        (m.readAndAggregate (m.coreAt size c) state)) nodup (fun _ => {}) c).trans ?_
    simp only [List.mem_filter, List.mem_finRange, true_and]
    rfl
  have states : m.cores.map m.coreState =
      (List.finRange n).map fun c => m.coreState (m.coreAt size c) :=
    (congrArg (List.map m.coreState) (m.cores_eq size)).trans List.map_map
  rw [tasks]
  unfold collect getAllCounterStates
  simp only [core, states]
  rw [m.onlineCores_eq size, List.foldl_map, List.foldl_map]

end Tasks

/-! ## Sessions of calls -/

/-- A call of `getAllCounterStates`: what the machine shows while it runs, and its argument. -/
structure Call (n : Nat) where
  machine : Machine
  size : machine.cores.length = n
  readAndAggregateSocketUncoreCounters : Bool

/-- The queues of `n` cores with their tasks. -/
abbrev TaskQueues (n : Nat) := Queues (Fin n) (TaskAction n) SharedStates

namespace Call

variable {n : Nat} (pos : 0 < n)

/-- The tasks that a call pushes. -/
def tasks (c : Call n) : List (Fin n × List (TaskAction n)) :=
  c.machine.tasks c.size pos c.readAndAggregateSocketUncoreCounters

/-- The queues when a call has cleared its vectors. -/
def start (c : Call n) (s : TaskQueues n) : TaskQueues n := s.begin (c.tasks pos) {}

/-- The states that a call can be in that has started with the queues `s`. -/
def Reaches (c : Call n) (s t : TaskQueues n) : Prop :=
  Reachable (Step (TaskAction.perform c.machine c.size)) (c.start pos s) t

theorem Reaches.awake {pos : 0 < n} {c : Call n} {s t : TaskQueues n} (reached : c.Reaches pos s t)
    (awake : Awake s) : Awake t := by
  have first : Awake (c.start pos s) := awake
  exact first.of_reachable reached

/-- What the call returns, read off the vectors. -/
def result (c : Call n) (t : TaskQueues n) : AllCounterStates := c.machine.collect c.size t.memory

end Call

/-- The queues behind the constructor of `PCM`: each worker is about to take its lock. -/
def created (n : Nat) : TaskQueues n where
  toPush := []
  wQueue := fun _ => []
  worker := fun _ => .locking
  memory := {}

/-- Calls one after another, with what they have returned. The workers may go on while no call is
active, too: they do so behind the end of the call before. -/
inductive Session {n : Nat} (pos : 0 < n) : List (Call n × AllCounterStates) → TaskQueues n → Prop
  | created : Session pos [] (created n)
  | call {results s t} (earlier : Session pos results s) (c : Call n)
      (reached : c.Reaches pos s t) (finished : Finished t) :
      Session pos (results ++ [(c, c.result t)]) t

section Sessions

variable {n : Nat} {pos : 0 < n}

theorem Session.ready {results : List (Call n × AllCounterStates)} {s : TaskQueues n}
    (session : Session pos results s) : Ready s ∧ Awake s := by
  induction session with
  | created =>
      constructor
      · intro k task member
        cases member
      · intro k waiting
        rfl
  | call earlier c reached finished ih => exact ⟨finished.2, reached.awake ih.2⟩

/-- Every call of a session returns what `getAllCounterStates` computes, whatever the order in which
the workers have done their writes. Two workers write to the same member only with atomic additions,
so that a `+=` of one is never split by a write of the other. No call gets stuck, either: the threads
come to rest after finitely many steps unless workers wake up for nothing again and again, and where
they can do nothing more the call is at its end. -/
theorem session_results {results : List (Call n × AllCounterStates)} {s : TaskQueues n}
    (session : Session pos results s) :
    (∀ r ∈ results,
      r.2 = r.1.machine.getAllCounterStates r.1.readAndAggregateSocketUncoreCounters) ∧
    (∀ (c : Call n) (k l : Fin n) (a b : TaskAction n), k ≠ l → (k, a) ∈ inOrder (c.tasks pos) →
      (l, b) ∈ inOrder (c.tasks pos) → a.location c.machine c.size = b.location c.machine c.size →
      a.isAtomic ∧ b.isAtomic) ∧
    (∀ (c : Call n) (t : TaskQueues n), c.Reaches pos s t →
      (∀ u, ¬ Work (TaskAction.perform c.machine c.size) t u) → Finished t) ∧
    ∀ (c : Call n) (run : Nat → TaskQueues n),
      ∃ i, ¬ Work (TaskAction.perform c.machine c.size) (run i) (run (i + 1)) := by
  refine ⟨?_, ?_, ?_, fun c run => comes_to_rest run⟩
  · induction session with
    | created => simp
    | call earlier c reached finished ih =>
        intro r member
        rcases List.mem_append.mp member with member | last
        · exact ih r member
        · obtain rfl := List.mem_singleton.mp last
          have memory := memory_of_finished
            (c.machine.tasks_independent c.size pos c.readAndAggregateSocketUncoreCounters)
            earlier.ready.1 reached finished
          exact (congrArg (c.machine.collect c.size) memory).trans
            (c.machine.collect_inOrder c.size pos c.readAndAggregateSocketUncoreCounters)
  · intro c k l a b apart ofK ofL same
    exact c.machine.tasks_raceFree c.size pos apart ofK ofL same
  · intro c t reached stuck
    by_contra busy
    obtain ⟨u, step⟩ := exists_work (reached.awake session.ready.2) busy
    exact stuck u step

/-! Two calls on a socket with two cores. In the first the workers take turns, in the second one of
them has done its tasks before the other begins. -/

def twoCores (first second : BitVec 64) : Machine where
  cpuFamilyModel := .SKX
  numSockets := 1
  cores := [{ osId := 0, coreId := 0, socketId := 0, msr := fun _ => first },
    { osId := 1, coreId := 1, socketId := 0, msr := fun _ => second }]
  socketsInRange := by simp
  arith := { scale := fun x d => x / BitVec.ofNat 64 d, share := fun part total slots => part * slots / total }
  pkgCStateMsr := fun i => if i = 6 then 0x3F9 else 0

def earlierCall : Call 2 := ⟨twoCores 7 9, rfl, true⟩

def laterCall : Call 2 := ⟨twoCores 12 15, rfl, true⟩

def inTurns : List (Option (Fin 2)) :=
  [none, none, none, some 0] ++ (List.replicate 45 [some 1, some 0]).flatten

def oneByOne : List (Option (Fin 2)) :=
  [none, none, none] ++ List.replicate 50 (some 1) ++ List.replicate 50 (some 0)

def afterEarlier : TaskQueues 2 :=
  inTurns.foldl (turn (TaskAction.perform earlierCall.machine earlierCall.size))
    (earlierCall.start Nat.two_pos (created 2))

def afterLater : TaskQueues 2 :=
  oneByOne.foldl (turn (TaskAction.perform laterCall.machine laterCall.size))
    (laterCall.start Nat.two_pos afterEarlier)

theorem session_results_two_cores :
    Session Nat.two_pos [(earlierCall, earlierCall.result afterEarlier), (laterCall, laterCall.result afterLater)]
      afterLater ∧
    earlierCall.result afterEarlier = earlierCall.machine.getAllCounterStates true ∧
    ((earlierCall.result afterEarlier).socketStates 0).uncore.cStateResidency 6 = 7 + 9 ∧
    laterCall.result afterLater = laterCall.machine.getAllCounterStates true ∧
    ((laterCall.result afterLater).socketStates 0).uncore.cStateResidency 6 = 12 + 15 := by
  have finished : ∀ {s : TaskQueues 2}, s.toPush = [] → (∀ k, s.wQueue k = []) → Finished s := by
    intro s pushed done
    refine ⟨pushed, ?_⟩
    intro k task member
    rw [done k] at member
    cases member
  have earlierTurns : earlierCall.Reaches Nat.two_pos (created 2) afterEarlier := reachable_turns .refl inTurns
  have laterTurns : laterCall.Reaches Nat.two_pos afterEarlier afterLater := reachable_turns .refl oneByOne
  have earlier := Session.call .created earlierCall earlierTurns (finished (by decide +kernel) (by decide +kernel))
  have later := Session.call earlier laterCall laterTurns (finished (by decide +kernel) (by decide +kernel))
  have results := (session_results later).1
  have first := results _ List.mem_cons_self
  have second := results _ (List.mem_cons_of_mem _ List.mem_cons_self)
  exact ⟨later, first, by decide +kernel, second, by decide +kernel⟩

end Sessions

end Pcm.Machine

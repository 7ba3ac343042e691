import Mathlib.Algebra.Order.BigOperators.Group.Finset
import Mathlib.Data.Fintype.BigOperators
import Pcm.Lib.Interleaving
import Pcm.Lib.Transition

/-!
# Task queues of the cores

`CoreTaskQueue` (`cpucounters.cpp:3133-3182`): each core has a queue and a worker thread. The worker
holds the lock of its queue while it does the tasks, and gives it up only in `condVar.wait`; `push`
takes the lock, appends a task and notifies the worker. One thread pushes tasks on the queues of
several cores and waits for all their futures, as `getAllCounterStates` does.

A task is the list of its actions on shared memory, so that a worker can be interrupted between any
two of them.
-/

namespace Pcm.CoreTaskQueue

open Interleaving Transition

variable {κ α σ : Type*}

/-! ## Queues, workers and the thread that pushes -/

/-- Where the worker of a queue is. -/
inductive Worker
  /-- In `condVar.wait`, without the lock. -/
  | waiting
  /-- On its way out of `wait`, or at the start of its thread: it still needs the lock. -/
  | locking
  /-- In its loops, with the lock. -/
  | working
  deriving DecidableEq

structure Queues (κ α σ : Type*) where
  /-- The tasks that have not been pushed, each with its queue. -/
  toPush : List (κ × List α)
  /-- For each task the actions that have not been done. -/
  wQueue : κ → List (List α)
  worker : κ → Worker
  memory : σ

/-- `notify_one` -/
def notify : Worker → Worker
  | .waiting => .locking
  | other => other

variable [DecidableEq κ] (act : α → σ → σ)

/-- A step of the pushing thread or of a worker. -/
inductive Work : Queues κ α σ → Queues κ α σ → Prop
  | push {s : Queues κ α σ} {k task rest} (next : s.toPush = (k, task) :: rest)
      (free : s.worker k ≠ .working) :
      Work s { s with
        toPush := rest
        wQueue := Function.update s.wQueue k (s.wQueue k ++ [task])
        worker := Function.update s.worker k (notify (s.worker k)) }
  | lock {s : Queues κ α σ} {k} (here : s.worker k = .locking) :
      Work s { s with worker := Function.update s.worker k .working }
  | act {s : Queues κ α σ} {k a task rest} (here : s.worker k = .working)
      (front : s.wQueue k = (a :: task) :: rest) :
      Work s { s with
        wQueue := Function.update s.wQueue k (task :: rest)
        memory := act a s.memory }
  | pop {s : Queues κ α σ} {k rest} (here : s.worker k = .working)
      (front : s.wQueue k = [] :: rest) :
      Work s { s with wQueue := Function.update s.wQueue k rest }
  | wait {s : Queues κ α σ} {k} (here : s.worker k = .working) (empty : s.wQueue k = []) :
      Work s { s with worker := Function.update s.worker k .waiting }

/-- A worker may also wake up without having been notified. -/
inductive Step : Queues κ α σ → Queues κ α σ → Prop
  | work {s t} (step : Work act s t) : Step s t
  | wake {s : Queues κ α σ} {k} (here : s.worker k = .waiting) :
      Step s { s with worker := Function.update s.worker k .locking }

/-- The step of the thread that is next in a schedule, the pushing thread for `none`; a thread that
has to wait lets its turn pass. -/
def turn (s : Queues κ α σ) : Option κ → Queues κ α σ
  | none =>
      match s.toPush with
      | [] => s
      | (k, task) :: rest =>
          if s.worker k = .working then s
          else
            { s with
              toPush := rest
              wQueue := Function.update s.wQueue k (s.wQueue k ++ [task])
              worker := Function.update s.worker k (notify (s.worker k)) }
  | some k =>
      match s.worker k with
      | .waiting => s
      | .locking => { s with worker := Function.update s.worker k .working }
      | .working =>
          match s.wQueue k with
          | [] => { s with worker := Function.update s.worker k .waiting }
          | [] :: rest => { s with wQueue := Function.update s.wQueue k rest }
          | (a :: task) :: rest =>
              { s with wQueue := Function.update s.wQueue k (task :: rest), memory := act a s.memory }

/-- Every task that has been pushed is done, so that every future is ready. -/
def Ready (s : Queues κ α σ) : Prop := ∀ k, ∀ task ∈ s.wQueue k, task = []

/-- The waits for the futures have returned. -/
def Finished (s : Queues κ α σ) : Prop := s.toPush = [] ∧ Ready s

/-- No worker waits in front of a task: a notification is never lost. -/
def Awake (s : Queues κ α σ) : Prop := ∀ k, s.worker k = .waiting → s.wQueue k = []

/-- The tasks in the order in which they are pushed. -/
def inOrder (tasks : List (κ × List α)) : List (κ × α) :=
  tasks.flatMap fun entry => asTrace entry.1 entry.2

/-- The queues at the beginning of the next round of tasks. -/
def Queues.begin (s : Queues κ α σ) (tasks : List (κ × List α)) (memory : σ) : Queues κ α σ :=
  { s with toPush := tasks, memory := memory }

/-! ## Every step gets on with the tasks -/

/-- How many steps a worker is away from waiting, if nothing is in its queue. -/
def Worker.cost : Worker → Nat
  | .waiting => 0
  | .working => 1
  | .locking => 2

/-- The actions and the pops that are left in a queue. -/
def queueSize (queue : List (List α)) : Nat := (queue.map fun task => task.length + 1).sum

@[simp] theorem queueSize_nil : queueSize ([] : List (List α)) = 0 := rfl

@[simp] theorem queueSize_cons (task : List α) (queue : List (List α)) :
    queueSize (task :: queue) = task.length + 1 + queueSize queue := by
  simp [queueSize]

theorem queueSize_append (before after : List (List α)) :
    queueSize (before ++ after) = queueSize before + queueSize after := by
  simp [queueSize]

/-- The tasks to push count the notification that they may cause, too. -/
def pushSize (tasks : List (κ × List α)) : Nat :=
  (tasks.map fun entry => entry.2.length + 4).sum

/-- A bound for the number of steps that are left. -/
def size [Fintype κ] (s : Queues κ α σ) : Nat :=
  pushSize s.toPush + ∑ k, queueSize (s.wQueue k) + ∑ k, (s.worker k).cost

theorem cost_notify (worker : Worker) : (notify worker).cost ≤ worker.cost + 2 := by
  cases worker <;> simp [notify, Worker.cost]

variable {act}

theorem Work.smaller [Fintype κ] {s t : Queues κ α σ} (step : Work act s t) : size t < size s := by
  cases step with
  | @push k task rest next free =>
      have queues := sum_update queueSize (rfl : s.wQueue k = _) (s.wQueue k ++ [task])
      have workers := sum_update Worker.cost (rfl : s.worker k = _) (notify (s.worker k))
      have notified := cost_notify (s.worker k)
      rw [queueSize_append, queueSize_cons, queueSize_nil] at queues
      simp only [size, next, pushSize, List.map_cons, List.sum_cons]
      omega
  | @lock k here =>
      have workers := sum_update Worker.cost here .working
      simp only [size, Worker.cost] at workers ⊢
      omega
  | @act k a task rest here front =>
      have queues := sum_update queueSize front (task :: rest)
      simp only [size, queueSize_cons, List.length_cons] at queues ⊢
      omega
  | @pop k rest here front =>
      have queues := sum_update queueSize front rest
      simp only [size, queueSize_cons, List.length_nil] at queues ⊢
      omega
  | @wait k here empty =>
      have workers := sum_update Worker.cost here .waiting
      simp only [size, Worker.cost] at workers ⊢
      omega

/-- What a schedule of turns comes to is reached by steps. -/
theorem reachable_turns {s t : Queues κ α σ} (reached : Reachable (Step act) s t) (schedule : List (Option κ)) :
    Reachable (Step act) s (schedule.foldl (turn act) t) := by
  induction schedule generalizing t with
  | nil => exact reached
  | cons thread schedule ih =>
      apply ih
      unfold turn
      split
      · split
        · exact reached
        · rename_i next
          split
          · exact reached
          · exact reached.next (.work (.push next ‹_›))
      · split
        · exact reached
        · exact reached.next (.work (.lock ‹_›))
        · split
          · exact reached.next (.work (.wait ‹_› ‹_›))
          · exact reached.next (.work (.pop ‹_› ‹_›))
          · exact reached.next (.work (.act ‹_› ‹_›))

theorem Awake.step {s t : Queues κ α σ} (awake : Awake s) (step : Step act s t) : Awake t := by
  intro l waiting
  cases step with
  | work step =>
      cases step with
      | @push k task rest next free =>
          by_cases same : l = k
          · subst same
            simp only [Function.update_self] at waiting
            cases at_ : s.worker l <;> simp_all [notify]
          · simp only [Function.update_of_ne same] at waiting ⊢
            exact awake l waiting
      | @lock k here =>
          by_cases same : l = k
          · subst same
            simp at waiting
          · simp only [Function.update_of_ne same] at waiting
            exact awake l waiting
      | @act k a task rest here front =>
          by_cases same : l = k
          · subst same
            simp [here] at waiting
          · simp only [Function.update_of_ne same]
            exact awake l waiting
      | @pop k rest here front =>
          by_cases same : l = k
          · subst same
            simp [here] at waiting
          · simp only [Function.update_of_ne same]
            exact awake l waiting
      | @wait k here empty =>
          by_cases same : l = k
          · subst same
            exact empty
          · simp only [Function.update_of_ne same] at waiting
            exact awake l waiting
  | @wake k here =>
      by_cases same : l = k
      · subst same
        simp at waiting
      · simp only [Function.update_of_ne same] at waiting
        exact awake l waiting

/-- A worker that does not wait and has something in its queue can go on. -/
theorem exists_work_of_queue {s : Queues κ α σ} {k : κ} (awake : Awake s)
    (some : s.wQueue k ≠ []) : ∃ t, Work act s t := by
  cases here : s.worker k with
  | waiting => exact absurd (awake k here) some
  | locking => exact ⟨_, .lock here⟩
  | working =>
      cases front : s.wQueue k with
      | nil => exact absurd front some
      | cons task rest =>
          cases task with
          | nil => exact ⟨_, .pop here front⟩
          | cons a task => exact ⟨_, .act here front⟩

/-- Nothing is ever stuck before the waits have returned. -/
theorem exists_work {s : Queues κ α σ} (awake : Awake s) (busy : ¬ Finished s) :
    ∃ t, Work act s t := by
  cases next : s.toPush with
  | nil =>
      have left : ¬ Ready s := fun ready => busy ⟨next, ready⟩
      simp only [Ready, not_forall] at left
      obtain ⟨k, task, member, -⟩ := left
      exact exists_work_of_queue awake (List.ne_nil_of_mem member)
  | cons entry rest =>
      obtain ⟨k, task⟩ := entry
      by_cases free : s.worker k = .working
      · cases front : s.wQueue k with
        | nil => exact ⟨_, .wait free front⟩
        | cons first queue =>
            apply exists_work_of_queue awake (k := k)
            simp [front]
      · exact ⟨_, .push next free⟩

/-- The threads come to rest, unless workers wake up for nothing again and again. -/
theorem comes_to_rest [Fintype κ] (run : Nat → Queues κ α σ) :
    ∃ i, ¬ Work act (run i) (run (i + 1)) := by
  by_contra never
  push Not at never
  obtain ⟨-, impossible⟩ :=
    @eventually _ _ (fun _ => False) size (fun _ step => step.smaller) run never
  exact impossible

/-! ## What the tasks do to the memory -/

/-- What queue `k` has not done yet. -/
def pending (s : Queues κ α σ) (k : κ) : List α :=
  (s.wQueue k).flatten ++ part k (inOrder s.toPush)

/-- The memory is the outcome of a trace that, for each queue, has the first of its actions. -/
def Traced (act : α → σ → σ) (tasks : List (κ × List α)) (memory : σ) (s : Queues κ α σ) : Prop :=
  ∃ trace : List (κ × α), s.memory = perform act memory trace ∧
    ∀ k, part k trace ++ pending s k = part k (inOrder tasks)

theorem part_inOrder_cons_self (k : κ) (task : List α) (rest : List (κ × List α)) :
    part k (inOrder ((k, task) :: rest)) = task ++ part k (inOrder rest) := by
  simp [inOrder, part_append]

theorem part_inOrder_cons_of_ne {k l : κ} (other : l ≠ k) (task : List α)
    (rest : List (κ × List α)) :
    part k (inOrder ((l, task) :: rest)) = part k (inOrder rest) := by
  simp [inOrder, part_append, part_asTrace_of_ne other]

omit [DecidableEq κ] in
theorem perform_inOrder (memory : σ) (tasks : List (κ × List α)) :
    perform act memory (inOrder tasks) =
      tasks.foldl (fun s task => task.2.foldl (fun s a => act a s) s) memory := by
  induction tasks generalizing memory with
  | nil => rfl
  | cons task tasks ih =>
      rw [List.foldl_cons, ← ih]
      simp [inOrder, perform, asTrace, List.foldl_map]

omit [DecidableEq κ] in
theorem mem_inOrder {k : κ} {a : α} {tasks : List (κ × List α)} :
    (k, a) ∈ inOrder tasks ↔ ∃ task, (k, task) ∈ tasks ∧ a ∈ task := by
  constructor
  · intro member
    obtain ⟨⟨l, task⟩, pushed, inside⟩ := List.mem_flatMap.mp member
    have ⟨(same : k = l), here⟩ := mem_asTrace.mp inside
    subst same
    exact ⟨task, pushed, here⟩
  · intro member
    obtain ⟨task, pushed, here⟩ := member
    exact List.mem_flatMap.mpr ⟨_, pushed, mem_asTrace.mpr ⟨rfl, here⟩⟩

theorem Traced.step {tasks : List (κ × List α)} {memory : σ} {s t : Queues κ α σ}
    (traced : Traced act tasks memory s) (step : Step act s t) : Traced act tasks memory t := by
  obtain ⟨trace, shown, parts⟩ := traced
  have kept : ∀ t : Queues κ α σ, t.memory = s.memory → (∀ k, pending t k = pending s k) →
      Traced act tasks memory t := by
    intro t sameMemory samePending
    refine ⟨trace, sameMemory.trans shown, ?_⟩
    intro k
    rw [samePending k]
    exact parts k
  cases step with
  | wake here => exact kept _ rfl fun _ => rfl
  | work step =>
      cases step with
      | lock here => exact kept _ rfl fun _ => rfl
      | wait here empty => exact kept _ rfl fun _ => rfl
      | @push l task rest next free =>
          refine kept _ (by rfl) ?_
          intro k
          by_cases same : k = l
          · subst same
            simp [pending, next, part_inOrder_cons_self]
          · simp [pending, next, part_inOrder_cons_of_ne (Ne.symm same), same]
      | @pop l rest here front =>
          refine kept _ (by rfl) ?_
          intro k
          by_cases same : k = l
          · subst same
            simp [pending, front]
          · simp [pending, same]
      | @act l a task rest here front =>
          refine ⟨trace ++ [(l, a)], ?_, ?_⟩
          · rw [perform_append, ← shown]
            rfl
          · intro k
            rw [← parts k, part_append]
            by_cases same : k = l
            · subst same
              simp [pending, front]
            · simp [pending, same, part_cons_of_ne (Ne.symm same)]

theorem traced_begin {s : Queues κ α σ} (ready : Ready s) (tasks : List (κ × List α))
    (memory : σ) : Traced act tasks memory (s.begin tasks memory) := by
  refine ⟨[], rfl, ?_⟩
  intro k
  have nothing : (s.wQueue k).flatten = [] := List.flatten_eq_nil_iff.mpr (ready k)
  simp [pending, Queues.begin, nothing]

theorem Traced.of_reachable {tasks : List (κ × List α)} {memory : σ} {s t : Queues κ α σ}
    (ready : Ready s) (reached : Reachable (Step act) (s.begin tasks memory) t) :
    Traced act tasks memory t :=
  reached.invariant (traced_begin ready tasks memory) Traced.step

theorem Awake.of_reachable {s t : Queues κ α σ} (awake : Awake s)
    (reached : Reachable (Step act) s t) : Awake t :=
  reached.invariant awake Awake.step

/-- Where the actions of different queues commute, the workers leave the memory as if the tasks
had been done one after another when they are pushed. -/
theorem memory_of_finished {tasks : List (κ × List α)} {memory : σ} {s t : Queues κ α σ}
    (independent : Independent act fun k a => (k, a) ∈ inOrder tasks) (ready : Ready s)
    (reached : Reachable (Step act) (s.begin tasks memory) t) (finished : Finished t) :
    t.memory = perform act memory (inOrder tasks) := by
  obtain ⟨trace, shown, parts⟩ := Traced.of_reachable ready reached
  have done : ∀ k, part k trace = part k (inOrder tasks) := by
    intro k
    have nothing : (t.wQueue k).flatten = [] := List.flatten_eq_nil_iff.mpr (finished.2 k)
    rw [← parts k]
    simp [pending, finished.1, inOrder, nothing]
  rw [shown]
  apply perform_eq_of_part independent _ (fun _ member => member) done
  intro entry member
  rw [← mem_part, ← done entry.1]
  exact mem_part.mpr member

end Pcm.CoreTaskQueue

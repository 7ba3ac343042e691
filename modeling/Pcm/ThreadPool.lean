import Mathlib.Algebra.Order.BigOperators.Group.Finset
import Mathlib.Data.Fintype.BigOperators
import Mathlib.Data.Multiset.Basic
import Pcm.Lib.Transition

/-!
# Emptying the thread pool

`ThreadPool` (`threadpool.h:47-123`, `threadpool.cpp:9-20`): workers take jobs from one queue, and
`emptyThreadPool` adds one null job for each of them and waits until all have left. The steps of the
workers and of the thread that adds the jobs and then calls `emptyThreadPool` interleave in any way;
the jobs do not add work themselves.
-/

namespace Pcm.ThreadPool

open Transition

variable {Job : Type*} {n : Nat}

/-! ## Workers, queue and caller -/

/-- Where a worker is in the loop of `ThreadPool::execute`. -/
inductive Worker (Job : Type*)
  | retrieving
  | executing (w : Job)
  | deleting (w : Job)
  | left

/-- Where the thread is that owns the pool. -/
inductive Caller (Job : Type*)
  /-- It still has these jobs to add. -/
  | adding (jobs : List Job)
  /-- The first loop of `emptyThreadPool`, with its index. -/
  | pushing (i : Nat)
  /-- The second loop. -/
  | joining (i : Nat)
  | returned

structure Pool (n : Nat) (Job : Type*) where
  worker : Fin n → Worker Job
  /-- `workQ_`, a null job being none. -/
  workQ : List (Option Job)
  /-- `threads_` -/
  threads : List (Fin n)
  caller : Caller Job
  /-- How often each job has been executed, and how often deleted. -/
  executed : Multiset Job
  deleted : Multiset Job
  /-- How many null jobs each worker has taken. -/
  nulls : Fin n → Nat

/-- The pool after its constructor, in front of a caller with jobs to add. -/
def start (n : Nat) (jobs : List Job) : Pool n Job where
  worker := fun _ => .retrieving
  workQ := []
  threads := List.finRange n
  caller := .adding jobs
  executed := 0
  deleted := 0
  nulls := fun _ => 0

/-- One step of the caller or of a worker. -/
inductive Step : Pool n Job → Pool n Job → Prop
  | addWork {s : Pool n Job} {w jobs} (here : s.caller = .adding (w :: jobs)) :
      Step s { s with workQ := s.workQ ++ [some w], caller := .adding jobs }
  | emptyThreadPool {s : Pool n Job} (here : s.caller = .adding [] ∨ s.caller = .returned) :
      Step s { s with caller := .pushing 0 }
  | pushNull {s : Pool n Job} {i} (here : s.caller = .pushing i) (more : i < s.threads.length) :
      Step s { s with workQ := s.workQ ++ [none], caller := .pushing (i + 1) }
  | pushed {s : Pool n Job} {i} (here : s.caller = .pushing i) (all : s.threads.length ≤ i) :
      Step s { s with caller := .joining 0 }
  | join {s : Pool n Job} {i thread} (here : s.caller = .joining i)
      (joined : s.threads[i]? = some thread) (gone : s.worker thread = .left) :
      Step s { s with caller := .joining (i + 1) }
  | clear {s : Pool n Job} {i} (here : s.caller = .joining i) (all : s.threads.length ≤ i) :
      Step s { s with threads := [], caller := .returned }
  | retrieve {s : Pool n Job} {i w rest} (ready : s.worker i = .retrieving)
      (front : s.workQ = some w :: rest) :
      Step s { s with worker := Function.update s.worker i (.executing w), workQ := rest }
  | retrieveNull {s : Pool n Job} {i rest} (ready : s.worker i = .retrieving)
      (front : s.workQ = none :: rest) :
      Step s { s with
        worker := Function.update s.worker i .left
        workQ := rest
        nulls := Function.update s.nulls i (s.nulls i + 1) }
  | execute {s : Pool n Job} {i w} (busy : s.worker i = .executing w) :
      Step s { s with
        worker := Function.update s.worker i (.deleting w)
        executed := s.executed + {w} }
  | delete {s : Pool n Job} {i w} (busy : s.worker i = .deleting w) :
      Step s { s with
        worker := Function.update s.worker i .retrieving
        deleted := s.deleted + {w} }

/-! ## What a state accounts for -/

def Worker.executingJobs : Worker Job → Multiset Job
  | .executing w => {w}
  | _ => 0

def Worker.deletingJobs : Worker Job → Multiset Job
  | .deleting w => {w}
  | _ => 0

/-- 1 for a worker that has left its loop. -/
def Worker.gone : Worker Job → Nat
  | .left => 1
  | _ => 0

/-- The jobs that have not been added. -/
def Caller.jobs : Caller Job → Multiset Job
  | .adding jobs => jobs
  | _ => 0

/-- The jobs in the queue. -/
def queuedJobs (workQ : List (Option Job)) : Multiset Job := (workQ.flatMap Option.toList : List Job)

/-- The null jobs that have not been added, out of one for each thread. -/
def Caller.nullsLeft (threads : Nat) : Caller Job → Nat
  | .adding _ => threads
  | .pushing i => threads - i
  | _ => 0

def Caller.isAdding : Caller Job → Bool
  | .adding _ => true
  | _ => false

/-- Every job is in one place, and there is one null job for each worker: still to be added, in the
queue behind all jobs, or taken by a worker that has left. -/
structure Inv (jobs : List Job) (s : Pool n Job) : Prop where
  account : s.caller.jobs + queuedJobs s.workQ + ∑ i, (s.worker i).executingJobs + s.executed = jobs
  deletions : s.deleted + ∑ i, (s.worker i).deletingJobs = s.executed
  tokens : ∑ i, (s.worker i).gone + s.workQ.countP Option.isNone +
    s.caller.nullsLeft s.threads.length = n
  ordered : s.workQ.Pairwise (fun a b => a = none → b = none)
  after : ∀ i, s.worker i = .left → ∀ q ∈ s.workQ, q = none
  taken : ∀ i, s.nulls i = (s.worker i).gone
  threads : s.threads = List.finRange n ∨
    s.threads = [] ∧ s.caller.isAdding = false ∧ ∀ i, s.worker i = .left
  joined : ∀ i, s.caller = .joining i → ∀ j < i, ∀ thread, s.threads[j]? = some thread →
    s.worker thread = .left
  finished : s.caller = .returned → s.threads = []

theorem inv_start (jobs : List Job) : Inv jobs (start n jobs) where
  account := by simp [start, Caller.jobs, Worker.executingJobs, queuedJobs]
  deletions := by simp [start, Worker.deletingJobs]
  tokens := by simp [start, Worker.gone, Caller.nullsLeft]
  ordered := List.Pairwise.nil
  after := by simp [start]
  taken := fun _ => rfl
  threads := Or.inl rfl
  joined := by simp [start]
  finished := by simp [start]

variable {jobs : List Job} {s t : Pool n Job}

@[simp] theorem queuedJobs_push (workQ : List (Option Job)) (w : Job) :
    queuedJobs (workQ ++ [some w]) = queuedJobs workQ + {w} := by
  rw [queuedJobs, List.flatMap_append, ← Multiset.coe_add]
  rfl

@[simp] theorem queuedJobs_pushNull (workQ : List (Option Job)) :
    queuedJobs (workQ ++ [none]) = queuedJobs workQ := by
  simp [queuedJobs]

@[simp] theorem queuedJobs_cons (w : Job) (rest : List (Option Job)) :
    queuedJobs (some w :: rest) = {w} + queuedJobs rest := by
  simp [queuedJobs]

@[simp] theorem queuedJobs_consNull (rest : List (Option Job)) :
    queuedJobs (none :: rest) = queuedJobs rest := by
  simp [queuedJobs]

theorem jobs_adding (w : Job) (rest : List Job) :
    (Caller.adding (w :: rest)).jobs = {w} + (Caller.adding rest).jobs := rfl

theorem Inv.account_step (inv : Inv jobs s) (step : Step s t) :
    t.caller.jobs + queuedJobs t.workQ + ∑ i, (t.worker i).executingJobs + t.executed = jobs := by
  have account := inv.account
  cases step with
  | addWork here =>
      rw [← account, here, jobs_adding, queuedJobs_push]
      dsimp only
      abel
  | emptyThreadPool here =>
      rcases here with here | here <;> (rw [here] at account; exact account)
  | pushNull here more =>
      rw [here] at account
      rw [queuedJobs_pushNull]
      exact account
  | pushed here all => rw [here] at account; exact account
  | join here joined gone => rw [here] at account; exact account
  | clear here all => rw [here] at account; exact account
  | @retrieve i w rest ready front =>
      rw [sum_update_gain Worker.executingJobs ready (.executing w) rfl, ← account, front, queuedJobs_cons,
        Worker.executingJobs]
      dsimp only
      abel
  | retrieveNull ready front =>
      rw [front, queuedJobs_consNull] at account
      rw [sum_update_same Worker.executingJobs ready .left rfl]
      exact account
  | @execute i w busy =>
      rw [← account, ← sum_update_lose Worker.executingJobs busy (.deleting w) rfl, Worker.executingJobs]
      dsimp only
      abel
  | delete busy =>
      rw [sum_update_same Worker.executingJobs busy .retrieving rfl]
      exact account

theorem Inv.deletions_step (inv : Inv jobs s) (step : Step s t) :
    t.deleted + ∑ i, (t.worker i).deletingJobs = t.executed := by
  have deletions := inv.deletions
  cases step with
  | addWork here => exact deletions
  | emptyThreadPool here => exact deletions
  | pushNull here more => exact deletions
  | pushed here all => exact deletions
  | join here joined gone => exact deletions
  | clear here all => exact deletions
  | @retrieve i w rest ready front =>
      rw [sum_update_same Worker.deletingJobs ready (.executing w) rfl]
      exact deletions
  | retrieveNull ready front =>
      rw [sum_update_same Worker.deletingJobs ready .left rfl]
      exact deletions
  | @execute i w busy =>
      rw [sum_update_gain Worker.deletingJobs busy (.deleting w) rfl, ← deletions, Worker.deletingJobs]
      dsimp only
      abel
  | @delete i w busy =>
      rw [← deletions, ← sum_update_lose Worker.deletingJobs busy .retrieving rfl, Worker.deletingJobs]
      dsimp only
      abel

theorem Inv.tokens_step (inv : Inv jobs s) (step : Step s t) :
    ∑ i, (t.worker i).gone + t.workQ.countP Option.isNone +
      t.caller.nullsLeft t.threads.length = n := by
  have tokens := inv.tokens
  cases step with
  | addWork here =>
      rw [here] at tokens
      simpa [Caller.nullsLeft] using tokens
  | emptyThreadPool here =>
      rcases here with here | here
      · rw [here] at tokens
        exact tokens
      · simp only [here, inv.finished here] at tokens ⊢
        exact tokens
  | pushNull here more =>
      rw [here] at tokens
      simp only [Caller.nullsLeft, List.countP_append, List.countP_singleton, Option.isNone_none,
        if_true] at tokens ⊢
      omega
  | pushed here all =>
      rw [here] at tokens
      simp only [Caller.nullsLeft] at tokens ⊢
      omega
  | join here joined gone =>
      rw [here] at tokens
      exact tokens
  | clear here all =>
      rw [here] at tokens
      exact tokens
  | @retrieve i w rest ready front =>
      rw [front] at tokens
      rw [sum_update_same Worker.gone ready (.executing w) rfl]
      simpa using tokens
  | retrieveNull ready front =>
      rw [front, List.countP_cons_of_pos rfl] at tokens
      rw [sum_update_gain Worker.gone ready .left rfl, Worker.gone]
      dsimp only
      omega
  | @execute i w busy =>
      rw [sum_update_same Worker.gone busy (.deleting w) rfl]
      exact tokens
  | delete busy =>
      rw [sum_update_same Worker.gone busy .retrieving rfl]
      exact tokens

/-- As long as jobs are added there is no null job anywhere. -/
theorem Inv.no_nulls (inv : Inv jobs s) (here : s.caller.isAdding = true) :
    (∀ i, s.worker i ≠ .left) ∧ none ∉ s.workQ := by
  have tokens := inv.tokens
  rcases inv.threads with threads | ⟨-, notAdding, -⟩
  · have all : s.caller.nullsLeft s.threads.length = n := by
      rw [threads, List.length_finRange]
      cases caller : s.caller with
      | adding jobs => rfl
      | pushing i => simp [caller, Caller.isAdding] at here
      | joining i => simp [caller, Caller.isAdding] at here
      | returned => simp [caller, Caller.isAdding] at here
    have nobody : ∑ i, (s.worker i).gone = 0 := by omega
    have nothing : s.workQ.countP Option.isNone = 0 := by omega
    constructor
    · intro i left
      have zero := (Finset.sum_eq_zero_iff.mp nobody) i (Finset.mem_univ i)
      rw [left] at zero
      cases zero
    · intro member
      have positive : 0 < s.workQ.countP Option.isNone := List.countP_pos_iff.mpr ⟨none, member, rfl⟩
      omega
  · rw [here] at notAdding
    cases notAdding

/-- Once a worker has left, it has left. -/
theorem left_step (step : Step s t) {i : Fin n} (left : s.worker i = .left) : t.worker i = .left := by
  have other : ∀ {j now} (next : Worker Job), s.worker j = now → now ≠ .left →
      Function.update s.worker j next i = .left := by
    intro j now next busy notLeft
    rw [Function.update_of_ne, left]
    rintro rfl
    exact notLeft (busy.symm.trans left)
  cases step with
  | addWork here => exact left
  | emptyThreadPool here => exact left
  | pushNull here more => exact left
  | pushed here all => exact left
  | join here joined gone => exact left
  | clear here all => exact left
  | retrieve ready front => exact other _ ready nofun
  | retrieveNull ready front => exact other _ ready nofun
  | execute busy => exact other _ busy nofun
  | delete busy => exact other _ busy nofun

theorem Inv.ordered_step (inv : Inv jobs s) (step : Step s t) :
    t.workQ.Pairwise (fun a b => a = none → b = none) := by
  have ordered := inv.ordered
  cases step with
  | addWork here =>
      refine List.pairwise_append.mpr ⟨ordered, List.pairwise_singleton _ _, ?_⟩
      rintro a member b - rfl
      exact absurd member (inv.no_nulls (by rw [here]; rfl)).2
  | emptyThreadPool here => exact ordered
  | pushNull here more =>
      refine List.pairwise_append.mpr ⟨ordered, List.pairwise_singleton _ _, ?_⟩
      intro a _ b member _
      exact List.mem_singleton.mp member
  | pushed here all => exact ordered
  | join here joined gone => exact ordered
  | clear here all => exact ordered
  | retrieve ready front =>
      rw [front] at ordered
      exact ordered.of_cons
  | retrieveNull ready front =>
      rw [front] at ordered
      exact ordered.of_cons
  | execute busy => exact ordered
  | delete busy => exact ordered

theorem Inv.after_step (inv : Inv jobs s) (step : Step s t) :
    ∀ i, t.worker i = .left → ∀ q ∈ t.workQ, q = none := by
  have after := inv.after
  -- a worker that goes on working was not the one that has left
  have before : ∀ {i j : Fin n} {next : Worker Job}, Function.update s.worker j next i = .left →
      next ≠ .left → s.worker i = .left := by
    intro i j next left notLeft
    by_cases same : i = j
    · subst same
      rw [Function.update_self] at left
      exact absurd left notLeft
    · rwa [Function.update_of_ne same] at left
  cases step with
  | addWork here =>
      intro i left
      exact absurd left ((inv.no_nulls (by rw [here]; rfl)).1 i)
  | emptyThreadPool here => exact after
  | pushNull here more =>
      intro i left q member
      rcases List.mem_append.mp member with member | member
      · exact after i left q member
      · exact List.mem_singleton.mp member
  | pushed here all => exact after
  | join here joined gone => exact after
  | clear here all => exact after
  | @retrieve i w rest ready front =>
      intro j left
      have first := after j (before left nofun) (some w) (by rw [front]; exact List.mem_cons_self)
      cases first
  | retrieveNull ready front =>
      intro j left q member
      have ordered := inv.ordered
      rw [front] at ordered
      exact List.rel_of_pairwise_cons ordered member rfl
  | execute busy => exact fun j left => after j (before left nofun)
  | delete busy => exact fun j left => after j (before left nofun)

theorem Inv.taken_step (inv : Inv jobs s) (step : Step s t) :
    ∀ i, t.nulls i = (t.worker i).gone := by
  have taken := inv.taken
  have kept : ∀ {j : Fin n} {now : Worker Job} (next : Worker Job), s.worker j = now →
      now.gone = next.gone → ∀ i, s.nulls i = (Function.update s.worker j next i).gone := by
    intro j now next here same i
    by_cases equal : i = j
    · subst equal
      rw [Function.update_self, taken, here, same]
    · rw [Function.update_of_ne equal, taken]
  cases step with
  | addWork here => exact taken
  | emptyThreadPool here => exact taken
  | pushNull here more => exact taken
  | pushed here all => exact taken
  | join here joined gone => exact taken
  | clear here all => exact taken
  | retrieve ready front => exact kept _ ready rfl
  | @retrieveNull i rest ready front =>
      intro j
      by_cases same : j = i
      · subst same
        simp only [Function.update_self, taken, ready, Worker.gone]
      · simp only [Function.update_of_ne same, taken]
  | execute busy => exact kept _ busy rfl
  | delete busy => exact kept _ busy rfl

theorem Inv.threads_step (inv : Inv jobs s) (step : Step s t) :
    t.threads = List.finRange n ∨
      t.threads = [] ∧ t.caller.isAdding = false ∧ ∀ i, t.worker i = .left := by
  rcases inv.threads with threads | ⟨threads, notAdding, allLeft⟩
  · cases step with
    | @clear i here all =>
        refine Or.inr ⟨rfl, rfl, ?_⟩
        intro worker
        apply inv.joined i here worker.val (by rw [threads, List.length_finRange] at all; omega) worker
        rw [threads]
        simp
    | addWork here => exact Or.inl threads
    | emptyThreadPool here => exact Or.inl threads
    | pushNull here more => exact Or.inl threads
    | pushed here all => exact Or.inl threads
    | join here joined gone => exact Or.inl threads
    | retrieve ready front => exact Or.inl threads
    | retrieveNull ready front => exact Or.inl threads
    | execute busy => exact Or.inl threads
    | delete busy => exact Or.inl threads
  · refine Or.inr ⟨?_, ?_, fun i => left_step step (allLeft i)⟩
    · cases step <;> first | exact threads | rfl
    · cases step with
      | addWork here =>
          rw [here] at notAdding
          cases notAdding
      | emptyThreadPool here => rfl
      | pushNull here more => rfl
      | pushed here all => rfl
      | join here joined gone => rfl
      | clear here all => rfl
      | retrieve ready front => exact notAdding
      | retrieveNull ready front => exact notAdding
      | execute busy => exact notAdding
      | delete busy => exact notAdding

theorem Inv.joined_step (inv : Inv jobs s) (step : Step s t) :
    ∀ i, t.caller = .joining i → ∀ j < i, ∀ thread, t.threads[j]? = some thread →
      t.worker thread = .left := by
  have kept : t.caller = s.caller → t.threads = s.threads → ∀ i, t.caller = .joining i →
      ∀ j < i, ∀ thread, t.threads[j]? = some thread → t.worker thread = .left := by
    intro caller threads i here j before thread joined
    rw [threads] at joined
    exact left_step step (inv.joined i (caller ▸ here) j before thread joined)
  cases step with
  | addWork here => exact nofun
  | emptyThreadPool here => exact nofun
  | pushNull here more => exact nofun
  | pushed here all =>
      rintro i ⟨rfl⟩ j before
      exact absurd before (Nat.not_lt_zero j)
  | @join i thread here joined gone =>
      rintro k ⟨rfl⟩ j before other otherJoined
      rcases Nat.lt_succ_iff_lt_or_eq.mp before with earlier | rfl
      · exact inv.joined i here j earlier other otherJoined
      · obtain rfl := Option.some.inj (joined.symm.trans otherJoined)
        exact gone
  | clear here all => exact nofun
  | retrieve ready front => exact kept rfl rfl
  | retrieveNull ready front => exact kept rfl rfl
  | execute busy => exact kept rfl rfl
  | delete busy => exact kept rfl rfl

theorem Inv.step (inv : Inv jobs s) (step : Step s t) : Inv jobs t where
  account := inv.account_step step
  deletions := inv.deletions_step step
  tokens := inv.tokens_step step
  ordered := inv.ordered_step step
  after := inv.after_step step
  taken := inv.taken_step step
  threads := inv.threads_step step
  joined := inv.joined_step step
  finished := by
    cases step with
    | addWork here => exact nofun
    | emptyThreadPool here => exact nofun
    | pushNull here more => exact nofun
    | pushed here all => exact nofun
    | join here joined gone => exact nofun
    | clear here all => exact fun _ => rfl
    | retrieve ready front => exact inv.finished
    | retrieveNull ready front => exact inv.finished
    | execute busy => exact inv.finished
    | delete busy => exact inv.finished

/-! ## Whole runs -/

/-- The states of a pool whose owner adds `jobs`. -/
abbrev Visited (jobs : List Job) (s : Pool n Job) : Prop := Reachable Step (start n jobs) s

theorem inv_of_visited (visited : Visited jobs s) : Inv jobs s :=
  visited.invariant (inv_start jobs) Inv.step

/-! What is left to be done: a job is added, taken, executed and deleted, a null job is added and
taken, and the caller passes through its loops. -/

def Caller.remaining (threads : Nat) : Caller Job → Nat
  | .adding jobs => 4 * jobs.length + 3 * threads + 3
  | .pushing i => 2 * (threads - i) + threads + 2
  | .joining i => threads - i + 1
  | .returned => 0

def Worker.remaining : Worker Job → Nat
  | .executing _ => 2
  | .deleting _ => 1
  | _ => 0

def queueRemaining (workQ : List (Option Job)) : Nat :=
  (workQ.map (fun q => if q.isNone then 1 else 3)).sum

def remaining (s : Pool n Job) : Nat :=
  s.caller.remaining s.threads.length + queueRemaining s.workQ + ∑ i, (s.worker i).remaining

theorem remaining_step (running : s.caller ≠ .returned) (step : Step s t) :
    remaining t < remaining s := by
  cases step with
  | addWork here =>
      simp [remaining, here, Caller.remaining, queueRemaining]
      omega
  | emptyThreadPool here =>
      have here : s.caller = .adding [] := here.resolve_right running
      simp only [remaining, here, Caller.remaining, List.length_nil]
      omega
  | pushNull here more =>
      simp [remaining, here, Caller.remaining, queueRemaining]
      omega
  | pushed here all =>
      simp only [remaining, here, Caller.remaining]
      omega
  | @join i thread here joined gone =>
      have within : i < s.threads.length := (List.getElem?_eq_some_iff.mp joined).1
      simp only [remaining, here, Caller.remaining]
      omega
  | clear here all =>
      simp only [remaining, here, Caller.remaining]
      omega
  | @retrieve i w rest ready front =>
      simp only [remaining, front, sum_update_gain Worker.remaining ready (.executing w) rfl]
      simp [queueRemaining, Worker.remaining]
      omega
  | retrieveNull ready front =>
      simp only [remaining, front, sum_update_gain Worker.remaining ready .left rfl]
      simp [queueRemaining, Worker.remaining]
  | @execute i w busy =>
      have moved := sum_update Worker.remaining busy (.deleting w)
      simp only [remaining, Worker.remaining] at moved ⊢
      omega
  | delete busy =>
      have moved := sum_update_lose Worker.remaining busy .retrieving rfl
      simp only [remaining, Worker.remaining] at moved ⊢
      omega

/-- A worker that has not left finds something in the queue once all null jobs have been added. -/
theorem Inv.queue_nonempty (inv : Inv jobs s) {i : Nat} (here : s.caller = .joining i) {thread : Fin n}
    (stays : s.worker thread ≠ .left) : s.workQ ≠ [] := by
  intro empty
  have tokens := inv.tokens
  rw [here, empty] at tokens
  have atMost : ∀ j ∈ Finset.univ, (s.worker j).gone ≤ 1 := by
    intro j _
    cases s.worker j <;> simp [Worker.gone]
  have fewer : ∑ j, (s.worker j).gone < ∑ _j : Fin n, 1 := by
    refine Finset.sum_lt_sum atMost ⟨thread, Finset.mem_univ thread, ?_⟩
    cases now : s.worker thread with
    | left => exact absurd now stays
    | retrieving => exact Nat.zero_lt_one
    | executing w => exact Nat.zero_lt_one
    | deleting w => exact Nat.zero_lt_one
  simp [Caller.nullsLeft] at tokens fewer
  omega

/-- No state is stuck. -/
theorem Inv.progress (inv : Inv jobs s) : ∃ t, Step s t := by
  cases here : s.caller with
  | adding rest =>
      cases rest with
      | nil => exact ⟨_, .emptyThreadPool (Or.inl here)⟩
      | cons w rest => exact ⟨_, .addWork here⟩
  | pushing i =>
      by_cases more : i < s.threads.length
      · exact ⟨_, .pushNull here more⟩
      · exact ⟨_, .pushed here (Nat.le_of_not_lt more)⟩
  | returned => exact ⟨_, .emptyThreadPool (Or.inr here)⟩
  | joining i =>
      by_cases more : i < s.threads.length
      · obtain ⟨thread, joined⟩ : ∃ thread, s.threads[i]? = some thread :=
          ⟨_, List.getElem?_eq_getElem more⟩
        cases now : s.worker thread with
        | left => exact ⟨_, .join here joined now⟩
        | executing w => exact ⟨_, .execute now⟩
        | deleting w => exact ⟨_, .delete now⟩
        | retrieving =>
            cases queue : s.workQ with
            | nil => exact absurd queue (inv.queue_nonempty here (by rw [now]; nofun))
            | cons q rest =>
                cases q with
                | none => exact ⟨_, .retrieveNull now queue⟩
                | some w => exact ⟨_, .retrieve now queue⟩
      · exact ⟨_, .clear here (Nat.le_of_not_lt more)⟩

/-- The pool when `emptyThreadPool` has returned. -/
structure Drained (jobs : List Job) (s : Pool n Job) : Prop where
  workQ : s.workQ = []
  threads : s.threads = []
  executed : s.executed = jobs
  deleted : s.deleted = jobs
  left : ∀ i, s.worker i = .left ∧ s.nulls i = 1

theorem Inv.drained (inv : Inv jobs s) (positive : 0 < n) (here : s.caller = .returned) :
    Drained jobs s := by
  have threads := inv.finished here
  have allLeft : ∀ i, s.worker i = .left := by
    rcases inv.threads with all | ⟨-, -, allLeft⟩
    · rw [threads] at all
      have := congrArg List.length all
      simp at this
      omega
    · exact allLeft
  have gone : ∑ i, (s.worker i).gone = n := by simp [allLeft, Worker.gone]
  have tokens := inv.tokens
  have account := inv.account
  have deletions := inv.deletions
  simp only [here, allLeft, Worker.executingJobs, Worker.deletingJobs, Caller.jobs,
    Finset.sum_const_zero, add_zero, zero_add] at account deletions
  have empty : s.workQ = [] := by
    rcases queue : s.workQ with - | ⟨q, rest⟩
    · rfl
    · have null : q = none :=
        inv.after ⟨0, positive⟩ (allLeft _) q (by rw [queue]; exact List.mem_cons_self)
      have counted : 0 < s.workQ.countP Option.isNone :=
        List.countP_pos_iff.mpr ⟨none, by rw [queue, null]; exact List.mem_cons_self, rfl⟩
      omega
  rw [empty] at account
  have executed : s.executed = jobs := by simpa [queuedJobs] using account
  refine ⟨empty, threads, executed, deletions.trans executed, ?_⟩
  intro i
  refine ⟨allLeft i, ?_⟩
  rw [inv.taken, allLeft]
  rfl

/-- After the first return nothing changes but the place of the caller. -/
theorem second_call (inv : Inv jobs s) (positive : 0 < n) (here : s.caller = .returned)
    (later : Reachable Step s t) : ∃ caller, t = { s with caller := caller } := by
  have drained := inv.drained positive here
  have idle : ∀ i, s.worker i = .left := fun i => (drained.left i).1
  have first : (∃ caller, s = { s with caller := caller }) ∧ s.caller.isAdding = false :=
    ⟨⟨s.caller, rfl⟩, by rw [here]; rfl⟩
  have kept : (∃ caller, t = { s with caller := caller }) ∧ t.caller.isAdding = false := by
    refine later.invariant (P := fun u => (∃ caller, u = { s with caller := caller }) ∧
      u.caller.isAdding = false) first ?_
    rintro _ u ⟨⟨caller, rfl⟩, notAdding⟩ step
    cases step with
    | addWork here =>
        rw [here] at notAdding
        cases notAdding
    | emptyThreadPool here => exact ⟨⟨.pushing 0, rfl⟩, rfl⟩
    | pushNull here more => simp [drained.threads] at more
    | pushed here all => exact ⟨⟨.joining 0, rfl⟩, rfl⟩
    | join here joined gone => simp [drained.threads] at joined
    | clear here all => exact ⟨⟨.returned, by rw [drained.threads]⟩, rfl⟩
    | retrieve ready front => cases (idle _).symm.trans ready
    | retrieveNull ready front => cases (idle _).symm.trans ready
    | execute busy => cases (idle _).symm.trans busy
    | delete busy => cases (idle _).symm.trans busy
  exact kept.1

/-- Whatever jobs are added before `emptyThreadPool` is called and however the steps interleave: every
run comes to the return of the call and none gets stuck before it; no job is executed twice or
deleted before it was executed, a worker leaves exactly when it takes a null job; at the return every
job has been executed and deleted once and queue and threads are empty; and another call changes
nothing. -/
theorem emptyThreadPool_drains (positive : 0 < n) (jobs : List Job) :
    (∀ s : Pool n Job, Visited jobs s →
      (s.executed ≤ jobs ∧ s.deleted ≤ s.executed ∧
        ∀ i, s.nulls i = (s.worker i).gone) ∧
      (∃ t, Step s t) ∧
      (s.caller = .returned → Drained jobs s ∧
        ∀ t, Reachable Step s t → ∃ caller, t = { s with caller := caller })) ∧
    ∀ run : Nat → Pool n Job, Visited jobs (run 0) → (∀ i, Step (run i) (run (i + 1))) →
      ∃ i, (run i).caller = .returned := by
  refine ⟨?_, ?_⟩
  · intro s visited
    have inv := inv_of_visited visited
    refine ⟨⟨?_, ?_, ?_⟩, inv.progress, ?_⟩
    · rw [← inv.account]
      exact Multiset.le_add_left _ _
    · rw [← inv.deletions]
      exact Multiset.le_add_right _ _
    · exact inv.taken
    · intro here
      exact ⟨inv.drained positive here, fun t later => second_call inv positive here later⟩
  · intro run _ steps
    exact eventually remaining remaining_step run steps

/-- Two workers and three jobs. -/
theorem emptyThreadPool_two_workers :
    0 < 2 ∧ ∀ s : Pool 2 Nat, Visited [1, 2, 3] s → s.caller = .returned → s.executed = {1, 2, 3} := by
  refine ⟨Nat.zero_lt_two, ?_⟩
  intro s visited here
  have all := (emptyThreadPool_drains Nat.zero_lt_two [1, 2, 3]).1 s visited
  exact (all.2.2 here).1.executed

end Pcm.ThreadPool

import Mathlib.Algebra.Order.BigOperators.Group.Finset
import Mathlib.Data.Fintype.BigOperators
import Pcm.Lib.Transition
import Pcm.Topology

/-!
# Jobs that wait for jobs

The one thread pool of the server runs the sampling job, the connections, and the jobs that
`Aggregator::dispatch` adds for each hardware thread and each socket and then waits for
(`topology.cpp:57-98`, `topology.h:532-574`, `threadpool.h:79-101`). A worker that waits takes no
other job, so the pool comes to a standstill if all workers wait for jobs in the queue. It does if as
many connections are open at once as there are workers besides the one of the sampling job.
-/

namespace Pcm.DispatchPool

open Transition Pcm.Topology

/-! ## Jobs and workers -/

/-- A job that `Aggregator::dispatch` adds. -/
inductive SubJob
  | coreCounterState (osID : Int)
  | uncoreCounterState (socketID : Int)
  deriving DecidableEq, Repr

/-- The jobs of `dispatch(SystemRoot)`, in the order in which they are added. -/
def dispatchJobs (syp : SystemRoot) : List SubJob :=
  syp.sockets.flatMap (fun sop =>
    sop.cores.flatMap (fun cop => cop.threads.map (fun htp => .coreCounterState htp.osID)) ++
      [.uncoreCounterState sop.socketID]) ++
  syp.offlinedThreadsAtStart.map (fun htp => .coreCounterState htp.osID)

/-- The jobs that call `Aggregator::dispatch`. -/
inductive Holder
  | periodicCounterFetcher
  | httpConnection
  deriving DecidableEq, Repr

/-- The pool has `n` workers; a job that was added by a dispatch belongs to the worker of that
dispatch. -/
inductive Job (n : Nat)
  | holder (holder : Holder)
  | sub (owner : Fin n) (job : SubJob)
  deriving DecidableEq, Repr

inductive Worker (n : Nat)
  | retrieving
  | executing (owner : Fin n) (job : SubJob)
  /-- Outside of `dispatch`: it sleeps, or reads a request, or writes a response. -/
  | serving (holder : Holder)
  /-- In `dispatch`, with these jobs still to be added. -/
  | adding (holder : Holder) (jobs : List SubJob)
  /-- In `dispatch`, at the `get()` of its futures. -/
  | waiting (holder : Holder)
  deriving DecidableEq, Repr

structure Pool (n : Nat) where
  worker : Fin n → Worker n
  workQ : List (Job n)

variable {n : Nat}

/-- The server after `createPeriodicCounterFetcher`. -/
def start (n : Nat) : Pool n where
  worker := fun _ => .retrieving
  workQ := [.holder .periodicCounterFetcher]

def Worker.holder? : Worker n → Option Holder
  | .serving holder => some holder
  | .adding holder _ => some holder
  | .waiting holder => some holder
  | _ => none

/-- 1 for a worker that is busy with a job of this kind. -/
def Worker.holds (holder : Holder) (w : Worker n) : Nat := if w.holder? = some holder then 1 else 0

/-- The jobs of one kind that have been added and have not come to their end. -/
def inFlight (holder : Holder) (s : Pool n) : Nat :=
  s.workQ.count (.holder holder) + ∑ i, (s.worker i).holds holder

/-- All jobs of the dispatch in which the worker waits have been executed. -/
def Ready (s : Pool n) (i : Fin n) : Prop :=
  (∀ job, .sub i job ∉ s.workQ) ∧ ∀ j job, s.worker j ≠ .executing i job

/-- One step, with at most `limit` connections open at a time. -/
inductive Step (syp : SystemRoot) (limit : Nat) : Pool n → Pool n → Prop
  | accept {s : Pool n} (room : inFlight .httpConnection s < limit) :
      Step syp limit s { s with workQ := s.workQ ++ [.holder .httpConnection] }
  | retrieveHolder {s : Pool n} {i holder rest} (ready : s.worker i = .retrieving)
      (first : s.workQ = .holder holder :: rest) :
      Step syp limit s ⟨Function.update s.worker i (.serving holder), rest⟩
  | retrieveSub {s : Pool n} {i owner job rest} (ready : s.worker i = .retrieving)
      (first : s.workQ = .sub owner job :: rest) :
      Step syp limit s ⟨Function.update s.worker i (.executing owner job), rest⟩
  | execute {s : Pool n} {i owner job} (busy : s.worker i = .executing owner job) :
      Step syp limit s { s with worker := Function.update s.worker i .retrieving }
  | dispatch {s : Pool n} {i holder} (busy : s.worker i = .serving holder) :
      Step syp limit s
        { s with worker := Function.update s.worker i (.adding holder (dispatchJobs syp)) }
  | addWork {s : Pool n} {i holder job jobs} (busy : s.worker i = .adding holder (job :: jobs)) :
      Step syp limit s
        ⟨Function.update s.worker i (.adding holder jobs), s.workQ ++ [.sub i job]⟩
  | added {s : Pool n} {i holder} (busy : s.worker i = .adding holder []) :
      Step syp limit s { s with worker := Function.update s.worker i (.waiting holder) }
  | resume {s : Pool n} {i holder} (busy : s.worker i = .waiting holder) (ready : Ready s i) :
      Step syp limit s { s with worker := Function.update s.worker i (.serving holder) }
  | closeConnection {s : Pool n} {i} (busy : s.worker i = .serving .httpConnection) :
      Step syp limit s { s with worker := Function.update s.worker i .retrieving }

/-- Every worker waits for jobs of which at least one is still in the queue. -/
def Stuck (s : Pool n) : Prop :=
  ∀ i, (∃ holder, s.worker i = .waiting holder) ∧ ∃ job, .sub i job ∈ s.workQ

/-- In no state of any run with at most `limit` connections open are all workers stuck. -/
def NeverStuck (n : Nat) (syp : SystemRoot) (limit : Nat) : Prop :=
  ∀ s : Pool n, Reachable (Step syp limit) (start n) s → ¬ Stuck s

/-! ## Few connections -/

variable {syp : SystemRoot} {limit : Nat} {s t : Pool n}

theorem count_holder_sub (holder : Holder) (owner : Fin n) (job : SubJob) (rest : List (Job n)) :
    List.count (.holder holder) (.sub owner job :: rest) = List.count (.holder holder) rest := by
  simp

/-- A step changes the number of jobs of one kind only by accepting or closing a connection. -/
theorem inFlight_step (holder : Holder) (step : Step syp limit s t) :
    inFlight holder t ≤ inFlight holder s ∨
      holder = .httpConnection ∧ inFlight .httpConnection s < limit ∧
        inFlight holder t = inFlight holder s + 1 := by
  cases step with
  | accept room =>
      cases holder with
      | periodicCounterFetcher => exact Or.inl (by simp [inFlight])
      | httpConnection =>
          refine Or.inr ⟨rfl, room, ?_⟩
          simp only [inFlight, List.count_append, List.count_singleton_self]
          omega
  | @retrieveHolder i taken rest ready first =>
      have gain := sum_update_gain (Worker.holds holder) ready (.serving taken) rfl
      left
      simp only [inFlight, first, gain, List.count_cons]
      by_cases same : taken = holder
      · simp [same, Worker.holds, Worker.holder?]
        omega
      · simp [same, Worker.holds, Worker.holder?]
  | @retrieveSub i owner job rest ready first =>
      have same := sum_update_same (Worker.holds holder) ready (.executing owner job) rfl
      simp only [inFlight, first, count_holder_sub, same]
      exact Or.inl (Nat.le_refl _)
  | execute busy =>
      have same := sum_update_same (Worker.holds holder) busy .retrieving rfl
      simp only [inFlight, same]
      exact Or.inl (Nat.le_refl _)
  | @dispatch i taken busy =>
      have same := sum_update_same (Worker.holds holder) busy (.adding taken (dispatchJobs syp)) rfl
      simp only [inFlight, same]
      exact Or.inl (Nat.le_refl _)
  | @addWork i taken job jobs busy =>
      have same := sum_update_same (Worker.holds holder) busy (.adding taken jobs) rfl
      simp only [inFlight, same, List.count_append, count_holder_sub, List.count_nil]
      exact Or.inl (Nat.le_refl _)
  | @added i taken busy =>
      have same := sum_update_same (Worker.holds holder) busy (.waiting taken) rfl
      simp only [inFlight, same]
      exact Or.inl (Nat.le_refl _)
  | @resume i taken busy ready =>
      have same := sum_update_same (Worker.holds holder) busy (.serving taken) rfl
      simp only [inFlight, same]
      exact Or.inl (Nat.le_refl _)
  | closeConnection busy =>
      have lose := sum_update_lose (Worker.holds holder) busy .retrieving rfl
      simp only [inFlight]
      omega

/-- There is one sampling job and there are at most `limit` connections. -/
def Bounded (limit : Nat) (s : Pool n) : Prop :=
  inFlight .periodicCounterFetcher s ≤ 1 ∧ inFlight .httpConnection s ≤ limit

theorem bounded_of_reachable (reached : Reachable (Step syp limit) (start n) s) :
    Bounded limit s := by
  refine reached.invariant ?_ ?_
  · simp [Bounded, inFlight, start, Worker.holds, Worker.holder?]
  · rintro s t ⟨fetcher, connections⟩ step
    refine ⟨?_, ?_⟩
    · rcases inFlight_step .periodicCounterFetcher step with less | ⟨isConnection, -⟩
      · exact less.trans fetcher
      · cases isConnection
    · rcases inFlight_step .httpConnection step with less | ⟨-, room, more⟩
      · exact less.trans connections
      · omega

/-- If all workers wait there are as many jobs that dispatch as workers. -/
theorem le_inFlight_of_stuck (stuck : Stuck s) :
    n ≤ inFlight .periodicCounterFetcher s + inFlight .httpConnection s := by
  have one : ∀ i, (s.worker i).holds .periodicCounterFetcher + (s.worker i).holds .httpConnection = 1 := by
    intro i
    obtain ⟨⟨holder, waits⟩, -⟩ := stuck i
    rw [waits]
    cases holder <;> rfl
  have all : ∑ i, ((s.worker i).holds .periodicCounterFetcher +
      (s.worker i).holds .httpConnection) = n := by
    simp [one]
  rw [Finset.sum_add_distrib] at all
  simp only [inFlight]
  omega

theorem never_stuck_of_few (few : limit + 1 < n) : NeverStuck n syp limit := by
  intro s reached stuck
  have bound := bounded_of_reachable reached
  have least := le_inFlight_of_stuck stuck
  simp only [Bounded] at bound
  omega

/-! ## No jobs to wait for -/

/-- The jobs that dispatches have added or will add all come from the topology. -/
def FromDispatch (syp : SystemRoot) (s : Pool n) : Prop :=
  (∀ i job, .sub i job ∈ s.workQ → job ∈ dispatchJobs syp) ∧
    ∀ i holder jobs, s.worker i = .adding holder jobs → ∀ job ∈ jobs, job ∈ dispatchJobs syp

theorem fromDispatch_of_reachable (reached : Reachable (Step syp limit) (start n) s) :
    FromDispatch syp s := by
  refine reached.invariant ?_ ?_
  · simp [FromDispatch, start]
  · rintro s t ⟨queued, adding⟩ step
    have updated : ∀ {j : Fin n} {next : Worker n}, (∀ holder jobs, next = .adding holder jobs →
        ∀ job ∈ jobs, job ∈ dispatchJobs syp) →
        ∀ i holder jobs, Function.update s.worker j next i = .adding holder jobs →
          ∀ job ∈ jobs, job ∈ dispatchJobs syp := by
      intro j next nextAdding i holder jobs now
      by_cases same : i = j
      · subst same
        rw [Function.update_self] at now
        exact nextAdding holder jobs now
      · rw [Function.update_of_ne same] at now
        exact adding i holder jobs now
    cases step with
    | accept room => exact ⟨fun i job member => queued i job (by simpa using member), adding⟩
    | retrieveHolder ready first =>
        rw [first] at queued
        exact ⟨fun i job member => queued i job (List.mem_cons_of_mem _ member), updated nofun⟩
    | retrieveSub ready first =>
        rw [first] at queued
        exact ⟨fun i job member => queued i job (List.mem_cons_of_mem _ member), updated nofun⟩
    | execute busy => exact ⟨queued, updated nofun⟩
    | dispatch busy =>
        refine ⟨queued, updated ?_⟩
        rintro holder jobs ⟨-, rfl⟩ job member
        exact member
    | @addWork i holder job jobs busy =>
        have from_ := adding i holder (job :: jobs) busy
        refine ⟨?_, updated ?_⟩
        · intro owner other member
          rcases List.mem_append.mp member with member | member
          · exact queued owner other member
          · obtain ⟨rfl, rfl⟩ := Job.sub.inj (List.mem_singleton.mp member)
            exact from_ other List.mem_cons_self
        · rintro holder jobs ⟨-, rfl⟩ other member
          exact from_ other (List.mem_cons_of_mem _ member)
    | added busy => exact ⟨queued, updated nofun⟩
    | resume busy ready => exact ⟨queued, updated nofun⟩
    | closeConnection busy => exact ⟨queued, updated nofun⟩

theorem never_stuck_of_no_jobs (positive : 0 < n) (none : dispatchJobs syp = []) :
    NeverStuck n syp limit := by
  intro s reached stuck
  obtain ⟨-, job, member⟩ := stuck ⟨0, positive⟩
  have := (fromDispatch_of_reachable reached).1 _ job member
  rw [none] at this
  cases this

/-! ## Many connections -/

/-- The fetcher and `count` connections are in the queue, and no worker has taken anything. -/
theorem reach_connections (count : Nat) (within : count ≤ limit) :
    Reachable (Step syp limit) (start n)
      ⟨fun _ => .retrieving,
        .holder .periodicCounterFetcher :: List.replicate count (.holder .httpConnection)⟩ := by
  induction count with
  | zero => exact Relation.ReflTransGen.refl
  | succ count ih =>
      refine (ih (by omega)).next ?_
      rw [List.replicate_succ', ← List.cons_append]
      apply Step.accept
      simp [inFlight, Worker.holds, Worker.holder?]
      omega

/-- A worker in `dispatch` adds its jobs one after the other. -/
theorem reach_added (s : Pool n) (i : Fin n) (holder : Holder) (jobs : List SubJob)
    (busy : s.worker i = .adding holder jobs) :
    Reachable (Step syp limit) s
      ⟨Function.update s.worker i (.waiting holder), s.workQ ++ jobs.map (.sub i)⟩ := by
  induction jobs generalizing s with
  | nil =>
      rw [List.map_nil, List.append_nil]
      exact Relation.ReflTransGen.single (Step.added busy)
  | cons job jobs ih =>
      have first : Reachable (Step syp limit) s
          ⟨Function.update s.worker i (.adding holder jobs), s.workQ ++ [.sub i job]⟩ :=
        Relation.ReflTransGen.single (Step.addWork busy)
      have rest := ih ⟨Function.update s.worker i (.adding holder jobs), s.workQ ++ [.sub i job]⟩
        (Function.update_self i _ _)
      simp only [Function.update_idem, List.append_assoc, List.singleton_append] at rest
      exact first.trans rest

/-- The first worker that has taken nothing takes the next job that dispatches, and comes to wait. -/
theorem reach_waiting {s : Pool n} {i : Fin n} {holder : Holder} {rest : List (Job n)}
    (ready : s.worker i = .retrieving) (first : s.workQ = .holder holder :: rest) :
    Reachable (Step syp limit) s
      ⟨Function.update s.worker i (.waiting holder), rest ++ (dispatchJobs syp).map (.sub i)⟩ := by
  have taken : Reachable (Step syp limit) s
      ⟨Function.update s.worker i (.serving holder), rest⟩ :=
    Relation.ReflTransGen.single (Step.retrieveHolder ready first)
  have started := taken.next (Step.dispatch (Function.update_self i _ _))
  simp only [Function.update_idem] at started
  have waits := started.trans
    (reach_added _ i holder (dispatchJobs syp) (Function.update_self i _ _))
  simpa only [Function.update_idem] using waits

/-- The first `count` workers wait for jobs in the queue, the others have taken nothing, and for each
of those there is a job in the queue that dispatches. -/
structure Filled (syp : SystemRoot) (count : Nat) (s : Pool n) : Prop where
  waiting : ∀ i : Fin n, i.val < count →
    (∃ holder, s.worker i = .waiting holder) ∧ ∀ job ∈ dispatchJobs syp, .sub i job ∈ s.workQ
  retrieving : ∀ i : Fin n, count ≤ i.val → s.worker i = .retrieving
  workQ : ∃ (holders : List Holder) (subs : List (Job n)),
    s.workQ = holders.map .holder ++ subs ∧ holders.length = n - count

theorem Filled.next {count : Nat} (filled : Filled syp count s) (more : count < n) :
    ∃ t, Reachable (Step syp limit) s t ∧ Filled syp (count + 1) t := by
  obtain ⟨holders, subs, queue, length⟩ := filled.workQ
  rcases holders with - | ⟨holder, holders⟩
  · rw [List.length_nil] at length
    omega
  · have idle := filled.retrieving ⟨count, more⟩ (Nat.le_refl count)
    refine ⟨_, reach_waiting idle queue, ?_, ?_, ?_⟩
    · intro i below
      by_cases same : i = ⟨count, more⟩
      · subst same
        refine ⟨⟨holder, Function.update_self _ _ _⟩, ?_⟩
        intro job member
        exact List.mem_append_right _ (List.mem_map_of_mem member)
      · have earlier : i.val < count := by
          have different : i.val ≠ count := fun equal => same (Fin.ext equal)
          omega
        obtain ⟨⟨other, waits⟩, jobs⟩ := filled.waiting i earlier
        refine ⟨⟨other, by rw [← waits]; exact Function.update_of_ne same _ _⟩, ?_⟩
        intro job member
        have queued := jobs job member
        rw [queue] at queued
        rcases List.mem_cons.mp queued with equal | queued
        · cases equal
        · exact List.mem_append_left _ queued
    · intro i above
      have different : i ≠ ⟨count, more⟩ := fun equal => by
        rw [equal] at above
        simp at above
      rw [← filled.retrieving i (by omega)]
      exact Function.update_of_ne different _ _
    · refine ⟨holders, subs ++ (dispatchJobs syp).map (.sub ⟨count, more⟩), ?_, ?_⟩
      · exact List.append_assoc _ _ _
      · rw [List.length_cons] at length
        omega

theorem reach_filled (positive : 0 < n) (many : n ≤ limit + 1) (count : Nat) (within : count ≤ n) :
    ∃ s : Pool n, Reachable (Step syp limit) (start n) s ∧ Filled syp count s := by
  induction count with
  | zero =>
      refine ⟨_, reach_connections (n - 1) (by omega), fun i below => absurd below (Nat.not_lt_zero _),
        fun i _ => rfl, .periodicCounterFetcher :: List.replicate (n - 1) .httpConnection, [], ?_, ?_⟩
      · simp
      · simp only [List.length_cons, List.length_replicate]
        omega
  | succ count ih =>
      obtain ⟨s, reached, filled⟩ := ih (by omega)
      obtain ⟨t, further, next⟩ := filled.next (by omega)
      exact ⟨t, reached.trans further, next⟩

theorem stuck_of_many (positive : 0 < n) (many : n ≤ limit + 1) (jobs : dispatchJobs syp ≠ []) :
    ∃ s : Pool n, Reachable (Step syp limit) (start n) s ∧ Stuck s := by
  obtain ⟨s, reached, filled⟩ := reach_filled positive many n (Nat.le_refl n)
  obtain ⟨job, member⟩ := List.exists_mem_of_ne_nil _ jobs
  refine ⟨s, reached, fun i => ?_⟩
  obtain ⟨waits, queued⟩ := filled.waiting i i.isLt
  exact ⟨waits, job, queued job member⟩

/-- The number of workers of `ThreadPool::getInstance` (`threadpool.h:80`). -/
def poolSize : Nat := 64

/-- No run comes to a standstill if and only if fewer connections are open at a time than there are
workers besides that of the sampling job, or there is nothing to wait for. -/
theorem never_stuck_iff (syp : SystemRoot) (limit : Nat) :
    NeverStuck poolSize syp limit ↔ limit ≤ 62 ∨ dispatchJobs syp = [] := by
  constructor
  · intro never
    by_contra both
    push Not at both
    obtain ⟨s, reached, stuck⟩ :=
      stuck_of_many (show 0 < poolSize by decide) (show poolSize ≤ limit + 1 by
        have : poolSize = 64 := rfl
        omega) both.2
    exact never s reached stuck
  · rintro (few | none)
    · exact never_stuck_of_few (show limit + 1 < 64 by omega)
    · exact never_stuck_of_no_jobs (show 0 < poolSize by decide) none

/-- One socket with one core and one thread. -/
def oneThread : SystemRoot where
  sockets := [⟨0, [⟨⟨0, 0, 0, 0, 0, 0, 0, 0, 0⟩, []⟩], .server⟩]
  offlinedThreadsAtStart := []

/-- With 63 connections open on the smallest machine, all 64 workers can come to wait. -/
theorem stuck_with_63_connections :
    ∃ s : Pool poolSize, Reachable (Step oneThread 63) (start poolSize) s ∧ Stuck s :=
  stuck_of_many (by decide) (by decide) (by decide)

end Pcm.DispatchPool

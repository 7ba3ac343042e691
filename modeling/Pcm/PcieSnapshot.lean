import Mathlib.Algebra.BigOperators.Group.Finset.Basic
import Mathlib.Data.BitVec
import Pcm.Lib.Runs

/-!
# PCIe counters in a response

`PCIeCollector` (`pcm-pcie-collector.h`) measures in a background thread and publishes what it has
summed up under a mutex. `printPCIeCounterState` of both printers of the server
(`pcm-sensor-server.cpp:565-588`, `pcm-sensor-server.cpp:888-914`) takes the mutex once for every value
that it asks for, so that the background thread may publish in between.
-/

namespace Pcm.Pcie

open Pcm.Runs

/-- `uint64_t` -/
abbrev Word := BitVec 64

structure SocketBW where
  readBytes : Word := 0
  writeBytes : Word := 0
  deriving DecidableEq, Repr

/-- The numbers that the constructor finds: `socketCount_` and the size of `eventNames_`. -/
structure Platform where
  socketCount : Nat
  numEvents : Nat
  deriving DecidableEq, Repr

/-- What the platform measures in one interval: `getReadBw`, `getWriteBw` and `event` of a socket. -/
structure Sample where
  readBw : Nat → Word
  writeBw : Nat → Word
  event : Nat → Nat → Word

/-- The vectors of values by socket, and by socket and event, with the sums. -/
structure Values where
  snapshot : Nat → SocketBW := fun _ => {}
  aggregate : SocketBW := {}
  rawValues : Nat → Nat → Word := fun _ _ => 0
  rawAggValues : Nat → Word := fun _ => 0

/-- What is published, what the background thread has summed up, and whether that is yet to be
published. -/
structure Collector where
  published : Values := {}
  cum : Values := {}
  measured : Bool := false

variable (platform : Platform)

/-- `collect`, up to the mutex (`pcm-pcie-collector.h:108-132`). -/
def Values.collect (cum : Values) (sample : Sample) : Values :=
  let rawValues := fun s i =>
    if s < platform.socketCount ∧ i < platform.numEvents then cum.rawValues s i + sample.event s i
    else cum.rawValues s i
  { snapshot := fun s =>
      if s < platform.socketCount then
        { readBytes := (cum.snapshot s).readBytes + sample.readBw s,
          writeBytes := (cum.snapshot s).writeBytes + sample.writeBw s }
      else cum.snapshot s
    aggregate :=
      { readBytes := cum.aggregate.readBytes + ∑ s ∈ Finset.range platform.socketCount, sample.readBw s,
        writeBytes :=
          cum.aggregate.writeBytes + ∑ s ∈ Finset.range platform.socketCount, sample.writeBw s }
    rawValues := rawValues
    rawAggValues := fun i => ∑ s ∈ Finset.range platform.socketCount, rawValues s i }

/-! ## Reading -/

/-- `getSocket` -/
def Values.getSocket (values : Values) (skt : Nat) : SocketBW :=
  if skt < platform.socketCount then values.snapshot skt else {}

/-- `getRawValues` -/
def Values.getRawValues (values : Values) (skt : Nat) : List Word :=
  if skt < platform.socketCount then (List.range platform.numEvents).map (values.rawValues skt) else []

/-- `getRawAggregate` -/
def Values.getRawAggregate (values : Values) : List Word :=
  (List.range platform.numEvents).map values.rawAggValues

/-- What `printPCIeCounterState` has read so far: the values of the sockets in turn, then the
aggregates. -/
structure Response where
  bw : List SocketBW := []
  raw : List (List Word) := []
  agg : Option SocketBW := none
  rawAgg : Option (List Word) := none
  deriving DecidableEq, Repr

/-- The next value that `printPCIeCounterState` reads. -/
def Response.read (response : Response) (values : Values) : Response :=
  if response.raw.length < response.bw.length then
    { response with raw := response.raw ++ [values.getRawValues platform response.raw.length] }
  else if response.bw.length < platform.socketCount then
    { response with bw := response.bw ++ [values.getSocket platform response.bw.length] }
  else if response.agg = none then { response with agg := some values.aggregate }
  else if response.rawAgg = none then
    { response with rawAgg := some (values.getRawAggregate platform) }
  else response

/-- The printed aggregates are the sums of the printed values. -/
def Response.Consistent (response : Response) : Prop :=
  ∃ agg rawAgg, response.agg = some agg ∧ response.rawAgg = some rawAgg ∧
    agg.readBytes = (response.bw.map (·.readBytes)).sum ∧
    agg.writeBytes = (response.bw.map (·.writeBytes)).sum ∧
    rawAgg.length = platform.numEvents ∧
    ∀ i < platform.numEvents, rawAgg.getD i 0 = (response.raw.map (·.getD i 0)).sum

/-! ## Interleavings -/

structure State where
  collector : Collector := {}
  response : Response := {}

/-- The background thread measures, or publishes under the mutex, or the printer reads the next value
under the mutex. -/
inductive Event
  | measure (sample : Sample)
  | publish
  | read

def step (s : State) : Event → State
  | .measure sample =>
      if s.collector.measured then s
      else
        { s with collector :=
            { s.collector with cum := s.collector.cum.collect platform sample, measured := true } }
  | .publish =>
      if s.collector.measured then
        { s with collector := { s.collector with published := s.collector.cum, measured := false } }
      else s
  | .read => { s with response := s.response.read platform s.collector.published }

/-! ## Sums of published values -/

/-- The aggregates are the sums over the sockets. -/
structure Values.Summed (values : Values) : Prop where
  reads : values.aggregate.readBytes =
    ∑ s ∈ Finset.range platform.socketCount, (values.snapshot s).readBytes
  writes : values.aggregate.writeBytes =
    ∑ s ∈ Finset.range platform.socketCount, (values.snapshot s).writeBytes
  raws : ∀ i, values.rawAggValues i = ∑ s ∈ Finset.range platform.socketCount, values.rawValues s i

variable {platform}

theorem summed_initial : Values.Summed platform {} where
  reads := by simp
  writes := by simp
  raws := by simp

/-- A measurement adds the same to the sockets and to the aggregate. -/
theorem summed_collect {cum : Values} (summed : cum.Summed platform) (sample : Sample) :
    (cum.collect platform sample).Summed platform where
  reads := by
    have each : ∑ s ∈ Finset.range platform.socketCount,
        ((cum.collect platform sample).snapshot s).readBytes =
          ∑ s ∈ Finset.range platform.socketCount, ((cum.snapshot s).readBytes + sample.readBw s) := by
      refine Finset.sum_congr rfl (fun s member => ?_)
      simp only [Values.collect, if_pos (Finset.mem_range.mp member)]
    rw [each, Finset.sum_add_distrib, ← summed.reads]
    rfl
  writes := by
    have each : ∑ s ∈ Finset.range platform.socketCount,
        ((cum.collect platform sample).snapshot s).writeBytes =
          ∑ s ∈ Finset.range platform.socketCount, ((cum.snapshot s).writeBytes + sample.writeBw s) := by
      refine Finset.sum_congr rfl (fun s member => ?_)
      simp only [Values.collect, if_pos (Finset.mem_range.mp member)]
    rw [each, Finset.sum_add_distrib, ← summed.writes]
    rfl
  raws := fun _ => rfl

/-! ## A response -/

/-- The values that are printed sum up to those that are published now, where the aggregate is yet to
be read, and to the aggregate where it has been read. -/
structure Tracks (platform : Platform) (response : Response) (values : Values) : Prop where
  order : response.raw.length ≤ response.bw.length
  bound : response.bw.length ≤ platform.socketCount
  sockets : response.agg ≠ none →
    response.bw.length = platform.socketCount ∧ response.raw.length = platform.socketCount
  last : response.rawAgg ≠ none → response.agg ≠ none
  reads : response.agg = none → (response.bw.map (·.readBytes)).sum =
    ∑ s ∈ Finset.range response.bw.length, (values.snapshot s).readBytes
  writes : response.agg = none → (response.bw.map (·.writeBytes)).sum =
    ∑ s ∈ Finset.range response.bw.length, (values.snapshot s).writeBytes
  raws : response.rawAgg = none → ∀ i < platform.numEvents, (response.raw.map (·.getD i 0)).sum =
    ∑ s ∈ Finset.range response.raw.length, values.rawValues s i
  aggReads : ∀ agg, response.agg = some agg →
    agg.readBytes = (response.bw.map (·.readBytes)).sum ∧
      agg.writeBytes = (response.bw.map (·.writeBytes)).sum
  aggRaws : ∀ rawAgg, response.rawAgg = some rawAgg → rawAgg.length = platform.numEvents ∧
    ∀ i < platform.numEvents, rawAgg.getD i 0 = (response.raw.map (·.getD i 0)).sum

theorem tracks_initial (values : Values) : Tracks platform {} values where
  order := Nat.le_refl _
  bound := Nat.zero_le _
  sockets := fun other => absurd rfl other
  last := fun other => absurd rfl other
  reads := fun _ => rfl
  writes := fun _ => rfl
  raws := fun _ _ _ => rfl
  aggReads := nofun
  aggRaws := nofun

theorem Tracks.consistent {response : Response} {values : Values}
    (tracks : Tracks platform response values) (complete : response.rawAgg ≠ none) :
    response.Consistent platform := by
  obtain ⟨rawAgg, printed⟩ := Option.ne_none_iff_exists'.mp complete
  obtain ⟨agg, printed'⟩ := Option.ne_none_iff_exists'.mp (tracks.last complete)
  obtain ⟨reads, writes⟩ := tracks.aggReads agg printed'
  obtain ⟨size, raws⟩ := tracks.aggRaws rawAgg printed
  exact ⟨agg, rawAgg, printed', printed, reads, writes, size, raws⟩

theorem getD_map_range {n i : Nat} (small : i < n) (f : Nat → Word) :
    ((List.range n).map f).getD i 0 = f i := by
  simp [small]

/-- A read keeps what is printed in step with what is published. -/
theorem Tracks.read {response : Response} {values : Values}
    (tracks : Tracks platform response values) (summed : values.Summed platform) :
    Tracks platform (response.read platform values) values := by
  simp only [Response.read]
  split
  · -- the raw values of a socket
    rename_i behind
    have none : response.agg = none := by
      by_contra printed
      obtain ⟨all, all'⟩ := tracks.sockets printed
      omega
    have none' : response.rawAgg = .none := by
      by_contra printed
      exact tracks.last printed none
    have inside : response.raw.length < platform.socketCount := by
      have := tracks.bound
      omega
    exact {
      order := by
        rw [List.length_append]
        exact behind
      bound := tracks.bound
      sockets := fun printed => absurd none printed
      last := fun printed => absurd none' printed
      reads := tracks.reads
      writes := tracks.writes
      raws := by
        intro _ i small
        rw [List.map_append, List.sum_append, tracks.raws none' i small, List.length_append,
          List.length_singleton, Finset.sum_range_succ]
        simp only [Values.getRawValues, if_pos inside, List.map_cons, List.map_nil, List.sum_cons,
          List.sum_nil, getD_map_range small, add_zero]
      aggReads := fun agg printed => by rw [none] at printed; cases printed
      aggRaws := fun rawAgg printed => by rw [none'] at printed; cases printed }
  · rename_i level
    split
    · -- the bytes of a socket
      rename_i more
      have none : response.agg = .none := by
        by_contra printed
        have := (tracks.sockets printed).1
        omega
      exact {
        order := by
          rw [List.length_append]
          exact Nat.le_trans tracks.order (Nat.le_add_right _ _)
        bound := by
          rw [List.length_append]
          exact more
        sockets := fun printed => absurd none printed
        last := tracks.last
        reads := by
          intro _
          rw [List.map_append, List.sum_append, tracks.reads none, List.length_append,
            List.length_singleton, Finset.sum_range_succ]
          simp [Values.getSocket, more]
        writes := by
          intro _
          rw [List.map_append, List.sum_append, tracks.writes none, List.length_append,
            List.length_singleton, Finset.sum_range_succ]
          simp [Values.getSocket, more]
        raws := tracks.raws
        aggReads := fun agg printed => by rw [none] at printed; cases printed
        aggRaws := tracks.aggRaws }
    · rename_i enough
      have all : response.bw.length = platform.socketCount := by
        have := tracks.bound
        omega
      have all' : response.raw.length = platform.socketCount := by
        have := tracks.order
        omega
      split
      · -- the aggregate
        rename_i none
        exact {
          order := tracks.order
          bound := tracks.bound
          sockets := fun _ => ⟨all, all'⟩
          last := fun _ => Option.some_ne_none _
          reads := nofun
          writes := nofun
          raws := tracks.raws
          aggReads := by
            rintro agg ⟨⟩
            rw [tracks.reads none, tracks.writes none, all]
            exact ⟨summed.reads, summed.writes⟩
          aggRaws := tracks.aggRaws }
      · rename_i printed
        split
        · -- the raw aggregates
          rename_i none
          exact {
            order := tracks.order
            bound := tracks.bound
            sockets := tracks.sockets
            last := fun _ => printed
            reads := tracks.reads
            writes := tracks.writes
            raws := nofun
            aggReads := tracks.aggReads
            aggRaws := by
              rintro rawAgg ⟨⟩
              refine ⟨by simp [Values.getRawAggregate], fun i small => ?_⟩
              rw [tracks.raws none i small, all', Values.getRawAggregate, getD_map_range small]
              exact summed.raws i }
        · exact tracks

/-! ## Runs -/

/-- What is yet to be published does not change the sums of what is already printed, as far as the
aggregates are not printed yet. -/
structure Undisturbed (platform : Platform) (response : Response) (now next : Values) : Prop where
  reads : response.agg = none →
    ∑ s ∈ Finset.range response.bw.length, (next.snapshot s).readBytes =
      ∑ s ∈ Finset.range response.bw.length, (now.snapshot s).readBytes
  writes : response.agg = none →
    ∑ s ∈ Finset.range response.bw.length, (next.snapshot s).writeBytes =
      ∑ s ∈ Finset.range response.bw.length, (now.snapshot s).writeBytes
  raws : response.rawAgg = none → ∀ i < platform.numEvents,
    ∑ s ∈ Finset.range response.raw.length, next.rawValues s i =
      ∑ s ∈ Finset.range response.raw.length, now.rawValues s i

/-- The background thread does not publish while the response is disturbed by it. -/
def Calm (platform : Platform) (s : State) (event : Event) : Prop :=
  event = .publish → s.collector.measured = true →
    Undisturbed platform s.response s.collector.published s.collector.cum

theorem Tracks.publish {response : Response} {now next : Values}
    (tracks : Tracks platform response now) (calm : Undisturbed platform response now next) :
    Tracks platform response next where
  order := tracks.order
  bound := tracks.bound
  sockets := tracks.sockets
  last := tracks.last
  reads none := (tracks.reads none).trans (calm.reads none).symm
  writes none := (tracks.writes none).trans (calm.writes none).symm
  raws none i small := (tracks.raws none i small).trans (calm.raws none i small).symm
  aggReads := tracks.aggReads
  aggRaws := tracks.aggRaws

structure Inv (platform : Platform) (s : State) : Prop where
  published : s.collector.published.Summed platform
  cum : s.collector.cum.Summed platform
  tracks : Tracks platform s.response s.collector.published

theorem inv_initial : Inv platform {} := ⟨summed_initial, summed_initial, tracks_initial _⟩

theorem inv_step {s : State} {event : Event} (inv : Inv platform s) (calm : Calm platform s event) :
    Inv platform (step platform s event) := by
  cases event with
  | measure sample =>
      simp only [step]
      split
      · exact inv
      · exact ⟨inv.published, summed_collect inv.cum sample, inv.tracks⟩
  | publish =>
      simp only [step]
      split
      · rename_i measured
        exact ⟨inv.cum, inv.cum, inv.tracks.publish (calm rfl measured)⟩
      · exact inv
  | read => exact ⟨inv.published, inv.cum, inv.tracks.read inv.published⟩

theorem inv_run {s : State} {events : List Event} (inv : Inv platform s)
    (calm : Each (step platform) (Calm platform) s events) :
    Always (step platform) (Inv platform) s events := by
  induction events generalizing s with
  | nil => exact (always_nil _ _ _).mpr inv
  | cons event events ih =>
      exact (always_cons ..).mpr ⟨inv, ih (inv_step inv calm.1) calm.2⟩

/-- In every run in which no publication changes the sums of what a response has already printed, the
response is consistent once it is complete. -/
theorem response_consistent (platform : Platform) (events : List Event)
    (calm : Each (step platform) (Calm platform) {} events) :
    Always (step platform) (fun s => s.response.rawAgg ≠ none → s.response.Consistent platform) {}
      events :=
  fun before isPrefix => (inv_run inv_initial calm before isPrefix).tracks.consistent

/-- Two sockets and two events; a measurement finds the first socket idle, and the second with the same value
everywhere. -/
def pair : Platform := ⟨2, 2⟩

def secondSocketSample (value : Word) : Sample :=
  ⟨fun s => if s = 1 then value else 0, fun s => if s = 1 then value else 0, fun s _ => if s = 1 then value else 0⟩

/-- A publication before the response, and one while it has got to the second socket. -/
def calmRun : List Event :=
  [.measure (secondSocketSample 5), .publish, .read, .read, .measure (secondSocketSample 7), .publish, .read, .read,
    .read, .read]

theorem response_consistent_between :
    (run (step pair) {} calmRun).response =
        { bw := [⟨0, 0⟩, ⟨12, 12⟩], raw := [[0, 0], [12, 12]], agg := some ⟨12, 12⟩, rawAgg := some [12, 12] } ∧
      (run (step pair) {} calmRun).response.Consistent pair := by
  have initially : ∀ next, Undisturbed pair {} {} next := by
    intro next
    exact ⟨fun _ => rfl, fun _ => rfl, fun _ _ _ => rfl⟩
  refine ⟨by decide, response_consistent pair calmRun ?_ _ List.prefix_rfl (by decide)⟩
  refine ⟨nofun, fun _ _ => initially _, nofun, nofun, nofun, fun _ _ => ⟨fun _ => by decide, fun _ => by decide, ?_⟩,
    nofun, nofun, nofun, nofun, trivial⟩
  intro _ i small
  have only : i = 0 ∨ i = 1 := by
    simp only [pair] at small
    omega
  rcases only with rfl | rfl <;> decide

/-- One socket and one event, with the same value everywhere. -/
def single : Platform := ⟨1, 1⟩

def constantSample (value : Word) : Sample := ⟨fun _ => value, fun _ => value, fun _ _ => value⟩

/-- A response into which a publication falls: the bytes of the socket were read before it. -/
theorem response_inconsistent :
    (run (step single) {} [.read, .measure (constantSample 5), .publish, .read, .read,
      .read]).response.rawAgg ≠ none ∧
    ¬ (run (step single) {} [.read, .measure (constantSample 5), .publish, .read, .read,
      .read]).response.Consistent single := by
  have printed : (run (step single) {} [.read, .measure (constantSample 5), .publish, .read, .read,
      .read]).response =
        { bw := [⟨0, 0⟩], raw := [[5]], agg := some ⟨5, 5⟩, rawAgg := some [5] } := by
    decide
  rw [printed]
  refine ⟨Option.some_ne_none _, ?_⟩
  rintro ⟨agg, rawAgg, ⟨⟩, -, reads, -⟩
  revert reads
  decide

end Pcm.Pcie

import Pcm.Lib.Accumulate
import Mathlib.Data.BitVec
import Mathlib.Algebra.BigOperators.Group.List.Basic
import Mathlib.Data.List.Basic
import Mathlib.Data.List.GetD
import Mathlib.Data.List.SplitLengths

/-!
# Multiplexed event counts of the CHA units

`CHAEventCollector` (`pcm-memory.cpp:1220-1347`) counts more events than a CHA unit has counters:
the groups of events take turns, and each group counts from a first reading after it was programmed
to a last reading before the next group is. The baselines are kept in one vector, `MidStates`, whose
entries are read at the end of one group and again at the start of the next. The baseline of the
first group is the last reading of the previous iteration of the main loop
(`pcm-memory.cpp:1599-1657`). The counts are taken over the sockets' units up to the number of units of socket 0.
-/

namespace Pcm.Cha

/-- The counters of one CHA unit. -/
abbrev Counters := Nat → BitVec 64

/-- What `readState` fills: by socket, die and CHA unit. -/
abbrev States := Nat → List (List Counters)

/-- The sockets and their CHA units. -/
structure Layout where
  numSockets : Nat
  /-- The numbers of units on the dies of a socket. -/
  dies : Nat → List Nat

/-- `getMaxNumOfUncorePMUs(PCM::CBO_PMU_ID)`, whose socket is 0 where it is not given. -/
def Layout.getMaxNumOfUncorePMUs (l : Layout) : Nat := (l.dies 0).sum

/-- `readUncoreCounterValues` makes an entry for each unit (`cpucounters.h:769-794`). -/
def Layout.Shaped (l : Layout) (states : States) : Prop :=
  ∀ i < l.numSockets, (states i).map List.length = l.dies i

/-- `UncorePMU::maxCounters`. -/
def maxCounters : Nat := 8

/-- `getUncoreCounter` (`cpucounters.h:3402-3421`): units are numbered through the dies. -/
def getUncoreCounter (unit counter : Nat) : List (List Counters) → List (List Counters) → BitVec 64
  | before :: befores, after :: afters =>
      if counter < maxCounters then
        if unit < after.length then
          after.getD unit (fun _ => 0) counter - before.getD unit (fun _ => 0) counter
        else getUncoreCounter (unit - after.length) counter befores afters
      else 0
  | _, _ => 0

/-- What happens at the counters. -/
inductive Action
  | programCboRaw (events : List (BitVec 64))
  | read (index : Nat)
  deriving DecidableEq, Repr

/-- A collector on a machine: at least two groups, as its constructor asserts, of one to four events each. -/
structure Collector where
  layout : Layout
  eventGroups : List (List (BitVec 64))
  many : 1 < eventGroups.length
  /-- `size_t` -/
  sized : eventGroups.length < 2 ^ 64
  filled : ∀ group ∈ eventGroups, 1 ≤ group.length ∧ group.length ≤ 4

/-- A collector where the counters give any values at the readings, one after the other. -/
structure Setup extends Collector where
  reading : Nat → States
  shaped : ∀ k, layout.Shaped (reading k)

/-- The variables of the main loop and of the collector, the number of readings and what happened
so far, and the values of `getTotalCount`. -/
structure Run where
  beforeState : States := fun _ => []
  afterState : States := fun _ => []
  midStates : Nat → States := fun _ _ => []
  curGroup : Nat := 0
  totalCount : BitVec 64 := 0
  reads : Nat := 0
  log : List Action := []
  values : List (BitVec 64) := []

namespace Setup

variable (s : Setup)

/-- `eventGroups.size()`. -/
def size : Nat := s.eventGroups.length

def group (g : Nat) : List (BitVec 64) := s.eventGroups.getD g []

/-- The array that `programGroup` fills. -/
def groupEvents (g : Nat) : List (BitVec 64) := (List.range 4).map fun i => (s.group g).getD i 0

/-- The counters that hold an event of a group. -/
def numCounters (g : Nat) : Nat := min 4 (s.group g).length

/-- `extractCHATotalCount` (`pcm-memory.cpp:1235-1249`). -/
def extractCHATotalCount (curGroup : Nat) (before after : States) : BitVec 64 :=
  ((List.range s.layout.numSockets).map fun i =>
    ((List.range s.layout.getMaxNumOfUncorePMUs).map fun cbo =>
      ((List.range (s.numCounters curGroup)).map fun ctr =>
        getUncoreCounter cbo ctr (before i) (after i)).sum).sum).sum

/-- `programGroup` (`pcm-memory.cpp:1250-1259`). -/
def programGroup (g : Nat) (w : Run) : Run :=
  { w with log := w.log ++ [.programCboRaw (s.groupEvents g)] }

def programFirstGroup (w : Run) : Run := s.programGroup 0 w

/-- `readState` into an entry of `MidStates`. -/
def readMid (g : Nat) (w : Run) : Run :=
  { w with
    midStates := Function.update w.midStates g (s.reading w.reads)
    reads := w.reads + 1
    log := w.log ++ [.read w.reads] }

def readBefore (w : Run) : Run :=
  { w with beforeState := s.reading w.reads, reads := w.reads + 1, log := w.log ++ [.read w.reads] }

def readAfter (w : Run) : Run :=
  { w with afterState := s.reading w.reads, reads := w.reads + 1, log := w.log ++ [.read w.reads] }

/-- The baseline of a group in `multiplexEvents`. -/
def baseline (g : Nat) (w : Run) : States := if 0 < g then w.midStates (g - 1) else w.beforeState

/-- One pass of the loop of `multiplexEvents`. -/
def multiplexPass (w : Run) (g : Nat) : Run :=
  let w := s.readMid g { w with curGroup := g }
  let w := { w with
    totalCount := w.totalCount + s.extractCHATotalCount w.curGroup (baseline g w) (w.midStates g) }
  s.readMid g (s.programGroup (g + 1) w)

/-- `multiplexEvents` (`pcm-memory.cpp:1322-1335`); the loop leaves its variable at the last
group. -/
def multiplexEvents (w : Run) : Run :=
  { (List.range (s.size - 1)).foldl s.multiplexPass w with curGroup := s.size - 1 }

/-- `getTotalCount` (`pcm-memory.cpp:1337-1340`); `MidStates` has one entry less than there are
groups. -/
def getTotalCount (w : Run) (afterState : States) : BitVec 64 :=
  BitVec.ofNat 64 s.size *
    (w.totalCount + s.extractCHATotalCount w.curGroup (w.midStates (s.size - 2)) afterState)

def reset (w : Run) : Run := { w with totalCount := 0 }

/-- One iteration of the main loop (`pcm-memory.cpp:1615-1657`). -/
def iteration (w : Run) : Run :=
  let w := s.readAfter (s.multiplexEvents w)
  let w := { w with values := w.values ++ [s.getTotalCount w w.afterState] }
  let w := s.readAfter (s.programFirstGroup (reset w))
  { w with beforeState := w.afterState, afterState := w.beforeState }

/-- The program up to the main loop, and then a number of iterations. -/
def run : Nat → Run
  | 0 => s.readBefore (s.programFirstGroup {})
  | k + 1 => s.iteration (run k)

end Setup

/-! ## What should be counted -/

/-- The number of a unit is its place among the units of all dies; behind the last one there are only zeros. -/
theorem getUncoreCounter_flatten {befores afters : List (List Counters)}
    (same : befores.map List.length = afters.map List.length) {counter : Nat} (low : counter < maxCounters)
    (unit : Nat) :
    getUncoreCounter unit counter befores afters =
      afters.flatten.getD unit (fun _ => 0) counter - befores.flatten.getD unit (fun _ => 0) counter := by
  induction afters generalizing befores unit with
  | nil => cases befores with
    | nil => simp [getUncoreCounter]
    | cons b rest => simp at same
  | cons after afters ih =>
      cases befores with
      | nil => simp at same
      | cons before befores =>
          rw [List.map_cons, List.map_cons, List.cons.injEq] at same
          obtain ⟨die, rest⟩ := same
          rw [getUncoreCounter, if_pos low, List.flatten_cons, List.flatten_cons]
          by_cases here : unit < after.length
          · rw [if_pos here, List.getD_append _ _ _ _ here, List.getD_append _ _ _ _ (by omega)]
          · rw [if_neg here, ih rest, List.getD_append_right _ _ _ _ (by omega),
              List.getD_append_right _ _ _ _ (by omega), die]

theorem sum_range_getD (values : List (BitVec 64)) (bound : Nat) :
    ((List.range bound).map fun i => values.getD i 0).sum = (values.take bound).sum := by
  induction bound with
  | zero => rfl
  | succ bound ih =>
      rw [List.range_succ, List.map_append, List.sum_append, ih, List.take_add_one, List.sum_append,
        List.map_singleton, List.sum_singleton, List.getD_eq_getElem?_getD]
      cases values[bound]? with
      | some v => simp
      | none => simp

namespace Setup

variable (s : Setup)

/-- The actions up to the start of interval `i`. -/
def history (i : Nat) : List Action :=
  ((List.range i).flatMap fun j =>
    [.programCboRaw (s.groupEvents (j % s.size)), .read (2 * j), .read (2 * j + 1)]) ++
    [.programCboRaw (s.groupEvents (i % s.size)), .read (2 * i)]

/-- The counts of the first groups of iteration `k`. -/
def counted (k g : Nat) : BitVec 64 :=
  ((List.range g).map fun j => s.extractCHATotalCount j (s.reading (2 * (s.size * k + j)))
    (s.reading (2 * (s.size * k + j) + 1))).sum

/-- Group `g` of iteration `k` has been programmed and read once. -/
structure Counting (k g : Nat) (values : List (BitVec 64)) (w : Run) : Prop where
  reads : w.reads = 2 * (s.size * k + g) + 1
  log : w.log = s.history (s.size * k + g)
  base : baseline g w = s.reading (2 * (s.size * k + g))
  total : w.totalCount = s.counted k g
  values : w.values = values

variable {s}

end Setup

/-! ## Units that socket 0 does not have -/

namespace Collector

variable (c : Collector) (socket unit : Nat)

/-- The counters of a unit where one unit has counted one event, after the first reading. -/
def mark (k i u : Nat) : Counters := fun ctr => if 0 = ctr ∧ socket = i ∧ unit = u ∧ 0 < k then 1 else 0

/-- What is read then. -/
def eventStates (k : Nat) : States := fun i =>
  (c.layout.dies i).splitLengths ((List.range (c.layout.dies i).sum).map (mark socket unit k i))

def oneEvent : Setup where
  toCollector := c
  reading := c.eventStates socket unit
  shaped k i _ := List.map_splitLengths_length _ _ (by simp)

variable {c socket unit}

end Collector

/-- One unit, a group of one event and a group of two, and counters that show the squares of the
reading numbers: interval `i` gains `4 * i + 1` on each counter. -/
def squares : Setup where
  layout := { numSockets := 1, dies := fun _ => [1] }
  eventGroups := [[0x135], [0x235, 0x335]]
  many := by decide
  sized := by decide
  filled := by decide
  reading k := fun _ => [[fun _ => BitVec.ofNat 64 (k * k)]]
  shaped := fun _ _ _ => rfl

example : (squares.run 2).values = [2 * (1 + 2 * 5), 2 * (9 + 2 * 13)] := by decide

end Pcm.Cha

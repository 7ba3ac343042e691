import Pcm.ChaCollector
import Mathlib.Data.List.GetD

/-!
# The numbers of uncore units

The units of a PMU type lie on the dies of a socket, and a die may have none of them. `getUncoreCounter` numbers
them through the dies (`cpucounters.h:3402-3421`), up to the count that `getMaxNumOfUncorePMUs` gives
(`cpucounters.h:881-897`).
-/

namespace Pcm.Numbering

open Cha (Counters maxCounters)

/-- What a die has of each PMU type: `std::unordered_map<int, std::vector<...>>`. -/
abbrev PmuMap (α : Type) := List (Int × List α)

/-- The types of a die with the numbers of their units. -/
def PmuMap.sizes {α : Type} (d : PmuMap α) : List (Int × Nat) := d.map fun e => (e.1, e.2.length)

/-- An `UncorePMURef`: the number of its counters, if it is not null. -/
abbrev UncorePMURef := Option Nat

/-- `PCM::uncorePMUs`, by socket and die. -/
abbrev UncorePMUs := List (List (PmuMap UncorePMURef))

def UncorePMUs.dies (uncorePMUs : UncorePMUs) (socket : Nat) : List (PmuMap UncorePMURef) :=
  uncorePMUs.getD socket []

/-- What a die adds to the count. -/
def countDie (pmu_id : Int) (count : Nat) (d : PmuMap UncorePMURef) : Nat :=
  match d.lookup pmu_id with
  | some units => count + units.length
  | none => count

/-- `getMaxNumOfUncorePMUs`; its callers that read counters leave the socket at its default. -/
def UncorePMUs.getMaxNumOfUncorePMUs (uncorePMUs : UncorePMUs) (pmu_id : Int) (socket : Nat) : Nat :=
  (uncorePMUs.dies socket).foldl (countDie pmu_id) 0

/-- `ServerUncoreCounterState::Counters` with the layout of a socket's PMUs. -/
structure SocketState (pmus : List (PmuMap UncorePMURef)) where
  Counters : List (PmuMap Counters)
  layout : Counters.map PmuMap.sizes = pmus.map PmuMap.sizes

section Reading

variable (counterValue : Nat → Int → Nat → Nat → BitVec 64)

/-- The units of a type on a die, read one after the other; the counters that a unit does not have stay zero. -/
def readUnits (die : Nat) (pmu_id : Int) (units : List UncorePMURef) : List Counters :=
  units.mapIdx fun unit pmu i => if i < pmu.getD 0 then counterValue die pmu_id unit i else 0

def readDie (die : Nat) (d : PmuMap UncorePMURef) : PmuMap Counters :=
  d.map fun e => (e.1, readUnits counterValue die e.1 e.2)

theorem sizes_readDie (die : Nat) (d : PmuMap UncorePMURef) : (readDie counterValue die d).sizes = d.sizes := by
  simp [readDie, PmuMap.sizes, readUnits]

theorem sizes_readDies (pmus : List (PmuMap UncorePMURef)) :
    (pmus.mapIdx (readDie counterValue)).map PmuMap.sizes = pmus.map PmuMap.sizes := by
  apply List.ext_getElem
  · simp
  · intro die _ _
    simp [sizes_readDie]

/-- `readUncoreCounterValues` (`cpucounters.h:769-794`), where the counters have these values. -/
def readUncoreCounterValues (pmus : List (PmuMap UncorePMURef)) : SocketState pmus where
  Counters := pmus.mapIdx (readDie counterValue)
  layout := sizes_readDies counterValue pmus

end Reading

/-- `getUncoreCounter` -/
def getUncoreCounter (pmu_id : Int) (counter : Nat) : Nat → List (PmuMap Counters) → List (PmuMap Counters) → BitVec 64
  | unit, before :: befores, after :: afters =>
      if counter < maxCounters then
        match after.lookup pmu_id, before.lookup pmu_id with
        | some afterUnits, some beforeUnits =>
            if unit < afterUnits.length then
              afterUnits.getD unit (fun _ => 0) counter - beforeUnits.getD unit (fun _ => 0) counter
            else getUncoreCounter pmu_id counter (unit - afterUnits.length) befores afters
        | _, _ => getUncoreCounter pmu_id counter unit befores afters
      else 0
  | _, _, _ => 0

/-- The units of a type on a die. -/
def PmuMap.units {α : Type} (pmu_id : Int) (d : PmuMap α) : List α := (d.lookup pmu_id).getD []

/-- The units of a type on all dies, one die after the other. -/
def units {α : Type} (pmu_id : Int) (dies : List (PmuMap α)) : List α := dies.flatMap (PmuMap.units pmu_id)

/-! ## Layouts -/

variable {α β : Type} {pmu_id : Int}

theorem lookup_sizes (pmu_id : Int) (d : PmuMap α) :
    d.sizes.lookup pmu_id = (d.lookup pmu_id).map List.length := by
  induction d with
  | nil => rfl
  | cons e rest ih =>
      obtain ⟨type, list⟩ := e
      simp only [PmuMap.sizes, List.map_cons, List.lookup_cons] at ih ⊢
      cases pmu_id == type with
      | true => rfl
      | false => exact ih

/-- Dies with one layout have a type together, and the same number of its units. -/
theorem lookup_of_sizes {d : PmuMap α} {e : PmuMap β} (same : d.sizes = e.sizes) (pmu_id : Int) :
    (d.lookup pmu_id).map List.length = (e.lookup pmu_id).map List.length := by
  rw [← lookup_sizes, ← lookup_sizes, same]

theorem length_units_of_sizes {d : PmuMap α} {e : PmuMap β} (same : d.sizes = e.sizes) (pmu_id : Int) :
    (d.units pmu_id).length = (e.units pmu_id).length := by
  have lengths := lookup_of_sizes same pmu_id
  unfold PmuMap.units
  cases first : d.lookup pmu_id with
  | some l =>
      cases second : e.lookup pmu_id with
      | some k => simpa [first, second] using lengths
      | none => simp [first, second] at lengths
  | none =>
      cases second : e.lookup pmu_id with
      | some k => simp [first, second] at lengths
      | none => rfl

theorem map_length_units {dies : List (PmuMap α)} {others : List (PmuMap β)}
    (same : dies.map PmuMap.sizes = others.map PmuMap.sizes) (pmu_id : Int) :
    (dies.map (PmuMap.units pmu_id)).map List.length = (others.map (PmuMap.units pmu_id)).map List.length := by
  induction dies generalizing others with
  | nil => cases others with
    | nil => rfl
    | cons d rest => simp at same
  | cons d rest ih =>
      cases others with
      | nil => simp at same
      | cons e tail =>
          simp only [List.map_cons, List.cons.injEq] at same ⊢
          exact ⟨length_units_of_sizes same.1 pmu_id, ih same.2⟩

theorem countDie_eq (pmu_id : Int) (count : Nat) (d : PmuMap UncorePMURef) :
    countDie pmu_id count d = count + (d.units pmu_id).length := by
  unfold countDie PmuMap.units
  cases d.lookup pmu_id with
  | some l => rfl
  | none => rfl

theorem foldl_countDie (pmu_id : Int) (dies : List (PmuMap UncorePMURef)) (start : Nat) :
    dies.foldl (countDie pmu_id) start = start + (units pmu_id dies).length := by
  induction dies generalizing start with
  | nil => rfl
  | cons d rest ih =>
      rw [List.foldl_cons, ih, countDie_eq, units, units, List.flatMap_cons, List.length_append, Nat.add_assoc]

/-- The count adds up the lists that the dies have. -/
theorem getMaxNumOfUncorePMUs_eq (uncorePMUs : UncorePMUs) (pmu_id : Int) (socket : Nat) :
    uncorePMUs.getMaxNumOfUncorePMUs pmu_id socket = (units pmu_id (uncorePMUs.dies socket)).length := by
  rw [UncorePMUs.getMaxNumOfUncorePMUs, foldl_countDie, Nat.zero_add]

/-! ## Numbers of units -/

/-- Where both states have one layout, the dies without the type count as dies with no units. -/
theorem getUncoreCounter_eq_cha {befores afters : List (PmuMap Counters)}
    (same : befores.map PmuMap.sizes = afters.map PmuMap.sizes) (pmu_id : Int) (counter unit : Nat) :
    getUncoreCounter pmu_id counter unit befores afters =
      Cha.getUncoreCounter unit counter (befores.map (PmuMap.units pmu_id)) (afters.map (PmuMap.units pmu_id)) := by
  induction afters generalizing befores unit with
  | nil => cases befores <;> rfl
  | cons after afters ih =>
      cases befores with
      | nil => rfl
      | cons before befores =>
          rw [List.map_cons, List.map_cons, List.cons.injEq] at same
          obtain ⟨die, rest⟩ := same
          have lengths := lookup_of_sizes die pmu_id
          rw [List.map_cons, List.map_cons, Cha.getUncoreCounter, getUncoreCounter, PmuMap.units, PmuMap.units]
          by_cases low : counter < maxCounters
          · rw [if_pos low, if_pos low]
            cases has : after.lookup pmu_id with
            | some afterUnits =>
                cases had : before.lookup pmu_id with
                | some beforeUnits =>
                    simp only [Option.getD_some]
                    by_cases here : unit < afterUnits.length
                    · rw [if_pos here, if_pos here]
                    · rw [if_neg here, if_neg here, ih rest]
                | none => simp [has, had] at lengths
            | none =>
                cases had : before.lookup pmu_id with
                | some beforeUnits => simp [has, had] at lengths
                | none => simpa using ih rest unit
          · rw [if_neg low, if_neg low]

theorem cha_getUncoreCounter_high {counter : Nat} (high : ¬ counter < maxCounters) (unit : Nat)
    (befores afters : List (List Counters)) : Cha.getUncoreCounter unit counter befores afters = 0 := by
  cases afters with
  | nil => cases befores <;> rfl
  | cons after afters =>
      cases befores with
      | nil => rfl
      | cons before befores => rw [Cha.getUncoreCounter, if_neg high]

/-- What each unit of a socket counted. -/
def counted (counter : Nat) (befores afters : List Counters) : List (BitVec 64) :=
  List.zipWith (fun before after => after counter - before counter) befores afters

theorem counted_getD {befores afters : List Counters} (same : befores.length = afters.length) (counter unit : Nat) :
    (counted counter befores afters).getD unit 0 =
      afters.getD unit (fun _ => 0) counter - befores.getD unit (fun _ => 0) counter := by
  by_cases inside : unit < afters.length
  · have both : unit < (counted counter befores afters).length := by simp [counted, same, inside]
    rw [List.getD_eq_getElem _ _ both, List.getD_eq_getElem _ _ inside, List.getD_eq_getElem _ _ (by omega)]
    exact List.getElem_zipWith
  · have behind : (counted counter befores afters).length ≤ unit := by
      simp only [counted, List.length_zipWith, same]
      omega
    rw [List.getD_eq_default _ _ behind, List.getD_eq_default _ _ (by omega),
      List.getD_eq_default _ _ (by omega)]
    rfl

/-! ## The numbers of a socket's units -/

section Socket

variable {pmus : List (PmuMap UncorePMURef)} (before after : SocketState pmus) (pmu_id : Int)

def SocketState.units (state : SocketState pmus) : List Cha.Counters := Numbering.units pmu_id state.Counters

theorem length_units (state : SocketState pmus) : (state.units pmu_id).length = (Numbering.units pmu_id pmus).length := by
  have lengths := map_length_units state.layout pmu_id
  rw [SocketState.units, Numbering.units, Numbering.units, List.length_flatMap, List.length_flatMap]
  rw [List.map_map, List.map_map] at lengths
  exact congrArg List.sum lengths

variable {pmu_id}

theorem getUncoreCounter_eq {counter : Nat} (low : counter < maxCounters) (unit : Nat) :
    getUncoreCounter pmu_id counter unit before.Counters after.Counters =
      (counted counter (before.units pmu_id) (after.units pmu_id)).getD unit 0 := by
  have same : before.Counters.map PmuMap.sizes = after.Counters.map PmuMap.sizes :=
    before.layout.trans after.layout.symm
  have lengths : (before.units pmu_id).length = (after.units pmu_id).length := by
    rw [length_units, length_units]
  rw [getUncoreCounter_eq_cha same, Cha.getUncoreCounter_flatten (map_length_units same pmu_id) low,
    counted_getD lengths]
  rfl

theorem getUncoreCounter_high {counter : Nat} (high : ¬ counter < maxCounters) (unit : Nat) :
    getUncoreCounter pmu_id counter unit before.Counters after.Counters = 0 := by
  have same : before.Counters.map PmuMap.sizes = after.Counters.map PmuMap.sizes :=
    before.layout.trans after.layout.symm
  rw [getUncoreCounter_eq_cha same, cha_getUncoreCounter_high high]

end Socket

/-! ## What the states are read from -/

theorem units_readDie (counterValue : Nat → Int → Nat → Nat → BitVec 64) (die : Nat) (d : PmuMap UncorePMURef)
    (pmu_id : Int) :
    (readDie counterValue die d).units pmu_id = readUnits counterValue die pmu_id (d.units pmu_id) := by
  unfold PmuMap.units
  induction d with
  | nil => rfl
  | cons e rest ih =>
      obtain ⟨type, list⟩ := e
      rw [readDie, List.map_cons, List.lookup_cons, List.lookup_cons]
      cases same : pmu_id == type with
      | true =>
          rw [eq_of_beq same]
          rfl
      | false => exact ih

/-- A state that is read has the units of the dies in their order, each with the values of its own counters. -/
theorem units_readUncoreCounterValues (counterValue : Nat → Int → Nat → Nat → BitVec 64)
    (pmus : List (PmuMap UncorePMURef)) (pmu_id : Int) :
    (readUncoreCounterValues counterValue pmus).units pmu_id =
      (pmus.mapIdx fun die d => readUnits counterValue die pmu_id (d.units pmu_id)).flatten := by
  rw [SocketState.units, Numbering.units, List.flatMap_def]
  apply congrArg List.flatten
  apply List.ext_getElem
  · simp [readUncoreCounterValues]
  · intro die _ _
    simp [readUncoreCounterValues, units_readDie]

/-- What the numbers of a type's units are for: the states of a socket, read with a loop up to the count that the
callers have, that of socket 0. The numbers below it are those of the socket's units, in the order of the dies, each
other number reads as zero, and the loop adds every unit once. -/
structure Numbers (uncorePMUs : UncorePMUs) (socket : Nat) (pmu_id : Int)
    (before after : SocketState (uncorePMUs.dies socket)) : Prop where
  unit : ∀ u c, u < uncorePMUs.getMaxNumOfUncorePMUs pmu_id 0 → c < maxCounters →
    ∃ a b, (after.units pmu_id)[u]? = some a ∧ (before.units pmu_id)[u]? = some b ∧
      getUncoreCounter pmu_id c u before.Counters after.Counters = a c - b c
  zero : ∀ u c, uncorePMUs.getMaxNumOfUncorePMUs pmu_id 0 ≤ u ∨ maxCounters ≤ c →
    getUncoreCounter pmu_id c u before.Counters after.Counters = 0
  once : ∀ c, c < maxCounters →
    ((List.range (uncorePMUs.getMaxNumOfUncorePMUs pmu_id 0)).map fun u =>
        getUncoreCounter pmu_id c u before.Counters after.Counters).sum =
      (counted c (before.units pmu_id) (after.units pmu_id)).sum

section Numbers

variable {uncorePMUs : UncorePMUs} {socket : Nat} {pmu_id : Int} {before after : SocketState (uncorePMUs.dies socket)}

theorem Numbers.of_count
    (same : uncorePMUs.getMaxNumOfUncorePMUs pmu_id 0 = uncorePMUs.getMaxNumOfUncorePMUs pmu_id socket) :
    Numbers uncorePMUs socket pmu_id before after := by
  rw [getMaxNumOfUncorePMUs_eq uncorePMUs pmu_id socket] at same
  have afters := length_units pmu_id after
  have befores := length_units pmu_id before
  have all : ∀ c, (counted c (before.units pmu_id) (after.units pmu_id)).length =
      (units pmu_id (uncorePMUs.dies socket)).length := by
    intro c
    rw [counted, List.length_zipWith, afters, befores, Nat.min_self]
  constructor
  case unit =>
    intro u c inside low
    rw [same, ← afters] at inside
    have counterpart : u < (before.units pmu_id).length := by omega
    refine ⟨(after.units pmu_id)[u], (before.units pmu_id)[u], List.getElem?_eq_getElem inside,
      List.getElem?_eq_getElem counterpart, ?_⟩
    rw [getUncoreCounter_eq before after low, counted_getD (befores.trans afters.symm),
      List.getD_eq_getElem _ _ inside, List.getD_eq_getElem _ _ counterpart]
  case zero =>
    intro u c outside
    by_cases low : c < maxCounters
    · have behind : (counted c (before.units pmu_id) (after.units pmu_id)).length ≤ u := by
        rw [all]
        omega
      rw [getUncoreCounter_eq before after low, List.getD_eq_default _ _ behind]
    · exact getUncoreCounter_high before after low u
  case once =>
    intro c low
    have terms : ((List.range (uncorePMUs.getMaxNumOfUncorePMUs pmu_id 0)).map fun u =>
          getUncoreCounter pmu_id c u before.Counters after.Counters) =
        (List.range (uncorePMUs.getMaxNumOfUncorePMUs pmu_id 0)).map fun u =>
          (counted c (before.units pmu_id) (after.units pmu_id)).getD u 0 :=
      List.map_congr_left fun u _ => getUncoreCounter_eq before after low u
    rw [terms, Cha.sum_range_getD, List.take_of_length_le (by rw [all, same])]

/-- The units below the callers' count are there, so the socket has at least as many. -/
theorem Numbers.count_le (numbers : Numbers uncorePMUs socket pmu_id before after) :
    uncorePMUs.getMaxNumOfUncorePMUs pmu_id 0 ≤ uncorePMUs.getMaxNumOfUncorePMUs pmu_id socket := by
  rw [getMaxNumOfUncorePMUs_eq uncorePMUs pmu_id socket, ← length_units pmu_id after]
  by_contra more
  obtain ⟨a, -, has, -⟩ := numbers.unit (after.units pmu_id).length 0 (by omega) (by decide)
  rw [List.getElem?_eq_none (Nat.le_refl _)] at has
  cases has

end Numbers

/-- A state in which every counter of every unit has this value. -/
def SocketState.constant (pmus : List (PmuMap UncorePMURef)) (value : BitVec 64) : SocketState pmus where
  Counters := pmus.map fun d => d.map fun e => (e.1, e.2.map fun _ _ => value)
  layout := by simp [PmuMap.sizes, Function.comp_def]

theorem units_constant (pmus : List (PmuMap UncorePMURef)) (value : BitVec 64) (pmu_id : Int) :
    (SocketState.constant pmus value).units pmu_id = (units pmu_id pmus).map fun _ _ => value := by
  rw [SocketState.units, SocketState.constant, units, units, List.flatMap_map, List.map_flatMap]
  refine congrArg (List.flatMap · pmus) (funext fun d => ?_)
  unfold PmuMap.units
  induction d with
  | nil => rfl
  | cons e rest ih =>
      rw [List.map_cons, List.lookup_cons, List.lookup_cons]
      cases pmu_id == e.1 with
      | true => rfl
      | false => exact ih

/-- A counter that gained in every unit shows those that the callers' count leaves out. -/
theorem count_ge {uncorePMUs : UncorePMUs} {socket : Nat} {pmu_id : Int}
    (numbers : Numbers uncorePMUs socket pmu_id (.constant _ 0) (.constant _ 1)) :
    uncorePMUs.getMaxNumOfUncorePMUs pmu_id socket ≤ uncorePMUs.getMaxNumOfUncorePMUs pmu_id 0 := by
  by_contra fewer
  have here := numbers.zero (uncorePMUs.getMaxNumOfUncorePMUs pmu_id 0) 0 (.inl (Nat.le_refl _))
  rw [getMaxNumOfUncorePMUs_eq uncorePMUs pmu_id socket] at fewer
  rw [getUncoreCounter_eq _ _ (by decide), counted_getD (by rw [length_units, length_units]), units_constant,
    units_constant, List.getD_eq_getElem _ _ (by simpa using Nat.lt_of_not_le fewer),
    List.getD_eq_getElem _ _ (by simpa using Nat.lt_of_not_le fewer), List.getElem_map, List.getElem_map] at here
  exact absurd here (by decide)

/-- The callers bound the numbers by the count of socket 0, the default argument: they number the units of a socket,
whatever the counters show, if and only if it has as many units of the type as socket 0. In the states that are
read, the unit of a number has the values of its own counters. -/
theorem getUncoreCounter_units_iff (uncorePMUs : UncorePMUs) (socket : Nat) (pmu_id : Int) :
    ((∀ before after : SocketState (uncorePMUs.dies socket), Numbers uncorePMUs socket pmu_id before after) ↔
      uncorePMUs.getMaxNumOfUncorePMUs pmu_id 0 = uncorePMUs.getMaxNumOfUncorePMUs pmu_id socket) ∧
    ∀ counterValue, (readUncoreCounterValues counterValue (uncorePMUs.dies socket)).units pmu_id =
      ((uncorePMUs.dies socket).mapIdx fun die d => readUnits counterValue die pmu_id (d.units pmu_id)).flatten := by
  refine ⟨⟨fun numbers => ?_, fun same before after => Numbers.of_count same⟩,
    fun counterValue => units_readUncoreCounterValues counterValue _ pmu_id⟩
  have most := (numbers (.constant _ 0) (.constant _ 1)).count_le
  have least := count_ge (numbers (.constant _ 0) (.constant _ 1))
  exact Nat.le_antisymm most least

/-- Two sockets with one and two units of a type, each with four counters: the second unit of socket 1 counts. -/
theorem getUncoreCounter_units_secondSocket :
    ¬ Numbers [[[(3, [some 4])]], [[(3, [some 4, some 4])]]] 1 3
      (readUncoreCounterValues (fun _ _ _ _ => 5) _) (readUncoreCounterValues (fun _ _ unit _ => 7 + unit) _) := by
  intro numbers
  have second := numbers.zero 1 0 (.inl (by decide))
  revert second
  decide

end Pcm.Numbering

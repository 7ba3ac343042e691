import Mathlib.Data.List.Forall2
import Mathlib.Logic.Function.Basic
import Mathlib.Order.Monotone.Basic
import Pcm.Lib.StdString
import Pcm.Lib.Transition

/-!
# The shared state of the daemon

The daemon updates a record in shared memory (`daemon/daemon.cpp:406-446`), and any number of clients
poll it (`client/client.cpp:47-95`). Nothing is locked: a client goes by `lastUpdateTscEnd`, which an
update stores last, and then has a reference to the record, which the next update overwrites. Stores and
loads are taken one at a time, in the order of the program.
-/

namespace Pcm.Daemon.Shared

open StdString Transition

/-! ## The record -/

def VERSION : String := "2.0.0"

/-- A string with the null character behind it, and further null characters. -/
def cString (s : String) (i : Nat) : UInt8 := (ascii s).getD i 0

/-- `SharedPCMState` (`daemon/common.h:228-248`), without the poll interval. The fields of `pcm` are
indexed by `κ`. -/
structure SharedPCMState (κ ν : Type*) where
  version : Nat → UInt8 := fun _ => 0
  lastUpdateTscBegin : Nat := 0
  timestamp : Nat := 0
  cyclesToGetPCMState : Nat := 0
  pcm : κ → ν
  lastUpdateTscEnd : Nat := 0

/-- A field of the record with a value: what a store writes, or what a load reads. -/
inductive Store (κ ν : Type*)
  | version (i : Nat) (c : UInt8)
  | lastUpdateTscBegin (tsc : Nat)
  | timestamp (time : Nat)
  | cyclesToGetPCMState (cycles : Nat)
  | pcm (field : κ) (value : ν)
  | lastUpdateTscEnd (tsc : Nat)
  deriving DecidableEq

inductive Field (κ : Type*)
  | version (i : Nat)
  | lastUpdateTscBegin
  | timestamp
  | cyclesToGetPCMState
  | pcm (field : κ)
  | lastUpdateTscEnd

variable {κ ν ι : Type*}

/-- The load of a field. -/
def SharedPCMState.load (m : SharedPCMState κ ν) : Field κ → Store κ ν
  | .version i => .version i (m.version i)
  | .lastUpdateTscBegin => .lastUpdateTscBegin m.lastUpdateTscBegin
  | .timestamp => .timestamp m.timestamp
  | .cyclesToGetPCMState => .cyclesToGetPCMState m.cyclesToGetPCMState
  | .pcm field => .pcm field (m.pcm field)
  | .lastUpdateTscEnd => .lastUpdateTscEnd m.lastUpdateTscEnd

def Store.field : Store κ ν → Field κ
  | .version i _ => .version i
  | .lastUpdateTscBegin _ => .lastUpdateTscBegin
  | .timestamp _ => .timestamp
  | .cyclesToGetPCMState _ => .cyclesToGetPCMState
  | .pcm field _ => .pcm field
  | .lastUpdateTscEnd _ => .lastUpdateTscEnd

/-- The record has this value in the field. -/
def SharedPCMState.Shows (m : SharedPCMState κ ν) (w : Store κ ν) : Prop := m.load w.field = w

variable [DecidableEq κ]

def Store.perform (m : SharedPCMState κ ν) : Store κ ν → SharedPCMState κ ν
  | .version i c => { m with version := Function.update m.version i c }
  | .lastUpdateTscBegin tsc => { m with lastUpdateTscBegin := tsc }
  | .timestamp time => { m with timestamp := time }
  | .cyclesToGetPCMState cycles => { m with cyclesToGetPCMState := cycles }
  | .pcm field value => { m with pcm := Function.update m.pcm field value }
  | .lastUpdateTscEnd tsc => { m with lastUpdateTscEnd := tsc }

def performAll (m : SharedPCMState κ ν) (stores : List (Store κ ν)) : SharedPCMState κ ν :=
  stores.foldl Store.perform m

/-! ## The daemon -/

/-- What an update reads: the clocks, and what it stores into the fields of `pcm`, in its order. -/
structure Update (κ ν : Type*) where
  tscBegin : Nat
  tscEnd : Nat
  timestamp : Nat
  pcm : List (κ × ν)

/-- The copy of `VERSION` with its null character, and the null character behind it. -/
def versionStores : List (Store κ ν) :=
  (List.range ((ascii VERSION).length + 2)).map fun i => .version i (cString VERSION i)

/-- The stores before the last one. -/
def Update.body (u : Update κ ν) : List (Store κ ν) :=
  versionStores ++ .lastUpdateTscBegin u.tscBegin :: (u.pcm.map (fun w => .pcm w.1 w.2) ++
    [.cyclesToGetPCMState (u.tscEnd - u.tscBegin), .timestamp u.timestamp])

/-- `getPCMCounters` -/
def getPCMCounters (u : Update κ ν) : List (Store κ ν) := u.body ++ [.lastUpdateTscEnd u.tscEnd]

/-! ## The clients -/

/-- Where a client is: `read` looks for a version, compares it character by character, looks whether the
counters have been updated, and takes the update. -/
inductive Phase
  | unconnected
  | outside
  | strlen (i : Nat)
  | compare (i : Nat)
  | countersHaveUpdated
  | take
  | threw
  deriving DecidableEq, Repr

/-- Inside a call of `read`. -/
def Phase.inside : Phase → Bool
  | .strlen _ | .compare _ | .countersHaveUpdated | .take => true
  | .unconnected | .outside | .threw => false

/-- A client, with the `lastUpdateTscEnd` for which its calls of `read` have returned, and what it has
loaded through the references, the newest first. -/
structure Client (κ ν : Type*) where
  phase : Phase := .unconnected
  lastUpdatedClientTsc : Nat := 0
  returned : List Nat := []
  loaded : List (Store κ ν) := []

/-- `connect` -/
def Client.connect (c : Client κ ν) (m : SharedPCMState κ ν) : Client κ ν :=
  { c with phase := .outside, lastUpdatedClientTsc := m.lastUpdateTscEnd }

/-- The next load of `read`, for a client that is inside. -/
def Client.read (own : String) (m : SharedPCMState κ ν) (c : Client κ ν) : Client κ ν :=
  match c.phase with
  | .strlen i =>
      if m.version i ≠ 0 then { c with phase := .strlen (i + 1) }
      else if i = 0 then { c with phase := .countersHaveUpdated }
      else { c with phase := .compare 0 }
  | .compare i =>
      if m.version i ≠ cString own i then { c with phase := .threw }
      else if m.version i = 0 then { c with phase := .countersHaveUpdated }
      else { c with phase := .compare (i + 1) }
  | .countersHaveUpdated =>
      if c.lastUpdatedClientTsc ≠ m.lastUpdateTscEnd then { c with phase := .take }
      else { c with phase := .strlen 0 }
  | .take =>
      { c with
        phase := .outside
        lastUpdatedClientTsc := m.lastUpdateTscEnd
        returned := m.lastUpdateTscEnd :: c.returned }
  | .unconnected | .outside | .threw => c

/-! ## The system -/

structure State (ι κ ν : Type*) where
  /-- The updates that are complete. -/
  completed : Nat
  /-- What is left of the update that is under way. -/
  todo : List (Store κ ν)
  memory : SharedPCMState κ ν
  clients : ι → Client κ ν

/-- Before the first update. -/
def start (updates : Nat → Update κ ν) (pcm : κ → ν) : State ι κ ν where
  completed := 0
  todo := getPCMCounters (updates 0)
  memory := { pcm := pcm }
  clients := fun _ => {}

/-- The next store of the daemon. -/
def store (updates : Nat → Update κ ν) (s : State ι κ ν) : State ι κ ν :=
  match s.todo with
  | [] => s
  | [w] => { s with
      completed := s.completed + 1
      todo := getPCMCounters (updates (s.completed + 1))
      memory := w.perform s.memory }
  | w :: rest => { s with todo := rest, memory := w.perform s.memory }

def setClient [DecidableEq ι] (s : State ι κ ν) (i : ι) (c : Client κ ν) : State ι κ ν :=
  { s with clients := Function.update s.clients i c }

/-- What the user of a client or the client itself does. `own` is the version it was built for. -/
inductive ClientStep (own : String) (m : SharedPCMState κ ν) (c : Client κ ν) : Client κ ν → Prop
  | connect (outside : c.phase.inside = false) : ClientStep own m c (c.connect m)
  | call (outside : c.phase.inside = false) (connected : c.phase ≠ .unconnected) :
      ClientStep own m c { c with phase := .strlen 0 }
  | read : ClientStep own m c (c.read own m)
  -- a call has returned the reference
  | load (outside : c.phase.inside = false) (given : c.returned ≠ []) (field : Field κ) :
      ClientStep own m c { c with loaded := m.load field :: c.loaded }

inductive Step [DecidableEq ι] (updates : Nat → Update κ ν) (own : ι → String) (s : State ι κ ν) :
    State ι κ ν → Prop
  | daemon : Step updates own s (store updates s)
  | client (i : ι) {c : Client κ ν} (step : ClientStep (own i) s.memory (s.clients i) c) :
      Step updates own s (setClient s i c)

/-! ## Time -/

/-- The time stamp counter goes up from one reading to the next. -/
structure TscIncreases (updates : Nat → Update κ ν) : Prop where
  positive : 0 < (updates 0).tscBegin
  during : ∀ n, (updates n).tscBegin < (updates n).tscEnd
  between : ∀ n, (updates n).tscEnd < (updates (n + 1)).tscBegin

/-- `lastUpdateTscEnd` after so many updates. -/
def tscAfter (updates : Nat → Update κ ν) : Nat → Nat
  | 0 => 0
  | n + 1 => (updates n).tscEnd

/-- The record after so many updates. -/
def after (updates : Nat → Update κ ν) (pcm : κ → ν) : Nat → SharedPCMState κ ν
  | 0 => { pcm := pcm }
  | n + 1 => performAll (after updates pcm n) (getPCMCounters (updates n))

/-- The record after so many updates and a part of the next one. -/
def Underway (updates : Nat → Update κ ν) (pcm : κ → ν) (n : Nat) (m : SharedPCMState κ ν) : Prop :=
  ∃ done rest, getPCMCounters (updates n) = done ++ rest ∧ rest ≠ [] ∧
    m = performAll (after updates pcm n) done

section Updates

variable {updates : Nat → Update κ ν} {pcm : κ → ν} {own : ι → String} {s t : State ι κ ν}
  {m : SharedPCMState κ ν} {c d : Client κ ν} {n : Nat}

omit [DecidableEq κ] in
theorem tscAfter_lt_begin (tsc : TscIncreases updates) (n : Nat) :
    tscAfter updates n < (updates n).tscBegin := by
  cases n with
  | zero => exact tsc.positive
  | succ n => exact tsc.between n

@[simp] theorem performAll_nil (m : SharedPCMState κ ν) : performAll m [] = m := rfl

@[simp] theorem performAll_cons (m : SharedPCMState κ ν) (w : Store κ ν) (stores : List (Store κ ν)) :
    performAll m (w :: stores) = performAll (w.perform m) stores := rfl

theorem performAll_append (m : SharedPCMState κ ν) (first second : List (Store κ ν)) :
    performAll m (first ++ second) = performAll (performAll m first) second :=
  List.foldl_append

/-- What no store of a list changes. -/
theorem performAll_kept {α : Type*} (field : SharedPCMState κ ν → α) {stores : List (Store κ ν)}
    (kept : ∀ w ∈ stores, ∀ m, field (w.perform m) = field m) (m : SharedPCMState κ ν) :
    field (performAll m stores) = field m := by
  induction stores generalizing m with
  | nil => rfl
  | cons w stores ih =>
      rw [List.forall_mem_cons] at kept
      rw [performAll_cons, ih kept.2, kept.1]

/-! ### What an update stores -/

theorem body_keeps_tscEnd (u : Update κ ν) : ∀ w ∈ u.body, ∀ m : SharedPCMState κ ν,
    (w.perform m).lastUpdateTscEnd = m.lastUpdateTscEnd := by
  intro w member m
  simp only [Update.body, versionStores, List.mem_append, List.mem_map, List.mem_cons, List.mem_nil_iff,
    or_false] at member
  rcases member with ⟨_, _, rfl⟩ | rfl | ⟨_, _, rfl⟩ | rfl | rfl <;> rfl

theorem after_lastUpdateTscEnd (updates : Nat → Update κ ν) (pcm : κ → ν) (n : Nat) :
    (after updates pcm n).lastUpdateTscEnd = tscAfter updates n := by
  cases n with
  | zero => rfl
  | succ n =>
      rw [after, getPCMCounters, performAll_append]
      rfl

omit [DecidableEq κ] in
/-- What has been stored while the last store is still to come. -/
theorem prefix_of_whole {u : Update κ ν} {done rest : List (Store κ ν)}
    (whole : getPCMCounters u = done ++ rest) (more : rest ≠ []) : done <+: u.body := by
  have shorter := congrArg List.dropLast whole
  rw [getPCMCounters, List.dropLast_concat, List.dropLast_append_of_ne_nil more] at shorter
  exact ⟨rest.dropLast, shorter.symm⟩

theorem Underway.lastUpdateTscEnd_eq (underway : Underway updates pcm n m) :
    m.lastUpdateTscEnd = tscAfter updates n := by
  obtain ⟨done, rest, whole, more, rfl⟩ := underway
  have kept : ∀ w ∈ done, ∀ m : SharedPCMState κ ν,
      (w.perform m).lastUpdateTscEnd = m.lastUpdateTscEnd := fun w member =>
    body_keeps_tscEnd (updates n) w ((prefix_of_whole whole more).subset member)
  rw [performAll_kept _ kept, after_lastUpdateTscEnd]

/-! ### The version -/

theorem performAll_version (m : SharedPCMState κ ν) (indices : List Nat) (i : Nat) :
    (performAll m (indices.map fun i => .version i (cString VERSION i))).version i =
      if i ∈ indices then cString VERSION i else m.version i := by
  induction indices generalizing m with
  | nil => rfl
  | cons j indices ih =>
      rw [List.map_cons, performAll_cons, ih]
      by_cases later : i ∈ indices
      · rw [if_pos later, if_pos (List.mem_cons_of_mem j later)]
      · rw [if_neg later]
        by_cases here : i = j
        · subst here
          rw [if_pos List.mem_cons_self]
          exact Function.update_self ..
        · rw [if_neg (by simpa using ⟨here, later⟩)]
          exact Function.update_of_ne here ..

theorem performAll_version_same (same : m.version = cString VERSION) (indices : List Nat) :
    performAll m (indices.map fun i => .version i (cString VERSION i)) = m := by
  induction indices with
  | nil => rfl
  | cons i indices ih =>
      have first : Store.perform m (.version i (cString VERSION i)) = m := by
        rw [Store.perform, ← same, Function.update_eq_self]
      rw [List.map_cons, performAll_cons, first]
      exact ih

/-- The stores behind those of the version. -/
def Update.tail (u : Update κ ν) : List (Store κ ν) :=
  u.pcm.map (fun w => .pcm w.1 w.2) ++
    [.cyclesToGetPCMState (u.tscEnd - u.tscBegin), .timestamp u.timestamp]

theorem tail_keeps (u : Update κ ν) : ∀ w ∈ u.tail, ∀ m : SharedPCMState κ ν,
    (w.perform m).version = m.version ∧ (w.perform m).lastUpdateTscBegin = m.lastUpdateTscBegin := by
  intro w member m
  simp only [Update.tail, List.mem_append, List.mem_map, List.mem_cons, List.mem_nil_iff,
    or_false] at member
  rcases member with ⟨_, _, rfl⟩ | rfl | rfl <;> exact ⟨rfl, rfl⟩

/-- The record when the version and the begin of an update have been stored, and more of the rest. -/
theorem performAll_begun (u : Update κ ν) {more : List (Store κ ν)} (part : more <+: u.tail)
    (m : SharedPCMState κ ν) :
    (performAll m (versionStores ++ .lastUpdateTscBegin u.tscBegin :: more)).version =
        (performAll m versionStores).version ∧
      (performAll m (versionStores ++ .lastUpdateTscBegin u.tscBegin :: more)).lastUpdateTscBegin =
        u.tscBegin := by
  have kept := fun w member => tail_keeps u w (part.subset member)
  rw [performAll_append, performAll_cons]
  constructor
  · rw [performAll_kept SharedPCMState.version fun w member m => (kept w member m).1]
    rfl
  · rw [performAll_kept SharedPCMState.lastUpdateTscBegin fun w member m => (kept w member m).2]
    rfl

theorem after_succ_begun (updates : Nat → Update κ ν) (pcm : κ → ν) (n : Nat) :
    (after updates pcm (n + 1)).version = (performAll (after updates pcm n) versionStores).version ∧
      (after updates pcm (n + 1)).lastUpdateTscBegin = (updates n).tscBegin := by
  have begun := performAll_begun (updates n) List.prefix_rfl (after updates pcm n)
  rw [after, getPCMCounters, performAll_append]
  exact begun

theorem after_version (updates : Nat → Update κ ν) (pcm : κ → ν) (n : Nat) :
    (performAll (after updates pcm n) versionStores).version = cString VERSION := by
  have beyond : ∀ i, i ∉ List.range ((ascii VERSION).length + 2) → cString VERSION i = 0 := by
    intro i outside
    rw [List.mem_range] at outside
    rw [cString, List.getD_eq_getElem?_getD, List.getElem?_eq_none (by omega)]
    rfl
  induction n with
  | zero =>
      funext i
      rw [versionStores, performAll_version]
      split
      · rfl
      · rename_i outside
        rw [beyond i outside]
        rfl
  | succ n ih =>
      funext i
      rw [versionStores, performAll_version, (after_succ_begun updates pcm n).1, ih, ite_self]

/-- An update that is under way has only rewritten the version so far, or it has stored its begin. -/
theorem Underway.begun_or (underway : Underway updates pcm n m) :
    (∃ indices : List Nat, m = performAll (after updates pcm n)
        (indices.map fun i => .version i (cString VERSION i))) ∨
      m.lastUpdateTscBegin = (updates n).tscBegin ∧ m.version = cString VERSION := by
  obtain ⟨done, rest, whole, more, rfl⟩ := underway
  have part : done <+: versionStores ++ .lastUpdateTscBegin (updates n).tscBegin :: (updates n).tail :=
    prefix_of_whole whole more
  rcases List.prefix_or_prefix_of_prefix part (List.prefix_append versionStores _) with early | ⟨x, rfl⟩
  · left
    rw [List.prefix_iff_eq_take.mp early, versionStores, ← List.map_take]
    exact ⟨_, rfl⟩
  · rw [List.prefix_append_right_inj, List.prefix_cons_iff] at part
    rcases part with rfl | ⟨x, rfl, part⟩
    · left
      rw [List.append_nil, versionStores]
      exact ⟨_, rfl⟩
    · right
      have begun := performAll_begun (updates n) part (after updates pcm n)
      exact ⟨begun.2, begun.1.trans (after_version updates pcm n)⟩

theorem after_version_of_pos (updates : Nat → Update κ ν) (pcm : κ → ν) (positive : 0 < n) :
    (after updates pcm n).version = cString VERSION := by
  obtain ⟨k, rfl⟩ := Nat.exists_eq_succ_of_ne_zero positive.ne'
  rw [(after_succ_begun updates pcm k).1, after_version]

/-- The version is there from the first update on. -/
theorem Underway.version_eq (underway : Underway updates pcm n m) (positive : 0 < n) :
    m.version = cString VERSION := by
  have earlier := after_version_of_pos updates pcm positive
  rcases underway.begun_or with ⟨indices, rfl⟩ | ⟨-, same⟩
  · rw [performAll_version_same earlier, earlier]
  · exact same

omit [DecidableEq κ] in
theorem cString_beyond {s : String} {i : Nat} (beyond : (ascii s).length ≤ i) : cString s i = 0 := by
  rw [cString, List.getD_eq_getElem?_getD, List.getElem?_eq_none beyond]
  rfl

/-- Behind the version there are null characters, also while it is written. -/
theorem Underway.version_beyond (underway : Underway updates pcm n m) {i : Nat}
    (beyond : (ascii VERSION).length ≤ i) : m.version i = 0 := by
  have earlier : (after updates pcm n).version i = 0 := by
    cases n with
    | zero => rfl
    | succ n => rw [after_version_of_pos updates pcm n.succ_pos, cString_beyond beyond]
  rcases underway.begun_or with ⟨indices, rfl⟩ | ⟨-, same⟩
  · rw [performAll_version, cString_beyond beyond, earlier, ite_self]
  · rw [same, cString_beyond beyond]

/-! ### The next update -/

/-- The update after the first `n` has begun: it has stored its begin, or even more updates are complete. -/
def Begun (updates : Nat → Update κ ν) (n completed : Nat) (m : SharedPCMState κ ν) : Prop :=
  n < completed ∨ n = completed ∧ m.lastUpdateTscBegin = (updates n).tscBegin

/-- Until the next update has begun the record is what the last one left behind. -/
theorem Underway.begun_or_after (underway : Underway updates pcm n m) {k : Nat} (positive : 0 < k)
    (known : k ≤ n) : Begun updates k n m ∨ m = after updates pcm k := by
  rcases Nat.lt_or_eq_of_le known with older | rfl
  · exact .inl (.inl older)
  · rcases underway.begun_or with ⟨indices, rfl⟩ | ⟨begun, -⟩
    · exact .inr (performAll_version_same (after_version_of_pos updates pcm positive) indices)
    · exact .inl (.inr ⟨rfl, begun⟩)

omit [DecidableEq κ] in
theorem tscAfter_mono (tsc : TscIncreases updates) : Monotone (tscAfter updates) := by
  refine monotone_nat_of_le_succ fun n => ?_
  exact ((tscAfter_lt_begin tsc n).trans (tsc.during n)).le

theorem after_lastUpdateTscBegin_lt (tsc : TscIncreases updates) (positive : 0 < n) :
    (after updates pcm n).lastUpdateTscBegin < tscAfter updates n := by
  obtain ⟨k, rfl⟩ := Nat.exists_eq_succ_of_ne_zero positive.ne'
  rw [(after_succ_begun updates pcm k).2]
  exact tsc.during k

/-- Once the next update has begun, its begin or a later one is read. -/
theorem Underway.begin_gt (tsc : TscIncreases updates) (underway : Underway updates pcm n m) {k : Nat}
    (begun : Begun updates k n m) : tscAfter updates k < m.lastUpdateTscBegin := by
  rcases begun with older | ⟨rfl, begin_⟩
  · rcases underway.begun_or_after (Nat.zero_lt_of_lt older) le_rfl with (impossible | ⟨-, begin_⟩) | rfl
    · exact absurd impossible (lt_irrefl n)
    · rw [begin_]
      exact (tscAfter_mono tsc older.le).trans_lt (tscAfter_lt_begin tsc n)
    · obtain ⟨j, rfl⟩ := Nat.exists_eq_succ_of_ne_zero (Nat.ne_zero_of_lt older)
      rw [(after_succ_begun updates pcm j).2]
      exact (tscAfter_mono tsc (Nat.le_of_lt_succ older)).trans_lt (tscAfter_lt_begin tsc j)
  · rw [begin_]
    exact tscAfter_lt_begin tsc k

/-- An update stores no other begin than its own. -/
theorem perform_lastUpdateTscBegin {u : Update κ ν} {w : Store κ ν} (member : w ∈ getPCMCounters u)
    (m : SharedPCMState κ ν) : (w.perform m).lastUpdateTscBegin = u.tscBegin ∨
      (w.perform m).lastUpdateTscBegin = m.lastUpdateTscBegin := by
  simp only [getPCMCounters, Update.body, versionStores, List.mem_append, List.mem_map, List.mem_cons,
    List.mem_nil_iff, or_false] at member
  rcases member with (⟨_, _, rfl⟩ | rfl | ⟨_, _, rfl⟩ | rfl | rfl) | rfl
  · exact .inr rfl
  · exact .inl rfl
  · exact .inr rfl
  · exact .inr rfl
  · exact .inr rfl
  · exact .inr rfl

/-! ### Runs -/

/-- The memory holds what the complete updates and the one under way have stored. -/
structure Consistent (updates : Nat → Update κ ν) (pcm : κ → ν) (s : State ι κ ν) : Prop where
  more : s.todo ≠ []
  stored : ∃ done, getPCMCounters (updates s.completed) = done ++ s.todo ∧
    s.memory = performAll (after updates pcm s.completed) done

theorem Consistent.underway (consistent : Consistent updates pcm s) :
    Underway updates pcm s.completed s.memory := by
  obtain ⟨done, whole, stored⟩ := consistent.stored
  exact ⟨done, s.todo, whole, consistent.more, stored⟩

omit [DecidableEq κ] in
theorem getPCMCounters_ne_nil (u : Update κ ν) : getPCMCounters u ≠ [] :=
  List.append_ne_nil_of_right_ne_nil _ (List.cons_ne_nil _ _)

theorem consistent_start : Consistent updates pcm (start updates pcm : State ι κ ν) where
  more := getPCMCounters_ne_nil _
  stored := ⟨[], rfl, rfl⟩

theorem consistent_store (consistent : Consistent updates pcm s) :
    Consistent updates pcm (store updates s) := by
  obtain ⟨done, whole, stored⟩ := consistent.stored
  cases todo : s.todo with
  | nil => exact absurd todo consistent.more
  | cons w rest =>
      rw [todo] at whole
      cases rest with
      | nil =>
          simp only [store, todo]
          refine ⟨getPCMCounters_ne_nil _, [], rfl, ?_⟩
          rw [after, whole, performAll_append, ← stored]
          rfl
      | cons v rest =>
          simp only [store, todo]
          refine ⟨List.cons_ne_nil _ _, done ++ [w], ?_, ?_⟩
          · rw [whole, List.append_assoc]
            rfl
          · rw [performAll_append, ← stored]
            rfl

theorem completed_le_store (s : State ι κ ν) : s.completed ≤ (store updates s).completed := by
  unfold store
  split
  · exact le_rfl
  · exact Nat.le_succ _
  · exact le_rfl

theorem begun_store (consistent : Consistent updates pcm s) {k : Nat} (begun : Begun updates k s.completed s.memory) :
    Begun updates k (store updates s).completed (store updates s).memory := by
  rcases begun with older | ⟨rfl, begin_⟩
  · exact .inl (older.trans_le (completed_le_store s))
  · obtain ⟨done, whole, -⟩ := consistent.stored
    unfold store
    split
    · exact .inr ⟨rfl, begin_⟩
    · exact .inl (Nat.lt_succ_self _)
    · next w rest _ todo =>
        have member : w ∈ getPCMCounters (updates s.completed) := by
          rw [whole, todo]
          exact List.mem_append_right _ List.mem_cons_self
        rcases perform_lastUpdateTscBegin member s.memory with own | kept
        · exact .inr ⟨rfl, own⟩
        · exact .inr ⟨rfl, kept.trans begin_⟩

/-- The updates for which the calls of `read` have returned are different ones, each newer than those before. -/
structure UpToDate (updates : Nat → Update κ ν) (completed : Nat) (c : Client κ ν) (latest : Nat) : Prop where
  known : latest ≤ completed
  tsc : c.lastUpdatedClientTsc = tscAfter updates latest
  taking : c.phase = .take → latest < completed
  returned : ∃ numbers : List Nat, numbers.Pairwise (· > ·) ∧ (∀ n ∈ numbers, 0 < n ∧ n ≤ latest) ∧
    c.returned = numbers.map (tscAfter updates)

omit [DecidableEq κ] in
theorem UpToDate.mono {completed later latest : Nat} (upToDate : UpToDate updates completed c latest)
    (further : completed ≤ later) : UpToDate updates later c latest where
  known := upToDate.known.trans further
  tsc := upToDate.tsc
  taking := fun phase => (upToDate.taking phase).trans_le further
  returned := upToDate.returned

omit [DecidableEq κ] in
/-- A change of the phase only. -/
theorem UpToDate.move {latest : Nat} {phase : Phase} (upToDate : UpToDate updates n c latest)
    (taking : phase = .take → latest < n) :
    UpToDate updates n { c with phase := phase } latest where
  known := upToDate.known
  tsc := upToDate.tsc
  taking := taking
  returned := upToDate.returned

theorem upToDate_read (own : String) (underway : Underway updates pcm n m) {latest : Nat}
    (upToDate : UpToDate updates n c latest) : ∃ latest, UpToDate updates n (c.read own m) latest := by
  have newest := underway.lastUpdateTscEnd_eq
  cases phase : c.phase with
  | strlen i =>
      simp only [Client.read, phase]
      split
      · exact ⟨latest, upToDate.move nofun⟩
      · split <;> exact ⟨latest, upToDate.move nofun⟩
  | compare i =>
      simp only [Client.read, phase]
      split
      · exact ⟨latest, upToDate.move nofun⟩
      · split <;> exact ⟨latest, upToDate.move nofun⟩
  | countersHaveUpdated =>
      simp only [Client.read, phase]
      split
      · rename_i other
        refine ⟨latest, upToDate.move (fun _ => ?_)⟩
        rw [upToDate.tsc, newest] at other
        exact lt_of_le_of_ne upToDate.known fun same => other (congrArg _ same)
      · exact ⟨latest, upToDate.move nofun⟩
  | take =>
      simp only [Client.read, phase]
      obtain ⟨numbers, decreasing, bounds, all⟩ := upToDate.returned
      have older := upToDate.taking phase
      refine ⟨n, le_rfl, newest, nofun, n :: numbers, ?_, ?_, ?_⟩
      · refine List.pairwise_cons.mpr ⟨?_, decreasing⟩
        intro k member
        exact (bounds k member).2.trans_lt older
      · rw [List.forall_mem_cons]
        refine ⟨⟨Nat.zero_lt_of_lt older, le_rfl⟩, ?_⟩
        intro k member
        exact ⟨(bounds k member).1, (bounds k member).2.trans older.le⟩
      · rw [List.map_cons, ← newest, ← all]
  | unconnected | outside | threw =>
      simp only [Client.read, phase]
      exact ⟨latest, upToDate⟩

theorem upToDate_step {own : String} (underway : Underway updates pcm n m)
    (upToDate : ∃ latest, UpToDate updates n c latest) (step : ClientStep own m c d) :
    ∃ latest, UpToDate updates n d latest := by
  obtain ⟨latest, upToDate⟩ := upToDate
  cases step with
  | connect =>
      obtain ⟨numbers, decreasing, bounds, all⟩ := upToDate.returned
      refine ⟨n, le_rfl, underway.lastUpdateTscEnd_eq, nofun, numbers, decreasing, ?_, all⟩
      intro k member
      exact ⟨(bounds k member).1, (bounds k member).2.trans upToDate.known⟩
  | call => exact ⟨latest, upToDate.move nofun⟩
  | read => exact upToDate_read own underway upToDate
  | load => exact ⟨latest, upToDate.known, upToDate.tsc, upToDate.taking, upToDate.returned⟩

/-! ### What is loaded through a reference -/

/-- The loads after one of `lastUpdateTscEnd`, which was that of the first `n` updates: they show these updates
until the next has begun, and a load of a begin before that end tells that all loads so far have. -/
structure Told (updates : Nat → Update κ ν) (pcm : κ → ν) (completed : Nat) (m : SharedPCMState κ ν) (n : Nat)
    (newer : List (Store κ ν)) : Prop where
  now : (∀ w ∈ newer, (after updates pcm n).Shows w) ∨ Begun updates n completed m
  told : ∀ later b earlier, newer = later ++ .lastUpdateTscBegin b :: earlier → b < tscAfter updates n →
    ∀ w ∈ Store.lastUpdateTscBegin b :: earlier, (after updates pcm n).Shows w

/-- What all loads of a client say. -/
def Seen (updates : Nat → Update κ ν) (pcm : κ → ν) (completed : Nat) (m : SharedPCMState κ ν)
    (loaded : List (Store κ ν)) : Prop :=
  ∀ newer e older, loaded = newer ++ .lastUpdateTscEnd e :: older →
    ∃ n, 0 < n ∧ n ≤ completed ∧ e = tscAfter updates n ∧ Told updates pcm completed m n newer

omit [DecidableEq κ] in
theorem shows_load (m : SharedPCMState κ ν) (field : Field κ) : m.Shows (m.load field) := by
  cases field <;> rfl

/-- One more load. -/
theorem Told.load (tsc : TscIncreases updates) (underway : Underway updates pcm n m) {k : Nat} (positive : 0 < k)
    (known : k ≤ n) {newer : List (Store κ ν)} (told : Told updates pcm n m k newer) (field : Field κ) :
    Told updates pcm n m k (m.load field :: newer) := by
  have shown : ¬ Begun updates k n m → ∀ w ∈ m.load field :: newer, (after updates pcm k).Shows w := by
    intro still
    have same := (underway.begun_or_after positive known).resolve_left still
    rw [List.forall_mem_cons, ← same]
    exact ⟨shows_load m field, same ▸ told.now.resolve_right still⟩
  refine ⟨?_, ?_⟩
  · by_cases begun : Begun updates k n m
    · exact .inr begun
    · exact .inl (shown begun)
  · intro later b earlier split less
    cases later with
    | cons w later => exact told.told later b earlier (List.cons.inj split).2 less
    | nil =>
        obtain ⟨first, rfl⟩ := List.cons.inj split
        have begin_ : m.lastUpdateTscBegin = b := by
          cases field <;> cases first
          rfl
        rw [← first]
        refine shown fun begun => ?_
        exact absurd (underway.begin_gt tsc begun) (by omega)

theorem Seen.load (tsc : TscIncreases updates) (underway : Underway updates pcm n m) (positive : 0 < n)
    {loaded : List (Store κ ν)} (seen : Seen updates pcm n m loaded) (field : Field κ) :
    Seen updates pcm n m (m.load field :: loaded) := by
  intro newer e older split
  cases newer with
  | nil =>
      have first := (List.cons.inj split).1
      have newest : m.lastUpdateTscEnd = e := by
        cases field <;> cases first
        rfl
      exact ⟨n, positive, le_rfl, newest.symm.trans underway.lastUpdateTscEnd_eq, .inl nofun, fun later b earlier none => by
        cases later <;> cases none⟩
  | cons w newer =>
      obtain ⟨rfl, rest⟩ := List.cons.inj split
      obtain ⟨k, some, known, end_, told⟩ := seen newer e older rest
      exact ⟨k, some, known, end_, told.load tsc underway some known field⟩

theorem Seen.store {loaded : List (Store κ ν)} (consistent : Consistent updates pcm s)
    (seen : Seen updates pcm s.completed s.memory loaded) :
    Seen updates pcm (store updates s).completed (store updates s).memory loaded := by
  intro newer e older split
  obtain ⟨k, some, known, end_, told⟩ := seen newer e older split
  exact ⟨k, some, known.trans (completed_le_store s), end_, told.now.imp_right (begun_store consistent), told.told⟩

theorem seen_step {own : String} (tsc : TscIncreases updates) (underway : Underway updates pcm n m) {latest : Nat}
    (upToDate : UpToDate updates n c latest) (seen : Seen updates pcm n m c.loaded) (step : ClientStep own m c d) :
    Seen updates pcm n m d.loaded := by
  cases step with
  | connect | call => exact seen
  | read =>
      have same : (c.read own m).loaded = c.loaded := by
        unfold Client.read
        repeat' split
        all_goals rfl
      rw [same]
      exact seen
  | load _ given field =>
      obtain ⟨numbers, -, bounds, all⟩ := upToDate.returned
      rw [all, Ne, List.map_eq_nil_iff] at given
      obtain ⟨k, member⟩ := List.exists_mem_of_ne_nil _ given
      have positive := (bounds k member).1.trans_le ((bounds k member).2.trans upToDate.known)
      exact seen.load tsc underway positive field

/-- What holds in every state of a run. -/
structure Sound (updates : Nat → Update κ ν) (pcm : κ → ν) (s : State ι κ ν) : Prop where
  consistent : Consistent updates pcm s
  upToDate : ∀ i, ∃ latest, UpToDate updates s.completed (s.clients i) latest
  seen : ∀ i, Seen updates pcm s.completed s.memory (s.clients i).loaded

theorem sound_start : Sound updates pcm (start updates pcm : State ι κ ν) where
  consistent := consistent_start
  upToDate := fun _ => ⟨0, le_rfl, rfl, nofun, [], .nil, nofun, rfl⟩
  seen := fun _ newer e older none => by cases newer <;> cases none

theorem store_clients (s : State ι κ ν) : (store updates s).clients = s.clients := by
  unfold store
  split <;> rfl

variable [DecidableEq ι]

theorem sound_step (tsc : TscIncreases updates) (sound : Sound updates pcm s) (step : Step updates own s t) :
    Sound updates pcm t := by
  cases step with
  | daemon =>
      refine ⟨consistent_store sound.consistent, ?_, ?_⟩
      · intro i
        obtain ⟨latest, upToDate⟩ := sound.upToDate i
        rw [store_clients]
        exact ⟨latest, upToDate.mono (completed_le_store s)⟩
      · intro i
        rw [store_clients]
        exact (sound.seen i).store sound.consistent
  | client i step =>
      have underway := sound.consistent.underway
      refine ⟨⟨sound.consistent.more, sound.consistent.stored⟩, ?_, ?_⟩
      · intro j
        by_cases same : j = i
        · subst same
          simp only [setClient, Function.update_self]
          exact upToDate_step underway (sound.upToDate j) step
        · simp only [setClient, Function.update_of_ne same]
          exact sound.upToDate j
      · intro j
        by_cases same : j = i
        · subst same
          obtain ⟨latest, upToDate⟩ := sound.upToDate j
          simp only [setClient, Function.update_self]
          exact seen_step tsc underway upToDate (sound.seen j) step
        · simp only [setClient, Function.update_of_ne same]
          exact sound.seen j

theorem sound_of_reachable (tsc : TscIncreases updates)
    (reached : Reachable (Step updates own) (start updates pcm) s) : Sound updates pcm s :=
  reached.invariant sound_start (sound_step tsc)

/-! ### A call of `read` -/

/-- How many loads a call of `read` has in front of it at most, if it does not go round. -/
def loads (own : String) : Phase → Nat
  | .strlen i => (ascii VERSION).length - i + (ascii own).length + 4
  | .compare i => (ascii own).length - i + 3
  | .countersHaveUpdated => 2
  | .take => 1
  | .unconnected | .outside | .threw => 0

omit [DecidableEq ι] in
theorem loads_read (own : String) (underway : Underway updates pcm n m) (inside : c.phase.inside = true)
    (news : c.lastUpdatedClientTsc ≠ m.lastUpdateTscEnd) :
    loads own (c.read own m).phase < loads own c.phase := by
  cases phase : c.phase with
  | strlen i =>
      simp only [Client.read, phase]
      split
      · rename_i character
        have within : i < (ascii VERSION).length := by
          by_contra beyond
          exact character (underway.version_beyond (Nat.le_of_not_lt beyond))
        simp only [loads]
        omega
      · split <;> simp only [loads] <;> omega
  | compare i =>
      simp only [Client.read, phase]
      split
      · simp only [loads]
        omega
      · rename_i same
        rw [not_not] at same
        split
        · simp only [loads]
          omega
        · rename_i character
          -- a character other than the null character is one of the version's
          have within : i < (ascii own).length := by
            by_contra beyond
            exact character (same.trans (cString_beyond (Nat.le_of_not_lt beyond)))
          simp only [loads]
          omega
  | countersHaveUpdated =>
      simp only [Client.read, phase, if_pos news]
      exact Nat.one_lt_two
  | take =>
      simp only [Client.read, phase]
      exact Nat.zero_lt_one
  | unconnected | outside | threw => rw [phase] at inside; cases inside

omit [DecidableEq κ] [DecidableEq ι] in
/-- Only the last load of a call changes what the client goes by. -/
theorem read_lastUpdatedClientTsc {own : String} (inside : (c.read own m).phase.inside = true) :
    (c.read own m).lastUpdatedClientTsc = c.lastUpdatedClientTsc := by
  cases phase : c.phase with
  | take =>
      simp only [Client.read, phase] at inside
      cases inside
  | strlen i | compare i | countersHaveUpdated =>
      simp only [Client.read, phase]
      repeat' split
      all_goals rfl
  | unconnected | outside | threw => simp only [Client.read, phase]

/-- A run in which a client makes this many loads in one call of `read`, while the others do anything. -/
inductive Loads (updates : Nat → Update κ ν) (own : ι → String) (i : ι) (s : State ι κ ν) :
    Nat → State ι κ ν → Prop
  | none : Loads updates own i s 0 s
  | other {k : Nat} {t u : State ι κ ν} (before : Loads updates own i s k t) (step : Step updates own t u)
      (same : u.clients i = t.clients i) : Loads updates own i s k u
  | load {k : Nat} {t : State ι κ ν} (before : Loads updates own i s k t)
      (inside : (t.clients i).phase.inside = true) :
      Loads updates own i s (k + 1) (setClient t i ((t.clients i).read (own i) t.memory))

theorem Loads.reachable {i : ι} (run : Loads updates own i s n t) : Reachable (Step updates own) s t := by
  induction run with
  | none => exact .refl
  | other _ step _ ih => exact ih.next step
  | load _ _ ih => exact ih.next (.client i .read)

theorem completed_le_step (step : Step updates own s t) : s.completed ≤ t.completed := by
  cases step with
  | daemon => exact completed_le_store s
  | client => exact le_rfl

/-- Each load of a client that has not got the newest update brings its call nearer to its end. -/
theorem Loads.bounded (tsc : TscIncreases updates) {i : ι} (sound : Sound updates pcm s)
    (news : (s.clients i).lastUpdatedClientTsc ≠ tscAfter updates s.completed)
    (run : Loads updates own i s n t) :
    n + loads (own i) (t.clients i).phase ≤ loads (own i) (s.clients i).phase ∧
      ((t.clients i).phase.inside = true →
        (t.clients i).lastUpdatedClientTsc ≠ tscAfter updates t.completed) := by
  induction run with
  | none => exact ⟨(Nat.zero_add _).le, fun _ => news⟩
  | @other n t u before step same ih =>
      rw [same]
      refine ⟨ih.1, fun inside newest => ih.2 inside ?_⟩
      have soundT : Sound updates pcm t := before.reachable.invariant sound (sound_step tsc)
      obtain ⟨latest, upToDate⟩ := soundT.upToDate i
      rw [upToDate.tsc] at newest ⊢
      exact le_antisymm (tscAfter_mono tsc upToDate.known)
        ((tscAfter_mono tsc (completed_le_step step)).trans newest.ge)
  | @load n t before inside ih =>
      have soundT : Sound updates pcm t := before.reachable.invariant sound (sound_step tsc)
      have underway := soundT.consistent.underway
      have newer := ih.2 inside
      have nearer := loads_read (own i) underway inside (by rwa [underway.lastUpdateTscEnd_eq])
      simp only [setClient, Function.update_self]
      refine ⟨by omega, fun still => ?_⟩
      rw [read_lastUpdatedClientTsc still]
      exact newer

omit [DecidableEq κ] in
/-- A client of the same version throws only where the version is not the whole one. -/
theorem version_of_threw (calm : c.phase ≠ .threw) (threw : (c.read VERSION m).phase = .threw) :
    m.version ≠ cString VERSION := by
  intro same
  cases phase : c.phase with
  | compare i =>
      simp only [Client.read, phase, same] at threw
      rw [if_neg (not_not.mpr rfl)] at threw
      split at threw <;> cases threw
  | strlen i =>
      simp only [Client.read, phase] at threw
      split at threw
      · cases threw
      · split at threw <;> cases threw
  | countersHaveUpdated =>
      simp only [Client.read, phase] at threw
      split at threw <;> cases threw
  | take =>
      simp only [Client.read, phase] at threw
      cases threw
  | unconnected =>
      simp only [Client.read, phase] at threw
      cases threw
  | outside =>
      simp only [Client.read, phase] at threw
      cases threw
  | threw => exact calm phase

/-- In every run of the daemon and its clients: the calls of `read` of a client return for different updates,
each newer than those before and complete. What a client then loads from a load of `lastUpdateTscEnd` to one of
`lastUpdateTscBegin` is what one update left behind, the one with that end, if and only if the begin is before the
end. A client that has not got the newest update ends its call after so many loads at most, whatever the others do
meanwhile, and a client of the version of the daemon is not taken for one of another version once the first update
is complete. -/
theorem read_sound (tsc : TscIncreases updates)
    (reached : Reachable (Step updates own) (start updates pcm) s) (i : ι) :
    (∃ numbers : List Nat, numbers.Pairwise (· > ·) ∧ (∀ n ∈ numbers, 0 < n ∧ n ≤ s.completed) ∧
      (s.clients i).returned = numbers.map (tscAfter updates)) ∧
    (∀ newer b between e older, (s.clients i).loaded =
        newer ++ .lastUpdateTscBegin b :: (between ++ .lastUpdateTscEnd e :: older) →
      (b < e ↔ ∃ n, 0 < n ∧ n ≤ s.completed ∧ e = tscAfter updates n ∧
        ∀ w ∈ Store.lastUpdateTscBegin b :: between, (after updates pcm n).Shows w)) ∧
    ((s.clients i).lastUpdatedClientTsc ≠ tscAfter updates s.completed →
      ∀ n t, Loads updates own i s n t → n ≤ loads (own i) (s.clients i).phase) ∧
    (own i = VERSION → (s.clients i).phase ≠ .threw →
      ((s.clients i).read (own i) s.memory).phase = .threw →
      s.completed = 0 ∧ s.memory.version ≠ cString VERSION) := by
  have sound := sound_of_reachable tsc reached
  have underway := sound.consistent.underway
  refine ⟨?_, ?_, ?_, ?_⟩
  · obtain ⟨latest, upToDate⟩ := sound.upToDate i
    obtain ⟨numbers, decreasing, bounds, all⟩ := upToDate.returned
    refine ⟨numbers, decreasing, ?_, all⟩
    intro n member
    exact ⟨(bounds n member).1, (bounds n member).2.trans upToDate.known⟩
  · intro newer b between e older split
    obtain ⟨k, positive, known, rfl, told⟩ := sound.seen i (newer ++ .lastUpdateTscBegin b :: between) e older
      (by rw [split, List.append_assoc, List.cons_append])
    constructor
    · intro less
      exact ⟨k, positive, known, rfl, told.told newer b between rfl less⟩
    · rintro ⟨n, some, -, same, shown⟩
      have begin_ : (after updates pcm n).lastUpdateTscBegin = b :=
        Store.lastUpdateTscBegin.inj (shown _ List.mem_cons_self)
      rw [same, ← begin_]
      exact after_lastUpdateTscBegin_lt tsc some
  · intro news n t run
    exact (Nat.le_add_right _ _).trans (run.bounded tsc sound news).1
  · intro same calm threw
    rw [same] at threw
    have partly := version_of_threw calm threw
    refine ⟨?_, partly⟩
    by_contra some
    exact partly (underway.version_eq (Nat.pos_of_ne_zero some))

end Updates

/-- Updates of one field. -/
def countingUpdates (n : Nat) : Update Unit Nat := ⟨3 * n + 1, 3 * n + 2, n, [((), n + 7)]⟩

def onClient (change : SharedPCMState Unit Nat → Client Unit Nat → Client Unit Nat) (s : State Unit Unit Nat) :
    State Unit Unit Nat := setClient s () (change s.memory (s.clients ()))

/-- A client connects and calls `read` before the first update. -/
def called : State Unit Unit Nat :=
  onClient (fun _ c => { c with phase := .strlen 0 }) (onClient (fun m c => c.connect m) (start countingUpdates 0))

/-- The daemon makes its first update, and the call goes on to its end. -/
def polled : State Unit Unit Nat := (onClient fun m c => c.read VERSION m)^[14] ((store countingUpdates)^[12] called)

def loadField (field : Field Unit) : State Unit Unit Nat → State Unit Unit Nat :=
  onClient fun m c => { c with loaded := m.load field :: c.loaded }

/-- The client loads the record while the daemon begins the next update, and once more the begin. -/
def torn : State Unit Unit Nat :=
  let whole := loadField .lastUpdateTscBegin (loadField (.pcm ()) (loadField .lastUpdateTscEnd polled))
  loadField .lastUpdateTscBegin ((store countingUpdates)^[8] whole)

theorem read_sound_polled :
    (torn.clients ()).returned = [2] ∧
    (torn.clients ()).loaded = [.lastUpdateTscBegin 4, .lastUpdateTscBegin 1, .pcm () 7, .lastUpdateTscEnd 2] ∧
    ∃ n, 0 < n ∧ n ≤ 1 ∧ 2 = tscAfter countingUpdates n ∧
      ∀ w ∈ [Store.lastUpdateTscBegin 1, .pcm () 7], (after countingUpdates 0 n).Shows w := by
  have tsc : TscIncreases countingUpdates :=
    ⟨by decide, fun n => Nat.lt_succ_self _, fun n => by simp only [countingUpdates]; omega⟩
  have reached : Reachable (Step countingUpdates fun _ => VERSION) (start countingUpdates 0) torn := by
    have first : Reachable (Step countingUpdates fun _ => VERSION) (start countingUpdates 0) called :=
      (Reachable.next .refl (.client () (.connect rfl))).next (.client () (.call rfl (by decide)))
    have second : Reachable (Step countingUpdates fun _ => VERSION) (start countingUpdates 0) polled :=
      (first.iterate (fun s => Step.daemon) 12).iterate (fun s => Step.client () .read) 14
    have whole := ((second.next (.client () (.load rfl (by decide) .lastUpdateTscEnd))).next
      (.client () (.load rfl (by decide) (.pcm ())))).next (.client () (.load rfl (by decide) .lastUpdateTscBegin))
    exact (whole.iterate (fun s => Step.daemon) 8).next (.client () (.load rfl (by decide) .lastUpdateTscBegin))
  have loaded : (torn.clients ()).loaded =
      [.lastUpdateTscBegin 4, .lastUpdateTscBegin 1, .pcm () 7, .lastUpdateTscEnd 2] := by decide
  exact ⟨by decide, loaded,
    ((read_sound tsc reached ()).2.1 [.lastUpdateTscBegin 4] 1 [.pcm () 7] 2 [] loaded).mp (by decide)⟩

end Pcm.Daemon.Shared

import Mathlib.Data.String.Basic
import Pcm.EventSyntax
import Pcm.Lib.Grouping
import Pcm.Lib.OrderedMap
import Pcm.RawProgram

/-!
# Event groups of `pcm-raw`

`addEvent` and `addEvents` (`pcm-raw.cpp:128-150`, `1037-1248`). An event list file is read line by line
into a current group, which is finished by a `;`, before an event that is one too many for its PMU, and
at the end of the file.
-/

namespace Pcm

/-! ## Configurations -/

namespace RawPMUConfigs

def empty : RawPMUConfigs := ⟨[], List.Pairwise.nil⟩

/-- `configs[pmuName]`, made if it is missing, and changed. -/
def modify (configs : RawPMUConfigs) (pmuName : String) (f : RawPMUConfig → RawPMUConfig) :
    RawPMUConfigs :=
  ⟨OrderedMap.upsert pmuName {} f configs.entries, OrderedMap.Sorted.upsert configs.sorted⟩

/-- `configs[pmuName]` -/
def get (configs : RawPMUConfigs) (pmuName : String) : RawPMUConfig :=
  (configs.entries.lookup pmuName).getD {}

end RawPMUConfigs

namespace Raw

open StdString Grouping

/-! ## Adding events -/

inductive AddEventStatus
  | OK
  | Failed
  | FailedTooManyEvents
  deriving DecidableEq, Repr

/-- What `pcm-raw` finds when it starts. `addEventFromDB` is for events that are given by their names;
a build without `simdjson` rejects them. -/
structure Setup where
  getMaxCustomCoreEvents : Int
  records : List PMTRecord
  addEventFromDB : RawPMUConfigs → Bytes → AddEventStatus × RawPMUConfigs

/-- The limit that `tooManyEvents` compares with. -/
def Setup.maxCounters (setup : Setup) (pmuName : String) : Int :=
  if pmuName = "core" || pmuName = "atom" then setup.getMaxCustomCoreEvents else 8

def tooManyEvents (setup : Setup) (pmuName : String) (event_pos : Nat) : Bool :=
  if isRegisterEvent pmuName then false else decide (setup.maxCounters pmuName ≤ event_pos)

/-- `push_back` to the programmable or the fixed events. -/
def push (event : Event) (config : RawPMUConfig) : RawPMUConfig :=
  if event.fixed then { config with fixed := config.fixed ++ [event.config] }
  else { config with programmable := config.programmable ++ [event.config] }

def addEvent (setup : Setup) (curPMUConfigs : RawPMUConfigs) (eventStr : Bytes) :
    AddEventStatus × RawPMUConfigs :=
  if eventStr = [] then (.OK, curPMUConfigs)
  else if 47 ∉ eventStr then setup.addEventFromDB curPMUConfigs eventStr
  else
    match parseEvent setup.records eventStr with
    | none => (.Failed, curPMUConfigs)
    | some event =>
        if event.fixed then (.OK, curPMUConfigs.modify event.pmuName (push event))
        else
          -- the number of events is read through `curPMUConfigs[pmuName]`, which makes the entry
          let touched := curPMUConfigs.modify event.pmuName id
          if tooManyEvents setup event.pmuName (touched.get event.pmuName).programmable.length then
            (.FailedTooManyEvents, touched)
          else (.OK, touched.modify event.pmuName (push event))

/-- `PMUConfigs` and `curConfig` -/
structure Reading where
  PMUConfigs : List RawPMUConfigs
  curConfig : RawPMUConfigs

def doFinishGroup (r : Reading) : Reading :=
  if r.curConfig.entries = [] then r else ⟨r.PMUConfigs ++ [r.curConfig], RawPMUConfigs.empty⟩

/-- The text of a line without a `,` or `;` at its end, and whether that was a `;`. -/
def stripLine (line : Bytes) : Bytes × Bool :=
  if line.getLast? = some 44 then (line.dropLast, false)
  else if line.getLast? = some 59 then (line.dropLast, true)
  else (line, false)

/-- The event of a line, in a new group if there is no room for it, and whether the loop goes on. -/
def addOrSplit (setup : Setup) (r : Reading) (line : Bytes) : Bool × Reading :=
  match addEvent setup r.curConfig line with
  | (.Failed, cur) => (false, { r with curConfig := cur })
  | (.FailedTooManyEvents, cur) =>
      let r := doFinishGroup { r with curConfig := cur }
      match addEvent setup r.curConfig line with
      | (.OK, cur) => (true, { r with curConfig := cur })
      | (_, cur) => (false, { r with curConfig := cur })
  | (.OK, cur) => (true, { r with curConfig := cur })

/-- One turn of the loop of `addEvents`, and whether it goes on. -/
def addLine (setup : Setup) (r : Reading) (line : Bytes) : Bool × Reading :=
  if line = [] || line.head? = some 35 then (true, r)
  else
    let (line, finishGroup) := stripLine line
    match addOrSplit setup r line with
    | (true, r) => (true, if finishGroup then doFinishGroup r else r)
    | (false, r) => (false, r)

def addLines (setup : Setup) (r : Reading) : List Bytes → Bool × Reading
  | [] => (true, r)
  | line :: lines =>
      match addLine setup r line with
      | (true, r) => addLines setup r lines
      | (false, r) => (false, r)

/-- `addEvents`, for a file that can be opened or not. -/
def addEvents (setup : Setup) (PMUConfigs : List RawPMUConfigs) (file : Option Bytes) :
    Bool × List RawPMUConfigs :=
  match file with
  | none => (false, PMUConfigs)
  | some content =>
      match addLines setup ⟨PMUConfigs, RawPMUConfigs.empty⟩ (getlines 10 [] content) with
      | (true, r) => (true, (doFinishGroup r).PMUConfigs)
      | (false, r) => (false, r.PMUConfigs)

/-! ## What a group holds -/

/-- The configuration of a list of events. -/
def collect (group : List Event) : RawPMUConfigs :=
  group.foldl (fun configs event => configs.modify event.pmuName (push event)) RawPMUConfigs.empty

/-- The programmable or fixed events of a PMU. -/
def ofKind (pmuName : String) (fixed : Bool) (events : List Event) : List RawEventConfig :=
  (events.filter (fun event => event.pmuName = pmuName && event.fixed = fixed)).map Event.config

theorem collect_concat (group : List Event) (event : Event) :
    collect (group ++ [event]) = (collect group).modify event.pmuName (push event) := by
  rw [collect, List.foldl_append]
  rfl

theorem entries_collect {group : List Event} : (collect group).entries = [] ↔ group = [] := by
  rcases List.eq_nil_or_concat group with rfl | ⟨init, last, rfl⟩
  · exact iff_of_true rfl rfl
  · rw [List.concat_eq_append, collect_concat]
    exact iff_of_false OrderedMap.upsert_ne_nil (by simp)

theorem get_modify_self (configs : RawPMUConfigs) (pmuName : String) (f : RawPMUConfig → RawPMUConfig) :
    (configs.modify pmuName f).get pmuName = f (configs.get pmuName) := by
  rw [RawPMUConfigs.get, RawPMUConfigs.modify, OrderedMap.lookup_upsert_self configs.sorted]
  rfl

theorem get_modify_ne (configs : RawPMUConfigs) {pmuName other : String} (different : other ≠ pmuName)
    (f : RawPMUConfig → RawPMUConfig) : (configs.modify pmuName f).get other = configs.get other := by
  rw [RawPMUConfigs.get, RawPMUConfigs.modify, OrderedMap.lookup_upsert_ne different]
  rfl

theorem modify_modify (configs : RawPMUConfigs) (pmuName : String) (f g : RawPMUConfig → RawPMUConfig) :
    (configs.modify pmuName f).modify pmuName g = configs.modify pmuName (g ∘ f) := by
  simp only [RawPMUConfigs.modify, OrderedMap.upsert_upsert]

theorem ofKind_concat (pmuName : String) (fixed : Bool) (group : List Event) (event : Event) :
    ofKind pmuName fixed (group ++ [event]) = ofKind pmuName fixed group ++
      (if event.pmuName = pmuName ∧ event.fixed = fixed then [event.config] else []) := by
  rw [ofKind, List.filter_append, List.map_append, ofKind, List.filter_cons]
  congr 1
  by_cases same : event.pmuName = pmuName ∧ event.fixed = fixed
  · simp [same]
  · rw [if_neg same, if_neg (by simpa using same)]
    rfl

/-- The events that a group holds for a PMU, in their order. -/
theorem get_collect (group : List Event) (pmuName : String) :
    (collect group).get pmuName = ⟨ofKind pmuName false group, ofKind pmuName true group⟩ := by
  induction group using List.reverseRecOn with
  | nil => rfl
  | append_singleton group event ih =>
      rw [collect_concat, ofKind_concat, ofKind_concat]
      by_cases same : event.pmuName = pmuName
      · subst same
        rw [get_modify_self, ih, push]
        cases event.fixed <;> simp
      · rw [get_modify_ne _ (Ne.symm same), ih]
        simp [same]

/-- A configuration holds these events: those of each PMU and kind, in their order. -/
def Holds (configs : RawPMUConfigs) (group : List Event) : Prop :=
  ∀ pmuName, configs.get pmuName = ⟨ofKind pmuName false group, ofKind pmuName true group⟩

/-! ## Event list files -/

/-- What may stand behind an event. -/
inductive Ending
  | none
  | comma
  | semicolon
  deriving DecidableEq, Repr

def Ending.text : Ending → Bytes
  | none => []
  | comma => [44]
  | semicolon => [59]

/-- A `;` ends the group. -/
def Ending.marks : Ending → List (Option Event)
  | none => []
  | comma => []
  | semicolon => [Option.none]

/-- A line of an event list file: a comment, an event, or no more than an ending (so also an empty line). -/
inductive ListLine
  | comment (rest : Bytes)
  | separator (ending : Ending)
  | event (eventStr : Bytes) (ending : Ending)
  deriving DecidableEq

namespace ListLine

def text : ListLine → Bytes
  | comment rest => 35 :: rest
  | separator ending => ending.text
  | event eventStr ending => eventStr ++ ending.text

/-- The text of an event is told apart from a comment, from the name of an event and from its ending. -/
def WellFormed : ListLine → Prop
  | comment rest => 10 ∉ rest
  | separator _ => True
  | event eventStr ending => 10 ∉ eventStr ∧ 47 ∈ eventStr ∧ eventStr.head? ≠ some 35 ∧
      (ending = .none → eventStr.getLast? ≠ some 44 ∧ eventStr.getLast? ≠ some 59)

instance decidableWellFormed : DecidablePred WellFormed
  | comment _ => inferInstanceAs (Decidable (_ ∉ _))
  | separator _ => inferInstanceAs (Decidable True)
  | event _ _ => inferInstanceAs (Decidable (_ ∧ _))

/-- What a line gives: its event, and a mark where it ends the group. -/
inductive Gives (records : List PMTRecord) : ListLine → List (Option Event) → Prop
  | comment (rest : Bytes) : Gives records (comment rest) []
  | separator (ending : Ending) : Gives records (separator ending) ending.marks
  | event {eventStr : Bytes} {e : Event} (ending : Ending) (parsed : parseEvent records eventStr = some e) :
      Gives records (event eventStr ending) (some e :: ending.marks)

end ListLine

/-- The text of a file; a line feed at its end stands before an empty line. -/
def fileText (lines : List ListLine) : Bytes := [10].intercalate (lines.map ListLine.text)

/-! ## Lines and groups -/

section Runs

variable (setup : Setup)

/-- Whether an event can be added to a group. -/
def fits (group : List Event) (event : Event) : Bool :=
  event.fixed || !tooManyEvents setup event.pmuName (ofKind event.pmuName false group).length

variable {setup} {group begun : List Event} {event : Event} {eventStr : Bytes}

theorem fits_iff : fits setup group event = true ↔ (event.fixed = true ∨
    tooManyEvents setup event.pmuName (ofKind event.pmuName false group).length = false) := by
  rw [fits, Bool.or_eq_true, Bool.not_eq_true']

/-- An event that is one too many, but not alone, has others of its PMU before it. -/
theorem modify_id_of_full (full : fits setup group event = false) (alone : fits setup [] event = true) :
    (collect group).modify event.pmuName id = collect group := by
  have present : ((collect group).entries.lookup event.pmuName).isSome := by
    by_contra absent
    rw [Option.not_isSome_iff_eq_none] at absent
    have nothing : ofKind event.pmuName false group = [] := by
      have content := get_collect group event.pmuName
      rw [RawPMUConfigs.get, absent] at content
      exact (RawPMUConfig.mk.inj content).1.symm
    have same : fits setup group event = fits setup [] event := by
      rw [fits, nothing, fits]
      rfl
    rw [same, alone] at full
    cases full
  have entries : OrderedMap.upsert event.pmuName {} id (collect group).entries =
      (collect group).entries := OrderedMap.upsert_id present (collect group).sorted
  simp only [RawPMUConfigs.modify, entries]

theorem addEvent_fits (raw : 47 ∈ eventStr) (parsed : parseEvent setup.records eventStr = some event)
    (next : fits setup group event = true) :
    addEvent setup (collect group) eventStr = (.OK, collect (group ++ [event])) := by
  have nonempty : eventStr ≠ [] := List.ne_nil_of_mem raw
  rw [addEvent, if_neg nonempty, if_neg (not_not.mpr raw), parsed, collect_concat]
  dsimp only
  split
  · rfl
  · rename_i programmable
    have few := (fits_iff.mp next).resolve_left programmable
    rw [get_modify_self, id, get_collect, few, modify_modify]
    rfl

theorem addEvent_full (raw : 47 ∈ eventStr) (parsed : parseEvent setup.records eventStr = some event)
    (full : fits setup group event = false) : addEvent setup (collect group) eventStr =
      (.FailedTooManyEvents, (collect group).modify event.pmuName id) := by
  have nonempty : eventStr ≠ [] := List.ne_nil_of_mem raw
  rw [addEvent, if_neg nonempty, if_neg (not_not.mpr raw), parsed]
  dsimp only
  have many := mt fits_iff.mpr (Bool.eq_false_iff.mp full)
  rw [if_neg (fun fixed => many (Or.inl fixed)), get_modify_self, id, get_collect,
    Bool.eq_true_of_not_eq_false (fun few => many (Or.inr few))]
  rfl

theorem addEvent_unparsed (raw : 47 ∈ eventStr) (parsed : parseEvent setup.records eventStr = none)
    (configs : RawPMUConfigs) : addEvent setup configs eventStr = (.Failed, configs) := by
  have nonempty : eventStr ≠ [] := List.ne_nil_of_mem raw
  rw [addEvent, if_neg nonempty, if_neg (not_not.mpr raw), parsed]

theorem doFinishGroup_collect (PMUConfigs : List RawPMUConfigs) (group : List Event) :
    doFinishGroup ⟨PMUConfigs, collect group⟩ =
      ⟨PMUConfigs ++ (close group).map collect, collect []⟩ := by
  rw [doFinishGroup, close]
  by_cases empty : group = []
  · rw [if_pos (entries_collect.mpr empty), if_pos empty, empty]
    simp
  · rw [if_neg (mt entries_collect.mp empty), if_neg empty]
    rfl

/-- The state after a part of the file: the groups that it closed are finished. -/
def Follows (setup : Setup) (PMUConfigs : List RawPMUConfigs) (begun : List Event)
    (tokens : List (Option Event)) (r : Reading) : Prop :=
  ∃ closed next, r = ⟨PMUConfigs ++ closed.map collect, collect next⟩ ∧
    Advance (fits setup) begun tokens closed next

variable {PMUConfigs : List RawPMUConfigs} {r : Reading}

theorem addOrSplit_follows (raw : 47 ∈ eventStr)
    (ran : addOrSplit setup ⟨PMUConfigs, collect begun⟩ eventStr = (true, r)) :
    ∃ event, parseEvent setup.records eventStr = some event ∧
      Follows setup PMUConfigs begun [some event] r := by
  rw [addOrSplit] at ran
  cases parsed : parseEvent setup.records eventStr with
  | none =>
      rw [addEvent_unparsed raw parsed] at ran
      cases ran
  | some event =>
      refine ⟨event, rfl, ?_⟩
      cases next : fits setup begun event with
      | true =>
          rw [addEvent_fits raw parsed next] at ran
          obtain rfl := (Prod.mk.inj ran).2
          exact ⟨[], begun ++ [event], by simp, advance_fits next⟩
      | false =>
          rw [addEvent_full raw parsed next] at ran
          cases alone : fits setup [] event with
          | true =>
              -- the entry that was read was there, so the group is finished as it was
              rw [modify_id_of_full next alone] at ran
              dsimp only at ran
              rw [doFinishGroup_collect, addEvent_fits raw parsed alone] at ran
              obtain rfl := (Prod.mk.inj ran).2
              exact ⟨close begun, [event], rfl, advance_full next alone⟩
          | false =>
              have emptied : (doFinishGroup ⟨PMUConfigs,
                  (collect begun).modify event.pmuName id⟩).curConfig = collect [] :=
                congrArg Reading.curConfig (if_neg OrderedMap.upsert_ne_nil)
              dsimp only at ran
              rw [emptied, addEvent_full raw parsed alone] at ran
              cases ran

theorem ListLine.WellFormed.clear {line : ListLine} (form : line.WellFormed) : 10 ∉ line.text := by
  cases line with
  | comment rest => simpa [text, WellFormed] using form
  | separator ending => cases ending <;> decide
  | event eventStr ending =>
      rw [text, List.mem_append, not_or]
      exact ⟨form.1, by cases ending <;> decide⟩

/-- The ending of an event is dropped, and only that. -/
theorem stripLine_event {ending : Ending} (form : (ListLine.event eventStr ending).WellFormed) :
    stripLine (eventStr ++ ending.text) = (eventStr, ending == .semicolon) := by
  cases ending with
  | none =>
      obtain ⟨comma, semicolon⟩ := form.2.2.2 rfl
      rw [Ending.text, List.append_nil, stripLine, if_neg comma, if_neg semicolon]
      rfl
  | comma =>
      rw [Ending.text, stripLine, if_pos List.getLast?_concat, List.dropLast_concat]
      rfl
  | semicolon =>
      rw [Ending.text, stripLine, List.getLast?_concat, if_neg (by decide), if_pos rfl, List.dropLast_concat]
      rfl

theorem Follows.finish {tokens : List (Option Event)} (follows : Follows setup PMUConfigs begun tokens r)
    (ending : Ending) : Follows setup PMUConfigs begun (tokens ++ ending.marks)
      (if ending == .semicolon then doFinishGroup r else r) := by
  obtain ⟨closed, next, rfl, advance⟩ := follows
  cases ending with
  | none | comma =>
      refine ⟨closed, next, rfl, ?_⟩
      rw [Ending.marks, List.append_nil]
      exact advance
  | semicolon =>
      refine ⟨closed ++ close next, [], ?_, advance.append advance_mark⟩
      rw [if_pos (beq_self_eq_true _), doFinishGroup_collect, List.append_assoc, List.map_append]

theorem addLine_separator (r : Reading) (ending : Ending) : addLine setup r ending.text =
    (true, if ending == .semicolon then doFinishGroup r else r) := by
  cases ending <;> rfl

theorem addLine_event {ending : Ending} (form : (ListLine.event eventStr ending).WellFormed) (r : Reading) :
    addLine setup r (eventStr ++ ending.text) = match addOrSplit setup r eventStr with
      | (true, r) => (true, if ending == .semicolon then doFinishGroup r else r)
      | (false, r) => (false, r) := by
  have nonempty : eventStr ≠ [] := List.ne_nil_of_mem form.2.1
  have told : ¬ ((decide (eventStr ++ ending.text = []) || decide ((eventStr ++ ending.text).head? = some 35)) = true) := by
    rw [List.head?_append_of_ne_nil _ nonempty]
    simp [nonempty, form.2.2.1]
  rw [addLine, if_neg told, stripLine_event form]

/-- What a line gives comes to the groups. -/
theorem addLine_follows {line : ListLine} (form : line.WellFormed)
    (ran : addLine setup ⟨PMUConfigs, collect begun⟩ line.text = (true, r)) :
    ∃ tokens, line.Gives setup.records tokens ∧ Follows setup PMUConfigs begun tokens r := by
  have unchanged : Follows setup PMUConfigs begun [] ⟨PMUConfigs, collect begun⟩ :=
    ⟨[], begun, by simp, advance_nil⟩
  cases line with
  | comment rest =>
      obtain rfl : ⟨PMUConfigs, collect begun⟩ = r := (Prod.mk.inj ran).2
      exact ⟨[], .comment rest, unchanged⟩
  | separator ending =>
      rw [ListLine.text, addLine_separator] at ran
      obtain rfl := (Prod.mk.inj ran).2
      exact ⟨ending.marks, .separator ending, unchanged.finish ending⟩
  | event eventStr ending =>
      rw [ListLine.text, addLine_event form] at ran
      cases added : addOrSplit setup ⟨PMUConfigs, collect begun⟩ eventStr with
      | mk goesOn middle =>
          rw [added] at ran
          cases goesOn with
          | false => cases ran
          | true =>
              obtain ⟨event, parsed, follows⟩ := addOrSplit_follows form.2.1 added
              obtain rfl := (Prod.mk.inj ran).2
              exact ⟨_, .event ending parsed, follows.finish ending⟩

/-- The state after a part of the file, whose lines give this. -/
theorem addLines_follows {lines : List ListLine} (form : ∀ line ∈ lines, line.WellFormed)
    (ran : addLines setup ⟨PMUConfigs, collect begun⟩ (lines.map ListLine.text) = (true, r)) :
    ∃ given, List.Forall₂ (ListLine.Gives setup.records) lines given ∧
      Follows setup PMUConfigs begun given.flatten r := by
  induction lines generalizing PMUConfigs begun with
  | nil =>
      obtain rfl : ⟨PMUConfigs, collect begun⟩ = r := (Prod.mk.inj ran).2
      exact ⟨[], .nil, [], begun, by simp, advance_nil⟩
  | cons line lines ih =>
      rw [List.map_cons, addLines] at ran
      cases first : addLine setup ⟨PMUConfigs, collect begun⟩ line.text with
      | mk goesOn middle =>
          rw [first] at ran
          cases goesOn with
          | false => cases ran
          | true =>
              obtain ⟨tokens, gives, closed, next, rfl, advance⟩ :=
                addLine_follows (form line (List.mem_cons_self ..)) first
              obtain ⟨given, all, closed', last, rfl, advance'⟩ :=
                ih (fun other member => form other (List.mem_cons_of_mem _ member)) ran
              refine ⟨tokens :: given, .cons gives all, closed ++ closed', last, ?_, advance.append advance'⟩
              rw [List.map_append, List.append_assoc]

/-- An empty line at the end of a file is not read, and would change nothing. -/
theorem addLines_fileText {lines : List ListLine} (form : ∀ line ∈ lines, line.WellFormed) (r : Reading) :
    addLines setup r (getlines 10 [] (fileText lines)) = addLines setup r (lines.map ListLine.text) := by
  induction lines generalizing r with
  | nil => rfl
  | cons line lines ih =>
      have clear := (form line (List.mem_cons_self ..)).clear
      have others := fun other member => form other (List.mem_cons_of_mem line member)
      cases lines with
      | nil =>
          have whole : fileText [line] = line.text := by simp [fileText, List.intercalate]
          rw [whole]
          by_cases empty : line.text = []
          · simp [empty, getlines, addLines, addLine]
          · rw [@getlines_whole 10 [] _ clear empty]
            rfl
      | cons second later =>
          have split : fileText (line :: second :: later) = line.text ++ 10 :: fileText (second :: later) := by
            simp [fileText, List.intercalate]
          rw [split, getlines_append clear, List.map_cons, List.nil_append, addLines, addLines]
          cases addLine setup r line.text with
          | mk goesOn middle =>
              cases goesOn with
              | false => rfl
              | true => exact ih others middle

/-! ## The groups of a file -/

/-- Every event of a group stands at a position that is not too many for its PMU. -/
theorem positions_allowed {pmuName : String} (all : AllFit (fits setup) group) :
    ∀ n < (ofKind pmuName false group).length, tooManyEvents setup pmuName n = false := by
  induction group using List.reverseRecOn with
  | nil => exact fun n less => absurd less (Nat.not_lt_zero n)
  | append_singleton group event ih =>
      intro n less
      rw [ofKind_concat] at less
      by_cases same : event.pmuName = pmuName ∧ event.fixed = false
      · rw [if_pos same, List.length_append, List.length_singleton, Nat.lt_succ_iff] at less
        rcases Nat.lt_or_eq_of_le less with earlier | last
        · exact ih all.init n earlier
        · have next := fits_iff.mp (all group event [] rfl)
          rw [same.2, same.1, ← last] at next
          exact next.resolve_left Bool.false_ne_true
      · rw [if_neg same, List.append_nil] at less
        exact ih all.init n less

theorem ofKind_flatten (pmuName : String) (fixed : Bool) (groups : List (List Event)) :
    ofKind pmuName fixed groups.flatten = groups.flatMap (ofKind pmuName fixed) := by
  rw [ofKind, List.filter_flatten, List.map_flatten, List.map_map, List.flatMap]
  rfl

/-- The groups that a file gives, and what they are made of. -/
theorem addEvents_eq {lines : List ListLine} (form : ∀ line ∈ lines, line.WellFormed)
    (ok : (addEvents setup PMUConfigs (some (fileText lines))).1 = true) :
    ∃ given groups, List.Forall₂ (ListLine.Gives setup.records) lines given ∧
      groupsFrom (fits setup) [] given.flatten = some groups ∧
      (addEvents setup PMUConfigs (some (fileText lines))).2 = PMUConfigs ++ groups.map collect := by
  cases ran : addLines setup ⟨PMUConfigs, collect []⟩ (lines.map ListLine.text) with
  | mk goesOn r =>
      have whole : addEvents setup PMUConfigs (some (fileText lines)) = match (goesOn, r) with
          | (true, r) => (true, (doFinishGroup r).PMUConfigs)
          | (false, r) => (false, r.PMUConfigs) := by
        rw [← ran, ← addLines_fileText form]
        rfl
      rw [whole] at ok ⊢
      cases goesOn with
      | false => cases ok
      | true =>
          obtain ⟨given, all, closed, next, rfl, advance⟩ := addLines_follows form ran
          refine ⟨given, closed ++ close next, all, ?_, ?_⟩
          · have whole := advance []
            rwa [List.append_nil] at whole
          · dsimp only
            rw [doFinishGroup_collect, List.map_append, List.append_assoc]

/-- A file of raw events for which `addEvents` returns true: every line gives what it stands for in the syntax of
event lists; for every PMU and kind, the events of the new groups are those of the file in their order; no group has too
many; and the groups divide the parts of the file between the `;`, a group ending there only before an event that
does not fit into it. -/
theorem addEvents_groups (setup : Setup) (PMUConfigs : List RawPMUConfigs) (lines : List ListLine)
    (form : ∀ line ∈ lines, line.WellFormed)
    (ok : (addEvents setup PMUConfigs (some (fileText lines))).1 = true) :
    ∃ given added, List.Forall₂ (ListLine.Gives setup.records) lines given ∧
      (addEvents setup PMUConfigs (some (fileText lines))).2 = PMUConfigs ++ added ∧
      (∀ pmuName, added.flatMap (fun g => (g.get pmuName).programmable) =
          ofKind pmuName false given.flatten.reduceOption ∧
        added.flatMap (fun g => (g.get pmuName).fixed) = ofKind pmuName true given.flatten.reduceOption) ∧
      (∀ g ∈ added, ∀ pmuName, ∀ n < (g.get pmuName).programmable.length,
        tooManyEvents setup pmuName n = false) ∧
      ∃ divided, List.Forall₂ (Division (fits setup)) (blocks given.flatten) divided ∧
        List.Forall₂ Holds added divided.flatten := by
  obtain ⟨given, groups, all, ran, result⟩ := addEvents_eq form ok
  obtain ⟨divided, divisions, rfl⟩ := exists_divided ran
  have events := flatten_groups ran
  rw [List.nil_append] at events
  refine ⟨given, divided.flatten.map collect, all, result, fun pmuName => ⟨?_, ?_⟩, ?_, divided, divisions, ?_⟩
  · rw [← events, ofKind_flatten, List.flatMap_map]
    simp only [get_collect]
  · rw [← events, ofKind_flatten, List.flatMap_map]
    simp only [get_collect]
  · intro g member pmuName n less
    obtain ⟨group, isGroup, rfl⟩ := List.mem_map.mp member
    rw [get_collect] at less
    exact positions_allowed (allFit_of_divided divisions group isGroup) n less
  · rw [List.forall₂_map_left_iff, List.forall₂_same]
    exact fun group _ => get_collect group

end Runs

def twoCounters : Setup := ⟨2, [], fun cur _ => (.Failed, cur)⟩

/-- Core events of which one is too many, another PMU, a comment, a `;` alone and a fixed event. -/
def smallFile : List ListLine :=
  [.comment (ascii " a"), .event (ascii "/config=0x3c/") .comma, .event (ascii "cha/config=2/") .none,
    .separator .none, .event (ascii "/config=3/") .comma, .event (ascii "/config=4/") .semicolon,
    .separator .semicolon, .event (ascii "/config=5,fixed/") .none]

/-- The PMUs of a group with the first words of their programmable and fixed events. -/
def firstWords (group : RawPMUConfigs) : List (String × List (BitVec 64) × List (BitVec 64)) :=
  group.entries.map fun entry =>
    (entry.1, entry.2.programmable.map (·.encoding.get 0), entry.2.fixed.map (·.encoding.get 0))

theorem addEvents_groups_small :
    (addEvents twoCounters [] (some (fileText smallFile))).1 = true ∧
    (addEvents twoCounters [] (some (fileText smallFile))).2.map firstWords =
      [[("cha", [2], []), ("core", [0x3c, 3], [])], [("core", [4], [])], [("core", [], [5])]] ∧
    ∃ given added, List.Forall₂ (ListLine.Gives twoCounters.records) smallFile given ∧
      (addEvents twoCounters [] (some (fileText smallFile))).2 = [] ++ added ∧
      (∀ pmuName, added.flatMap (fun g => (g.get pmuName).programmable) =
          ofKind pmuName false given.flatten.reduceOption ∧
        added.flatMap (fun g => (g.get pmuName).fixed) = ofKind pmuName true given.flatten.reduceOption) ∧
      (∀ g ∈ added, ∀ pmuName, ∀ n < (g.get pmuName).programmable.length,
        tooManyEvents twoCounters pmuName n = false) ∧
      ∃ divided, List.Forall₂ (Division (fits twoCounters)) (blocks given.flatten) divided ∧
        List.Forall₂ Holds added divided.flatten := by
  have ok : (addEvents twoCounters [] (some (fileText smallFile))).1 = true := by decide
  exact ⟨ok, by decide, addEvents_groups twoCounters [] smallFile (by decide) ok⟩

end Raw

end Pcm

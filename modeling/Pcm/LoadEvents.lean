import Pcm.IioListing
import Pcm.Lib.KeyedMap

/-!
# Event files

`load_events` (`utils.cpp:1257-1404`) for any fields and any callback, with the numbers that it stores under
the names. The callback gets the record of a counter at the end of its line. Both callbacks of the
repository take all lines, and decide about a field by its key.
-/

namespace Pcm.LoadEvents

open StdString Iio

/-! ## Records -/

/-- `CounterValueMap` -/
abbrev CounterValueMap := KeyedMap Bytes (BitVec 32)

/-- `PCIeEventNameMap` -/
abbrev PCIeEventNameMap := KeyedMap Bytes (BitVec 32 × CounterValueMap)

/-- The members of `ctr` that are names and their numbers. -/
structure Names where
  h_event_name : Bytes := ascii "INVALID"
  v_event_name : Bytes := ascii "INVALID"
  h_id : BitVec 32 := 0
  v_id : BitVec 32 := 0
  deriving DecidableEq, Repr

/-- The other members of `ctr`. -/
structure Values where
  ccr : BitVec 64 := 0
  idx : Int := 0
  multiplier : Int := 1
  divider : Int := 1
  type : CounterType
  deriving DecidableEq, Repr

/-- What the fields with names read and change. -/
structure Naming where
  nameMap : PCIeEventNameMap
  names : Names := {}
  h_name : Bytes := []
  deriving DecidableEq, Repr

/-- `case PCM::H_EVENT_NAME` -/
def parseHName (n : Naming) (h_name : Bytes) : Naming :=
  let nameMap :=
    if (n.nameMap.lookup h_name).isSome then n.nameMap
    else n.nameMap.put h_name (BitVec.ofNat 32 n.nameMap.length, [])
  { nameMap := nameMap
    names := { n.names with h_event_name := h_name, h_id := BitVec.ofNat 32 nameMap.length - 1 }
    h_name := h_name }

/-- `case PCM::V_EVENT_NAME`. The right side of the assignment to `v_nameMap[v_name]` comes first, so that it
has the size without the new name. -/
def parseVName (n : Naming) (v_name : Bytes) : Except Bytes Naming :=
  let definition := (n.nameMap.lookup n.h_name).getD (0, [])
  if (definition.2.lookup v_name).isSome then
    .error (ascii "Detect duplicated v_name:" ++ v_name ++ ascii "\n")
  else
    let v_nameMap := definition.2.put v_name (BitVec.ofNat 32 definition.2.length - 1)
    .ok { n with
      nameMap := n.nameMap.assign n.h_name (definition.1, v_nameMap)
      names := { n.names with v_event_name := v_name, v_id := BitVec.ofNat 32 v_nameMap.length - 1 } }

/-- What is known in a line: the numbers that its fields have got, and all that has been read before. -/
structure Parse where
  naming : Naming
  values : Values
  numbers : List (Bytes × BitVec 64) := []
  earlier : List (BitVec 64)
  deriving DecidableEq, Repr

/-- What a callback gets for a line. -/
structure Report where
  line : Bytes
  names : Names
  values : Values
  numbers : List (Bytes × BitVec 64)
  deriving DecidableEq, Repr

/-- What a file has been read into; the type of the last counter stays for the next one. -/
structure Loaded where
  nameMap : PCIeEventNameMap := []
  reports : List Report := []
  type : CounterType := .invalid
  earlier : List (BitVec 64) := []
  deriving DecidableEq, Repr

/-! ## Lines -/

section Lines

variable (ofm : Bytes → PerfmonField) (takes : Bytes → Bool) (unread : List (BitVec 64) → BitVec 64)

/-- `iss2 >> std::setbase(0) >> numValue`. Where the text is blank `numValue` keeps what it had, which is not
determined; it may be what has been read before. -/
def readNumber (earlier : List (BitVec 64)) (value : Bytes) : BitVec 64 :=
  if value.all isspace then unread earlier else numValue value

/-- A field has got a number. -/
def Parse.take (p : Parse) (key : Bytes) (number : BitVec 64) (values : Values) : Parse :=
  { p with values := values, numbers := p.numbers ++ [(key, number)] }

/-- One item of a line (`utils.cpp:1303-1390`). -/
def parseItem (p : Parse) (item : Bytes) : Except Bytes Parse :=
  let key := keyOf item
  let value := valueOf item
  if key = [] ∨ value = [] then .ok p
  else
    let number := readNumber unread p.earlier value
    let p := { p with earlier := p.earlier ++ [number] }
    match ofm key with
    | .hEventName => .ok { p with naming := parseHName p.naming (dos2unix value) }
    | .vEventName => do
        let naming ← parseVName p.naming (dos2unix value)
        .ok { p with naming := naming }
    | .multiplier => .ok (p.take key number { p.values with multiplier := toInt number })
    | .divider => .ok (p.take key number { p.values with divider := toInt number })
    | .counterIndex => .ok (p.take key number { p.values with idx := toInt number })
    | .unitType =>
        if dos2unix value = ascii "iio" then .ok { p with values := { p.values with type := .iio } }
        else .error (ascii "event line processing(end) fault.\n")
    | _ =>
        if takes key then .ok (p.take key number p.values)
        else .error (ascii "event line processing(field) fault.\n")

/-- One line (`utils.cpp:1277-1399`). All members of `ctr` but the type get their defaults. -/
def loadLine (l : Loaded) (line : Bytes) : Except Bytes Loaded :=
  if isCounterLine line then do
    let p ← (items line).foldlM (parseItem ofm takes unread)
      { naming := { nameMap := l.nameMap }, values := { type := l.type }, earlier := l.earlier }
    .ok
      { nameMap := p.naming.nameMap
        reports := l.reports ++ [⟨line, p.naming.names, p.values, p.numbers⟩]
        type := p.values.type
        earlier := p.earlier }
  else .ok l

def loadLines (lines : List Bytes) : Except Bytes Loaded :=
  lines.foldlM (loadLine ofm takes unread) {}

/-- `load_events`, for a file with this content. -/
def load_events (content : Bytes) : Except Bytes Loaded :=
  loadLines ofm takes unread (Raw.getlines 10 [] content)

end Lines

/-! ## What an item does -/

/-- The name that an item gives. -/
def nameOf (ofm : Bytes → PerfmonField) (item : Bytes) : Option NameItem :=
  if keyOf item = [] ∨ valueOf item = [] then none
  else
    match ofm (keyOf item) with
    | .hEventName => some (.h (dos2unix (valueOf item)))
    | .vEventName => some (.v (dos2unix (valueOf item)))
    | _ => none

def step (n : Naming) : NameItem → Except Bytes Naming
  | .h h_name => .ok (parseHName n h_name)
  | .v v_name => parseVName n v_name

/-- Whether an item is for a number. -/
def isNumber (ofm : Bytes → PerfmonField) (item : Bytes) : Bool :=
  keyOf item ≠ [] && valueOf item ≠ [] &&
    match ofm (keyOf item) with
    | .hEventName | .vEventName | .unitType => false
    | _ => true

def isUnit (ofm : Bytes → PerfmonField) (item : Bytes) : Bool :=
  keyOf item ≠ [] && valueOf item ≠ [] && ofm (keyOf item) = .unitType

/-- What a field does to the other members. -/
def Values.set (v : Values) (field : PerfmonField) (number : BitVec 64) : Values :=
  match field with
  | .multiplier => { v with multiplier := toInt number }
  | .divider => { v with divider := toInt number }
  | .counterIndex => { v with idx := toInt number }
  | .unitType => { v with type := .iio }
  | _ => v

/-- Whether an item is accepted as far as its names are. -/
def acceptable (ofm : Bytes → PerfmonField) (takes : Bytes → Bool) (item : Bytes) : Bool :=
  if keyOf item = [] ∨ valueOf item = [] then true
  else
    match ofm (keyOf item) with
    | .hEventName | .vEventName | .multiplier | .divider | .counterIndex => true
    | .unitType => dos2unix (valueOf item) = ascii "iio"
    | _ => takes (keyOf item)

section Items

variable {ofm : Bytes → PerfmonField} {takes : Bytes → Bool} {unread : List (BitVec 64) → BitVec 64}
  {p p' : Parse} {item : Bytes}

/-- What is known after an item that has been accepted. -/
structure After (ofm : Bytes → PerfmonField) (takes : Bytes → Bool) (unread : List (BitVec 64) → BitVec 64)
    (p : Parse) (item : Bytes) (p' : Parse) : Prop where
  acceptable : acceptable ofm takes item = true
  naming : (nameOf ofm item).elim (.ok p.naming) (step p.naming) = .ok p'.naming
  values : p'.values =
    if keyOf item = [] ∨ valueOf item = [] then p.values
    else p.values.set (ofm (keyOf item)) (readNumber unread p.earlier (valueOf item))
  numbers : p'.numbers = p.numbers ++
    if isNumber ofm item then [(keyOf item, readNumber unread p.earlier (valueOf item))] else []

theorem parseItem_ok (parsed : parseItem ofm takes unread p item = .ok p') :
    After ofm takes unread p item p' := by
  unfold parseItem at parsed
  by_cases skipped : keyOf item = [] ∨ valueOf item = []
  · rw [if_pos skipped] at parsed
    cases parsed
    have noNumber : isNumber ofm item = false := by
      rcases skipped with key | value
      · simp [isNumber, key]
      · simp [isNumber, value]
    exact ⟨by rw [acceptable, if_pos skipped], by rw [nameOf, if_pos skipped]; rfl,
      by rw [if_pos skipped], by simp [noNumber]⟩
  · rw [if_neg skipped] at parsed
    obtain ⟨key, value⟩ := not_or.mp skipped
    have accepted : acceptable ofm takes item = true ∧
        (nameOf ofm item).elim (.ok p.naming) (step p.naming) = .ok p'.naming ∧
        p'.values = p.values.set (ofm (keyOf item)) (readNumber unread p.earlier (valueOf item)) ∧
        p'.numbers = p.numbers ++
          if isNumber ofm item then [(keyOf item, readNumber unread p.earlier (valueOf item))] else [] := by
      rw [acceptable, nameOf, if_neg skipped, if_neg skipped]
      obtain ⟨f, field⟩ : ∃ f, ofm (keyOf item) = f := ⟨_, rfl⟩
      unfold isNumber
      rw [field] at parsed ⊢
      cases f
      case hEventName =>
          simp only at parsed
          cases parsed
          simp [step, Values.set]
      case vEventName =>
          simp only at parsed
          cases named : parseVName p.naming (dos2unix (valueOf item)) with
          | error e =>
              rw [named] at parsed
              cases parsed
          | ok naming =>
              rw [named] at parsed
              cases parsed
              simp [step, Values.set, named]
      case unitType =>
          simp only at parsed
          split at parsed
          · rename_i iio
            cases parsed
            simp [Values.set, iio]
          · cases parsed
      case multiplier =>
          simp only at parsed
          cases parsed
          simp [Values.set, Parse.take, key, value]
      case divider =>
          simp only at parsed
          cases parsed
          simp [Values.set, Parse.take, key, value]
      case counterIndex =>
          simp only at parsed
          cases parsed
          simp [Values.set, Parse.take, key, value]
      all_goals
        simp only at parsed
        split at parsed
        · rename_i taken
          cases parsed
          simp [Values.set, Parse.take, key, value, taken]
        · cases parsed
    exact ⟨accepted.1, accepted.2.1, by rw [if_neg skipped]; exact accepted.2.2.1, accepted.2.2.2⟩

/-- An acceptable item is accepted where its name is. -/
theorem parseItem_of_acceptable {naming : Naming} (accept : acceptable ofm takes item = true)
    (named : (nameOf ofm item).elim (.ok p.naming) (step p.naming) = .ok naming) :
    ∃ p', parseItem ofm takes unread p item = .ok p' ∧ p'.naming = naming := by
  unfold parseItem
  by_cases skipped : keyOf item = [] ∨ valueOf item = []
  · rw [nameOf, if_pos skipped] at named
    rw [if_pos skipped]
    cases named
    exact ⟨p, rfl, rfl⟩
  · rw [if_neg skipped]
    rw [nameOf, if_neg skipped] at named
    rw [acceptable, if_neg skipped] at accept
    cases field : ofm (keyOf item)
    case vEventName =>
        simp only [field] at named ⊢
        have named : parseVName p.naming (dos2unix (valueOf item)) = .ok naming := named
        rw [named]
        exact ⟨_, rfl, rfl⟩
    case unitType =>
        simp only [field, decide_eq_true_eq] at named accept ⊢
        cases named
        rw [if_pos accept]
        exact ⟨_, rfl, rfl⟩
    all_goals
      simp only [field] at named accept ⊢
      cases named
      first
      | exact ⟨_, rfl, rfl⟩
      | exact ⟨_, if_pos accept, rfl⟩

end Items

end Pcm.LoadEvents

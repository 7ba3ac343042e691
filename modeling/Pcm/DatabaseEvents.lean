import Pcm.Bits
import Pcm.EventGroups
import Pcm.Lib.Throwing
import Pcm.ReadNumber
import Pcm.TsvEvents

/-!
# Events from the database

`addEventFromDB` (`pcm-raw.cpp:500-1033`) looks an event up in the event files and makes its
configuration from the register declarations of its PMU, field by field and then modifier by
modifier. The event files and the declarations have been read before; the places where a program
would be aborted or has no defined behaviour are told apart from exceptions, and these from statuses.
-/

namespace Pcm.Raw.Database

open StdString
open Throwing (bind_eq_ok)

/-- How a part of `addEventFromDB` ends early. -/
inductive Stop
  | status (s : AddEventStatus)
  | exception
  /-- An assertion fails, or an access or a shift is out of range. -/
  | undefined
  deriving DecidableEq, Repr

/-- The bytes that `c_str()` shows. -/
def cstr (s : Bytes) : Bytes := s.takeWhile (· ≠ 0)

def read_number (s : Bytes) : Except Stop (BitVec 64) :=
  match readNumber (some (cstr s)) with
  | .ok value => .ok (BitVec.ofNat 64 value)
  | .error _ => .error .exception

/-! ## Event records -/

/-- `PMUEventMapJSON` and `PMUEventMapsTSV`. A JSON field that is no string has no text. -/
structure EventMap where
  json : KeyedMap Bytes (List (Bytes × Option Bytes))
  tsv : List Tsv.PMUEventMap

namespace EventMap

variable (maps : EventMap) (eventStr field : Bytes)

def isEvent : Bool :=
  (maps.json.lookup eventStr).isSome || maps.tsv.any fun m => (m.lookup eventStr).isSome

/-- The row of an event and the position of a column, where a map has both. -/
def cell (m : Tsv.PMUEventMap) : Option (List Bytes × Nat) :=
  (m.lookup eventStr).bind fun row =>
    (((m.lookup (ascii "COL_NAMES")).getD []).findIdx? (· == field)).map fun pos => (row, pos)

/-- `EventMap::isField` (`pcm-raw.cpp:392-411`) -/
def isField : Bool :=
  match maps.json.lookup eventStr with
  | some record => (record.lookup field).isSome
  | none => ((maps.tsv.findSome? (cell eventStr field)).map fun c => decide (c.2 < c.1.length)).getD false

/-- `EventMap::getField` (`pcm-raw.cpp:413-431`) -/
def getField : Except Stop Bytes :=
  match maps.json.lookup eventStr with
  | some record =>
      match record.lookup field with
      | some (some value) => .ok value
      | _ => .error .exception
  | none => maps.tsv.foldlM (fun res m =>
      match cell eventStr field m with
      | none => .ok res
      | some (row, pos) =>
          match row[pos]? with
          | some value => .ok value
          | none => .error .undefined) []

/-- Whether `print_event` (`pcm-raw.cpp:444-463`) finds a column for every name. -/
def printable : Bool :=
  match maps.json.lookup eventStr with
  | some _ => true
  | none =>
      match maps.tsv.find? fun m => (m.lookup eventStr).isSome with
      | none => true
      | some m => ((m.lookup (ascii "COL_NAMES")).getD []).length ≤ ((m.lookup eventStr).getD []).length

end EventMap

/-! ## Register declarations -/

/-- The range of bits that a declaration gives to a field, each part none if it is missing or no number. -/
structure BitField where
  Config : Option Nat := none
  Position : Option Int := none
  Width : Option Nat := none
  deriving DecidableEq, Repr

/-- A member of a declaration. The member `MSRIndex` has a field for each MSR. -/
structure FieldDescription extends BitField where
  DefaultValue : Option (BitVec 64) := none
  members : List (Bytes × BitField) := []
  isObject : Bool := true
  deriving DecidableEq, Repr

abbrev PMUDecl := List (Bytes × FieldDescription)

/-- `PMURegisterDeclarations`, by PMU and then by `programmable`, `fixed0` and so on. -/
abbrev PMURegisterDeclarations := List (Bytes × List (Bytes × PMUDecl))

/-- The lambda `setConfig` (`pcm-raw.cpp:732-739`) -/
def setConfig (config : RawEventEncoding) (f : BitField) (value : BitVec 64) (position : Int) :
    Except Stop RawEventEncoding :=
  match f.Config, f.Width with
  | none, _ => .error .exception
  | some cfg, width =>
      if h : cfg < 6 then
        match width with
        | none => .error .exception
        | some width =>
            if 64 < width ∨ position < 0 ∨ 64 ≤ position then .error .undefined
            else .ok (config.set cfg (insertBits (config.get ⟨cfg, h⟩) value position.toNat width) h)
      else .error .exception

/-- `config.first[cfg] |= DefaultValue << position` (`pcm-raw.cpp:805-815`) -/
def orDefault (config : RawEventEncoding) (f : FieldDescription) (position : Int) :
    Except Stop RawEventEncoding :=
  match f.DefaultValue, f.Config with
  | none, _ => .error (.status .Failed)
  | _, none => .error .exception
  | some value, some cfg =>
      if h : cfg < 6 then
        if position < 0 ∨ 64 ≤ position then .error .undefined
        else .ok (config.set cfg (config.get ⟨cfg, h⟩ ||| value <<< position.toNat) h)
      else .error .exception

/-! ## The fields of an event -/

/-- What the loops change: `config`, `MSRObject` (none as long as it is the default one) and
`myPMUConfigs`. -/
structure Building where
  config : RawEventEncoding
  MSRObject : Option BitField := none
  events : List RawEventConfig
  deriving DecidableEq

/-- The lambda `setMSRValue` (`pcm-raw.cpp:757-765`): the value goes to the first event, if there is
one, and to the current one. -/
def setMSRValue (b : Building) (valueStr : Bytes) : Except Stop Building := do
  let value ← read_number valueStr
  match b.MSRObject with
  | none => .error .undefined
  | some msr =>
      match msr.Position with
      | none => .error .exception
      | some position =>
          match b.events with
          | [] =>
              let config ← setConfig b.config msr value position
              let config ← setConfig config msr value position
              .ok { b with config := config }
          | front :: rest =>
              let first ← setConfig front.encoding msr value position
              let config ← setConfig b.config msr value position
              .ok { b with config := config, events := { front with encoding := first } :: rest }

section Fields

variable (maps : EventMap) (eventStr : Bytes) (offcore : Bool) (offcoreEventIndex : Nat)

/-- Which of the MSRs of an event is its own (`pcm-raw.cpp:780-790`). -/
def chooseMSR (MSRIndexStr : Bytes) : Except Stop Bytes :=
  if offcore then
    match (split MSRIndexStr 44)[offcoreEventIndex]? with
    | none => .error (.status .FailedTooManyEvents)
    | some MSRIndexStr => .ok MSRIndexStr
  else .ok MSRIndexStr

/-- The member `MSRIndex` (`pcm-raw.cpp:771-796`). -/
def setMSR (b : Building) (description : FieldDescription) : Except Stop Building := do
  let fieldValueStr ← maps.getField eventStr (ascii "MSRIndex")
  let fieldValueStr := fieldValueStr.map tolower
  if fieldValueStr = ascii "0" ∨ fieldValueStr = ascii "0x00" then .ok b
  else
    let MSRIndexStr ← chooseMSR offcore offcoreEventIndex fieldValueStr
    match description.members.lookup MSRIndexStr with
    | none => .error .exception
    | some msr =>
        let msrValueStr ← maps.getField eventStr (ascii "MSRValue")
        setMSRValue { b with MSRObject := some msr } msrValueStr

/-- The lambda `getFieldValueArray` (`pcm-raw.cpp:819-825`) -/
def getFieldValueArray (field : Bytes) : Except Stop (List Bytes) := do
  let fieldValueStr ← maps.getField eventStr field
  .ok (split (fieldValueStr.filter (· ≠ 34)) 44)

/-- The lambda `setOffcoreConfig` (`pcm-raw.cpp:834-858`), as far as the value: the one with the index of
the event, or the first one if only the other field has so many. -/
def chooseOffcoreCode (offcoreCodes : List Bytes) (secondField : Bytes) : Except Stop Bytes := do
  let fieldValueStr ← match offcoreCodes[offcoreEventIndex]? with
    | some code => Except.ok code
    | none => do
        let adjusted ← getFieldValueArray maps eventStr secondField
        if adjusted.length ≤ offcoreEventIndex then Except.error (.status .FailedTooManyEvents)
        else Except.ok (offcoreCodes.headD [])
  if fieldValueStr = [] then .error .undefined else .ok fieldValueStr

/-- The text of the value that an event record gives to a field (`pcm-raw.cpp:826-883`). -/
def chooseValue (field : Bytes) : Except Stop Bytes := do
  let fieldValueArray ← getFieldValueArray maps eventStr field
  match fieldValueArray with
  | [] => .error .undefined
  | first :: _ =>
      if offcore ∧ field = ascii "EventCode" then
        chooseOffcoreCode maps eventStr offcoreEventIndex fieldValueArray (ascii "UMask")
      else if offcore ∧ field = ascii "UMask" then
        chooseOffcoreCode maps eventStr offcoreEventIndex fieldValueArray (ascii "EventCode")
      else .ok first

/-- One member of the declaration (`pcm-raw.cpp:766-885`). -/
def setRegister (b : Building) (register : Bytes × FieldDescription) : Except Stop Building :=
  if register.2.isObject = false then .error .exception
  else if register.1 = ascii "MSRIndex" then
    setMSR maps eventStr offcore offcoreEventIndex b register.2
  else
    match register.2.Position with
    | none => .error .exception
    | some position =>
        if position = -1 then .ok b
        else if maps.isField eventStr register.1 = false then do
          let config ← orDefault b.config register.2 position
          .ok { b with config := config }
        else do
          let fieldValueStr ← chooseValue maps eventStr offcore offcoreEventIndex register.1
          let value ← read_number fieldValueStr
          let config ← setConfig b.config register.2.toBitField value position
          .ok { b with config := config }

end Fields

/-! ## Modifiers -/

section Modifiers

variable (decl : PMUDecl)

/-- The lambda `setField` (`pcm-raw.cpp:887-891`) -/
def setField (field : Bytes) (value : BitVec 64) (b : Building) : Except Stop Building :=
  match decl.lookup field with
  | none => .error .exception
  | some description =>
      match description.Position with
      | none => .error .exception
      | some position => do
          let config ← setConfig b.config description.toBitField value position
          .ok { b with config := config }

/-- A number as the regular expressions have it: digits, or hexadecimal digits after `0x`. -/
def isNumber (s : Bytes) : Bool :=
  (s ≠ [] && s.all isdigit) ||
    ((ascii "0x").isPrefixOf s && s.drop 2 ≠ [] && (s.drop 2).all isHexDigit)

/-- `std::regex_match` for a name with a number behind it. -/
def matchesNumbered (name mod : Bytes) : Bool :=
  name.isPrefixOf (cstr mod) && isNumber ((cstr mod).drop name.length)

/-- The modifiers with a number behind the name, in the order in which they are tried, and the field
(`pcm-raw.cpp:893-897`). -/
def numbered : List (Bytes × Bytes) :=
  [(ascii "c", ascii "CounterMask"), (ascii "e", ascii "EdgeDetect"), (ascii "amt", ascii "AnyThread"),
    (ascii "i", ascii "Invert"), (ascii "u", ascii "UMask")]

/-- The modifiers with one field behind the name (`pcm-raw.cpp:968-1004`). -/
def assigned : List (Bytes × Bytes) :=
  [(ascii "filter0", ascii "Filter0"), (ascii "filter1", ascii "Filter1"), (ascii "opc", ascii "OPC"),
    (ascii "nc", ascii "NC"), (ascii "isoc", ascii "ISOC"), (ascii "state", ascii "State"),
    (ascii "t", ascii "Threshold"), (ascii "umask_ext", ascii "UMaskExt")]

/-- The modifiers that are words, with the fields they set (`pcm-raw.cpp:901-927`). -/
def words : List (Bytes × List (Bytes × BitVec 64)) :=
  [(ascii "SUP", [(ascii "User", 0), (ascii "OS", 1)]),
    (ascii "USER", [(ascii "User", 1), (ascii "OS", 0)]), (ascii "tx", [(ascii "InTX", 1)]),
    (ascii "cp", [(ascii "InTXCheckpointed", 1)]), (ascii "perf_metrics", [(ascii "PerfMetrics", 1)])]

/-- A modifier of the form `name=value`. -/
def assign (b : Building) (name value : Bytes) : Except Stop Building :=
  if name = ascii "request" ∨ name = ascii "response" then .error (.status .OK)
  else if name = ascii "tid" then do
    let b ← setField decl (ascii "TIDEnable") 1 b
    let number ← read_number value
    setField decl (ascii "TID") number b
  else if name = ascii "ocr_msr_val" then setMSRValue b value
  else
    match assigned.lookup name with
    | some field => do
        let number ← read_number value
        setField decl field number b
    | none => .error (.status .Failed)

/-- One modifier (`pcm-raw.cpp:898-1015`). Of the number behind a name, all but the first character of the
modifier is read. -/
def applyModifier (b : Building) (mod : Bytes) : Except Stop Building :=
  match words.lookup mod with
  | some settings => settings.foldlM (fun b setting => setField decl setting.1 setting.2 b) b
  | none =>
      if mod = ascii "percore" then .error (.status .OK)
      else
        match numbered.find? fun m => matchesNumbered m.1 mod with
        | some m => do
            let number ← read_number (mod.drop 1)
            setField decl m.2 number b
        | none =>
            match split mod 61 with
            | [name, value] => assign decl b name value
            | _ => .error (.status .Failed)

end Modifiers

/-! ## The loops -/

section Loops

variable {α : Type}

/-- A loop that may end early; what has been done before stays done. -/
def runAll (act : Building → α → Except Stop Building) (b : Building) : List α → Building × Option Stop
  | [] => (b, none)
  | a :: rest =>
      match act b a with
      | .ok b => runAll act b rest
      | .error stop => (b, some stop)

end Loops

/-! ## Whole events -/

/-- What `addEventFromDB` needs to know, for a PMU with so many counters. -/
structure Environment where
  setup : Setup
  maps : EventMap
  declarations : PMURegisterDeclarations

/-- The group, and the static index of the offcore events. -/
structure State where
  configs : RawPMUConfigs
  offcoreEventIndex : Nat

section Whole

variable (env : Environment) (eventStr : Bytes)

/-- `pmuNameMap` (`pcm-raw.cpp:665-673`) -/
def pmuNameMap : List (Bytes × Bytes) :=
  [(ascii "cbo", ascii "cha"), (ascii "b2cmi", ascii "m2m"), (ascii "upi", ascii "xpi"),
    (ascii "upi ll", ascii "xpi"), (ascii "b2upi", ascii "m3upi"), (ascii "qpi", ascii "xpi"),
    (ascii "qpi ll", ascii "xpi")]

/-- The PMU of an event and the words it starts from (`pcm-raw.cpp:675-686`). -/
def pmuOf : Except Stop (Bytes × RawEventEncoding) :=
  if env.maps.isField eventStr (ascii "Unit") = false then .ok (ascii "core", initCoreConfig.encoding)
  else do
    let unit ← env.maps.getField eventStr (ascii "Unit")
    let unit := unit.map tolower
    .ok ((pmuNameMap.lookup unit).getD unit, Vector.replicate 6 0)

/-- Extraction of an `int`, and what is left; white space is not skipped. -/
def extractInt (str : Bytes) : Option (Int × Bytes) :=
  let (negative, unsigned) := splitSign str
  let digits := digitRun 10 unsigned
  let value : Int := if negative then -digitsToNat 10 digits else digitsToNat 10 digits
  if digits = [] then none
  else if value < -2 ^ 31 ∨ 2 ^ 31 ≤ value then none
  else some (value, unsigned.drop digits.length)

/-- The number of a fixed counter (`pcm-raw.cpp:695-696`). -/
def fixedCounter (CounterStr : Bytes) : Option Int :=
  ((s_expect (ascii "Fixed counter ") CounterStr).bind extractInt).map Prod.fst

/-- The loop over the counters that support an event (`pcm-raw.cpp:699-709`), for a text of at most so many
characters. -/
def counters : Nat → Bytes → List Int
  | 0, _ => []
  | n + 1, str =>
      match extractInt (str.dropWhile isspace) with
      | none => []
      | some (i, rest) => i :: counters n (if rest.head? = some 44 then rest.drop 1 else rest)

/-- Whether an event is an offcore event (`pcm-raw.cpp:719-724`). -/
def isOffcore : Except Stop Bool :=
  if env.maps.isField eventStr (ascii "Offcore") then do
    let offcoreStr ← env.maps.getField eventStr (ascii "Offcore")
    .ok (offcoreStr == ascii "1")
  else .ok false

/-- The member of a PMU that has the declaration. -/
def section_name : Option Int → Bytes
  | none => ascii "programmable"
  | some counter => ascii "fixed" ++ decimalInt counter

/-- `myPMUConfigs` of a group. -/
def eventsOf (configs : RawPMUConfigs) (pmuName : Bytes) (fixed : Bool) : List RawEventConfig :=
  if fixed then (configs.get (text pmuName)).fixed else (configs.get (text pmuName)).programmable

def setEvents (fixed : Bool) (events : List RawEventConfig) (c : RawPMUConfig) : RawPMUConfig :=
  if fixed then { c with fixed := events } else { c with programmable := events }

/-- `curPMUConfigs[pmuName]` makes the entry. -/
def touch (configs : RawPMUConfigs) (pmuName : Bytes) : RawPMUConfigs :=
  configs.modify (text pmuName) id

/-- The position of a programmable event is read through `curPMUConfigs[pmuName]`. -/
def touchProgrammable (s : State) (pmuName : Bytes) (fixed : Option Int) : State :=
  if fixed.isSome then s else { s with configs := touch s.configs pmuName }

/-- What is known about an event after the checks of its counters. -/
structure Checked where
  state : State
  pmuName : Bytes
  init : RawEventEncoding
  fixed : Option Int
  offcore : Bool

/-- The checks (`pcm-raw.cpp:675-724`). Where they end the call there is an outcome, and none of them a
status if an exception is not caught. -/
def check (s : State) : Except (Option (AddEventStatus × State)) Checked :=
  match pmuOf env eventStr, env.maps.getField eventStr (ascii "Counter") with
  | .ok (pmuName, init), .ok CounterStr =>
      let fixed := fixedCounter CounterStr
      let s := touchProgrammable s pmuName fixed
      let event_pos := (eventsOf s.configs pmuName false).length
      if fixed.isNone ∧ (event_pos : Int) ∉ counters CounterStr.length CounterStr then
        .error (some (.Failed, s))
      else if fixed.isNone ∧ tooManyEvents env.setup (text pmuName) event_pos then
        .error (some (.FailedTooManyEvents, s))
      else
        match isOffcore env eventStr with
        | .error _ => .error none
        | .ok offcore => .ok ⟨s, pmuName, init, fixed, offcore⟩
  | _, _ => .error none

/-- Whether an event is the first programmable core event of its group. -/
def Checked.isFirst (c : Checked) : Bool :=
  c.pmuName = ascii "core" && (eventsOf c.state.configs c.pmuName false).isEmpty && c.fixed.isNone

/-- The reset of the index on the first programmable core event (`pcm-raw.cpp:725-729`). -/
def Checked.resetIndex (c : Checked) : Checked :=
  { c with state :=
      { configs := if c.pmuName = ascii "core" then touch c.state.configs c.pmuName else c.state.configs
        offcoreEventIndex := if c.isFirst then 0 else c.state.offcoreEventIndex } }

/-- What is known about an event before the `try` block sets its fields. -/
structure Prepared extends Checked where
  decl : PMUDecl

/-- The declaration of the PMU (`pcm-raw.cpp:740-754`). -/
def findDeclaration (c : Checked) : Except (Option (AddEventStatus × State)) Prepared :=
  match env.declarations.lookup c.pmuName with
  | none => .error (some (.OK, c.state))
  | some sections =>
      match sections.lookup (section_name c.fixed) with
      | none => .error (if env.maps.printable eventStr then some (.Failed, c.state) else none)
      | some decl => .ok ⟨c, decl⟩

/-- All that comes before the fields are set (`pcm-raw.cpp:675-754`). -/
def prepare (s : State) : Except (Option (AddEventStatus × State)) Prepared :=
  match check env eventStr s with
  | .error outcome => .error outcome
  | .ok c => findDeclaration env eventStr c.resetIndex

namespace Prepared

variable (p : Prepared)

/-- `myPMUConfigs` -/
def events : List RawEventConfig := eventsOf p.state.configs p.pmuName p.fixed.isSome

/-- Both loops over an event (`pcm-raw.cpp:766-1015`). -/
def build (mods : List Bytes) : Building × Option Stop :=
  match runAll (setRegister env.maps eventStr p.offcore p.state.offcoreEventIndex)
      { config := p.init, events := p.events } p.decl with
  | (b, none) => runAll (applyModifier p.decl) b mods
  | stopped => stopped

/-- The group with new events in `myPMUConfigs`. -/
def store (events : List RawEventConfig) : State :=
  { p.state with configs := p.state.configs.modify (text p.pmuName) (setEvents p.fixed.isSome events) }

/-- The end of the `try` block and what its handler makes of an exception (`pcm-raw.cpp:1016-1027`). -/
def finish (fullEventStr : Bytes) : Building × Option Stop → Option (AddEventStatus × State)
  | (b, none) => some (.OK,
      { p.store (b.events ++ [⟨b.config, text fullEventStr⟩]) with
        offcoreEventIndex := p.state.offcoreEventIndex + if p.offcore then 1 else 0 })
  | (b, some (.status status)) => some (status, p.store b.events)
  | (b, some .exception) =>
      if env.maps.printable eventStr then some (.Failed, p.store b.events) else none
  | (_, some .undefined) => none

end Prepared

/-- An event of the database (`pcm-raw.cpp:675-1033`). -/
def addRecord (s : State) (fullEventStr : Bytes) (mods : List Bytes) :
    Option (AddEventStatus × State) :=
  match prepare env eventStr s with
  | .error outcome => outcome
  | .ok p => p.finish env eventStr fullEventStr (p.build env eventStr mods)

end Whole

/-! ## MSR events -/

theorem zero_lt_six : 0 < 6 := by decide

theorem one_lt_six : 1 < 6 := by decide

/-- One modifier of an MSR event (`pcm-raw.cpp:543-583`): `config.first` and `pmuName`. -/
def applyMSRModifier (parsed : RawEventEncoding × Option Bytes) (mod : Bytes) :
    Except Stop (RawEventEncoding × Option Bytes) :=
  match (split mod 61).map (·.map tolower) with
  | [name, value] =>
      if name = ascii "msr" then do
        let index ← read_number value
        .ok (parsed.1.set 0 index zero_lt_six, parsed.2)
      else if name = ascii "type" then
        if value = ascii "static" then .ok (parsed.1.set 1 0 one_lt_six, parsed.2)
        else if value = ascii "freerun" then .ok (parsed.1.set 1 1 one_lt_six, parsed.2)
        else .error (.status .Failed)
      else if name = ascii "scope" then
        if value = ascii "package" then .ok (parsed.1, some (ascii "package_msr"))
        else if value = ascii "thread" then .ok (parsed.1, some (ascii "thread_msr"))
        else .error (.status .Failed)
      else .error (.status .Failed)
  | _ => .error (.status .Failed)

/-- `MSR_EVENT` (`pcm-raw.cpp:539-599`) -/
def addMSREvent (s : State) (fullEventStr : Bytes) (mods : List Bytes) :
    Option (AddEventStatus × State) :=
  match mods.foldlM applyMSRModifier (Vector.replicate 6 0, none) with
  | .ok (config, some pmuName) =>
      let event : Event := ⟨text pmuName, true, ⟨config, text fullEventStr⟩⟩
      some (.OK, { s with configs := s.configs.modify event.pmuName (push event) })
  | .ok (_, none) => some (.Failed, s)
  | .error (.status status) => some (status, s)
  | .error _ => none

/-- The text without the spaces around it (`pcm-raw.cpp:509-516`). -/
def trimSpaces (fullEventStr : Bytes) : Bytes :=
  (fullEventStr.rdropWhile (· == 32)).dropWhile (· == 32)

/-- `addEventFromDB` (`pcm-raw.cpp:500-1033`); none where it returns no status. -/
def addEventFromDB (env : Environment) (s : State) (fullEventStr : Bytes) :
    Option (AddEventStatus × State) :=
  let fullEventStr := trimSpaces fullEventStr
  match split fullEventStr 58 with
  | [] => some (.OK, s)
  | eventStr :: mods =>
      if eventStr = ascii "MSR_EVENT" then addMSREvent s fullEventStr mods
      else if env.maps.isEvent eventStr then addRecord env eventStr s fullEventStr mods
      else some (.OK, s)

/-! ## What changes in the group -/

section Group

variable {maps : EventMap} {eventStr : Bytes} {offcore : Bool} {offcoreEventIndex : Nat} {decl : PMUDecl}
  {b b' : Building}

/-- The events are the same, except that the first one may have another configuration. -/
theorem setMSRValue_length {valueStr : Bytes} (done : setMSRValue b valueStr = .ok b') :
    b'.events.length = b.events.length := by
  obtain ⟨value, _, done⟩ := bind_eq_ok done
  cases object : b.MSRObject with
  | none => simp [object] at done
  | some msr =>
      cases own : msr.Position with
      | none => simp [object, own] at done
      | some position =>
          simp only [object, own] at done
          cases events : b.events with
          | nil =>
              simp only [events] at done
              obtain ⟨c, _, done⟩ := bind_eq_ok done
              obtain ⟨c', _, done⟩ := bind_eq_ok done
              cases done
              rfl
          | cons front rest =>
              simp only [events] at done
              obtain ⟨c, _, done⟩ := bind_eq_ok done
              obtain ⟨c', _, done⟩ := bind_eq_ok done
              cases done
              rfl

theorem setField_events {field : Bytes} {value : BitVec 64}
    (done : setField decl field value b = .ok b') : b'.events = b.events := by
  unfold setField at done
  cases declared : decl.lookup field with
  | none => simp [declared] at done
  | some description =>
      cases own : description.Position with
      | none => simp [declared, own] at done
      | some position =>
          simp only [declared, own] at done
          obtain ⟨c, _, done⟩ := bind_eq_ok done
          cases done
          rfl

/-- Which modifiers go to the MSR. -/
def writesMSR (mod : Bytes) : Prop := ∃ value, split mod 61 = [ascii "ocr_msr_val", value]

/-- A modifier leaves the events of the group alone, or it is one for the MSR. -/
theorem applyModifier_cases {mod : Bytes} (done : applyModifier decl b mod = .ok b') :
    b'.events = b.events ∨ writesMSR mod ∧ ∃ value, setMSRValue b value = .ok b' := by
  unfold applyModifier at done
  cases word : words.lookup mod with
  | some settings =>
      simp only [word] at done
      left
      clear word
      induction settings generalizing b with
      | nil =>
          cases done
          rfl
      | cons setting rest ih =>
          rw [List.foldlM_cons] at done
          obtain ⟨b₁, first, done⟩ := bind_eq_ok done
          rw [ih done, setField_events first]
  | none =>
      simp only [word] at done
      split at done
      · cases done
      · split at done
        · obtain ⟨number, _, done⟩ := bind_eq_ok done
          exact .inl (setField_events done)
        · split at done
          · rename_i name value pieces
            unfold assign at done
            split at done
            · cases done
            · split at done
              · obtain ⟨b₁, enabled, done⟩ := bind_eq_ok done
                obtain ⟨number, _, done⟩ := bind_eq_ok done
                exact .inl ((setField_events done).trans (setField_events enabled))
              · split at done
                · rename_i ocr
                  exact .inr ⟨⟨value, by rw [pieces, ocr]⟩, value, done⟩
                · split at done
                  · obtain ⟨number, _, done⟩ := bind_eq_ok done
                    exact .inl (setField_events done)
                  · cases done
          · cases done

/-- Which members go to the MSR: `MSRIndex`, unless the record has a zero there. -/
def choosesMSR (maps : EventMap) (eventStr : Bytes) (register : Bytes × FieldDescription) : Prop :=
  register.1 = ascii "MSRIndex" ∧ ∃ str, maps.getField eventStr (ascii "MSRIndex") = .ok str ∧
    ¬ (str.map tolower = ascii "0" ∨ str.map tolower = ascii "0x00")

/-- A member of the declaration leaves the events of the group alone, or it goes to the MSR. -/
theorem setRegister_cases {register : Bytes × FieldDescription}
    (done : setRegister maps eventStr offcore offcoreEventIndex b register = .ok b') :
    b'.events = b.events ∨ choosesMSR maps eventStr register ∧
      ∃ value msr, setMSRValue { b with MSRObject := msr } value = .ok b' := by
  unfold setRegister at done
  split at done
  · cases done
  · split at done
    · rename_i index
      obtain ⟨str, field, done⟩ := bind_eq_ok done
      by_cases zero : str.map tolower = ascii "0" ∨ str.map tolower = ascii "0x00"
      · rw [if_pos zero] at done
        cases done
        exact .inl rfl
      · rw [if_neg zero] at done
        obtain ⟨chosen, _, done⟩ := bind_eq_ok done
        split at done
        · cases done
        · obtain ⟨value, _, done⟩ := bind_eq_ok done
          exact .inr ⟨⟨index, str, field, zero⟩, value, _, done⟩
    · split at done
      · cases done
      · split at done
        · cases done
          exact .inl rfl
        · split at done
          · obtain ⟨c, _, done⟩ := bind_eq_ok done
            cases done
            exact .inl rfl
          · obtain ⟨str, _, done⟩ := bind_eq_ok done
            obtain ⟨value, _, done⟩ := bind_eq_ok done
            obtain ⟨c, _, done⟩ := bind_eq_ok done
            cases done
            exact .inl rfl

theorem setRegister_length {register : Bytes × FieldDescription}
    (done : setRegister maps eventStr offcore offcoreEventIndex b register = .ok b') :
    b'.events.length = b.events.length := by
  rcases setRegister_cases done with same | ⟨_, value, msr, done⟩
  · rw [same]
  · exact (setMSRValue_length done).trans rfl

theorem applyModifier_length {mod : Bytes} (done : applyModifier decl b mod = .ok b') :
    b'.events.length = b.events.length := by
  rcases applyModifier_cases done with same | ⟨_, value, done⟩
  · rw [same]
  · exact setMSRValue_length done

/-- What every step keeps, a loop keeps, also when it ends early. -/
theorem runAll_keeps {α β : Type} {act : Building → α → Except Stop Building} (view : Building → β)
    {l : List α} (keeps : ∀ a ∈ l, ∀ b b', act b a = .ok b' → view b' = view b) (b : Building) :
    view (runAll act b l).1 = view b := by
  induction l generalizing b with
  | nil => rfl
  | cons a rest ih =>
      obtain ⟨head, tail⟩ := List.forall_mem_cons.mp keeps
      rw [runAll]
      cases first : act b a with
      | error stop => rfl
      | ok b₁ => exact (ih tail b₁).trans (head b b₁ first)

theorem length_build (eventStr : Bytes) (env : Environment) (p : Prepared) (mods : List Bytes) :
    (p.build env eventStr mods).1.events.length = p.events.length := by
  have first : (runAll (setRegister env.maps eventStr p.offcore p.state.offcoreEventIndex)
      { config := p.init, events := p.events } p.decl).1.events.length = p.events.length :=
    runAll_keeps (fun b => b.events.length) (fun _ _ _ _ done => setRegister_length done) _
  unfold Prepared.build
  split
  · rename_i b registers
    rw [registers] at first
    rw [← first]
    exact runAll_keeps (fun b => b.events.length) (fun _ _ _ _ done => applyModifier_length done) b
  · exact first

theorem eventsOf_touch (configs : RawPMUConfigs) (pmuName other : Bytes) (fixed : Bool) :
    eventsOf (touch configs pmuName) other fixed = eventsOf configs other fixed := by
  have same : (touch configs pmuName).get (text other) = configs.get (text other) := by
    by_cases equal : text other = text pmuName
    · rw [equal, touch, get_modify_self]
      rfl
    · rw [touch, get_modify_ne _ equal]
  rw [eventsOf, eventsOf, same]

theorem eventsOf_touchProgrammable (s : State) (pmuName : Bytes) (counter : Option Int)
    (other : Bytes) (fixed : Bool) :
    eventsOf (touchProgrammable s pmuName counter).configs other fixed =
      eventsOf s.configs other fixed := by
  unfold touchProgrammable
  split
  · rfl
  · exact eventsOf_touch _ _ _ _

theorem eventsOf_resetIndex (c : Checked) (pmuName : Bytes) (fixed : Bool) :
    eventsOf c.resetIndex.state.configs pmuName fixed = eventsOf c.state.configs pmuName fixed := by
  unfold Checked.resetIndex
  dsimp only
  split
  · exact eventsOf_touch _ _ _ _
  · rfl

/-- The state that an outcome leaves, and the one in which the call goes on. -/
def stateOf {α : Type} (state : α → State) : Except (Option (AddEventStatus × State)) α → Option State
  | .error outcome => outcome.map Prod.snd
  | .ok a => some (state a)

theorem stateOf_findDeclaration {env : Environment} {c : Checked} {s' : State}
    (left : stateOf (·.state) (findDeclaration env eventStr c) = some s') : s' = c.state := by
  unfold findDeclaration at left
  split at left
  · cases left
    rfl
  · split at left
    · split at left
      · cases left
        rfl
      · cases left
    · cases left
      rfl

/-- The checks leave all events as they are, and the index. -/
theorem stateOf_check {env : Environment} {s s' : State}
    (left : stateOf Checked.state (check env eventStr s) = some s') :
    (∀ pmuName fixed, eventsOf s'.configs pmuName fixed = eventsOf s.configs pmuName fixed) ∧
      s'.offcoreEventIndex = s.offcoreEventIndex := by
  have touched : ∀ pmu counter, (∀ pmuName fixed,
      eventsOf (touchProgrammable s pmu counter).configs pmuName fixed = eventsOf s.configs pmuName fixed) ∧
      (touchProgrammable s pmu counter).offcoreEventIndex = s.offcoreEventIndex := by
    intro pmu counter
    refine ⟨eventsOf_touchProgrammable s pmu counter, ?_⟩
    unfold touchProgrammable
    split
    · rfl
    · rfl
  unfold check at left
  split at left
  · dsimp only at left
    split at left
    · cases left
      exact touched _ _
    · split at left
      · cases left
        exact touched _ _
      · split at left
        · cases left
        · cases left
          exact touched _ _
  · cases left

/-- What comes before the fields leaves all events as they are. -/
theorem eventsOf_prepare {env : Environment} {s s' : State}
    (left : stateOf (·.state) (prepare env eventStr s) = some s') (pmuName : Bytes) (fixed : Bool) :
    eventsOf s'.configs pmuName fixed = eventsOf s.configs pmuName fixed := by
  unfold prepare at left
  cases checked : check env eventStr s with
  | error outcome =>
      rw [checked] at left
      exact (stateOf_check (by rw [checked]; exact left)).1 pmuName fixed
  | ok c =>
      rw [checked] at left
      rw [stateOf_findDeclaration left, eventsOf_resetIndex]
      exact (stateOf_check (by rw [checked]; rfl)).1 pmuName fixed

theorem events_store (p : Prepared) (events : List RawEventConfig) :
    eventsOf (p.store events).configs p.pmuName p.fixed.isSome = events := by
  rw [eventsOf, Prepared.store, get_modify_self, setEvents]
  cases p.fixed.isSome with
  | true => rfl
  | false => rfl

end Group

end Pcm.Raw.Database

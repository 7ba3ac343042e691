import Pcm.EventSyntax

/-!
# Event files of `pcm-iio`

`load_events` (`utils.cpp:1257-1404`) with the handler of `pcm-iio` (`pcm-iio-pmu.cpp:299-372`). A line names
one counter by a horizontal and a vertical name, and both names get numbers: the horizontal one that of the
last name that was new, the vertical one its place among the names that came with the same horizontal name.
-/

namespace Pcm.Iio

open StdString

/-! ## Fields -/

/-- `PCM::PerfmonField` -/
inductive PerfmonField
  | invalid | opcode | eventSelect | umask | reset | edgeDet | ignored | overflowEnable | enable | invert
  | thresh | chMask | fcMask | unitType | hEventName | vEventName | multiplier | divider | counterIndex
  deriving DecidableEq, Repr

/-- `fillOpcodeFieldMapForPCIeEvents` -/
def opcodeFieldMap : List (Bytes × PerfmonField) :=
  [(ascii "opcode", .opcode), (ascii "ev_sel", .eventSelect), (ascii "umask", .umask),
    (ascii "reset", .reset), (ascii "edge_det", .edgeDet), (ascii "ignored", .ignored),
    (ascii "overflow_enable", .overflowEnable), (ascii "en", .enable), (ascii "invert", .invert),
    (ascii "thresh", .thresh), (ascii "ch_mask", .chMask), (ascii "fc_mask", .fcMask),
    (ascii "hname", .hEventName), (ascii "vname", .vEventName), (ascii "multiplier", .multiplier),
    (ascii "ctr", .counterIndex), (ascii "unit", .unitType)]

/-- `ofm[key]`, where a key that is missing gets the first value. -/
def fieldOf (key : Bytes) : PerfmonField := (opcodeFieldMap.lookup key).getD .invalid

/-- `ccr::ccr_type` -/
inductive CcrType
  | skx
  | icx
  deriving DecidableEq, Repr

/-- The setters of `ccr` (`lspci.h:81-155`). -/
def setBits (mask : BitVec 64) (shift : Nat) (ccr value : BitVec 64) : BitVec 64 :=
  ccr &&& ~~~(mask <<< shift) ||| (value <<< shift) &&& (mask <<< shift)

/-- The field of the control register that the handler sets; `none` for a field that is not recognized. -/
def setField (ccrType : CcrType) (field : PerfmonField) (ccr value : BitVec 64) : Option (BitVec 64) :=
  match field with
  | .opcode | .ignored => some ccr
  | .eventSelect => some (setBits 0xFF 0 ccr value)
  | .umask => some (setBits 0xFF 8 ccr value)
  | .reset => some (setBits 1 17 ccr value)
  | .edgeDet => some (setBits 1 18 ccr value)
  | .overflowEnable => some (setBits 1 20 ccr value)
  | .enable => some (setBits 1 22 ccr value)
  | .invert => some (setBits 1 23 ccr value)
  | .thresh => some (setBits 0xFFF 24 ccr value)
  | .chMask => some (setBits (if ccrType = .skx then 0xFF else 0xFFF) 36 ccr value)
  | .fcMask => some (setBits 7 (if ccrType = .skx then 44 else 48) ccr value)
  | _ => none

/-! ## Counters and names -/

inductive CounterType
  | invalid
  | iio
  deriving DecidableEq, Repr

/-- `counter` -/
structure Counter where
  hEventName : Bytes := ascii "INVALID"
  vEventName : Bytes := ascii "INVALID"
  ccr : BitVec 64 := 0
  idx : Int := 0
  multiplier : Int := 1
  hId : Nat := 0
  vId : Nat := 0
  type : CounterType := .invalid
  deriving DecidableEq, Repr

/-- What `nameMap` has for a horizontal name: its number, and the vertical names that came with it. -/
structure NameEntry where
  hId : Nat := 0
  vNames : List Bytes := []
  deriving DecidableEq, Repr

/-- `PCIeEventNameMap`, as the list of its entries. -/
abbrev NameMap := List (Bytes × NameEntry)

/-- `nameMap[h_name]`, made if it is missing. -/
def NameMap.entry (nameMap : NameMap) (hName : Bytes) : NameEntry := (nameMap.lookup hName).getD {}

/-- An assignment through `nameMap[h_name]`. -/
def NameMap.set (nameMap : NameMap) (hName : Bytes) (entry : NameEntry) : NameMap :=
  if nameMap.any (·.1 = hName) then
    nameMap.map (fun old => if old.1 = hName then (hName, entry) else old)
  else nameMap ++ [(hName, entry)]

def dos2unix (text : Bytes) : Bytes := if text.getLast? = some 13 then text.dropLast else text

/-- `iss2 >> std::setbase(0) >> numValue`; where only white space is read the variable has no value. -/
def numValue (value : Bytes) : BitVec 64 :=
  let (negative, unsigned) := splitSign (value.dropWhile isspace)
  let (base, digits) :=
    match unsigned with
    | 48 :: 120 :: rest => (16, digitRun 16 rest)
    | 48 :: 88 :: rest => (16, digitRun 16 rest)
    | 48 :: rest => (8, digitRun 8 (48 :: rest))
    | rest => (10, digitRun 10 rest)
  let number := digitsToNat base digits
  if 2 ^ 64 ≤ number then -1
  else if negative then -BitVec.ofNat 64 number
  else BitVec.ofNat 64 number

/-- `static_cast<int>(numValue)` -/
def toInt (number : BitVec 64) : Int := (number.setWidth 32).toInt

/-! ## Lines -/

/-- What `load_events` knows while it reads a line. -/
structure Parse where
  nameMap : NameMap
  ctr : Counter
  hName : Bytes := []

/-- `item.substr(0, item.find("="))` -/
def keyOf (item : Bytes) : Bytes := item.takeWhile (· ≠ 61)

/-- `item.substr(item.find("=") + 1)`, which is the item where it has no `=`. -/
def valueOf (item : Bytes) : Bytes := if 61 ∈ item then (item.dropWhile (· ≠ 61)).tail else item

/-- `case PCM::H_EVENT_NAME` -/
def parseHName (p : Parse) (hName : Bytes) : Parse :=
  let nameMap :=
    if (p.nameMap.lookup hName).isSome then p.nameMap
    else p.nameMap.set hName { hId := p.nameMap.length }
  { nameMap := nameMap
    ctr := { p.ctr with hEventName := hName, hId := nameMap.length - 1 }
    hName := hName }

/-- `case PCM::V_EVENT_NAME`; the numbers that are stored with the vertical names are never read. -/
def parseVName (p : Parse) (vName : Bytes) : Except Bytes Parse :=
  let entry := p.nameMap.entry p.hName
  if vName ∈ entry.vNames then .error (ascii "Detect duplicated v_name:" ++ vName ++ ascii "\n")
  else
    .ok { p with
      nameMap := p.nameMap.set p.hName { entry with vNames := entry.vNames ++ [vName] }
      ctr := { p.ctr with vEventName := vName, vId := entry.vNames.length } }

/-- One item of a line. -/
def parseItem (ccrType : CcrType) (p : Parse) (item : Bytes) : Except Bytes Parse :=
  let key := keyOf item
  let value := valueOf item
  if key = [] ∨ value = [] then .ok p
  else
    match fieldOf key with
    | .hEventName => .ok (parseHName p (dos2unix value))
    | .vEventName => parseVName p (dos2unix value)
    | .multiplier => .ok { p with ctr := { p.ctr with multiplier := toInt (numValue value) } }
    -- the handler does not take the divider over
    | .divider => .ok p
    | .counterIndex => .ok { p with ctr := { p.ctr with idx := toInt (numValue value) } }
    | .unitType =>
        if dos2unix value = ascii "iio" then .ok { p with ctr := { p.ctr with type := .iio } }
        else .error (ascii "event line processing(end) fault.\n")
    | field =>
        match setField ccrType field p.ctr.ccr (numValue value) with
        | some ccr => .ok { p with ctr := { p.ctr with ccr := ccr } }
        | none => .error (ascii "event line processing(field) fault.\n")

/-- What a file has been read into; the type of the last counter stays for the next one. -/
structure Loaded where
  nameMap : NameMap := []
  ctrs : List Counter := []
  type : CounterType := .invalid
  deriving DecidableEq, Repr

/-- Lines with a `#` and lines without a `=` are ignored. -/
def isCounterLine (line : Bytes) : Bool := 35 ∉ line ∧ 61 ∈ line

def items (line : Bytes) : List Bytes := Raw.getlines 44 [] line

def loadLine (ccrType : CcrType) (l : Loaded) (line : Bytes) : Except Bytes Loaded :=
  if isCounterLine line then do
    let p ← (items line).foldlM (parseItem ccrType) { nameMap := l.nameMap, ctr := { type := l.type } }
    return { nameMap := p.nameMap, ctrs := l.ctrs ++ [p.ctr], type := p.ctr.type }
  else .ok l

/-- `load_events`, for a file with this content. -/
def load_events (ccrType : CcrType) (content : Bytes) : Except Bytes Loaded :=
  (Raw.getlines 10 [] content).foldlM (loadLine ccrType) {}

end Pcm.Iio

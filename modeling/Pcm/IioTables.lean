import Pcm.IioEvents
import Pcm.Lib.Decimal
import Pcm.Lib.OrderedMap

/-!
# Tables of `pcm-iio`

`collectData` (`pcm-iio-pmu.cpp:435-471`) and the two builders (`pcm-iio-pmu.cpp:13-29`, `127-265`). The
counters are sorted by their numbers; a row has the counters with one vertical number, and its name is that
of the counter with the horizontal number 0.
-/

namespace Pcm.Iio

open StdString

/-! ## Stacks and results -/

/-- `iio_stack`: the texts of its root ports by part, and the lines of the devices below it. -/
structure Stack where
  stackName : Bytes
  unitId : Nat
  rootPorts : List (Nat × Bytes) := []
  devices : List Bytes := []

/-- `iio_stacks_on_socket` -/
structure Socket where
  socketId : Nat
  stackList : List Stack

/-- `result_content`: by socket, stack and the numbers of the counter. -/
abbrev Results := Nat → Nat → Nat × Nat → Nat

def Results.set (r : Results) (socketId unitId : Nat) (ids : Nat × Nat) (value : Nat) : Results :=
  fun socket unit pair =>
    if socket = socketId ∧ unit = unitId ∧ pair = ids then value else r socket unit pair

/-- `iio_counter` -/
structure IioCounter where
  counter : Counter
  data : Results

section Collect

variable (iios : List Socket)

/-- `getSample`: what was measured for the counter is stored under its numbers, next to what the counters
before it have left there. -/
def getSample (ctr : Counter) (measured : Nat → Nat → Nat) (results : Results) : Results :=
  iios.foldl (fun r socket => socket.stackList.foldl (fun r stack =>
    r.set socket.socketId stack.unitId (ctr.hId, ctr.vId) (measured socket.socketId stack.unitId)) r) results

/-- `collectData`; `measured` has the values of the counters by their place in the file. -/
def collectData (measured : Nat → Nat → Nat → Nat) (results : Results) :
    List (Counter × Nat) → List IioCounter
  | [] => []
  | (ctr, i) :: ctrs =>
      let results := getSample iios ctr (measured i) results
      ⟨ctr, results⟩ :: collectData measured results ctrs

end Collect

/-! ## Rows -/

/-- What stops a builder: a counter that is not there, or the exception of `a_data`. -/
inductive Fault
  | nullCounter
  | lengthError
  deriving DecidableEq, Repr

/-- `v_sort` -/
abbrev Sorting := List (Nat × List (Nat × IioCounter))

def vSort (ctrs : List IioCounter) : Sorting :=
  ctrs.foldl (fun sorting c =>
    OrderedMap.upsert c.counter.vId [] (OrderedMap.upsert c.counter.hId c (fun _ => c)) sorting) []

/-- The name and the values of a row; `h_array[0]` is a null pointer where no counter has the number 0. -/
def rowData (socketId unitId : Nat) (vunit : Nat × List (Nat × IioCounter)) :
    Except Fault (Bytes × List Nat) :=
  match vunit.2.lookup 0 with
  | none => .error .nullCounter
  | some first => .ok (first.counter.vEventName,
      vunit.2.map (fun hunit => hunit.2.data socketId unitId (hunit.1, vunit.1)))

/-- `combine_stack_name_and_counter_names`, with the entries of the map in the order of iteration. -/
def combine_stack_name_and_counter_names (stackName : Bytes) (nameMap : NameMap) : List Bytes :=
  stackName :: nameMap.foldl (fun tmp entry => tmp.set entry.2.hId entry.1)
    (List.replicate nameMap.length [])

/-- `%4d` and a unit (`utils.h:229-255`) -/
def unit_format (n : Nat) : Bytes :=
  let print (value : Nat) (unit : UInt8) : Bytes :=
    let digits := decimalInt ((BitVec.ofNat 32 value).toInt)
    List.replicate (4 - digits.length) 32 ++ digits ++ [32, unit]
  if n ≤ 9999 then print n 32
  else if n ≤ 9999999 then print (n / 1000) 75
  else if n ≤ 9999999999 then print (n / 1000000) 77
  else if n ≤ 9999999999999 then print (n / 1000000000) 71
  else print (n / 1000000000000) 84

def spaces (n : Nat) : Bytes := List.replicate n 32

/-- `pcm_iio_display_config`, and the texts with which `printDateForCSV` begins a row. -/
structure Display where
  humanReadable : Bool := false
  showRootPort : Bool := false
  headerDate : Bytes
  dataDate : Bytes

/-- `get_root_port_dev` -/
def get_root_port_dev (partId : Nat) (stack : Stack) : Bytes :=
  (stack.rootPorts.lookup partId).getD (spaces 8)

/-- `erase(find_last_not_of(' ') + 1)` -/
def trimRight (text : Bytes) : Bytes := (text.reverse.dropWhile (· = 32)).reverse

/-! ## CSV -/

section Csv

variable (display : Display) (ctrs : List IioCounter)

/-- The widest vertical name. -/
def maxNameWidth : Nat := (ctrs.map (fun c => c.counter.vEventName.length)).foldl max 0

def csvName (vName : Bytes) : Bytes :=
  if display.humanReadable then vName ++ spaces (maxNameWidth ctrs - vName.length) else vName

def csvValue (value : Nat) : Bytes :=
  if display.humanReadable then unit_format value else decimal value

/-- The columns before the name of the row. -/
def csvBegin (socket : Socket) (stack : Stack) (partId : Nat) : List Bytes :=
  [display.dataDate, ascii "Socket" ++ decimal socket.socketId] ++
    (if display.showRootPort then [get_root_port_dev partId stack] else []) ++
    [if display.humanReadable then stack.stackName else trimRight stack.stackName]

def csvRow (socket : Socket) (stack : Stack) (vunit : Nat × List (Nat × IioCounter)) (partId : Nat) :
    Except Fault (List Bytes) := do
  let (vName, values) ← rowData socket.socketId stack.unitId vunit
  return csvBegin display socket stack partId ++ csvName display ctrs vName :: values.map (csvValue display)

def csvHeader (nameMap : NameMap) : List Bytes :=
  [display.headerDate, ascii "Socket"] ++ (if display.showRootPort then [ascii "Root Port"] else []) ++
    ascii "Name" :: combine_stack_name_and_counter_names (ascii "Part") nameMap

/-- The rows of one stack. -/
def csvStack (socket : Socket) (stack : Stack) : Except Fault (List (List Bytes)) :=
  (vSort ctrs).zipIdx.mapM (fun vunit => csvRow display ctrs socket stack vunit.1 vunit.2)

/-- `PcmIioCsvBuilder::buildDisplayBuffer`; a row is the list of its fields. -/
def csvBuffer (nameMap : NameMap) (iios : List Socket) : Except Fault (List (List Bytes)) := do
  let rows ← (iios.flatMap (fun socket => socket.stackList.map (fun stack => (socket, stack)))).mapM
    (fun p => csvStack display ctrs p.1 p.2)
  return csvHeader display nameMap :: rows.flatten

end Csv

/-! ## Display -/

section Display

variable (ctrs : List IioCounter)

/-- A line of the table: text, or a row with its name, the widths of its columns and its values. -/
inductive DisplayLine
  | text (line : Bytes)
  | row (name : Bytes) (cells : List (Nat × Nat))
  deriving DecidableEq, Repr

/-- `prepare_data` -/
def prepare_data (values : List Nat) (headers : List Bytes) : List (Nat × Nat) :=
  List.zipWith (fun header value => (header.length, value)) headers.tail values

/-- `a_data`, which throws where a value is wider than its column. -/
def checkCell (cell : Nat × Nat) : Except Fault Unit :=
  if cell.1 < (unit_format cell.2).length then .error .lengthError else .ok ()

def header_footer (begin : UInt8) (headers : List Bytes) : Bytes :=
  begin :: headers.flatMap (fun name => List.replicate name.length 95 ++ [begin])

def title (headers : List Bytes) : Bytes := 124 :: headers.flatMap (fun name => name ++ [124])

/-- The text of a line. -/
def DisplayLine.bytes (headers : List Bytes) : DisplayLine → Bytes
  | .text line => line
  | .row name cells =>
      let begin := ascii "| " ++ name
      let distance : Int := ((headers.headD []).length : Int) - (begin.length - 1 : Nat)
      begin ++ spaces distance.natAbs ++ 124 :: cells.flatMap (fun cell =>
        unit_format cell.2 ++ spaces (cell.1 - (unit_format cell.2).length) ++ [124])

def displayRow (socket : Socket) (stack : Stack) (headers : List Bytes)
    (vunit : Nat × List (Nat × IioCounter)) : Except Fault DisplayLine := do
  let (vName, values) ← rowData socket.socketId stack.unitId vunit
  let cells := prepare_data values headers
  cells.forM checkCell
  return .row vName cells

/-- The lines of one stack. -/
def displayStack (nameMap : NameMap) (socket : Socket) (stack : Stack) :
    Except Fault (List DisplayLine) := do
  let headers := combine_stack_name_and_counter_names stack.stackName nameMap
  let rows ← (vSort ctrs).mapM (displayRow socket stack headers)
  return [.text (header_footer 32 headers), .text (title headers), .text (header_footer 124 headers)] ++
    rows ++ .text (header_footer 124 headers) :: stack.devices.map .text ++
    [.text (header_footer 32 headers)]

/-- `PcmIioDisplayBuilder::buildDisplayBuffer` -/
def displayBuffer (nameMap : NameMap) (iios : List Socket) : Except Fault (List DisplayLine) := do
  let tables ← iios.mapM (fun socket => do
    let lines ← socket.stackList.mapM (displayStack ctrs nameMap socket)
    return .text (ascii "Socket" ++ decimal socket.socketId) :: lines.flatten)
  return tables.flatten

end Display

end Pcm.Iio

import Pcm.Lib.Json
import Pcm.Topology

/-!
# The JSON printer

`JSONPrinter` (`pcm-sensor-server.cpp:326-711`) with `Indent` (`pcm-sensor-server.cpp:89-129`). Every
item is written with a comma after it; `endObject` looks three characters back and writes over the comma
of the last item.
-/

namespace Pcm.JsonPrinter

open StdString Json Pcm.Topology

/-! ## The stream and the indentation -/

/-- A `std::stringstream`: its characters and its write position. -/
structure StringStream where
  content : Bytes := []
  put : Nat := 0
  failed : Bool := false
  deriving DecidableEq, Repr

namespace StringStream

/-- `ss << text`, over what is there. -/
def write (ss : StringStream) (text : Bytes) : StringStream :=
  if ss.failed then ss
  else { ss with content := ss.content.take ss.put ++ (text ++ ss.content.drop (ss.put + text.length))
                 put := ss.put + text.length }

/-- `ss.seekg( -3, std::ios_base::end ); ss.peek()`: the character there and its position. Before the
beginning the stream fails. -/
def peekBack (ss : StringStream) : Option (UInt8 × Nat) × StringStream :=
  if ss.failed || ss.content.length < 3 then (none, { ss with failed := true })
  else (ss.content[ss.content.length - 3]?.map (·, ss.content.length - 3), ss)

/-- `ss.seekp( pos )` -/
def seekp (ss : StringStream) (pos : Nat) : StringStream := { ss with put := pos }

end StringStream

structure Indent where
  indstr : Bytes
  indent : Bytes := []
  len : Nat := 0
  deriving DecidableEq, Repr

namespace Indent

def increment (i : Indent) : Indent := { i with len := i.len + 1, indent := i.indent ++ i.indstr }

def decrement (i : Indent) : Except StdException Indent :=
  if 0 < i.len then
    let len := i.len - 1
    if i.indent.length < len * i.indstr.length then .error .out_of_range
    else .ok { i with len := len, indent := i.indent.take (len * i.indstr.length) }
  else .error (.runtime_error (ascii "Indent: Decremented len_ too often!"))

end Indent

/-! ## Writing -/

structure JSONPrinter where
  ss : StringStream
  indentation : Indent
  deriving DecidableEq, Repr

abbrev Print := StateT JSONPrinter (Except StdException) Unit

inductive LineEndAction
  | newLineOnly
  | delimiterOnly
  | delimiterAndNewLine
  deriving DecidableEq, Repr

/-- `HTTP_EOL` -/
def eol : Bytes := [13, 10]

def write (text : Bytes) : Print := modify (fun s => { s with ss := s.ss.write text })

/-- `startObject( s, ch )`; the indentation grows after it has been written. -/
def startObject (name : Bytes) (ch : UInt8) : Print := do
  let s ← get
  set { s with indentation := s.indentation.increment }
  write s.indentation.indent
  write (if name = [] then [] else quoted name ++ ascii " : ")
  write [ch]
  write eol

/-- The comma three characters back, if there is one, is written over. -/
def dropComma : Print := do
  let s ← get
  match s.ss.peekBack with
  | (some (c, pos), ss) =>
      if c = 44 then set { s with ss := (ss.seekp pos).write eol } else set { s with ss := ss }
  | (none, ss) => set { s with ss := ss }

/-- What ends the line after a bracket. -/
def endLine : LineEndAction → Print
  | .newLineOnly => write eol
  | .delimiterAndNewLine => do
      write [44]
      write eol
  | .delimiterOnly => write [44]

def closeBracket (lea : LineEndAction) (ch : UInt8) : Print := do
  let s ← get
  let indentation ← s.indentation.decrement
  set { s with indentation := indentation }
  write indentation.indent
  write [ch]
  endLine lea

/-- `endObject( lea, ch )` -/
def endObject (lea : LineEndAction) (ch : UInt8) : Print := do
  dropComma
  closeBracket lea ch

/-- `printCounter( name, c )` for text. -/
def printText (name text : Bytes) : Print := do
  let s ← get
  write s.indentation.indent
  write (34 :: (name ++ ascii "\" : \""))
  write text
  write (ascii "\",")
  write eol

/-- `printCounter( name, c )` for a number, as it is printed. -/
def printCounter (name number : Bytes) : Print := do
  let s ← get
  write s.indentation.indent
  write (34 :: (name ++ ascii "\" : "))
  write number
  write [44]
  write eol

/-- `iterateVectorAndCallAccept` -/
def iterateVectorAndCallAccept {α : Type} (accept : α → Print) : List α → Print
  | [] => pure ()
  | elem :: rest => do
      startObject [] 123
      accept elem
      endObject .delimiterAndNewLine 125
      iterateVectorAndCallAccept accept rest

/-! ## What is printed -/

/-- A value that prints as a JSON number. -/
abbrev Number := { text : Bytes // IsNumber text }

/-- Whose counters are shown. -/
inductive Site
  | thread (osID : Int)
  | socket (socketID : Int)
  | system
  deriving DecidableEq, Repr

/-- A name without quotes, backslashes and control characters. -/
abbrev Name := { text : Bytes // Plain text }

/-- `AcceleratorCounterState` with at least one configuration. -/
structure Accelerators where
  counterName : Name
  numOfDevs : Nat
  counterNames : List Name
  value : Nat → Nat → Number

/-- `PCIeCollector`: the names of its events, and for each socket and for all of them the bytes read and
written and the raw values by event. -/
structure PCIe where
  eventNames : List Name
  socketCount : Nat
  readBytes : Option Nat → Number
  writeBytes : Option Nat → Number
  raw : Option Nat → Nat → Number

/-- The numbers of a pair of aggregators, by the names under which they are printed, and what the machine
has besides the tree. -/
structure Readings where
  interval : Number
  basic : Site → Bytes → Number
  uncore : Site → Bytes → Number
  uncoreFrequencies : Site → List Number
  nearMemoryMetricsAvailable : Bool
  accelerators : Option Accelerators
  numSockets : Nat
  qpiLinksPerSocket : Nat
  cxl : Nat → Bytes → Number
  link : Nat → Nat → Bytes → Number
  pcie : Option PCIe

def maxCState : Nat := 10

/-- `CStateResidency[i]` for every C-state. -/
def cStateNames : List Bytes :=
  (List.range (maxCState + 1)).map (fun i => ascii "CStateResidency[" ++ (decimal i ++ ascii "]"))

def coreCounterNames : List Bytes :=
  ["Instructions Retired Any", "Clock Unhalted Thread", "Clock Unhalted Ref", "L3 Cache Misses",
    "L3 Cache Hits", "L2 Cache Misses", "L2 Cache Hits", "L3 Cache Occupancy", "Invariant TSC",
    "SMI Count", "Core Frequency", "Frontend Bound", "Bad Speculation", "Backend Bound", "Retiring",
    "Fetch Latency Bound", "Fetch Bandwidth Bound", "Branch Misprediction Bound",
    "Machine Clears Bound", "Memory Bound", "Core Bound", "Heavy Operations Bound",
    "Light Operations Bound"].map ascii

def energyCounterNames : List Bytes := ascii "Thermal Headroom" :: cStateNames

def memoryCounterNames : List Bytes := ["Local Memory Bandwidth", "Remote Memory Bandwidth"].map ascii

/-- The counters before the frequencies; those of near memory only where they are available. -/
def uncoreCounterNames (nearMemory : Bool) : List Bytes :=
  ["DRAM Writes", "DRAM Reads"].map ascii ++
  ((if nearMemory then ["NM HitRate", "NM Hits", "NM Misses", "NM Miss Bw"].map ascii else []) ++
  ["Persistent Memory Writes", "Persistent Memory Reads", "Embedded DRAM Writes",
    "Embedded DRAM Reads", "Memory Controller IA Requests", "Memory Controller GT Requests",
    "Memory Controller IO Requests", "Package Joules Consumed", "PP0 Joules Consumed",
    "PP1 Joules Consumed", "DRAM Joules Consumed"].map ascii)

def frequencyName (i : Nat) : Bytes := ascii "Uncore Frequency Die " ++ decimal i

def ratioNames : List Bytes := ["Local Memory Request Ratio", "Remote Memory Request Ratio"].map ascii

def cxlNames : List Bytes := ["CXL Write Cache", "CXL Write Mem"].map ascii

def linkNames (j : Nat) : List Bytes :=
  ["Incoming Data Traffic On Link ", "Outgoing Data And Non-Data Traffic On Link ",
    "Utilization Incoming Data Traffic On Link ",
    "Utilization Outgoing Data And Non-Data Traffic On Link "].map (fun name => ascii name ++ decimal j)

/-! ## The visitor -/

section Visitor

variable (r : Readings)

/-- The counters of these names, in order. -/
def printCounters (names : List Bytes) (value : Bytes → Number) : Print :=
  names.forM (fun name => printCounter name (value name).1)

/-- An object with a name. -/
def printObject (name : Bytes) (lea : LineEndAction) (body : Print) : Print := do
  startObject name 123
  body
  endObject lea 125

/-- A list of objects with a name. -/
def printList {α : Type} (name : Bytes) (accept : α → Print) (elements : List α) : Print := do
  startObject name 91
  iterateVectorAndCallAccept accept elements
  endObject .delimiterAndNewLine 93

def printBasicCounterState (site : Site) : Print := do
  printObject (ascii "Core Counters") .delimiterAndNewLine
    (printCounters coreCounterNames (r.basic site))
  printObject (ascii "Energy Counters") .delimiterAndNewLine
    (printCounters energyCounterNames (r.basic site))
  printObject (ascii "Core Memory Bandwidth Counters") .newLineOnly
    (printCounters memoryCounterNames (r.basic site))

def printUncoreCounterState (site : Site) : Print :=
  printObject (ascii "Uncore Counters") .newLineOnly (do
    printCounters (uncoreCounterNames r.nearMemoryMetricsAvailable) (r.uncore site)
    (r.uncoreFrequencies site).zipIdx.forM (fun p => printCounter (frequencyName p.2) p.1.1)
    printCounters ratioNames (r.uncore site)
    printCounters cStateNames (r.uncore site))

def dispatchHyperThread (ht : HyperThread) : Print := do
  printText (ascii "Object") (ascii "HyperThread")
  printCounter (ascii "Thread ID") (decimalInt ht.threadID)
  printCounter (ascii "OS ID") (decimalInt ht.osID)
  printBasicCounterState r (.thread ht.osID)

def dispatchUncore (socketID : Int) : UncoreKind → Print
  | .server => do
      printText (ascii "Object") (ascii "ServerUncore")
      printUncoreCounterState r (.socket socketID)
  | .client => do
      printText (ascii "Object") (ascii "ClientUncore")
      printUncoreCounterState r (.socket socketID)

def dispatchCore (c : Topology.Core) : Print := do
  printText (ascii "Object") (ascii "Core")
  printCounter (ascii "Number of threads") (decimal c.threads.length)
  printList (ascii "Threads") (dispatchHyperThread r) c.threads
  printCounter (ascii "Core ID") (decimalInt c.socketUniqueCoreID)
  printCounter (ascii "HW Core ID") (decimalInt c.coreID)
  printCounter (ascii "Module ID") (decimalInt c.moduleID)
  printCounter (ascii "Tile ID") (decimalInt c.tileID)
  printCounter (ascii "Die ID") (decimalInt c.dieID)
  printCounter (ascii "Die Group ID") (decimalInt c.dieGroupID)
  printCounter (ascii "Socket ID") (decimalInt c.socketID)

def dispatchSocket (s : Socket) : Print := do
  printText (ascii "Object") (ascii "Socket")
  printCounter (ascii "Socket ID") (decimalInt s.socketID)
  printCounter (ascii "Number of cores") (decimal s.cores.length)
  printList (ascii "Cores") (dispatchCore r) s.cores
  printObject (ascii "Uncore") .delimiterAndNewLine (dispatchUncore r s.socketID s.uncore)
  printObject (ascii "Core Aggregate") .newLineOnly (printBasicCounterState r (.socket s.socketID))

def printAccelCounterState (accs : Accelerators) : Print :=
  (List.range accs.numOfDevs).forM (fun i =>
    printObject (accs.counterName.1 ++ (ascii " Counters Device " ++ decimal i)) .delimiterAndNewLine
      (accs.counterNames.zipIdx.forM (fun p => printCounter p.1.1 (accs.value i p.2).1)))

def printSystemCounterState : Print :=
  (List.range r.numSockets).forM (fun i =>
    printObject (ascii "QPI Counters Socket " ++ decimal i) .delimiterAndNewLine (do
      printCounters cxlNames (r.cxl i)
      (List.range r.qpiLinksPerSocket).forM (fun j => printCounters (linkNames j) (r.link i j))))

/-- The counters of one socket, or of all of them. -/
def printPCIeCounters (col : PCIe) (skt : Option Nat) : Print := do
  printCounter (ascii "PCIe Read Bytes") (col.readBytes skt).1
  printCounter (ascii "PCIe Write Bytes") (col.writeBytes skt).1
  col.eventNames.zipIdx.forM (fun p => printCounter (ascii "PCIe " ++ p.1.1) (col.raw skt p.2).1)

def printPCIeCounterState : Print :=
  match r.pcie with
  | none => pure ()
  | some col => do
      (List.range col.socketCount).forM (fun skt =>
        printObject (ascii "PCIe Counters Socket " ++ decimal skt) .delimiterAndNewLine
          (printPCIeCounters col (some skt)))
      printObject (ascii "PCIe Counters Aggregate") .newLineOnly (printPCIeCounters col none)

def printAccelerators : Print :=
  match r.accelerators with
  | none => pure ()
  | some accs => printObject (ascii "Accelerators") .delimiterAndNewLine (printAccelCounterState accs)

/-- `dispatch( SystemRoot const & )` -/
def dispatchSystemRoot (s : SystemRoot) : Print :=
  printObject [] .newLineOnly (do
    printCounter (ascii "Interval us") r.interval.1
    printText (ascii "Object") (ascii "SystemRoot")
    printCounter (ascii "Number of sockets") (decimal s.sockets.length)
    printList (ascii "Sockets") (dispatchSocket r) s.sockets
    printAccelerators r
    printObject (ascii "QPI/UPI Links") .delimiterAndNewLine (printSystemCounterState r)
    printObject (ascii "Core Aggregate") .delimiterAndNewLine (printBasicCounterState r .system)
    printObject (ascii "Uncore Aggregate") .delimiterAndNewLine (printUncoreCounterState r .system)
    printObject (ascii "PCIe Bandwidth") .newLineOnly (printPCIeCounterState r))

end Visitor

/-- A printer before its first line. -/
def JSONPrinter.fresh : JSONPrinter := { ss := {}, indentation := { indstr := ascii "  " } }

end Pcm.JsonPrinter

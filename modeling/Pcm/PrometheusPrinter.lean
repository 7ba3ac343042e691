import Pcm.Lib.StdString
import Pcm.Topology

/-!
# The Prometheus printer

`PrometheusPrinter` (`pcm-sensor-server.cpp:694-1013`). A sample line has a metric name, in which
characters are replaced, and the labels of a stack that the visitor pushes to and pops from.
-/

namespace Pcm.Prometheus

open StdString Pcm.Topology

/-! ## Names and labels -/

/-- `replaceIllegalCharsWithUnderbar` (`pcm-sensor-server.cpp:959-970`) -/
def replaceIllegalCharsWithUnderbar (s : Bytes) : Bytes :=
  s.map (fun c => if c = 45 || c = 32 then 95 else c)

/-- `remove_string_inside_use` (`pcm-accel-common.cpp:370-383`), with the count of open parentheses,
which may become negative. -/
def removeStringInside (open_use_count : Int) : Bytes → Bytes
  | [] => []
  | c :: rest =>
      if c = 40 then removeStringInside (open_use_count + 1) rest
      else if c = 41 then removeStringInside (open_use_count - 1) rest
      else if open_use_count = 0 then c :: removeStringInside open_use_count rest
      else removeStringInside open_use_count rest

def remove_string_inside_use (text : Bytes) : Bytes := removeStringInside 0 text

/-- The accelerators that can be configured. -/
inductive AccelIP
  | iaa | dsa | qat | max
  deriving DecidableEq, Repr

/-- `getAccelCounterName` -/
def AccelIP.counterName : AccelIP → Bytes
  | .iaa => ascii "iaa"
  | .dsa => ascii "dsa"
  | .qat => ascii "qat"
  | .max => ascii "id=3(unknown)"

inductive Source
  | core | uncore | accel
  deriving DecidableEq, Repr

inductive Aggregate
  | socket | system
  deriving DecidableEq, Repr

/-- The labels that the visitor pushes. -/
inductive Label
  | socket (id : Int)
  | core (id : Int)
  | thread (id : Int)
  | index (i : Nat)
  | source (of : Source)
  | aggregate (of : Aggregate)
  | device (accel : AccelIP) (i : Nat)
  deriving DecidableEq, Repr

/-- The text of a label. -/
def Label.text : Label → Bytes
  | .socket id => ascii "socket=\"" ++ (decimalInt id ++ [34])
  | .core id => ascii "core=\"" ++ (decimalInt id ++ [34])
  | .thread id => ascii "thread=\"" ++ (decimalInt id ++ [34])
  | .index i => ascii "index=\"" ++ (decimal i ++ [34])
  | .source .core => ascii "source=\"core\""
  | .source .uncore => ascii "source=\"uncore\""
  | .source .accel => ascii "source=\"accel\""
  | .aggregate .socket => ascii "aggregate=\"socket\""
  | .aggregate .system => ascii "aggregate=\"system\""
  | .device accel i => accel.counterName ++ (ascii "device=\"" ++ (decimal i ++ [34]))

/-! ## The stream and the stack -/

structure Sample where
  name : Bytes
  labels : List Bytes
  value : Bytes
  deriving DecidableEq, Repr

inductive Line
  | comment (text : Bytes)
  | sample (s : Sample)
  deriving DecidableEq, Repr

/-- `printHierarchy` -/
def printHierarchy (hierarchy : List Bytes) : Bytes :=
  if hierarchy = [] then [32] else 123 :: (List.intercalate [44] hierarchy ++ [125, 32])

/-- A line as it stands in the stream. -/
def Line.text : Line → Bytes
  | .comment text => ascii "# " ++ (text ++ [10])
  | .sample s => s.name ++ (printHierarchy s.labels ++ (s.value ++ [10]))

structure PrometheusPrinter where
  hierarchy : List Bytes := []
  lines : List Line := []
  deriving DecidableEq, Repr

/-- `str` -/
def PrometheusPrinter.str (p : PrometheusPrinter) : Bytes := p.lines.flatMap Line.text

/-- What the visitor does; there is no result where it pops from an empty stack. -/
abbrev Print := StateT PrometheusPrinter Option Unit

def addToHierarchy (label : Bytes) : Print :=
  modify (fun s => { s with hierarchy := s.hierarchy ++ [label] })

def removeFromHierarchy : Print := fun s =>
  if s.hierarchy = [] then none else some ((), { s with hierarchy := s.hierarchy.dropLast })

def printComment (comment : Bytes) : Print :=
  modify (fun s => { s with lines := s.lines ++ [.comment comment] })

def printCounter (name value : Bytes) : Print :=
  modify (fun s => { s with
    lines := s.lines ++ [.sample ⟨replaceIllegalCharsWithUnderbar name, s.hierarchy, value⟩] })

/-! ## What is printed -/

/-- `AcceleratorCounterState`, of a machine with one configured. -/
structure Accelerators where
  accel : AccelIP
  numOfDevs : Nat
  counterNames : List Bytes
  deriving DecidableEq, Repr

/-- `PCIeCollector` -/
structure PCIe where
  eventNames : List Bytes
  socketCount : Nat
  deriving DecidableEq, Repr

/-- What the machine has besides the tree, and the values of the counters, by the labels and the name
under which they are printed. -/
structure Machine where
  nearMemoryMetricsAvailable : Bool
  accelerators : Option Accelerators
  isServerCPU : Bool
  numSockets : Nat
  qpiLinksPerSocket : Nat
  pcie : Option PCIe
  value : List Bytes → Bytes → Bytes

def maxCState : Nat := 10

def coreCounterNames : List Bytes :=
  ["Instructions Retired Any", "Clock Unhalted Thread", "Clock Unhalted Ref", "L3 Cache Misses",
    "L3 Cache Hits", "L2 Cache Misses", "L2 Cache Hits", "L3 Cache Occupancy", "Invariant TSC",
    "SMI Count", "Thermal Headroom"].map ascii

def residencyNames : List Bytes := ["CStateResidency", "RawCStateResidency"].map ascii

def memoryCounterNames : List Bytes := ["Local Memory Bandwidth", "Remote Memory Bandwidth"].map ascii

def uncoreCounterNames (nearMemory : Bool) : List Bytes :=
  ["DRAM Writes", "DRAM Reads"].map ascii ++
  ((if nearMemory then ["NM Hits", "NM Misses", "NM Miss Bw", "NM HitRate"].map ascii else []) ++
  ["Persistent Memory Writes", "Persistent Memory Reads", "Embedded DRAM Writes",
    "Embedded DRAM Reads", "Memory Controller IA Requests", "Memory Controller GT Requests",
    "Memory Controller IO Requests", "Package Joules Consumed", "PP0 Joules Consumed",
    "PP1 Joules Consumed", "DRAM Joules Consumed"].map ascii)

def cxlNames : List Bytes := ["CXL Write Cache", "CXL Write Mem"].map ascii

def linkLiterals : List Bytes :=
  ["Incoming Data Traffic On Link ", "Outgoing Data And Non-Data Traffic On Link ",
    "Utilization Incoming Data Traffic On Link ",
    "Utilization Outgoing Data And Non-Data Traffic On Link "].map ascii

def linkNames (j : Nat) : List Bytes := linkLiterals.map (· ++ decimal j)

/-- The counters of a PCIe socket. -/
def pcieNames (col : PCIe) : List Bytes :=
  ascii "PCIe Read Bytes" :: ascii "PCIe Write Bytes" :: col.eventNames.map (ascii "PCIe " ++ ·)

/-! ## The visitor -/

section Visitor

variable (m : Machine)

def inHierarchy (label : Label) (body : Print) : Print := do
  addToHierarchy label.text
  body
  removeFromHierarchy

def printCounters (names : List Bytes) : Print :=
  names.forM (fun name => do
    let s ← get
    printCounter name (m.value s.hierarchy name))

/-- The residencies of all C-states. -/
def printCStates : Print :=
  (List.range (maxCState + 1)).forM (fun i =>
    inHierarchy (.index i) (printCounters m residencyNames))

def printBasicCounterState : Print :=
  inHierarchy (.source .core) (do
    printCounters m coreCounterNames
    printCStates m
    printCounters m memoryCounterNames)

def printUncoreCounterState : Print :=
  inHierarchy (.source .uncore) (do
    printCounters m (uncoreCounterNames m.nearMemoryMetricsAvailable)
    printCStates m)

def dispatchHyperThread (ht : HyperThread) : Print :=
  inHierarchy (.thread ht.threadID) (do
    printCounter (ascii "OS ID") (decimalInt ht.osID)
    printBasicCounterState m)

def dispatchCore (c : Topology.Core) : Print :=
  inHierarchy (.core c.socketUniqueCoreID) (c.threads.forM (dispatchHyperThread m))

/-- `dispatch( ServerUncore* )` and `dispatch( ClientUncore* )` -/
def dispatchUncore (socketID : Int) : Print := do
  printComment (ascii "Uncore Counters Socket " ++ decimalInt socketID)
  printUncoreCounterState m

def dispatchSocket (s : Socket) : Print :=
  inHierarchy (.socket s.socketID) (do
    printComment (ascii "Core Counters Socket " ++ decimalInt s.socketID)
    s.cores.forM (dispatchCore m)
    dispatchUncore m s.socketID
    inHierarchy (.aggregate .socket) (do
      printComment (ascii "Core Counters Aggregate Socket " ++ decimalInt s.socketID)
      printBasicCounterState m))

def printAccelCounterState (accs : Accelerators) : Print :=
  inHierarchy (.source .accel) ((List.range accs.numOfDevs).forM (fun i =>
    inHierarchy (.device accs.accel i)
      (printCounters m (accs.counterNames.map remove_string_inside_use))))

def printSystemCounterState : Print :=
  inHierarchy (.source .uncore) ((List.range m.numSockets).forM (fun i =>
    inHierarchy (.socket i) (do
      printCounters m cxlNames
      (List.range m.qpiLinksPerSocket).forM (fun j => printCounters m (linkNames j)))))

def printPCIeCounterState : Print :=
  match m.pcie with
  | none => pure ()
  | some col => inHierarchy (.source .uncore) (do
      (List.range col.socketCount).forM (fun skt =>
        inHierarchy (.socket skt) (printCounters m (pcieNames col)))
      printCounters m (pcieNames col))

def printAccelerators : Print :=
  match m.accelerators with
  | none => pure ()
  | some accs => do
      printComment (ascii "Accelerator Counters")
      printAccelCounterState m accs

def printLinks : Print :=
  if m.isServerCPU && decide (2 ≤ m.numSockets) then do
    printComment (ascii "UPI/QPI Counters")
    printSystemCounterState m
  else pure ()

/-- `dispatch( SystemRoot const & )` -/
def dispatchSystemRoot (s : SystemRoot) : Print := do
  printCounters m [ascii "Measurement Interval in us"]
  printCounter (ascii "Number of sockets") (decimal s.sockets.length)
  s.sockets.forM (dispatchSocket m)
  inHierarchy (.aggregate .system) (do
    printAccelerators m
    printLinks m
    printComment (ascii "Core Counters Aggregate System")
    printBasicCounterState m
    printComment (ascii "Uncore Counters Aggregate System")
    printUncoreCounterState m
    printComment (ascii "PCIe Bandwidth Counters")
    printPCIeCounterState m)

end Visitor

end Pcm.Prometheus

import Pcm.Bits
import Pcm.EventSyntax

/-!
# Transposed output of `pcm-raw`

`printTransposed` and `printAll` (`pcm-raw.cpp:1261-1960`, `pcm-raw.cpp:2433-2476`): one line for an event,
with one value for each core, socket, unit or register. The same code prints the headers and records
where the columns of a PMU type begin; it also prints the lines of the JSON output. What is printed is kept
in pieces, so that the separator of the columns, which is an option, can be told from what is between.
-/

namespace Pcm.Raw

open StdString

/-! ## The machine, the options and a sample -/

/-- `TopologyEntry::CoreType` -/
inductive CoreType
  | atom
  | core
  | invalid
  deriving DecidableEq, Repr

/-- The uncore PMUs that are counted by `getMaxNumOfUncorePMUs`. -/
inductive UncorePMUId
  | pcu | ubox | cbo | mdf | pciex8 | pciex16
  deriving DecidableEq, Repr

/-- What `PCM` knows about the machine. -/
structure Machine where
  numSockets : Nat
  numCores : Nat
  socketId : Nat → Int
  coreType : Nat → CoreType
  isHybrid : Bool
  isHWTMAL2Supported : Bool
  nominalFrequency : Nat
  qpiLinksPerSocket : Nat
  mcChannelsPerSocket : Nat
  mcPerSocket : Nat
  maxNumOfIIOStacks : Nat
  maxNumOfUncorePMUs : UncorePMUId → Nat

/-- The options (`pcm-raw.cpp:1250-1259`). -/
structure Options where
  showPartialCoreOutput : Bool := false
  ycores : Nat → Bool := fun _ => false
  extendPrintout : Bool := false
  singleHeader : Bool := false

/-- The local time of a line. -/
structure Time where
  year : Nat
  month : Nat
  day : Nat
  hour : Nat
  minute : Nat
  second : Nat
  millisecond : Nat

/-- The counter states before and after, as the functions on them give their values. -/
structure Sample where
  time : Time
  invariantTSC : Nat
  fixedCore : Nat → Nat → Nat
  topdown : Nat → Nat → Nat
  customEvents : Nat → Nat → Nat
  coreMSR : BitVec 64 → BitVec 64 → Nat → Nat
  socketMSR : BitVec 64 → BitVec 64 → Nat → Nat
  uncore : String → Nat → Nat → Nat → Nat
  uncoreFixed : String → Nat → Nat → Nat
  registersBefore : String → RawEventEncoding → Option (List (BitVec 64))
  registersAfter : String → RawEventEncoding → Option (List (BitVec 64))

/-- `getRegisterEvent` (`cpucounters.h:5427-5453`) -/
def getRegisterEvent (sample : Sample) (type : String) (eventEnc : RawEventEncoding) : List (BitVec 64) :=
  match sample.registersBefore type eventEnc, sample.registersAfter type eventEnc with
  | some beforeValues, some afterValues =>
      if eventEnc.get 2 = 1 then List.zipWith (fun before after => after - before) beforeValues afterValues
      else if eventEnc.get 2 = 0 then List.zipWith (fun _ after => after) beforeValues afterValues
      else []
  | _, _ => []

/-! ## Names -/

def hexDigit (d : Nat) : UInt8 := UInt8.ofNat (if d < 10 then 48 + d else 87 + d)

/-- What a stream writes for `n` after `std::hex`. -/
def hexadecimal (n : Nat) : Bytes :=
  if n = 0 then [48] else ((Nat.digits 16 n).map hexDigit).reverse

def fixedCoreEventNames : List String := ["InstructionsRetired", "Cycles", "RefCycles", "TopDownSlots"]

def topdownEventNames : List String :=
  ["PERF_METRICS.FRONTEND_BOUND", "PERF_METRICS.BAD_SPECULATION", "PERF_METRICS.BACKEND_BOUND",
    "PERF_METRICS.RETIRING", "PERF_METRICS.HEAVY_OPERATIONS", "PERF_METRICS.BRANCH_MISPREDICTS",
    "PERF_METRICS.FETCH_LATENCY", "PERF_METRICS.MEMORY_BOUND"]

def getTypeString (typeID : BitVec 64) : String :=
  if typeID = 1 then "freerun" else if typeID = 0 then "static" else "unknownType"

/-- The words of an encoding with the texts before them, and the type at the end. -/
def eventString (type : String) (eventEnc : RawEventEncoding) (words : List (String × Fin 6))
    (typePosition : Fin 6) : Bytes :=
  ascii type ++ words.flatMap (fun word => ascii word.1 ++ hexadecimal (eventEnc.get word.2).toNat) ++
    ascii "/" ++ ascii (getTypeString (eventEnc.get typePosition))

def getMSREventString (type : String) (eventEnc : RawEventEncoding) : Bytes :=
  eventString type eventEnc [("/MSR 0x", 0)] 1

def getTPMIEventString (type : String) (eventEnc : RawEventEncoding) : Bytes :=
  eventString type eventEnc [("/TPMI_ID 0x", 0), ("/offset 0x", 1)] 2

def getPCICFGEventString (type : String) (eventEnc : RawEventEncoding) : Bytes :=
  eventString type eventEnc [("/deviceID 0x", 0), ("/offset 0x", 1), ("/width 0x", 5)] 2

def getMMIOEventString (type : String) (eventEnc : RawEventEncoding) : Bytes :=
  eventString type eventEnc [("/deviceID 0x", 0), ("/offset 0x", 1), ("/membar_bits1 0x", 3),
    ("/membar_bits2 0x", 4), ("/width 0x", 5)] 2

def getPMTEventString (type : String) (eventEnc : RawEventEncoding) : Bytes :=
  eventString type eventEnc [("/UID 0x", 0), ("/offset 0x", 1), ("/lsb 0x", 3), ("/msb 0x", 4)] 2

/-- The name that the user gave an event, or else this one. -/
def nameOr (event : RawEventConfig) (name : Bytes) : Bytes :=
  if event.name = "" then name else ascii event.name

def eventName (type : String) (event : RawEventConfig) (i : Nat) : Bytes :=
  nameOr event (ascii type ++ ascii "Event" ++ decimal i)

/-! ## Lines -/

inductive CsvOutputType
  | header1 | header2 | data | header21 | json
  deriving DecidableEq, Repr

def CsvOutputType.isHeader : CsvOutputType → Bool
  | .header1 | .header2 | .header21 => true
  | .data | .json => false

/-- The headers that record the columns. -/
def CsvOutputType.countsColumns : CsvOutputType → Bool
  | .header1 | .header21 => true
  | .header2 | .data | .json => false

/-- `choose` (`utils.h:390-409`) -/
def choose {α : Type} (outputType : CsvOutputType) (h1 h2 data : α) : α :=
  match outputType with
  | .header1 | .header21 => h1
  | .header2 => h2
  | .data | .json => data

/-- What is written to `cout`. -/
inductive Piece
  | separator
  | text (written : Bytes)
  | endl
  deriving DecidableEq, Repr

abbrev Line := List Piece

/-- Where a value comes from: a core, a socket, a unit of a socket, or a register of the system. -/
inductive Place
  | core (core : Nat)
  | socket (s : Nat)
  | unit (s u : Nat)
  | system (r : Nat)
  deriving DecidableEq, Repr

/-- The columns of a line: what is printed for each place, by type of output. -/
structure Columns where
  places : List Place
  header1 : Place → Bytes
  header2 : Place → Bytes
  header21 : Place → Bytes
  value : Place → Bytes

/-- `jsonSeparator` -/
def jsonSeparator : Bytes := ascii "\":"

def printPlace (outputType : CsvOutputType) (columns : Columns) (place : Place) : List Piece :=
  match outputType with
  | .header1 => [.separator, .text (columns.header1 place)]
  | .header2 => [.separator, .text (columns.header2 place)]
  | .data => [.separator, .text (columns.value place)]
  | .header21 => [.separator, .text (columns.header21 place)]
  | .json => [.separator, .text (columns.header21 place ++ jsonSeparator ++ columns.value place)]

/-- A number in at least this many digits. -/
def padded (width n : Nat) : Bytes := List.replicate (width - (decimal n).length) 48 ++ decimal n

def Time.date (t : Time) : Bytes :=
  padded 4 t.year ++ ascii "-" ++ padded 2 t.month ++ ascii "-" ++ padded 2 t.day

def Time.clock (t : Time) : Bytes :=
  padded 2 t.hour ++ ascii ":" ++ padded 2 t.minute ++ ascii ":" ++ padded 2 t.second ++ ascii "." ++
    padded 3 t.millisecond

/-- `(1000ULL * getInvariantTSC(...)) / m->getNominalFrequency()` -/
def milliseconds (m : Machine) (sample : Sample) : Nat :=
  1000 * sample.invariantTSC % 2 ^ 64 / m.nominalFrequency

/-- The five columns with which a line begins. -/
def leading (m : Machine) (sample : Sample) (name : Bytes) : List Bytes :=
  [sample.time.date, sample.time.clock, name, decimal (milliseconds m sample),
    decimal sample.invariantTSC]

/-- `printRowBeginCSV` -/
def printRowBeginCSV (m : Machine) (sample : Sample) (name : Bytes) : List Piece :=
  [.text sample.time.date, .separator, .text sample.time.clock, .separator, .text name, .separator,
    .text (decimal (milliseconds m sample)), .separator, .text (decimal sample.invariantTSC)]

/-- `printRowBeginJson`, with `printDateForJson` (`utils.h:444-462`) -/
def printRowBeginJson (m : Machine) (sample : Sample) (name : Bytes) : List Piece :=
  [.text (ascii "\x7b\""),
    .text (ascii "Date" ++ jsonSeparator ++ ascii "\"" ++ sample.time.date ++ ascii "\""), .separator,
    .text (ascii "Time" ++ jsonSeparator ++ ascii "\"" ++ sample.time.clock ++ ascii "\""), .separator,
    .text (ascii "Event" ++ jsonSeparator ++ ascii "\"" ++ name ++ ascii "\""), .separator,
    .text (ascii "ms" ++ jsonSeparator ++ decimal (milliseconds m sample)), .separator,
    .text (ascii "InvariantTSC" ++ jsonSeparator ++ decimal sample.invariantTSC)]

/-- `printRowBegin` -/
def printRowBegin (m : Machine) (sample : Sample) (outputType : CsvOutputType) (start : Nat)
    (name : Bytes) : List Piece :=
  match outputType with
  | .data => printRowBeginCSV m sample name ++ List.replicate start .separator
  | .json => printRowBeginJson m sample name
  | _ => []

def printNewLine : CsvOutputType → List Piece
  | .data => [.endl]
  | .json => [.text (ascii "\x7d"), .endl]
  | _ => []

/-- What the lambdas of `printTransposed` change: `is_header_printed`, `printOffset.end`, and the lines
that are printed for the PMU type. -/
structure Printing where
  isHeaderPrinted : Bool := false
  stop : Nat
  lines : List Line := []

/-- What does not change while a PMU type is printed. -/
structure Setting where
  machine : Machine
  options : Options
  sample : Sample
  outputType : CsvOutputType
  type : String
  start : Nat

section Rows

variable (s : Setting)

/-- One line: its beginning, its columns and its end. -/
def line (name : Bytes) (columns : Columns) : Line :=
  printRowBegin s.machine s.sample s.outputType s.start name ++
    columns.places.flatMap (printPlace s.outputType columns) ++ printNewLine s.outputType

def printLine (name : Bytes) (columns : Columns) (p : Printing) : Printing :=
  { p with
    lines := p.lines ++ [line s name columns]
    stop := if s.outputType.countsColumns then p.stop + columns.places.length else p.stop }

/-- `if (is_header) is_header_printed = true;` -/
def markHeader (p : Printing) : Printing :=
  if s.outputType.isHeader then { p with isHeaderPrinted := true } else p

/-- A line that is left out when a header has been printed. -/
def printOnce (name : Bytes) (columns : Columns) (p : Printing) : Printing :=
  if s.outputType.isHeader && p.isHeaderPrinted then p else markHeader s (printLine s name columns p)

/-! ### Uncore units -/

/-- The units of all sockets, in the order of the loops. -/
def units (numSockets maxUnit : Nat) : List Place :=
  (List.range numSockets).flatMap (fun s => (List.range maxUnit).map (Place.unit s))

/-- A text with the numbers of a unit in it. -/
def unitName (before : Bytes) (between : Bytes) : Place → Bytes
  | .unit s u => before ++ decimal s ++ between ++ decimal u
  | _ => []

/-- The arguments of `printUncoreRows` by type of output, and whether there is a function for the
fixed event. -/
structure UncoreRows where
  headerUnits : Nat
  headerName : Bytes
  dataUnits : Nat
  dataName : Bytes
  fixedMetric : Bool := false

def UncoreRows.same (maxUnit : Nat) (name : String) : UncoreRows :=
  { headerUnits := maxUnit, headerName := ascii name, dataUnits := maxUnit, dataName := ascii name }

def UncoreRows.maxUnit (rows : UncoreRows) : Nat :=
  choose s.outputType rows.headerUnits rows.headerUnits rows.dataUnits

def UncoreRows.miscName (rows : UncoreRows) : Bytes :=
  choose s.outputType rows.headerName (ascii s.type) rows.dataName

/-- The columns for the units; the name in the first header differs between fixed and programmable
events. -/
def uncoreColumns (rows : UncoreRows) (header1 : String) (value : Place → Bytes) : Columns :=
  { places := units s.machine.numSockets (rows.maxUnit s)
    header1 := unitName (ascii header1) (rows.miscName s)
    header2 := fun _ => rows.miscName s
    header21 := unitName (ascii s.type ++ ascii "_SKT") (ascii "_" ++ rows.miscName s)
    value := value }

def fixedValue (rows : UncoreRows) : Place → Bytes
  | .unit skt u =>
      decimal (if rows.fixedMetric then s.sample.uncoreFixed s.type u skt else 2 ^ 64 - 1)
  | _ => []

def uncoreValue (i : Nat) : Place → Bytes
  | .unit skt u => decimal (s.sample.uncore s.type u i skt)
  | _ => []

/-- `printUncoreRows` (`pcm-raw.cpp:1481-1569`) -/
def printUncoreRows (config : RawPMUConfig) (rows : UncoreRows) (p : Printing) : Printing :=
  let p := if config.fixed = [] then p
    else markHeader s (printLine s (rows.miscName s) (uncoreColumns s rows "SKT" (fixedValue s rows)) p)
  config.programmable.zipIdx.foldl
    (fun p event => printOnce s (eventName s.type event.1 event.2)
      (uncoreColumns s rows "SKT_" (uncoreValue s event.2)) p) p

/-! ### MSRs -/

inductive MSRScope
  | thread
  | package
  deriving DecidableEq, Repr

def coreName (before between : Bytes) : Place → Bytes
  | .core core => before ++ decimalInt (s.machine.socketId core) ++ between ++ decimal core
  | _ => []

def socketName (before : Bytes) : Place → Bytes
  | .socket skt => before ++ decimal skt
  | _ => []

def msrValue (event : RawEventConfig) : Place → Bytes
  | .core core => decimal (s.sample.coreMSR (event.encoding.get 0) (event.encoding.get 1) core)
  | .socket skt => decimal (s.sample.socketMSR (event.encoding.get 0) (event.encoding.get 1) skt)
  | _ => []

def msrColumns (scope : MSRScope) (event : RawEventConfig) : Columns :=
  match scope with
  | .package =>
      { places := (List.range s.machine.numSockets).map .socket
        header1 := socketName (ascii "SKT")
        header2 := fun _ => ascii s.type
        header21 := socketName (ascii s.type ++ ascii "_SKT")
        value := msrValue s event }
  | .thread =>
      { places := (List.range s.machine.numCores).map .core
        header1 := coreName s (ascii "SKT") (ascii "CORE")
        header2 := fun _ => ascii s.type
        header21 := coreName s (ascii s.type ++ ascii "_SKT") (ascii "_CORE")
        value := msrValue s event }

/-- `printMSRRows` (`pcm-raw.cpp:1570-1672`) -/
def printMSRRows (config : RawPMUConfig) (scope : MSRScope) (p : Printing) : Printing :=
  config.events.foldl
    (fun p event => printOnce s (nameOr event (getMSREventString s.type event.encoding))
      (msrColumns s scope event) p) p

/-! ### Cores -/

/-- The cores that `printRow` prints. -/
def printedCores (m : Machine) (options : Options) (coreType : CoreType) : List Nat :=
  (List.range m.numCores).filter (fun core =>
    !(options.extendPrintout && m.isHybrid && m.coreType core != coreType) &&
      !(options.showPartialCoreOutput && !options.ycores core))

/-- The value of a core, which is left out for a core of another type. -/
def coreValue (coreType : CoreType) (metricFunc : Nat → Nat) : Place → Bytes
  | .core core =>
      if !s.machine.isHybrid || s.machine.coreType core = coreType then decimal (metricFunc core) else []
  | _ => []

/-- The columns of `printRow` (`pcm-raw.cpp:1309-1351`) -/
def coreColumns (coreType : CoreType) (metricFunc : Nat → Nat) : Columns :=
  { places := (printedCores s.machine s.options coreType).map .core
    header1 := coreName s (ascii "SKT") (ascii "CORE")
    header2 := fun _ => ascii s.type
    header21 := coreName s (ascii s.type ++ ascii "_SKT") (ascii "_CORE")
    value := coreValue s coreType metricFunc }

def numTMAEvents (m : Machine) : Nat := if m.isHWTMAL2Supported then 8 else 4

/-- The fixed counter is enabled. -/
def countsFixed (event : RawEventConfig) (cnt : Nat) : Bool :=
  extractBits (event.encoding.get 0) (4 * cnt) (1 + 4 * cnt) ≠ 0

/-- `event.first[PerfMetricsConfig] & PerfMetricsMask` -/
def perfMetrics (event : RawEventConfig) : Bool := event.encoding.get 2 &&& 1 ≠ 0

def fixedCoreName (event : RawEventConfig) (cnt : Nat) : Bytes :=
  nameOr event (ascii (fixedCoreEventNames.getD cnt ""))

/-- The lines for one fixed counter; those for the topdown metrics do not ask for the header. -/
def printFixed (coreType : CoreType) (event : RawEventConfig) (p : Printing) (cnt : Nat) : Printing :=
  if countsFixed event cnt then
    if s.outputType.isHeader && p.isHeaderPrinted then p
    else
      let p := markHeader s
        (printLine s (fixedCoreName event cnt) (coreColumns s coreType (s.sample.fixedCore cnt)) p)
      if cnt = 3 && perfMetrics event then
        (List.range (numTMAEvents s.machine)).foldl (fun p t =>
          printLine s (ascii (topdownEventNames.getD t ""))
            (coreColumns s coreType (s.sample.topdown t)) p) p
      else p
  else p

/-- `printCores` (`pcm-raw.cpp:1673-1733`) -/
def printCores (config : RawPMUConfig) (coreType : CoreType) (p : Printing) : Printing :=
  let p := config.fixed.foldl (fun p event => [0, 1, 2, 3].foldl (printFixed s coreType event) p) p
  config.programmable.zipIdx.foldl
    (fun p event => printOnce s (eventName s.type event.1 event.2)
      (coreColumns s coreType (s.sample.customEvents event.2)) p) p

/-! ### Registers -/

def systemName (before : Bytes) : Place → Bytes
  | .system r => before ++ decimal r
  | _ => []

def registerValue (values : List (BitVec 64)) : Place → Bytes
  | .system r => decimal (values.getD r 0).toNat
  | _ => []

def registerColumns (values : List (BitVec 64)) : Columns :=
  { places := (List.range values.length).map .system
    header1 := systemName (ascii "SYSTEM_")
    header2 := fun _ => ascii s.type
    header21 := systemName (ascii s.type ++ ascii "_SYSTEM_")
    value := registerValue values }

/-- `printRegisterRows` (`pcm-raw.cpp:1734-1795`) -/
def printRegisterRows (config : RawPMUConfig) (getEventString : String → RawEventEncoding → Bytes)
    (p : Printing) : Printing :=
  config.events.foldl
    (fun p event => printOnce s (nameOr event (getEventString s.type event.encoding))
      (registerColumns s (getRegisterEvent s.sample s.type event.encoding)) p) p

end Rows

/-! ## PMU types -/

/-- How the lines of a PMU type are printed. -/
inductive Kind
  | cores (coreType : CoreType)
  | msrs (scope : MSRScope)
  | registers (getEventString : String → RawEventEncoding → Bytes)
  | uncore (rows : UncoreRows)
  | unrecognized

/-- The name in the data lines of `imc`: that of the fixed event. -/
def fixedEventName (config : RawPMUConfig) : Bytes :=
  match config.fixed with
  | event :: _ => nameOr event (ascii "DRAMClocks")
  | [] => ascii "DRAMClocks"

/-- `ServerUncoreCounterState::maxCXLPorts` -/
def maxCXLPorts : Nat := 16

/-- The chain of comparisons with the names of the PMU types (`pcm-raw.cpp:1796-1948`). -/
def kindOf (m : Machine) (type : String) (config : RawPMUConfig) : Kind :=
  if type = "core" then .cores .core
  else if type = "atom" then .cores .atom
  else if type = "thread_msr" then .msrs .thread
  else if type = "package_msr" then .msrs .package
  else if type = "tpmi" then .registers getTPMIEventString
  else if type = "pcicfg" then .registers getPCICFGEventString
  else if type = "mmio" then .registers getMMIOEventString
  else if type = "pmt" then .registers getPMTEventString
  else if type = "m3upi" then .uncore (.same m.qpiLinksPerSocket "LINK")
  else if type = "xpi" ∨ type = "upi" ∨ type = "qpi" then .uncore (.same m.qpiLinksPerSocket "LINK")
  else if type = "imc" then
    .uncore
      { UncoreRows.same m.mcChannelsPerSocket "CHAN" with
        dataName := fixedEventName config, fixedMetric := true }
  else if type = "m2m" then .uncore (.same m.mcPerSocket "MC")
  else if type = "ha" then .uncore (.same m.mcPerSocket "HA")
  else if type = "pcu" then
    .uncore
      { headerUnits := m.maxNumOfUncorePMUs .pcu, headerName := ascii "P", dataUnits := 1,
        dataName := [] }
  else if type = "ubox" then
    .uncore
      { UncoreRows.same (m.maxNumOfUncorePMUs .ubox) "" with
        dataName := ascii "UncoreClocks", fixedMetric := true }
  else if type = "cbo" ∨ type = "cha" then .uncore (.same (m.maxNumOfUncorePMUs .cbo) "C")
  else if type = "mdf" then .uncore (.same (m.maxNumOfUncorePMUs .mdf) "MDF")
  else if type = "irp" then .uncore (.same m.maxNumOfIIOStacks "IRP")
  else if type = "iio" then .uncore (.same m.maxNumOfIIOStacks "IIO")
  else if type = "cxlcm" then .uncore (.same maxCXLPorts "CXLCM")
  else if type = "cxldp" then .uncore (.same maxCXLPorts "CXLDP")
  else if type = "pciex8" then .uncore (.same (m.maxNumOfUncorePMUs .pciex8) type)
  else if type = "pciex16" then .uncore (.same (m.maxNumOfUncorePMUs .pciex16) type)
  else .unrecognized

/-- The lines of one PMU type. -/
def printType (s : Setting) (config : RawPMUConfig) (p : Printing) : Printing :=
  match kindOf s.machine s.type config with
  | .cores coreType => printCores s config coreType p
  | .msrs scope => printMSRRows s config scope p
  | .registers getEventString => printRegisterRows s config getEventString p
  | .uncore rows => printUncoreRows s config rows p
  | .unrecognized => p

/-! ## Groups -/

structure PrintOffset where
  entry : String
  start : Nat
  stop : Nat
  deriving DecidableEq, Repr

/-- `printOffsets`, `printedBlocks` and `displayHeader`. -/
structure Globals where
  printOffsets : List PrintOffset := []
  printedBlocks : List String := []
  displayHeader : Bool := true
  deriving DecidableEq, Repr

/-- What is printed for each PMU type of a group, in its order. -/
abbrev Blocks := List (String × List Line)

/-- `getPrintOffsetIdx` -/
def getPrintOffset (g : Globals) (type : String) : Option PrintOffset :=
  g.printOffsets.find? (·.entry = type)

/-- Where the columns of the next PMU type begin: after those of the last one. -/
def nextStart (g : Globals) : Nat :=
  match g.printOffsets.getLast? with
  | some offset => offset.stop
  | none => 0

section Transposed

variable (m : Machine) (options : Options) (sample : Sample)

/-- One PMU type of `printTransposed` (`pcm-raw.cpp:1449-1478`, `pcm-raw.cpp:1950-1951`). -/
def printTypeEvents (outputType : CsvOutputType) (g : Globals) (type : String)
    (config : RawPMUConfig) : Globals × Blocks :=
  let setting (start : Nat) : Setting := ⟨m, options, sample, outputType, type, start⟩
  match outputType with
  | .header1 | .header21 =>
      match getPrintOffset g type with
      | some _ => (g, [])
      | none =>
          let p := printType (setting (nextStart g)) config { stop := nextStart g }
          ({ g with printOffsets := g.printOffsets ++ [⟨type, nextStart g, p.stop⟩] },
            [(type, p.lines)])
  | .header2 =>
      if type ∈ g.printedBlocks then (g, [])
      else
        ({ g with printedBlocks := g.printedBlocks ++ [type] },
          [(type, (printType (setting 0) config { stop := 0 }).lines)])
  | .data =>
      let start := ((getPrintOffset g type).map (·.start)).getD 0
      (g, [(type, (printType (setting start) config { stop := start }).lines)])
  | .json => (g, [(type, (printType (setting 0) config { stop := 0 }).lines)])

/-- `printTransposed`, without the line between samples. -/
def printTransposed (outputType : CsvOutputType) (g : Globals) :
    List (String × RawPMUConfig) → Globals × Blocks
  | [] => (g, [])
  | (type, config) :: entries =>
      let (g, block) := printTypeEvents m options sample outputType g type config
      let (g, blocks) := printTransposed outputType g entries
      (g, block ++ blocks)

/-- One kind of header for all groups. -/
def printHeader (outputType : CsvOutputType) (g : Globals) : List RawPMUConfigs → Globals × Blocks
  | [] => (g, [])
  | config :: configs =>
      let (g, blocks) := printTransposed m options sample outputType g config.entries
      let (g, later) := printHeader outputType g configs
      (g, blocks ++ later)

/-- What `printAll` prints with transposed output: the headers, if they are displayed, and the lines of
the group. -/
structure Printed where
  header1 : Blocks := []
  header2 : Blocks := []
  data : Blocks

/-- `printAll` (`pcm-raw.cpp:2433-2476`), transposed. -/
def printAll (PMUConfigs : List RawPMUConfigs) (g : Globals) (group : RawPMUConfigs) :
    Globals × Printed :=
  let displayHeader := g.displayHeader && options.extendPrintout
  let (g, header1, header2) :=
    if displayHeader then
      if options.singleHeader then
        let (g, header) := printHeader m options sample .header21 g PMUConfigs
        (g, header, [])
      else
        let (g, header1) := printHeader m options sample .header1 g PMUConfigs
        let (g, header2) := printHeader m options sample .header2 g PMUConfigs
        (g, header1, header2)
    else (g, [], [])
  let (g, data) := printTransposed m options sample .data g group.entries
  ({ g with displayHeader := false }, { header1 := header1, header2 := header2, data := data })

end Transposed

end Pcm.Raw

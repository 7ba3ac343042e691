import Pcm.DashboardText

/-!
# Panels of the Grafana dashboard

`getPCMDashboardJSON` (`dashboard.cpp:496-961`). The generators place their panels in rows: each takes the
current `y` for its panels and should advance it by their height.
-/

namespace Pcm.Dashboard

open StdString

/-! ## Queries -/

def prometheusMetric (m : Bytes) : Bytes := m.map (fun c => if c = 32 ∨ c = 45 then 95 else c)

def prometheusSystem : Bytes := ascii "\x7binstance=\\\"$node\\\", aggregate=\\\"system\\\"\x7d"

def prometheusSocket (S : Bytes) (aggregate : Bool) : Bytes :=
  if aggregate then
    ascii "\x7binstance=\\\"$node\\\", aggregate=\\\"socket\\\", socket=\\\"" ++ S ++ ascii "\\\"\x7d"
  else ascii "\x7binstance=\\\"$node\\\", socket=\\\"" ++ S ++ ascii "\\\"\x7d"

/-- `prometheusSystem` with a socket -/
def prometheusSystemSocket (S : Bytes) : Bytes :=
  ascii "\x7binstance=\\\"$node\\\", aggregate=\\\"system\\\", socket=\\\"" ++ S ++ ascii "\\\"\x7d"

/-- `influxDB_Counters` of a socket -/
def influxDBSocketCounters (S m domain : Bytes) : Bytes :=
  ascii "mean(\\\"Sockets_" ++ S ++ ascii "_" ++ domain ++ ascii "_" ++ m ++ ascii "\\\")"

def influxDBCounters (m domain : Bytes) : Bytes :=
  ascii "mean(\\\"" ++ domain ++ ascii "_" ++ m ++ ascii "\\\")"

/-- `influxDBCore_Aggregate_Core_Counters` of a socket -/
def influxDBSocketCore (S m : Bytes) : Bytes :=
  influxDBSocketCounters S m (ascii "Core Aggregate_Core Counters")

/-- `influxDBCore_Aggregate_Core_Counters` -/
def influxDBCore (m : Bytes) : Bytes := influxDBCounters m (ascii "Core Aggregate_Core Counters")

/-- `influxDBUncore_Uncore_Counters` -/
def influxDBUncore (S m : Bytes) : Bytes := influxDBSocketCounters S m (ascii "Uncore_Uncore Counters")

section Prometheus

variable (type : DashboardType)

def interval : Bytes := if type = .prometheusDefault then ascii "[60s]" else ascii "[4s]"

/-- `prometheusCounters` of a socket -/
def prometheusSocketCounters (S m : Bytes) (aggregate : Bool) : Bytes :=
  ascii "rate(" ++ prometheusMetric m ++ prometheusSocket S aggregate ++ interval type ++ ascii ")"

def prometheusCounters (m : Bytes) : Bytes :=
  ascii "rate(" ++ prometheusMetric m ++ prometheusSystem ++ interval type ++ ascii ")"

end Prometheus

/-! ## Rows -/

/-- The accelerator and its counters. -/
structure Accel where
  /-- `getAccelCounterName` -/
  name : Bytes
  /-- `getNumOfAccelDevs` -/
  devs : Nat
  /-- `getAccelIndexCounterName` for all counters -/
  counters : List Bytes

/-- What the generators read; `accel` is missing with `ACCEL_NOCONFIG`. -/
structure Machine where
  numSockets : Nat
  qpiLinksPerSocket : Nat
  numUFSDies : Nat
  nearMemoryMetricsAvailable : Bool
  hasUPI : Bool
  hostname : Bytes
  accel : Option Accel

/-- The numbers for which the dashboard is made. -/
structure Counts where
  numSockets : Nat
  numUPILinksPerSocket : Nat
  maxCState : Nat

/-- The panels so far, and the next free row. -/
structure Layout where
  y : Nat := 0
  panels : List Panel := []

/-- The panels of a row: a time series, and the current values beside it. -/
def rowPanels (y h : Nat) (title label : Bytes) (isStacked : Bool) (kind : PanelKind) (title1 : Bytes)
    (targets : List Target) : List Panel :=
  [⟨.timeSeries label isStacked, 0, y, 15, h, title, targets⟩, ⟨kind, 15, y, 9, h, title1, targets⟩]

/-- Two panels in a row of their own. -/
def addRow (h : Nat) (title label : Bytes) (isStacked : Bool) (kind : PanelKind) (title1 : Bytes)
    (targets : List Target) (l : Layout) : Layout :=
  { y := l.y + h
    panels := l.panels ++ rowPanels l.y h title label isStacked kind title1 targets }

def height : Nat := 5

/-- `3 * height / 2` -/
def tall : Nat := 7

/-- A row for each of the first numbers. -/
def forEach (n : Nat) (row : Nat → Layout → Layout) (l : Layout) : Layout :=
  (List.range n).foldl (fun l s => row s l) l

section Generators

variable (type : DashboardType) (m : Machine) (n : Counts)

/-- A target for each socket, and one for their total. -/
def socketsAndTotal (target : Bytes → Target) (total : Target) : List Target :=
  (List.range n.numSockets).map (fun s => target (decimal s)) ++ [total]

def scaled (metric unit op : Bytes) : Layout → Layout :=
  addRow height metric unit false .barGauge (metric ++ ascii " (" ++ unit ++ ascii ")")
    (socketsAndTotal n
      (fun S => ⟨ascii "Socket" ++ S, influxDBSocketCore S metric ++ op,
        prometheusSocketCounters type S metric true ++ op⟩)
      ⟨ascii "Total", influxDBCore metric ++ op, prometheusCounters type metric ++ op⟩)

def uncoreFrequencies (s : Nat) : Layout → Layout :=
  let S := decimal s
  let op := ascii "/1000000000"
  addRow height (ascii "Socket" ++ S ++ ascii " Uncore Frequencies") (ascii "GHz") false .barGauge
    (ascii "Current Socket" ++ S ++ ascii " Uncore Frequencies (GHz)")
    ((List.range (max m.numUFSDies 1)).map (fun d =>
      let die := ascii "Uncore Frequency Die " ++ decimal d
      ⟨die, influxDBUncore S die ++ op, prometheusSocketCounters type S die false ++ op⟩))

def joules : List Bytes :=
  [ascii "Package Joules Consumed", ascii "DRAM Joules Consumed", ascii "PP0 Joules Consumed",
    ascii "PP1 Joules Consumed"]

def energy (s : Nat) : Layout → Layout :=
  let S := decimal s
  addRow height (ascii "Socket" ++ S ++ ascii " Energy Consumption") (ascii "Watt") false .barGauge
    (ascii "Current Socket" ++ S ++ ascii " Energy Consumption (Watt)")
    (joules.map (fun metric =>
      ⟨metric, influxDBUncore S metric, prometheusSocketCounters type S metric false⟩))

def memoryMetrics : List Bytes :=
  [ascii "DRAM Reads", ascii "DRAM Writes", ascii "Persistent Memory Reads",
    ascii "Persistent Memory Writes"]

/-- One summand of `genAll` -/
def memorySummand (special metric : Bytes) : Bytes :=
  if type = .influxDB then special ++ ascii "_Uncore Counters_" ++ metric ++ ascii "\\\")/1048576"
  else ascii "rate(" ++ prometheusMetric metric ++ special ++ interval type ++ ascii ")/1048576"

def genAll (special : Bytes) : Bytes :=
  memoryMetrics.foldl (fun all metric =>
    (if all ≠ [] then all ++ ascii " + " else all) ++ memorySummand type special metric) []

def memoryBandwidth : Layout → Layout :=
  addRow height (ascii "Memory Bandwidth") (ascii "MByte/sec") false .barGauge
    (ascii "Memory Bandwidth (MByte/sec)")
    (socketsAndTotal n
      (fun S => ⟨ascii "Socket" ++ S, genAll type (ascii "mean(\\\"Sockets_" ++ S ++ ascii "_Uncore"),
        genAll type (prometheusSocket S false)⟩)
      ⟨ascii "Total", genAll type (ascii "mean(\\\"Uncore Aggregate"), genAll type prometheusSystem⟩)

def cxlMetrics : List Bytes := [ascii "CXL Write Mem", ascii "CXL Write Cache"]

def megabytes : Bytes := ascii "/1048576"

/-- Reads and writes of a kind of memory together. -/
def memoryTotal (S kind : Bytes) : Target :=
  ⟨kind ++ ascii "Total",
    ascii "(" ++ influxDBUncore S (kind ++ ascii "Writes") ++ ascii "+" ++
      influxDBUncore S (kind ++ ascii "Reads") ++ ascii ")/1048576",
    ascii "(" ++ prometheusSocketCounters type S (kind ++ ascii "Writes") false ++ ascii "+" ++
      prometheusSocketCounters type S (kind ++ ascii "Reads") false ++ ascii ")/1048576"⟩

def socketMemoryBandwidth (s : Nat) : Layout → Layout :=
  let S := decimal s
  addRow height (ascii "Socket" ++ S ++ ascii " Memory Bandwidth") (ascii "MByte/sec") false .barGauge
    (ascii "Current Socket" ++ S ++ ascii " Memory Bandwidth (MByte/sec)")
    (memoryMetrics.map (fun metric =>
        ⟨metric, influxDBUncore S metric ++ megabytes,
          prometheusSocketCounters type S metric false ++ megabytes⟩) ++
      cxlMetrics.map (fun metric =>
        ⟨metric, ascii "mean(\\\"QPI/UPI Links_QPI Counters Socket " ++ S ++ ascii "_" ++ metric ++
            ascii "\\\")/1048576",
          prometheusSocketCounters type S metric false ++ megabytes⟩) ++
      [memoryTotal type S (ascii "DRAM "), memoryTotal type S (ascii "Persistent Memory ")])

def nearMemoryMetrics : List Bytes := [ascii "NM Hits", ascii "NM Misses", ascii "NM Miss Bw"]

/-- The hits and misses of a socket. -/
def nearMemoryHitsTargets (S : Bytes) : List Target :=
  nearMemoryMetrics.map (fun metric =>
    ⟨metric, influxDBUncore S metric ++ megabytes, prometheusSocketCounters type S metric false ++ megabytes⟩)

/-- The panels with these; `y` is not advanced. -/
def nearMemoryHits (s : Nat) (l : Layout) : Layout :=
  let row := rowPanels l.y height (ascii "Socket" ++ decimal s ++ ascii " Near Memory Hit Miss")
    (ascii "M/s") false .barGauge (ascii "Current Socket" ++ decimal s ++ ascii "Near Memory Hit/Miss")
    (nearMemoryHitsTargets type (decimal s))
  { l with panels := l.panels ++ row }

def nearMemoryHitRate : Layout → Layout :=
  let metric := ascii "NM HitRate"
  addRow height (ascii "Near Memory Hit Rate") (ascii "NM Hit Rate") false .gauge
    (ascii "Near Memory HitRate")
    ((List.range n.numSockets).map (fun s =>
      ⟨ascii "Socket " ++ decimal s, influxDBUncore (decimal s) metric ++ megabytes,
        prometheusSocketCounters type (decimal s) metric false ++ megabytes⟩))

def nearMemory (l : Layout) : Layout :=
  if m.nearMemoryMetricsAvailable then
    nearMemoryHitRate type n (forEach n.numSockets (nearMemoryHits type) { l with y := l.y + height })
  else l

/-- `(writes + reads) / (writes + reads)` -/
def ratio (counter : Bytes → Bytes) : Bytes :=
  ascii "(" ++ counter (ascii "Persistent Memory Writes") ++ ascii "+" ++
    counter (ascii "Persistent Memory Reads") ++ ascii ")/" ++
    ascii "(" ++ counter (ascii "DRAM Writes") ++ ascii "+" ++ counter (ascii "DRAM Reads") ++ ascii ")"

def bandwidthRatio : Layout → Layout :=
  addRow height (ascii "PMEM/DRAM Bandwidth Ratio") (ascii "PMEM/DRAM") false .barGauge
    (ascii "PMEM/DRAM Bandwidth Ratio")
    ((List.range n.numSockets).map (fun s =>
      ⟨ascii "Socket" ++ decimal s, ratio (influxDBUncore (decimal s)),
        ratio (fun metric => prometheusSocketCounters type (decimal s) metric false)⟩))

def stacked (title : Bytes) (metrics : List Bytes) (core : Bool) (s : Nat) : Layout → Layout :=
  let S := decimal s
  addRow tall (ascii "Socket" ++ S ++ ascii " " ++ title) (ascii "stacked %") true .barGauge
    (ascii "Current " ++ title ++ ascii " (%)")
    (metrics.map (fun metric =>
      ⟨metric, if core then influxDBSocketCore S metric else influxDBUncore S metric, []⟩))

def xPI : Bytes := if m.hasUPI then ascii "UPI" else ascii "QPI"

def upiRow (metric : Bytes) (utilization : Bool) (s : Nat) : Layout → Layout :=
  let S := decimal s
  let suffix := if utilization then ascii "*100" else ascii "/1048576"
  addRow height (ascii "Socket" ++ S ++ ascii " " ++ xPI m ++ ascii " " ++ metric)
    (if utilization then ascii "%" else ascii "MByte/sec") false
    (if utilization then .gauge else .barGauge)
    (ascii "Current Socket" ++ S ++ ascii " UPI " ++ metric ++
      if utilization then ascii " (%)" else ascii " (MByte/sec)")
    ((List.range n.numUPILinksPerSocket).map (fun link =>
      let L := decimal link
      ⟨xPI m ++ L,
        ascii "mean(\\\"QPI/UPI Links_QPI Counters Socket " ++ S ++ ascii "_" ++ metric ++
          ascii " On Link " ++ L ++ ascii "\\\")" ++ suffix,
        ascii "rate(" ++ prometheusMetric metric ++ ascii "_On_Link_" ++ L ++ prometheusSystemSocket S ++
          interval type ++ ascii ")" ++ suffix⟩))

def upi (metric : Bytes) (utilization : Bool) (l : Layout) : Layout :=
  if 0 < n.numUPILinksPerSocket then forEach n.numSockets (upiRow type m n metric utilization) l else l

def prometheusCStateExpression (source : Bytes) (c : Nat) : Bytes :=
  ascii "100 * rate(RawCStateResidency\x7b instance=\\\"$node\\\", aggregate = \\\"system\\\", index = \\\"" ++
    decimal c ++ ascii "\\\", source = \\\"" ++ source ++ ascii "\\\" \x7d" ++ interval type ++
    ascii ") / ignoring(source, index) rate(Invariant_TSC\x7b instance=\\\"$node\\\", aggregate = \\\"system\\\" \x7d" ++
    interval type ++ ascii ")"

def prometheusComputedCStateExpression (source : Bytes) (e : Nat) : Bytes :=
  (List.range (n.maxCState + 1)).foldl (fun result c =>
    if e ≠ c then result ++ ascii " - (" ++ prometheusCStateExpression type source c ++ ascii ") "
    else result) (ascii "100")

def cstate (title tPrefix source : Bytes) : Layout → Layout :=
  addRow tall (title ++ ascii " C-state residency") (ascii "stacked %") true .barGauge
    (ascii "Current " ++ title ++ ascii " C-state residency (%)")
    ((List.range (n.maxCState + 1)).map (fun c =>
      ⟨ascii "C" ++ decimal c,
        ascii "mean(\\\"" ++ tPrefix ++ ascii " Counters_CStateResidency[" ++ decimal c ++ ascii "]\\\")*100",
        if (source = ascii "core" ∧ c = 1) ∨ (source = ascii "uncore" ∧ c = 0) then
          prometheusComputedCStateExpression type n source c
        else prometheusCStateExpression type source c⟩))

def derived (fullName shortName dividend divisor : Bytes) : Layout → Layout :=
  addRow height fullName shortName false .barGauge fullName
    (socketsAndTotal n
      (fun S => ⟨ascii "Socket" ++ S, influxDBSocketCore S dividend ++ ascii "/" ++ influxDBSocketCore S divisor,
        prometheusSocketCounters type S dividend true ++ ascii "/" ++
          prometheusSocketCounters type S divisor true⟩)
      ⟨ascii "Total", influxDBCore dividend ++ ascii "/" ++ influxDBCore divisor,
        prometheusCounters type dividend ++ ascii "/" ++ prometheusCounters type divisor⟩)

def coreStalls : List Bytes :=
  [ascii "Frontend Bound", ascii "Bad Speculation", ascii "Backend Bound", ascii "Retiring",
    ascii "Fetch Latency Bound", ascii "Fetch Bandwidth Bound", ascii "Branch Misprediction Bound",
    ascii "Machine Clears Bound", ascii "Memory Bound", ascii "Core Bound", ascii "Heavy Operations Bound",
    ascii "Light Operations Bound"]

/-- `remove_string_inside_use` (`pcm-accel-common.cpp:370-383`), with the number of open parentheses -/
def removeInside : Int → Bytes → Bytes
  | _, [] => []
  | opened, c :: text =>
      if c = 40 then removeInside (opened + 1) text
      else if c = 41 then removeInside (opened - 1) text
      else if opened = 0 then c :: removeInside opened text
      else removeInside opened text

def accelCounters (accel : Accel) (metric : Bytes) : Layout → Layout :=
  addRow height (accel.name ++ ascii " " ++ metric) (ascii "Byte/sec") false .barGauge
    (ascii "Current " ++ accel.name ++ ascii " (Byte/sec)")
    ((List.range accel.devs).map (fun s =>
      let S := decimal s
      ⟨ascii "Device " ++ S,
        ascii "mean(\\\"Accelerators_" ++ accel.name ++ ascii " Counters Device " ++ S ++ ascii "_" ++ metric ++
          ascii "\\\")" ++ ascii "/1",
        ascii "rate(" ++ prometheusMetric (removeInside 0 metric) ++
          ascii "\x7binstance=\\\"$node\\\", aggregate=\\\"system\\\", source=\\\"accel\\\" ," ++ accel.name ++
          ascii "device=\\\"" ++ S ++ ascii "\\\"\x7d" ++ interval type ++ ascii ")" ++ ascii "/1"⟩))

def accelerators (l : Layout) : Layout :=
  match m.accel with
  | none => l
  | some accel => accel.counters.foldl (fun l metric => accelCounters type accel metric l) l

/-- A generator that is only for InfluxDB. -/
def influxDBOnly (generator : Layout → Layout) (l : Layout) : Layout :=
  if type = .influxDB then generator l else l

/-- The generators in their order. -/
def generators : List (Layout → Layout) :=
  [influxDBOnly type (scaled type n (ascii "Core Frequency") (ascii "GHz") (ascii "/1000000000")),
    influxDBOnly type (forEach n.numSockets (uncoreFrequencies type m)),
    forEach n.numSockets (energy type),
    memoryBandwidth type n,
    forEach n.numSockets (socketMemoryBandwidth type),
    nearMemory type m n,
    bandwidthRatio type n,
    influxDBOnly type (forEach n.numSockets (stacked (ascii "Memory Request Ratio")
      [ascii "Local Memory Request Ratio", ascii "Remote Memory Request Ratio"] false)),
    upi type m n (ascii "Utilization Outgoing Data And Non-Data Traffic") true,
    upi type m n (ascii "Utilization Incoming Data Traffic") true,
    upi type m n (ascii "Outgoing Data And Non-Data Traffic") false,
    upi type m n (ascii "Incoming Data Traffic") false,
    cstate type n (ascii "Core") (ascii "Core Aggregate_Energy") (ascii "core"),
    cstate type n (ascii "Package") (ascii "Uncore Aggregate_Uncore") (ascii "uncore"),
    derived type n (ascii "Instructions Per Cycle") (ascii "IPC") (ascii "Instructions Retired Any")
      (ascii "Clock Unhalted Thread"),
    influxDBOnly type (forEach n.numSockets (stacked (ascii "Core Stalls") coreStalls true)),
    derived type n (ascii "Active Frequency Ratio") (ascii "AFREQ") (ascii "Clock Unhalted Thread")
      (ascii "Clock Unhalted Ref"),
    derived type n (ascii "L3 Cache Misses Per Instruction") (ascii "L3 MPI") (ascii "L3 Cache Misses")
      (ascii "Instructions Retired Any"),
    derived type n (ascii "L2 Cache Misses Per Instruction") (ascii "L2 MPI") (ascii "L2 Cache Misses")
      (ascii "Instructions Retired Any")] ++
  [ascii "Instructions Retired Any", ascii "Clock Unhalted Thread", ascii "L2 Cache Hits",
    ascii "L2 Cache Misses", ascii "L3 Cache Hits", ascii "L3 Cache Misses"].map (fun metric =>
      scaled type n metric (ascii "Million") (ascii "/1000000")) ++
  [accelerators type m]

def layout : Layout := (generators type m n).foldl (fun l generator => generator l) {}

end Generators

/-- The numbers that are asked for, or else those of the machine. -/
def counts (m : Machine) (ns nu nc : Int) : Counts where
  numSockets := if ns < 0 then m.numSockets else ns.toNat
  numUPILinksPerSocket := if nu < 0 then m.qpiLinksPerSocket else nu.toNat
  -- `MAX_C_STATE`
  maxCState := if nc < 0 then 10 else nc.toNat

def title (m : Machine) : Bytes :=
  ascii "Intel(r) Performance Counter Monitor (Intel(r) PCM) Dashboard - " ++ m.hostname

/-- The panels of the dashboard. -/
def panels (m : Machine) (type : DashboardType) (ns nu nc : Int) : List Panel :=
  (layout type m (counts m ns nu nc)).panels

def getPCMDashboardJSON (m : Machine) (type : DashboardType) (ns nu nc : Int) : Bytes :=
  dashboard type (title m) (panels m type ns nu nc)

end Pcm.Dashboard

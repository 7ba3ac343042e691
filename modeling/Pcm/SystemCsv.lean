import Mathlib.Data.Prod.Lex
import Pcm.Lib.Fields
import Pcm.Lib.OrderedMap

/-!
# CSV output of `pcm`

`print_csv_header` (`pcm.cpp:748-1141`) and `print_csv` (`pcm.cpp:1216-1454`). The two header lines and the
data are printed by code of their own, with the same tests. A line of data has the quantities in place of
their values.
-/

namespace Pcm.SystemCsv

open Fields

/-! ## What the lines depend on -/

/-- What is asked of `PCM` while the lines are printed. -/
structure Machine where
  isActiveRelativeFrequencyAvailable : Bool
  isL3CacheMissesAvailable : Bool
  isL2CacheMissesAvailable : Bool
  isL3CacheHitRatioAvailable : Bool
  isL2CacheHitRatioAvailable : Bool
  isHWTMAL1Supported : Bool
  isHWTMAL2Supported : Bool
  L3CacheOccupancyMetricAvailable : Bool
  CoreLocalMemoryBWMetricAvailable : Bool
  CoreRemoteMemoryBWMetricAvailable : Bool
  memoryTrafficMetricsAvailable : Bool
  localMemoryRequestRatioMetricAvailable : Bool
  PMMTrafficMetricsAvailable : Bool
  HBMmemoryTrafficMetricsAvailable : Bool
  memoryIOTrafficMetricAvailable : Bool
  incomingQPITrafficMetricsAvailable : Bool
  outgoingQPITrafficMetricsAvailable : Bool
  qpiUtilizationMetricsAvailable : Bool
  packageEnergyMetricsAvailable : Bool
  ppEnergyMetricsAvailable : Bool
  dramEnergyMetricsAvailable : Bool
  systemEnergyMetricAvailable : Bool
  LLCReadMissLatencyMetricsAvailable : Bool
  uncoreFrequencyMetricAvailable : Bool
  isCoreCStateResidencySupported : Nat → Bool
  isPackageCStateResidencySupported : Nat → Bool
  xPI : String
  numSockets : Nat
  numCores : Nat
  qpiLinksPerSocket : Nat
  numUFSDies : Nat
  isCoreOnline : Nat → Bool
  socketId : Nat → Int
  dieId : Nat → Int

structure Options where
  ycores : Nat → Bool
  show_core_output : Bool
  show_partial_core_output : Bool
  show_socket_output : Bool
  show_system_output : Bool
  show_die_output : Bool

/-- `PCM::MAX_C_STATE` -/
def MAX_C_STATE : Nat := 10

variable (m : Machine) (o : Options)

def coreCStates : List Nat := (List.range (MAX_C_STATE + 1)).filter m.isCoreCStateResidencySupported

def packageCStates : List Nat :=
  (List.range (MAX_C_STATE + 1)).filter m.isPackageCStateResidencySupported

def sockets : List Nat := List.range m.numSockets

/-- The loop over the links of a socket. -/
def links : List Nat := List.range m.qpiLinksPerSocket

def onlineCores : List Nat := (List.range m.numCores).filter m.isCoreOnline

/-- `m->getNumSockets() > 1` and the metrics are there. -/
def incomingQPI : Bool := decide (1 < m.numSockets) && m.incomingQPITrafficMetricsAvailable

def outgoingQPI : Bool := decide (1 < m.numSockets) && m.outgoingQPITrafficMetricsAvailable

/-! ## Quantities -/

/-- The metrics that are printed for a socket, a die or a core, and in part for the system. -/
inductive Metric
  | exec | ipc | freq | afreq | cfreq | l3miss | l2miss | l3hit | l2hit | l3mpi | l2mpi
  | frontendBound | badSpeculation | backendBound | retiring
  | fetchLatencyBound | fetchBandwidthBound | branchMispredictionBound | machineClearsBound
  | memoryBound | coreBound | heavyOperationsBound | lightOperationsBound
  | l3occ | lmb | rmb | read | write | localRatio | pmmRead | pmmWrite | hbmRead | hbmWrite | io | ia | gt
  | temp | inst | acyc | physIPC | physIPCPercent | instNom | instNomPercent
  deriving DecidableEq, Repr

/-- Of whom a metric is printed. A die is what the states of these cores are summed up to. -/
inductive Owner
  | system
  | socket (i : Nat)
  | die (key : Int ×ₗ Int) (cores : List Nat)
  | core (i : Nat)

inductive Quantity
  | date
  | timeOfDay
  | metric (owner : Owner) (metric : Metric)
  /-- The time-stamp counter of a core, among the metrics of this owner. -/
  | ticks (block : Owner) (core : Nat)
  | incomingTotal
  | toMC
  | outgoingTotal
  | systemCoreCState (state : Nat)
  | systemPackageCState (state : Nat)
  | systemEnergy
  | systemPlaneEnergy (plane : Nat)
  | systemDramEnergy
  | platformEnergy
  | systemLatency
  | systemUncoreFrequency
  | incoming (socket link : Nat)
  | incomingUtilization (socket link : Nat)
  | outgoing (socket link : Nat)
  | outgoingUtilization (socket link : Nat)
  | socketCoreCState (socket state : Nat)
  | socketPackageCState (socket state : Nat)
  | energy (socket : Nat)
  | planeEnergy (plane socket : Nat)
  | dramEnergy (socket : Nat)
  | latency (socket : Nat)
  | uncoreFrequency (socket : Nat)
  | dieFrequency (socket die : Nat)
  | coreCState (core state : Nat)

/-! ## The headers -/

/-- `print_basic_metrics_csv_header` -/
def print_basic_metrics_csv_header : Line String :=
  terminated ["EXEC", "IPC", "FREQ"] ++
  optional m.isActiveRelativeFrequencyAvailable (terminated ["AFREQ", "CFREQ"]) ++
  optional m.isL3CacheMissesAvailable (terminated ["L3MISS"]) ++
  optional m.isL2CacheMissesAvailable (terminated ["L2MISS"]) ++
  optional m.isL3CacheHitRatioAvailable (terminated ["L3HIT"]) ++
  optional m.isL2CacheHitRatioAvailable (terminated ["L2HIT"]) ++
  optional m.isL3CacheMissesAvailable (terminated ["L3MPI"]) ++
  optional m.isL2CacheMissesAvailable (terminated ["L2MPI"]) ++
  optional m.isHWTMAL1Supported
    (terminated ["Frontend_bound(%)", "Bad_Speculation(%)", "Backend_Bound(%)", "Retiring(%)"]) ++
  optional m.isHWTMAL2Supported
    (terminated ["Fetch_latency_bound(%)", "Fetch_bandwidth_bound(%)", "Branch_misprediction_bound(%)",
      "Machine_clears_bound(%)", "Buffer_Cache_Memory_bound(%)", "Core_bound(%)",
      "Heavy_operations_bound(%)", "Light_operations_bound(%)"])

/-- `print_csv_header_helper` -/
def print_csv_header_helper (header : String) (count : Nat) : Line String :=
  (List.replicate count header).flatMap fun header => [some header, none]

/-- `print_basic_metrics_csv_semicolons` -/
def print_basic_metrics_csv_semicolons (header : String) : Line String :=
  print_csv_header_helper header 3 ++
  optional m.isActiveRelativeFrequencyAvailable (print_csv_header_helper header 2) ++
  optional m.isL3CacheMissesAvailable (print_csv_header_helper header 1) ++
  optional m.isL2CacheMissesAvailable (print_csv_header_helper header 1) ++
  optional m.isL3CacheHitRatioAvailable (print_csv_header_helper header 1) ++
  optional m.isL2CacheHitRatioAvailable (print_csv_header_helper header 1) ++
  optional m.isL3CacheMissesAvailable (print_csv_header_helper header 1) ++
  optional m.isL2CacheMissesAvailable (print_csv_header_helper header 1) ++
  optional m.isHWTMAL1Supported (print_csv_header_helper header 4) ++
  optional m.isHWTMAL2Supported (print_csv_header_helper header 8)

/-- What the headers have for a die and a core, and what the data has. -/
def otherHeaders (header : String) : Line String :=
  optional m.L3CacheOccupancyMetricAvailable (print_csv_header_helper header 1) ++
  optional m.CoreLocalMemoryBWMetricAvailable (print_csv_header_helper header 1) ++
  optional m.CoreRemoteMemoryBWMetricAvailable (print_csv_header_helper header 1)

def otherNames : Line String :=
  optional m.L3CacheOccupancyMetricAvailable (terminated ["L3OCC"]) ++
  optional m.CoreLocalMemoryBWMetricAvailable (terminated ["LMB"]) ++
  optional m.CoreRemoteMemoryBWMetricAvailable (terminated ["RMB"])

/-- `setw(2)` -/
def setw2 (s : String) : String := if s.length < 2 then " " ++ s else s

/-! ### The first header -/

namespace Header1

/-- The part with `show_system_output`. -/
def system : Line String :=
  let header := "System"
  print_basic_metrics_csv_semicolons m header ++
  optional m.memoryTrafficMetricsAvailable (print_csv_header_helper header 2) ++
  optional m.localMemoryRequestRatioMetricAvailable (print_csv_header_helper header 1) ++
  optional m.PMMTrafficMetricsAvailable (print_csv_header_helper header 2) ++
  optional m.HBMmemoryTrafficMetricsAvailable (print_csv_header_helper header 2) ++
  print_csv_header_helper header 7 ++
  optional (incomingQPI m) (print_csv_header_helper header 2) ++
  optional (outgoingQPI m) (print_csv_header_helper header 1) ++
  (coreCStates m).flatMap (fun _ => print_csv_header_helper "System Core C-States" 1) ++
  (packageCStates m).flatMap (fun _ => print_csv_header_helper "System Pack C-States" 1) ++
  optional m.packageEnergyMetricsAvailable (print_csv_header_helper header 1) ++
  optional m.ppEnergyMetricsAvailable (print_csv_header_helper header 2) ++
  optional m.dramEnergyMetricsAvailable (print_csv_header_helper header 1) ++
  optional m.systemEnergyMetricAvailable (print_csv_header_helper header 1) ++
  optional m.LLCReadMissLatencyMetricsAvailable (print_csv_header_helper header 1) ++
  optional m.uncoreFrequencyMetricAvailable (print_csv_header_helper header 1)

def socket (i : Nat) : Line String :=
  let header := "Socket " ++ toString i
  print_basic_metrics_csv_semicolons m header ++
  otherHeaders m header ++
  optional m.memoryTrafficMetricsAvailable (print_csv_header_helper header 2) ++
  optional m.localMemoryRequestRatioMetricAvailable (print_csv_header_helper header 1) ++
  optional m.PMMTrafficMetricsAvailable (print_csv_header_helper header 2) ++
  optional m.HBMmemoryTrafficMetricsAvailable (print_csv_header_helper header 2) ++
  optional m.memoryIOTrafficMetricAvailable (print_csv_header_helper header 3) ++
  print_csv_header_helper header 8

def incoming (s : Nat) : Line String :=
  print_csv_header_helper ("SKT" ++ toString s ++ "dataIn") m.qpiLinksPerSocket ++
  optional m.qpiUtilizationMetricsAvailable
    (print_csv_header_helper ("SKT" ++ toString s ++ "dataIn (percent)") m.qpiLinksPerSocket)

def outgoing (s : Nat) : Line String :=
  print_csv_header_helper ("SKT" ++ toString s ++ "trafficOut") m.qpiLinksPerSocket ++
  print_csv_header_helper ("SKT" ++ toString s ++ "trafficOut (percent)") m.qpiLinksPerSocket

def cStates (i : Nat) : Line String :=
  (coreCStates m).flatMap (fun _ => print_csv_header_helper ("SKT" ++ toString i ++ " Core C-State") 1) ++
  (packageCStates m).flatMap (fun _ => print_csv_header_helper ("SKT" ++ toString i ++ " Package C-State") 1)

/-- The header of a die. -/
def dieHeader (key : Int ×ₗ Int) : String := "SKT" ++ toString (ofLex key).1 ++ "." ++ toString (ofLex key).2

def die (entry : (Int ×ₗ Int) × Bool) : Line String :=
  let header := dieHeader entry.1
  print_basic_metrics_csv_semicolons m header ++
  otherHeaders m header ++
  print_csv_header_helper header 1 ++
  print_csv_header_helper header 7

def coreHeader (i : Nat) : String :=
  "Core" ++ toString i ++ " (Socket" ++ setw2 (toString (m.socketId i)) ++ ")"

def core (i : Nat) : Line String :=
  let header := coreHeader m i
  print_basic_metrics_csv_semicolons m header ++
  otherHeaders m header ++
  (coreCStates m).flatMap (fun _ => print_csv_header_helper header 1) ++
  print_csv_header_helper header 1 ++
  print_csv_header_helper header 7

end Header1

namespace Header2

def system : Line String :=
  print_basic_metrics_csv_header m ++
  optional m.memoryTrafficMetricsAvailable (terminated ["READ", "WRITE"]) ++
  optional m.localMemoryRequestRatioMetricAvailable (terminated ["LOCAL"]) ++
  optional m.PMMTrafficMetricsAvailable (terminated ["PMM_RD", "PMM_WR"]) ++
  optional m.HBMmemoryTrafficMetricsAvailable (terminated ["HBM_READ", "HBM_WRITE"]) ++
  terminated ["INST", "ACYC", "TIME(ticks)", "PhysIPC", "PhysIPC%", "INSTnom", "INSTnom%"] ++
  optional (incomingQPI m) (terminated ["Total" ++ m.xPI ++ "in", m.xPI ++ "toMC"]) ++
  optional (outgoingQPI m) (terminated ["Total" ++ m.xPI ++ "out"]) ++
  (coreCStates m).flatMap (fun s => terminated ["C" ++ toString s ++ "res%"]) ++
  (packageCStates m).flatMap (fun s => terminated ["C" ++ toString s ++ "res%"]) ++
  optional m.packageEnergyMetricsAvailable (terminated ["Proc Energy (Joules)"]) ++
  optional m.ppEnergyMetricsAvailable
    (terminated ["Power Plane 0 Energy (Joules)", "Power Plane 1 Energy (Joules)"]) ++
  optional m.dramEnergyMetricsAvailable (terminated ["DRAM Energy (Joules)"]) ++
  optional m.systemEnergyMetricAvailable (terminated ["SYSTEM Energy (Joules)"]) ++
  optional m.LLCReadMissLatencyMetricsAvailable (terminated ["LLCRDMISSLAT (ns)"]) ++
  optional m.uncoreFrequencyMetricAvailable (terminated ["UncFREQ (Ghz)"])

def socket : Line String :=
  print_basic_metrics_csv_header m ++
  otherNames m ++
  optional m.memoryTrafficMetricsAvailable (terminated ["READ", "WRITE"]) ++
  optional m.localMemoryRequestRatioMetricAvailable (terminated ["LOCAL"]) ++
  optional m.PMMTrafficMetricsAvailable (terminated ["PMM_RD", "PMM_WR"]) ++
  optional m.HBMmemoryTrafficMetricsAvailable (terminated ["HBM_READ", "HBM_WRITE"]) ++
  optional m.memoryIOTrafficMetricAvailable (terminated ["IO", "IA", "GT"]) ++
  terminated ["TEMP", "INST", "ACYC", "TIME(ticks)", "PhysIPC", "PhysIPC%", "INSTnom", "INSTnom%"]

def linkNames : Line String := (links m).flatMap fun i => terminated [m.xPI ++ toString i]

def cStates : Line String :=
  (coreCStates m).flatMap (fun s => terminated ["C" ++ toString s ++ "res%"]) ++
  (packageCStates m).flatMap (fun s => terminated ["C" ++ toString s ++ "res%"])

/-- `printSKT` -/
def printSKT (i count : Nat) : Line String :=
  (List.range count).flatMap fun _ => terminated ["SKT" ++ toString i]

def die : Line String :=
  print_basic_metrics_csv_header m ++
  otherNames m ++
  terminated ["TEMP"] ++
  terminated ["INST", "ACYC", "TIME(ticks)", "PhysIPC", "PhysIPC%", "INSTnom", "INSTnom%"]

def core : Line String :=
  print_basic_metrics_csv_header m ++
  otherNames m ++
  (coreCStates m).flatMap (fun s => terminated ["C" ++ toString s ++ "res%"]) ++
  terminated ["TEMP"] ++
  terminated ["INST", "ACYC", "TIME(ticks)", "PhysIPC", "PhysIPC%", "INSTnom", "INSTnom%"]

end Header2

/-- `print_basic_metrics_csv` -/
def print_basic_metrics_csv (owner : Owner) (print_last_semicolon : Bool) : Line Quantity :=
  let q := Quantity.metric owner
  [some (q .exec), none, some (q .ipc), none, some (q .freq)] ++
  optional m.isActiveRelativeFrequencyAvailable [none, some (q .afreq), none, some (q .cfreq)] ++
  optional m.isL3CacheMissesAvailable [none, some (q .l3miss)] ++
  optional m.isL2CacheMissesAvailable [none, some (q .l2miss)] ++
  optional m.isL3CacheHitRatioAvailable [none, some (q .l3hit)] ++
  optional m.isL2CacheHitRatioAvailable [none, some (q .l2hit)] ++
  optional m.isL3CacheMissesAvailable [none, some (q .l3mpi)] ++
  optional m.isL2CacheMissesAvailable [none, some (q .l2mpi)] ++
  optional m.isHWTMAL1Supported
    (led [q .frontendBound, q .badSpeculation, q .backendBound, q .retiring]) ++
  optional m.isHWTMAL2Supported
    (led [q .fetchLatencyBound, q .fetchBandwidthBound, q .branchMispredictionBound,
      q .machineClearsBound, q .memoryBound, q .coreBound, q .heavyOperationsBound,
      q .lightOperationsBound]) ++
  optional print_last_semicolon [none]

/-- `print_other_metrics_csv` -/
def print_other_metrics_csv (owner : Owner) : Line Quantity :=
  let q := Quantity.metric owner
  optional m.L3CacheOccupancyMetricAvailable [none, some (q .l3occ)] ++
  optional m.CoreLocalMemoryBWMetricAvailable [none, some (q .lmb)] ++
  optional m.CoreRemoteMemoryBWMetricAvailable [none, some (q .rmb)]

/-- The seven metrics at the end of each part. The ticks are always `getInvariantTSC(cstates1[0], cstates2[0])`. -/
def lastMetrics (owner : Owner) : Line Quantity :=
  let q := Quantity.metric owner
  terminated [q .inst, q .acyc, .ticks owner 0, q .physIPC, q .physIPCPercent, q .instNom, q .instNomPercent]

namespace Data

def system : Line Quantity :=
  let q := Quantity.metric .system
  print_basic_metrics_csv m .system true ++
  optional m.memoryTrafficMetricsAvailable [some (q .read), none, some (q .write), none] ++
  optional m.localMemoryRequestRatioMetricAvailable [some (q .localRatio), none] ++
  optional m.PMMTrafficMetricsAvailable [some (q .pmmRead), none, some (q .pmmWrite), none] ++
  optional m.HBMmemoryTrafficMetricsAvailable [some (q .hbmRead), none, some (q .hbmWrite), none] ++
  lastMetrics .system ++
  optional (incomingQPI m) [some .incomingTotal, none, some .toMC, none] ++
  optional (outgoingQPI m) [some .outgoingTotal, none] ++
  (coreCStates m).flatMap (fun s => [some (.systemCoreCState s), none]) ++
  (packageCStates m).flatMap (fun s => [some (.systemPackageCState s), none]) ++
  optional m.packageEnergyMetricsAvailable [some .systemEnergy, none] ++
  optional m.ppEnergyMetricsAvailable
    [some (.systemPlaneEnergy 0), none, some (.systemPlaneEnergy 1), none] ++
  optional m.dramEnergyMetricsAvailable [some .systemDramEnergy, none] ++
  optional m.systemEnergyMetricAvailable [some .platformEnergy, none] ++
  optional m.LLCReadMissLatencyMetricsAvailable [some .systemLatency, none] ++
  optional m.uncoreFrequencyMetricAvailable [some .systemUncoreFrequency, none]

def socket (i : Nat) : Line Quantity :=
  let q := Quantity.metric (.socket i)
  print_basic_metrics_csv m (.socket i) false ++
  print_other_metrics_csv m (.socket i) ++
  optional m.memoryTrafficMetricsAvailable [none, some (q .read), none, some (q .write)] ++
  optional m.localMemoryRequestRatioMetricAvailable [none, some (q .localRatio)] ++
  optional m.PMMTrafficMetricsAvailable [none, some (q .pmmRead), none, some (q .pmmWrite)] ++
  optional m.HBMmemoryTrafficMetricsAvailable [none, some (q .hbmRead), none, some (q .hbmWrite)] ++
  optional m.memoryIOTrafficMetricAvailable
    [none, some (q .io), none, some (q .ia), none, some (q .gt)] ++
  [none, some (q .temp), none] ++
  lastMetrics (.socket i)

def incoming (i : Nat) : Line Quantity :=
  (links m).flatMap (fun l => [some (.incoming i l), none]) ++
  optional m.qpiUtilizationMetricsAvailable
    ((links m).flatMap fun l => [some (.incomingUtilization i l), none])

def outgoing (i : Nat) : Line Quantity :=
  (links m).flatMap (fun l => [some (.outgoing i l), none]) ++
  (links m).flatMap (fun l => [some (.outgoingUtilization i l), none])

def cStates (i : Nat) : Line Quantity :=
  (coreCStates m).flatMap (fun s => [some (.socketCoreCState i s), none]) ++
  (packageCStates m).flatMap (fun s => [some (.socketPackageCState i s), none])

def die (entry : (Int ×ₗ Int) × List Nat) : Line Quantity :=
  let owner := Owner.die entry.1 entry.2
  print_basic_metrics_csv m owner false ++
  print_other_metrics_csv m owner ++
  [none, some (.metric owner .temp), none] ++
  lastMetrics owner

def core (i : Nat) : Line Quantity :=
  print_basic_metrics_csv m (.core i) false ++
  print_other_metrics_csv m (.core i) ++
  [none] ++
  (coreCStates m).flatMap (fun s => [some (.coreCState i s), none]) ++
  [some (.metric (.core i) .temp), none] ++
  lastMetrics (.core i)

end Data

end Pcm.SystemCsv

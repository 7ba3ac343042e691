import Pcm.SystemCsv

/-!
# Columns of the CSV output of `pcm`

The lines have as many fields. The second header names the quantities in the fields below it, and the first
one the blocks in which they stand, but for the energies of the power planes: the first header has all sockets for the one plane before those for the other,
the second header and the data have both planes of a socket together.
-/

namespace Pcm.SystemCsv

open Fields

variable (m : Machine) (o : Options)

/-! ## Names of quantities -/

def Metric.name : Metric → String
  | exec => "EXEC" | ipc => "IPC" | freq => "FREQ" | afreq => "AFREQ" | cfreq => "CFREQ"
  | l3miss => "L3MISS" | l2miss => "L2MISS" | l3hit => "L3HIT" | l2hit => "L2HIT"
  | l3mpi => "L3MPI" | l2mpi => "L2MPI"
  | frontendBound => "Frontend_bound(%)" | badSpeculation => "Bad_Speculation(%)"
  | backendBound => "Backend_Bound(%)" | retiring => "Retiring(%)"
  | fetchLatencyBound => "Fetch_latency_bound(%)"
  | fetchBandwidthBound => "Fetch_bandwidth_bound(%)"
  | branchMispredictionBound => "Branch_misprediction_bound(%)"
  | machineClearsBound => "Machine_clears_bound(%)"
  | memoryBound => "Buffer_Cache_Memory_bound(%)" | coreBound => "Core_bound(%)"
  | heavyOperationsBound => "Heavy_operations_bound(%)"
  | lightOperationsBound => "Light_operations_bound(%)"
  | l3occ => "L3OCC" | lmb => "LMB" | rmb => "RMB" | read => "READ" | write => "WRITE"
  | localRatio => "LOCAL" | pmmRead => "PMM_RD" | pmmWrite => "PMM_WR"
  | hbmRead => "HBM_READ" | hbmWrite => "HBM_WRITE" | io => "IO" | ia => "IA" | gt => "GT"
  | temp => "TEMP" | inst => "INST" | acyc => "ACYC"
  | physIPC => "PhysIPC" | physIPCPercent => "PhysIPC%" | instNom => "INSTnom"
  | instNomPercent => "INSTnom%"

def Owner.name : Owner → String
  | system => "System"
  | socket i => "Socket " ++ toString i
  | die key _ => Header1.dieHeader key
  | core i => Header1.coreHeader m i

/-- Whose quantity it is, in the words of the first header. -/
def Quantity.owner : Quantity → String
  | metric owner _ => owner.name m
  | ticks _ core => Header1.coreHeader m core
  | systemCoreCState _ => "System Core C-States"
  | systemPackageCState _ => "System Pack C-States"
  | incoming s _ => "SKT" ++ toString s ++ "dataIn"
  | incomingUtilization s _ => "SKT" ++ toString s ++ "dataIn (percent)"
  | outgoing s _ => "SKT" ++ toString s ++ "trafficOut"
  | outgoingUtilization s _ => "SKT" ++ toString s ++ "trafficOut (percent)"
  | socketCoreCState s _ => "SKT" ++ toString s ++ " Core C-State"
  | socketPackageCState s _ => "SKT" ++ toString s ++ " Package C-State"
  | energy _ => "Proc Energy (Joules)"
  | planeEnergy plane _ => "Power Plane " ++ toString plane ++ " Energy (Joules)"
  | dramEnergy _ => "DRAM Energy (Joules)"
  | latency _ => "LLCRDMISSLAT (ns)"
  | uncoreFrequency _ => "UncFREQ (Ghz)"
  | dieFrequency _ die => "UncFREQ Die " ++ toString die ++ " (Ghz)"
  | coreCState core _ => Header1.coreHeader m core
  | _ => "System"

/-- Among whose quantities it is printed. -/
def Quantity.block : Quantity → String
  | ticks block _ => block.name m
  | quantity => quantity.owner m

/-- What the second header has. -/
def Quantity.name : Quantity → String
  | date => "Date"
  | timeOfDay => "Time"
  | metric _ kind => kind.name
  | ticks _ _ => "TIME(ticks)"
  | incomingTotal => "Total" ++ m.xPI ++ "in"
  | toMC => m.xPI ++ "toMC"
  | outgoingTotal => "Total" ++ m.xPI ++ "out"
  | systemCoreCState s | systemPackageCState s | socketCoreCState _ s | socketPackageCState _ s
  | coreCState _ s => "C" ++ toString s ++ "res%"
  | systemEnergy => "Proc Energy (Joules)"
  | systemPlaneEnergy plane => "Power Plane " ++ toString plane ++ " Energy (Joules)"
  | systemDramEnergy => "DRAM Energy (Joules)"
  | platformEnergy => "SYSTEM Energy (Joules)"
  | systemLatency => "LLCRDMISSLAT (ns)"
  | systemUncoreFrequency => "UncFREQ (Ghz)"
  | incoming _ l | incomingUtilization _ l | outgoing _ l | outgoingUtilization _ l =>
      m.xPI ++ toString l
  | energy s | planeEnergy _ s | dramEnergy s | latency s | uncoreFrequency s | dieFrequency s _ =>
      "SKT" ++ toString s

/-! ## Metrics -/

open Pcm.SystemCsv.Metric in
/-- The metrics after the first. -/
def laterBasicMetrics : List Metric :=
  [ipc, freq] ++
  optional m.isActiveRelativeFrequencyAvailable [afreq, cfreq] ++
  optional m.isL3CacheMissesAvailable [l3miss] ++
  optional m.isL2CacheMissesAvailable [l2miss] ++
  optional m.isL3CacheHitRatioAvailable [l3hit] ++
  optional m.isL2CacheHitRatioAvailable [l2hit] ++
  optional m.isL3CacheMissesAvailable [l3mpi] ++
  optional m.isL2CacheMissesAvailable [l2mpi] ++
  optional m.isHWTMAL1Supported [frontendBound, badSpeculation, backendBound, retiring] ++
  optional m.isHWTMAL2Supported
    [fetchLatencyBound, fetchBandwidthBound, branchMispredictionBound, machineClearsBound,
      memoryBound, coreBound, heavyOperationsBound, lightOperationsBound]

open Quantity in
def lastOnes (owner : Owner) : List Quantity :=
  [metric owner .inst, metric owner .acyc, ticks owner 0, metric owner .physIPC, metric owner .physIPCPercent,
    metric owner .instNom, metric owner .instNomPercent]

/-- How the pieces of a part of the data are separated: behind them, or before them. -/
inductive Style
  | terminated
  | led

def Style.print : Style → List Quantity → Line Quantity
  | .terminated, qs => Fields.terminated qs
  | .led, qs => Fields.led qs

theorem Style.print_append (style : Style) (qs rs : List Quantity) :
    style.print (qs ++ rs) = style.print qs ++ style.print rs := by
  cases style with
  | terminated => exact terminated_append qs rs
  | led => exact led_append qs rs

/-- A part of the lines with these quantities in its columns. -/
structure Columns (style : Style) (qs : List Quantity) (first second : Line String)
    (data : Line Quantity) : Prop where
  first : first = terminated (qs.map (Quantity.block m))
  second : second = terminated (qs.map (Quantity.name m))
  data : data = style.print qs

variable {m} {style : Style} {qs rs : List Quantity} {first second later next : Line String}
  {data more : Line Quantity}

theorem columns_nil : Columns m style [] [] [] [] := by
  cases style <;> exact ⟨rfl, rfl, rfl⟩

theorem Columns.append (a : Columns m style qs first second data)
    (b : Columns m style rs later next more) :
    Columns m style (qs ++ rs) (first ++ later) (second ++ next) (data ++ more) where
  first := by rw [List.map_append, terminated_append, a.first, b.first]
  second := by rw [List.map_append, terminated_append, a.second, b.second]
  data := by rw [Style.print_append, a.data, b.data]

theorem Columns.optional (c : Bool) (a : Columns m style qs first second data) :
    Columns m style (optional c qs) (Fields.optional c first) (Fields.optional c second)
      (Fields.optional c data) := by
  cases c with
  | false => exact columns_nil
  | true => exact a

/-- The first quantity of a part, and the separator behind its last. -/
theorem Columns.close (q : Quantity) (a : Columns m .led qs first second data) :
    Columns m .terminated (q :: qs) ([some (q.block m), none] ++ first) ([some (q.name m), none] ++ second)
      (some q :: data ++ [none]) where
  first := by rw [a.first]; rfl
  second := by rw [a.second]; rfl
  data := by rw [a.data]; exact led_terminated q qs

theorem Columns.congr {first' second' : Line String} {data' : Line Quantity}
    (a : Columns m style qs first second data) (sameFirst : first' = first) (sameSecond : second' = second)
    (sameData : data' = data) : Columns m style qs first' second' data' := by
  rw [sameFirst, sameSecond, sameData]
  exact a

open Quantity in
def otherColumns (m : Machine) (owner : Owner) : List Quantity :=
  optional m.L3CacheOccupancyMetricAvailable [metric owner .l3occ] ++
  optional m.CoreLocalMemoryBWMetricAvailable [metric owner .lmb] ++
  optional m.CoreRemoteMemoryBWMetricAvailable [metric owner .rmb]

open Quantity in
/-- The metrics of a socket from its second one to the temperature. -/
def socketMetrics (m : Machine) (i : Nat) : List Quantity :=
  (laterBasicMetrics m).map (metric (.socket i)) ++
  otherColumns m (.socket i) ++
  optional m.memoryTrafficMetricsAvailable [metric (.socket i) .read, metric (.socket i) .write] ++
  optional m.localMemoryRequestRatioMetricAvailable [metric (.socket i) .localRatio] ++
  optional m.PMMTrafficMetricsAvailable [metric (.socket i) .pmmRead, metric (.socket i) .pmmWrite] ++
  optional m.HBMmemoryTrafficMetricsAvailable
    [metric (.socket i) .hbmRead, metric (.socket i) .hbmWrite] ++
  optional m.memoryIOTrafficMetricAvailable
    [metric (.socket i) .io, metric (.socket i) .ia, metric (.socket i) .gt] ++
  [metric (.socket i) .temp]

def socketColumns (m : Machine) (i : Nat) : List Quantity :=
  .metric (.socket i) .exec :: socketMetrics m i ++ lastOnes (.socket i)

open Quantity in
def coreColumns (m : Machine) (i : Nat) : List Quantity :=
  metric (.core i) .exec :: ((laterBasicMetrics m).map (metric (.core i)) ++ otherColumns m (.core i)) ++
  (coreCStates m).flatMap (fun s => [coreCState i s]) ++
  [metric (.core i) .temp] ++
  lastOnes (.core i)

open Quantity in
/-- The columns before the energies of the power planes. -/
def columnsBefore (m : Machine) : List Quantity :=
  (sockets m).flatMap (socketColumns m) ++
  optional (incomingQPI m) ((sockets m).flatMap fun i =>
    (links m).flatMap (fun l => [incoming i l]) ++
      optional m.qpiUtilizationMetricsAvailable ((links m).flatMap fun l => [incomingUtilization i l])) ++
  optional (outgoingQPI m) ((sockets m).flatMap fun i =>
    (links m).flatMap (fun l => [outgoing i l]) ++ (links m).flatMap (fun l => [outgoingUtilization i l])) ++
  (sockets m).flatMap (fun i =>
    (coreCStates m).flatMap (fun s => [socketCoreCState i s]) ++
      (packageCStates m).flatMap (fun s => [socketPackageCState i s])) ++
  optional m.packageEnergyMetricsAvailable ((sockets m).flatMap fun i => [energy i])

section Ticks

variable {block : Owner} {core : Nat}

end Ticks

end Pcm.SystemCsv

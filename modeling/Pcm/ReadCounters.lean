import Pcm.Bits
import Pcm.CpuModel
import Pcm.CounterState
import Pcm.RawConfig
import Pcm.Lib.Accumulate

/-!
# Reading counter states

`BasicCounterState::readAndAggregate` (`cpucounters.cpp:5705-5908`) adds what one core's registers
show to a snapshot; `readAndAggregateUncoreMCCounters`, `readAndAggregateEnergyCounters` and their
siblings (`cpucounters.cpp:6589-6876`) do so for one socket. `getSystemCounterState`,
`getSocketCounterState` and `getAllCounterStates` (`cpucounters.cpp:6599-6624`, `7163-7254`) walk
over the topology with them.

The hardware is what the reads return during one call. Computations in `double` are a parameter.
-/

namespace Pcm

open Accumulate (modify)

/-- The two places where a reading goes through floating point. -/
structure DoubleArith where
  /-- `(uint64)((double)(x) / divisor)`. -/
  scale : (x : BitVec 64) → (divisor : Nat) → BitVec 64
  /-- `uint64((double(part) / total) * double(slots))`. -/
  share : (part total slots : BitVec 64) → BitVec 64

/-- The software accumulators of top-down slots of one core (`PCM::FrontendBoundSlots[core]` and
so on), and the values read in their place. -/
structure TopDownSlots where
  frontendBound : BitVec 64 := 0
  badSpeculation : BitVec 64 := 0
  backendBound : BitVec 64 := 0
  retiring : BitVec 64 := 0
  allSlotsRaw : BitVec 64 := 0
  memBound : BitVec 64 := 0
  fetchLat : BitVec 64 := 0
  brMispred : BitVec 64 := 0
  heavyOps : BitVec 64 := 0
  deriving DecidableEq, Repr

/-- One logical core: its topology entry, what its registers return and what PCM keeps for it. -/
structure Core where
  osId : Int
  coreId : Int
  socketId : Int
  msr : Nat → BitVec 64
  /-- What `RDTSCP` returns on the core, or the time of day in nominal clocks on an Atom. -/
  tsc : BitVec 64 := 0
  perfData : Nat → BitVec 64 := fun _ => 0
  /-- `lastProgrammedCustomCounters[core]`. -/
  lastProgrammedCustomCounters : List (BitVec 64) := []
  resctrlL3OCC : BitVec 64 := 0
  resctrlMBL : BitVec 64 := 0
  resctrlMBT : BitVec 64 := 0
  /-- `memory_bw_local[core]->read()`, where the vector is that long. -/
  memoryBWLocal : Option (BitVec 64) := none
  memoryBWTotal : Option (BitVec 64) := none
  slots : TopDownSlots := {}

namespace Core

/-- `isCoreOnline` (`cpucounters.cpp:3497-3500`). -/
def online (c : Core) : Bool := c.osId ≠ -1 && c.coreId ≠ -1 && c.socketId ≠ -1

/-- The index `topology[core].socket_id`. -/
def socket (c : Core) : Nat := c.socketId.toNat

end Core

/-- What `serverBW[socket]` returns. -/
structure ServerBWReadings where
  imcReads : BitVec 64 := 0
  imcWrites : BitVec 64 := 0
  pmmReads : BitVec 64 := 0
  pmmWrites : BitVec 64 := 0

/-- What `serverUncorePMUs[socket]` returns. -/
structure ServerUncoreReadings where
  imcReads : BitVec 64 := 0
  imcWrites : BitVec 64 := 0
  nmHits : BitVec 64 := 0
  nmMisses : BitVec 64 := 0
  haRequests : BitVec 64 := 0
  haLocalRequests : BitVec 64 := 0
  pmmReads : BitVec 64 := 0
  pmmWrites : BitVec 64 := 0
  edcReads : BitVec 64 := 0
  edcWrites : BitVec 64 := 0
  hbmAvailable : Bool := false

/-- What the client memory controller counters return. -/
structure ClientReadings where
  imcReads : BitVec 64 := 0
  imcWrites : BitVec 64 := 0
  gtRequests : BitVec 64 := 0
  iaRequests : BitVec 64 := 0
  ioRequests : BitVec 64 := 0

/-- The members of `PCM` that the read functions use, with the hardware behind them. -/
structure Machine where
  cpuFamilyModel : CpuModel
  cpuStepping : Nat := 0
  numSockets : Nat
  cores : List Core
  /-- An online core is on one of the sockets: `discoverSystemTopology` numbers them. -/
  socketsInRange : ∀ c ∈ cores, c.online = true → 0 ≤ c.socketId ∧ c.socketId < numSockets
  arith : DoubleArith
  canUsePerf : Bool := false
  coreGlobalCtrlValue : BitVec 64 := 0
  coreGenCounterNumMax : Nat := 0
  coreGenCounterWidth : Nat := 0
  coreFixedCounterWidth : Nat := 0
  uncoreGenCounterWidth : Nat := 0
  hwTMAL1Supported : Bool := false
  hwTMAL2Supported : Bool := false
  perfSupportsTopDown : Bool := false
  perfTopDownPos : Nat → Nat := fun _ => 0
  useResctrl : Bool := false
  l3CacheOccupancyMetricAvailable : Bool := false
  coreLocalMemoryBWMetricAvailable : Bool := false
  coreRemoteMemoryBWMetricAvailable : Bool := false
  l3ScalingFactor : BitVec 64 := 0
  /-- The C-state registers; 0 where the model has none. -/
  coreCStateMsr : CState → Nat := fun _ => 0
  pkgCStateMsr : CState → Nat := fun _ => 0
  /-- `getUncoreCounterState(CBO_PMU_ID, socket, ctr)`. -/
  cboCounterState : Nat → Nat → BitVec 64 := fun _ _ => 0
  uncoreClocks : Nat → BitVec 64 := fun _ => 0
  numUBOX : Nat := 0
  ufsStatus : List (List (Option (BitVec 64))) := []
  serverBW : List ServerBWReadings := []
  serverUncorePMUs : List ServerUncoreReadings := []
  clientBW : Option ClientReadings := none
  energyStatus : List (BitVec 64) := []
  dramEnergyStatus : List (BitVec 64) := []
  ppEnergyStatus : List (BitVec 64) := []
  /-- The first two counters of each CXL port of a socket. -/
  cxlPorts : Nat → List (BitVec 64 × BitVec 64) := fun _ => []
  threadMSRConfig : RawPMUConfig := {}
  packageMSRConfig : RawPMUConfig := {}

/-- `PCM_INVALID_QOS_MONITORING_DATA`. -/
def invalidQOSMonitoringData : BitVec 64 := -1

/-- `extractQOSMonitoring` (`cpucounters.cpp:197-208`). -/
def extractQOSMonitoring (val : BitVec 64) : BitVec 64 :=
  if val &&& (3#64 <<< 62) ≠ 0 then invalidQOSMonitoringData else extractBits val 0 61

/-- `extractThermalHeadroom` (`cpucounters.cpp:209-218`). -/
def extractThermalHeadroom (val : BitVec 64) : Int :=
  if val &&& (1#64 <<< 31) ≠ 0 then (extractBits val 16 22).toNat else -2 ^ 31

namespace Machine

variable (m : Machine)

/-- The common text of `extractCoreGenCounterValue` and its siblings
(`cpucounters.cpp:161-195`). -/
def extractCounterValue (width : Nat) (val : BitVec 64) : BitVec 64 :=
  if width ≠ 0 then extractBits val 0 (width - 1) else val

def extractCoreGenCounterValue (val : BitVec 64) : BitVec 64 :=
  if m.canUsePerf then val else extractCounterValue m.coreGenCounterWidth val

def extractCoreFixedCounterValue (val : BitVec 64) : BitVec 64 :=
  if m.canUsePerf then val else extractCounterValue m.coreFixedCounterWidth val

def extractUncoreGenCounterValue (val : BitVec 64) : BitVec 64 :=
  extractCounterValue m.uncoreGenCounterWidth val

/-- Whether `checkCustomCoreProgramming` (`cpucounters.cpp:4971-5005`) finds the event select
register of counter `i` changed by someone else. -/
def corrupted (core : Core) (i : Nat) : Bool :=
  !m.canUsePerf && match core.lastProgrammedCustomCounters[i]? with
    | some value => core.msr (0x186 + i) ≠ value
    | none => false

/-- `overflows`: `IA32_PERF_GLOBAL_STATUS`, which the perf path does not read. -/
def overflows (core : Core) : BitVec 64 := if m.canUsePerf then 0 else core.msr 0x38E

/-- `cInstRetiredAny`, `cCpuClkUnhaltedThread`, `cCpuClkUnhaltedRef` and `cCustomEvents[i]`. -/
def readCounter (core : Core) : CoreCounter → BitVec 64
  | .instRetiredAny => if m.canUsePerf then core.perfData 0 else core.msr 0x309
  | .cpuClkUnhaltedThread => if m.canUsePerf then core.perfData 1 else core.msr 0x30A
  | .cpuClkUnhaltedRef => if m.canUsePerf then core.perfData 2 else core.msr 0x30B
  | .event i =>
      if m.corrupted core i then -1
      else if m.canUsePerf then core.perfData (3 + i) else core.msr (0xC1 + i)

/-- The top-down part of `readAndAggregate` (`cpucounters.cpp:5753-5770`, `5788-5825`). -/
def readSlots (core : Core) : TopDownSlots :=
  if m.canUsePerf then
    if m.hwTMAL1Supported && m.perfSupportsTopDown then
      let perf := fun pos => core.perfData (m.perfTopDownPos pos)
      { frontendBound := perf 12, badSpeculation := perf 13, backendBound := perf 14
        retiring := perf 15, allSlotsRaw := perf 11
        memBound := if m.hwTMAL2Supported then perf 16 else 0
        fetchLat := if m.hwTMAL2Supported then perf 17 else 0
        brMispred := if m.hwTMAL2Supported then perf 18 else 0
        heavyOps := if m.hwTMAL2Supported then perf 19 else 0 }
    else {}
  else if m.hwTMAL1Supported then
    let perfMetrics := core.msr 0x329
    let slots := core.msr 0x30C
    let frontend := extractBits perfMetrics 16 23
    let badSpec := extractBits perfMetrics 8 15
    let backend := extractBits perfMetrics 24 31
    let retiring := extractBits perfMetrics 0 7
    let total := frontend + badSpec + backend + retiring
    let scaled := fun part => if total ≠ 0 then m.arith.share part total slots else 0
    let scaledL2 := fun old lo hi =>
      if m.hwTMAL2Supported then old + scaled (extractBits perfMetrics lo hi) else 0
    { frontendBound := core.slots.frontendBound + scaled frontend
      badSpeculation := core.slots.badSpeculation + scaled badSpec
      backendBound := core.slots.backendBound + scaled backend
      retiring := core.slots.retiring + scaled retiring
      allSlotsRaw := core.slots.allSlotsRaw + slots
      memBound := scaledL2 core.slots.memBound 56 63
      fetchLat := scaledL2 core.slots.fetchLat 48 55
      brMispred := scaledL2 core.slots.brMispred 40 47
      heavyOps := scaledL2 core.slots.heavyOps 32 39 }
  else {}

/-- The value that `readAndAggregate` assigns to `L3Occupancy` (`cpucounters.cpp:5835-5844`,
`5874-5885`). -/
def readL3Occupancy (core : Core) : BitVec 64 :=
  if m.useResctrl then core.resctrlL3OCC / 1024
  else
    let raw := if m.l3CacheOccupancyMetricAvailable then core.msr 0xC8E else 0
    let cL3Occupancy := extractQOSMonitoring raw
    if cL3Occupancy = invalidQOSMonitoringData then invalidQOSMonitoringData
    else m.arith.scale (cL3Occupancy * m.l3ScalingFactor) 1024

/-- One of the two halves of `readAndAggregateMemoryBWCounters` (`cpucounters.cpp:6626-6668`):
an invalid reading is stored instead of added. -/
def aggregateMemoryBW (available : Bool) (resctrl : BitVec 64) (counter : Option (BitVec 64))
    (old : BitVec 64) : BitVec 64 :=
  if m.useResctrl then
    if available then old + resctrl / (1024 * 1024) else old
  else
    match counter with
    | none => old
    | some raw =>
        let c := extractQOSMonitoring raw
        if c = invalidQOSMonitoringData then invalidQOSMonitoringData
        else old + m.arith.scale (c * m.l3ScalingFactor) (1024 * 1024)

def hasInvariantTSC : Bool := !m.cpuFamilyModel.isAtom || m.cpuFamilyModel = .AVOTON

def readCoreCState (core : Core) (i : CState) : BitVec 64 :=
  if m.coreCStateMsr i ≠ 0 then core.msr (m.coreCStateMsr i) else 0

/-- The registers that `readAndAggregate` itself enters into `MSRValues`, in its order. -/
def ownMSRValues (core : Core) : List (Nat × BitVec 64) :=
  (if m.hasInvariantTSC then [(0x10, core.tsc)] else []) ++
    ((List.finRange 11).filter fun i => m.coreCStateMsr i ≠ 0).map
      (fun i => (m.coreCStateMsr i, core.msr (m.coreCStateMsr i))) ++
    [(0x19C, core.msr 0x19C), (0x34, core.msr 0x34)]

/-- `MSRValues[index] = value`. -/
def setMSRValue (values : Nat → Option (BitVec 64)) (entry : Nat × BitVec 64) :
    Nat → Option (BitVec 64) :=
  fun index => if index = entry.1 then some entry.2 else values index

/-- `BasicCounterState::readAndAggregate`. -/
def readAndAggregate (core : Core) (s : BasicCounterState) : BasicCounterState :=
  let overflows := m.overflows core
  let slots := m.readSlots core
  { instRetiredAny := s.instRetiredAny.add
      ⟨m.extractCoreFixedCounterValue (m.readCounter core .instRetiredAny),
        extractBits overflows 32 32⟩
    cpuClkUnhaltedThread := s.cpuClkUnhaltedThread.add
      ⟨m.extractCoreFixedCounterValue (m.readCounter core .cpuClkUnhaltedThread),
        extractBits overflows 33 33⟩
    cpuClkUnhaltedRef := s.cpuClkUnhaltedRef.add
      ⟨m.extractCoreFixedCounterValue (m.readCounter core .cpuClkUnhaltedRef),
        extractBits overflows 34 34⟩
    event := fun i =>
      if i < m.coreGenCounterNumMax then
        (s.event i).add
          ⟨m.extractCoreGenCounterValue (m.readCounter core (.event i)),
            extractBits overflows i i⟩
      else s.event i
    invariantTSC := s.invariantTSC + core.tsc
    cStateResidency := fun i => s.cStateResidency i + m.readCoreCState core i
    thermalHeadroom := extractThermalHeadroom (core.msr 0x19C)
    l3Occupancy := m.readL3Occupancy core
    memoryBWLocal := m.aggregateMemoryBW m.coreLocalMemoryBWMetricAvailable core.resctrlMBL
      core.memoryBWLocal s.memoryBWLocal
    memoryBWTotal := m.aggregateMemoryBW m.coreRemoteMemoryBWMetricAvailable core.resctrlMBT
      core.memoryBWTotal s.memoryBWTotal
    smiCount := s.smiCount + core.msr 0x34
    frontendBoundSlots := s.frontendBoundSlots + slots.frontendBound
    badSpeculationSlots := s.badSpeculationSlots + slots.badSpeculation
    backendBoundSlots := s.backendBoundSlots + slots.backendBound
    retiringSlots := s.retiringSlots + slots.retiring
    allSlotsRaw := s.allSlotsRaw + slots.allSlotsRaw
    memBoundSlots := s.memBoundSlots + slots.memBound
    fetchLatSlots := s.fetchLatSlots + slots.fetchLat
    brMispredSlots := s.brMispredSlots + slots.brMispred
    heavyOpsSlots := s.heavyOpsSlots + slots.heavyOps
    msrValues := (m.ownMSRValues core).foldl setMSRValue s.msrValues }

/-- The registers that `readAndAggregate` writes on the core, in order: it freezes the counters,
clears the overflow bits it has read, restarts the top-down counters and unfreezes. -/
def readAndAggregateWrites (core : Core) : List (Nat × BitVec 64) :=
  let freezeUnfreeze := !m.canUsePerf && m.coreGlobalCtrlValue ≠ 0
  (if freezeUnfreeze then [(0x38F, 0)] else []) ++
    (if m.canUsePerf then []
      else (0x390, m.overflows core) ::
        if m.hwTMAL1Supported then [(0x329, 0), (0x30C, 0)] else []) ++
    (if freezeUnfreeze then [(0x38F, m.coreGlobalCtrlValue)] else [])

/-! ## Sockets -/

/-- The online cores, in the order of the loops over them. -/
def onlineCores : List Core := m.cores.filter Core.online

/-- The online cores of one socket. -/
def socketCores (socket : Nat) : List Core := m.onlineCores.filter fun c => c.socket == socket

/-- `MSR[socketRefCore[socket]]`: the topology loop keeps the last online core of each socket
(`cpucounters.cpp:1589-1596`). -/
def socketRefCore (socket : Nat) : Option Core := (m.socketCores socket).getLast?

/-- `isSocketOnline` (`cpucounters.cpp:3502-3505`). -/
def isSocketOnline (socket : Nat) : Bool := (m.socketRefCore socket).isSome

def refCoreMsr (socket : Nat) (a : Nat) : BitVec 64 :=
  match m.socketRefCore socket with
  | some core => core.msr a
  | none => 0

def pmmTrafficMetricsAvailable : Bool :=
  m.cpuFamilyModel.pmmTrafficMetricsAvailable m.cpuStepping

def llcReadMissLatencyMetricsAvailable : Bool :=
  m.cpuFamilyModel.llcReadMissLatencyMetricsAvailable m.cpuStepping m.numSockets

/-- `uncoreFrequencyMetricAvailable` (`cpucounters.h:2779-2788`). -/
def uncoreFrequencyMetricAvailable : Bool :=
  !m.cores.isEmpty && 0 < m.numUBOX && m.cores.length = m.onlineCores.length &&
    m.cpuFamilyModel ≠ .GNR && m.cpuFamilyModel ≠ .GNR_D && m.cpuFamilyModel ≠ .SRF

/-- `HBMmemoryTrafficMetricsAvailable` (`cpucounters.h:2740-2743`). -/
def hbmMemoryTrafficMetricsAvailable : Bool := m.serverUncorePMUs.head?.any (·.hbmAvailable)

/-- `readAndAggregatePackageCStateResidencies` (`cpucounters.cpp:6857-6876`): only a residency
that is not zero is added. -/
def readPackageCStateResidencies (core : Core) (s : UncoreCounterState) : UncoreCounterState :=
  let residency := fun i => if m.pkgCStateMsr i ≠ 0 then core.msr (m.pkgCStateMsr i) else 0
  { s with
    cStateResidency := fun i =>
      if residency i ≠ 0 then s.cStateResidency i + residency i else s.cStateResidency i }

/-- The latency part of `readAndAggregateUncoreMCCounters` (`cpucounters.cpp:6691-6700`). -/
def readUncoreLatency (socket : Nat) (s : UncoreCounterState) : UncoreCounterState :=
  let s := if m.llcReadMissLatencyMetricsAvailable then
      { s with
        torOccupancyIAMiss := s.torOccupancyIAMiss + m.cboCounterState socket 0
        torInsertsIAMiss := s.torInsertsIAMiss + m.cboCounterState socket 1 }
    else s
  if m.llcReadMissLatencyMetricsAvailable || m.uncoreFrequencyMetricAvailable then
    { s with uncClocks := s.uncClocks + m.uncoreClocks socket }
  else s

/-- The uncore frequency status (`cpucounters.cpp:6702-6716`), replaced and not accumulated. -/
def readUFSStatus (socket : Nat) (s : UncoreCounterState) : UncoreCounterState :=
  match m.ufsStatus[socket]? with
  | some entries => { s with ufsStatus := entries.filterMap id }
  | none => s

/-- The free-running memory bandwidth counters (`cpucounters.cpp:6718-6728`). -/
def readServerBW (socket : Nat) (s : UncoreCounterState) : UncoreCounterState :=
  match m.serverBW[socket]? with
  | none => s
  | some bw =>
      let s := { s with
        uncMCNormalReads := s.uncMCNormalReads + bw.imcReads
        uncMCFullWrites := s.uncMCFullWrites + bw.imcWrites }
      if m.pmmTrafficMetricsAvailable then
        { s with
          uncPMMReads := s.uncPMMReads + bw.pmmReads
          uncPMMWrites := s.uncPMMWrites + bw.pmmWrites }
      else s

/-- The memory controllers, unless `serverBW` has counted them (`cpucounters.cpp:6735-6744`). -/
def readServerMC (socket : Nat) (pmus : ServerUncoreReadings) (s : UncoreCounterState) :
    UncoreCounterState :=
  if m.serverBW[socket]?.isSome then s else
    let s := { s with
      uncMCNormalReads := s.uncMCNormalReads + pmus.imcReads
      uncMCFullWrites := s.uncMCFullWrites + pmus.imcWrites }
    if m.cpuFamilyModel.nearMemoryMetricsAvailable then
      { s with
        uncNMHit := s.uncNMHit + pmus.nmHits
        uncNMMiss := s.uncNMMiss + pmus.nmMisses }
    else s

/-- The home agents (`cpucounters.cpp:6745-6757`). -/
def readServerHA (socket : Nat) (pmus : ServerUncoreReadings) (s : UncoreCounterState) :
    UncoreCounterState :=
  if m.cpuFamilyModel.localMemoryRequestRatioMetricAvailable then
    if m.cpuFamilyModel.hasCHA then
      { s with
        uncHARequests := s.uncHARequests + m.cboCounterState socket 2
        uncHALocalRequests := s.uncHALocalRequests + m.cboCounterState socket 3 }
    else
      { s with
        uncHARequests := s.uncHARequests + pmus.haRequests
        uncHALocalRequests := s.uncHALocalRequests + pmus.haLocalRequests }
  else s

/-- Persistent memory (`cpucounters.cpp:6758-6762`). -/
def readServerPMM (socket : Nat) (pmus : ServerUncoreReadings) (s : UncoreCounterState) :
    UncoreCounterState :=
  if m.pmmTrafficMetricsAvailable && !m.serverBW[socket]?.isSome then
    { s with
      uncPMMReads := s.uncPMMReads + pmus.pmmReads
      uncPMMWrites := s.uncPMMWrites + pmus.pmmWrites }
  else s

/-- High bandwidth memory (`cpucounters.cpp:6763-6767`). -/
def readServerEDC (pmus : ServerUncoreReadings) (s : UncoreCounterState) : UncoreCounterState :=
  if m.hbmMemoryTrafficMetricsAvailable then
    { s with
      uncEDCNormalReads := s.uncEDCNormalReads + pmus.edcReads
      uncEDCFullWrites := s.uncEDCFullWrites + pmus.edcWrites }
  else s

/-- The server uncore PMUs (`cpucounters.cpp:6730-6769`). -/
def readServerUncore (socket : Nat) (pmus : ServerUncoreReadings) (s : UncoreCounterState) :
    UncoreCounterState :=
  m.readServerEDC pmus (m.readServerPMM socket pmus
    (m.readServerHA socket pmus (m.readServerMC socket pmus s)))

/-- The client memory controller (`cpucounters.cpp:6771-6778`). -/
def readClientBW (client : ClientReadings) (s : UncoreCounterState) : UncoreCounterState :=
  { s with
    uncMCNormalReads := s.uncMCNormalReads + client.imcReads
    uncMCFullWrites := s.uncMCFullWrites + client.imcWrites
    uncMCGTRequests := s.uncMCGTRequests + client.gtRequests
    uncMCIARequests := s.uncMCIARequests + client.iaRequests
    uncMCIORequests := s.uncMCIORequests + client.ioRequests }

/-- The uncore registers of the first generations (`cpucounters.cpp:6779-6815`). -/
def readUncoreMSRs (socket : Nat) (s : UncoreCounterState) : UncoreCounterState :=
  let msr := fun a => m.extractUncoreGenCounterValue (m.refCoreMsr socket a)
  match m.cpuFamilyModel with
  | .WESTMERE_EP | .NEHALEM_EP =>
      { s with
        uncMCFullWrites := s.uncMCFullWrites + msr 0x3B0
        uncMCNormalReads := s.uncMCNormalReads + msr 0x3B1 }
  | .NEHALEM_EX | .WESTMERE_EX =>
      { s with
        uncMCNormalReads := s.uncMCNormalReads + msr 0xCB1 + msr 0xCF1
        uncMCFullWrites := s.uncMCFullWrites + msr 0xC33 + msr 0xC73 }
  | _ => s

/-- The branch on the kind of uncore at the end of `readAndAggregateUncoreMCCounters`. -/
def readUncoreByKind (socket : Nat) (s : UncoreCounterState) : UncoreCounterState :=
  if m.cpuFamilyModel.hasPCICFGUncore then
    match m.serverUncorePMUs[socket]? with
    | some pmus => m.readServerUncore socket pmus s
    | none => s
  else
    match m.clientBW, socket with
    | some client, 0 => readClientBW client s
    | _, _ => m.readUncoreMSRs socket s

/-- `readAndAggregateUncoreMCCounters` (`cpucounters.cpp:6688-6818`). -/
def readAndAggregateUncoreMCCounters (socket : Nat) (s : UncoreCounterState) :
    UncoreCounterState :=
  m.readUncoreByKind socket
    (m.readServerBW socket (m.readUFSStatus socket (m.readUncoreLatency socket s)))

/-- `readAndAggregateEnergyCounters` (`cpucounters.cpp:6820-6836`). -/
def readAndAggregateEnergyCounters (socket : Nat) (s : UncoreCounterState) : UncoreCounterState :=
  { s with
    packageEnergyStatus := s.packageEnergyStatus + m.energyStatus.getD socket 0
    dramEnergyStatus := s.dramEnergyStatus + m.dramEnergyStatus.getD socket 0
    ppEnergyStatus := fun pp =>
      if socket = 0 then s.ppEnergyStatus pp + m.ppEnergyStatus.getD pp 0
      else s.ppEnergyStatus pp }

/-- `readPackageThermalHeadroom` (`cpucounters.cpp:7141-7154`). -/
def readPackageThermalHeadroom (socket : Nat) (s : BasicCounterState) : BasicCounterState :=
  if m.cpuFamilyModel.packageThermalMetricsAvailable then
    let val := m.refCoreMsr socket 0x1B1
    { s with
      msrValues := setMSRValue s.msrValues (0x1B1, val)
      thermalHeadroom := extractThermalHeadroom val }
  else { s with thermalHeadroom := -2 ^ 31 }

/-- `readMSRs` (`cpucounters.cpp:6838-6855`): a register that has a value is not read again. -/
def readMSRs (msr : Nat → BitVec 64) (config : RawPMUConfig) (s : BasicCounterState) :
    BasicCounterState :=
  { s with
    msrValues := config.events.foldl
      (fun values cfg =>
        let index := (cfg.encoding.get 0).toNat
        if (values index).isNone then setMSRValue values (index, msr index) else values)
      s.msrValues }

/-! ## The three ways to take a snapshot -/

/-- `SocketCounterState::readAndAggregate` and its copy in `SystemCounterState`. -/
def readCore (s : SocketCounterState) (core : Core) : SocketCounterState where
  basic := m.readAndAggregate core s.basic
  uncore := m.readPackageCStateResidencies core s.uncore

/-- The uncore counters of one socket. -/
def readSocketUncore (socket : Nat) (s : UncoreCounterState) : UncoreCounterState :=
  m.readAndAggregateEnergyCounters socket (m.readAndAggregateUncoreMCCounters socket s)

/-- `readAndAggregateCXLCMCounters` (`cpucounters.cpp:6671-6686`). -/
def readAndAggregateCXLCMCounters (s : SystemCounterState) : SystemCounterState :=
  { s with
    cxlWriteMem := (List.range m.numSockets).map fun socket =>
      ((m.cxlPorts socket).map Prod.fst).foldl (· + ·) 0
    cxlWriteCache := (List.range m.numSockets).map fun socket =>
      ((m.cxlPorts socket).map Prod.snd).foldl (· + ·) 0 }

/-- `getSystemCounterState` (`cpucounters.cpp:6599-6624`). `MSR` has one handle for each core. -/
def getSystemCounterState : SystemCounterState :=
  let result := SystemCounterState.construct m.numSockets
  if m.cores.isEmpty then result else
    let cores := m.onlineCores.foldl m.readCore ⟨result.basic, result.uncore⟩
    let uncore := ((List.range m.numSockets).filter m.isSocketOnline).foldl
      (fun s socket => m.readSocketUncore socket s) cores.uncore
    m.readAndAggregateCXLCMCounters
      { result with basic := { cores.basic with thermalHeadroom := -2 ^ 31 }, uncore := uncore }

/-- `getSocketCounterState` (`cpucounters.cpp:7163-7183`). -/
def getSocketCounterState (socket : Nat) : SocketCounterState :=
  if m.cores.isEmpty then {} else
    let cores := (m.socketCores socket).foldl m.readCore {}
    { basic := m.readPackageThermalHeadroom socket cores.basic
      uncore := m.readSocketUncore socket cores.uncore }

/-- `coreStates` after the tasks of `getAllCounterStates`. -/
def coreState (core : Core) : BasicCounterState :=
  if core.online then readMSRs core.msr m.threadMSRConfig (m.readAndAggregate core {}) else {}

/-- What the task of a core does to the state of its socket. -/
def coreTask (core : Core) (s : SocketCounterState) : SocketCounterState :=
  { s with uncore := m.readPackageCStateResidencies core s.uncore }

/-- `MSR[refCore]` in the tasks of the sockets, core 0 for a socket that is offline. -/
def taskMsr (socket : Nat) (a : Nat) : BitVec 64 :=
  match m.socketRefCore socket, m.cores.head? with
  | some core, _ => core.msr a
  | none, some core => core.msr a
  | none, none => 0

/-- What the task of a socket does to its state. -/
def socketTask (socket : Nat) (s : SocketCounterState) : SocketCounterState where
  basic := readMSRs (m.taskMsr socket) m.packageMSRConfig
    (m.readPackageThermalHeadroom socket s.basic)
  uncore := m.readSocketUncore socket s.uncore

/-- What `getAllCounterStates` (`cpucounters.cpp:7185-7254`) fills in. -/
structure AllCounterStates where
  systemState : SystemCounterState
  socketStates : Nat → SocketCounterState
  coreStates : List BasicCounterState

/-- `getAllCounterStates`. The tasks add to the socket states atomically, so that they are done
here in the order in which they are queued. -/
def getAllCounterStates (readAndAggregateSocketUncoreCounters : Bool := true) :
    AllCounterStates :=
  let sockets := List.range m.numSockets
  let initial : Nat → SocketCounterState := fun _ => {}
  let tasks := if readAndAggregateSocketUncoreCounters then
      sockets.foldl (fun states socket => modify states socket (m.socketTask socket))
        (m.onlineCores.foldl (fun states core => modify states core.socket (m.coreTask core))
          initial)
    else initial
  let socketStates := m.onlineCores.foldl
    (fun states core => modify states core.socket (·.addBasic (m.coreState core))) tasks
  { systemState := sockets.foldl (fun s socket => s.addSocket (socketStates socket))
      (SystemCounterState.construct m.numSockets)
    socketStates := socketStates
    coreStates := m.cores.map m.coreState }

end Machine

end Pcm

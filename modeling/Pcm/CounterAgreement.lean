import Pcm.ReadCounters

/-!
# Agreement of the counter states

`getAllCounterStates` reads every core and socket once and sums up with `operator +=`;
`getSystemCounterState` and `getSocketCounterState` read into one running state instead. Both ways
are loops of updates, so that each field of a result is known from what one core or one socket
does to it. A field differs when an update overwrites it, when `operator +=` leaves it out, or
when one of the ways never reads it.
-/

namespace Pcm

open Accumulate

namespace Machine

variable (m : Machine)

/-! ## One core -/

/-- What a core does to a memory bandwidth field: an invalid reading takes its place. -/
def memoryBWUpdate (available : Bool) (resctrl : BitVec 64) (counter : Option (BitVec 64)) :
    Update (BitVec 64) :=
  if m.useResctrl then
    if available then .add (resctrl / (1024 * 1024)) else .add 0
  else
    match counter with
    | none => .add 0
    | some raw =>
        if extractQOSMonitoring raw = invalidQOSMonitoringData then .assign invalidQOSMonitoringData
        else .add (m.arith.scale (extractQOSMonitoring raw * m.l3ScalingFactor) (1024 * 1024))

theorem aggregateMemoryBW_eq (available : Bool) (resctrl : BitVec 64) (counter : Option (BitVec 64))
    (old : BitVec 64) :
    m.aggregateMemoryBW available resctrl counter old =
      (m.memoryBWUpdate available resctrl counter).apply old := by
  unfold aggregateMemoryBW memoryBWUpdate
  cases m.useResctrl with
  | true => cases available <;> simp [Update.apply]
  | false =>
      cases counter with
      | none => simp [Update.apply]
      | some raw => by_cases invalid : extractQOSMonitoring raw = invalidQOSMonitoringData <;>
          simp [invalid, Update.apply]

/-- What `readAndAggregate` of a core does to a field. -/
def coreUpdate (f : BasicField) (core : Core) : Update (BitVec 64) :=
  match f with
  | .l3Occupancy => .assign (m.readL3Occupancy core)
  | .memoryBWLocal =>
      m.memoryBWUpdate m.coreLocalMemoryBWMetricAvailable core.resctrlMBL core.memoryBWLocal
  | .memoryBWTotal =>
      m.memoryBWUpdate m.coreRemoteMemoryBWMetricAvailable core.resctrlMBT core.memoryBWTotal
  | f => .add (f.get (m.readAndAggregate core {}))

/-- The fields that a core may overwrite. -/
def overwritable : List BasicField := [.l3Occupancy, .memoryBWLocal, .memoryBWTotal]

theorem get_readAndAggregate (f : BasicField) (core : Core) (s : BasicCounterState) :
    f.get (m.readAndAggregate core s) = (m.coreUpdate f core).apply (f.get s) := by
  cases f with
  | data c =>
      cases c with
      | event i =>
          by_cases has : (i : Nat) < m.coreGenCounterNumMax <;>
            simp [coreUpdate, Update.apply, BasicField.get, CoreCounter.get, readAndAggregate,
              CheckedUint64.add, has]
      | _ => simp [coreUpdate, Update.apply, BasicField.get, CoreCounter.get, readAndAggregate,
          CheckedUint64.add]
  | overflows c =>
      cases c with
      | event i =>
          by_cases has : (i : Nat) < m.coreGenCounterNumMax <;>
            simp [coreUpdate, Update.apply, BasicField.get, CoreCounter.get, readAndAggregate,
              CheckedUint64.add, has]
      | _ => simp [coreUpdate, Update.apply, BasicField.get, CoreCounter.get, readAndAggregate,
          CheckedUint64.add]
  | l3Occupancy => rfl
  | memoryBWLocal => exact m.aggregateMemoryBW_eq _ _ _ _
  | memoryBWTotal => exact m.aggregateMemoryBW_eq _ _ _ _
  | _ => simp [coreUpdate, Update.apply, BasicField.get, readAndAggregate]

/-- Every other field is only added to. -/
theorem overwritten_coreUpdate {f : BasicField} (other : f ∉ overwritable) (cores : List Core) :
    Update.overwritten (cores.map (m.coreUpdate f)) = 0 := by
  apply Update.overwritten_of_adds
  rw [List.any_map, List.any_eq_false]
  intro core _
  cases f with
  | l3Occupancy => simp [overwritable] at other
  | memoryBWLocal => simp [overwritable] at other
  | memoryBWTotal => simp [overwritable] at other
  | _ => simp [coreUpdate, Update.isAssign]

/-! ## One socket -/

theorem additive_packageCStates (f : UncoreField) (core : Core) :
    Additive f.get {} (m.readPackageCStateResidencies core) := by
  intro s
  cases f with
  | cStateResidency i =>
      simp only [UncoreField.get, readPackageCStateResidencies]
      split <;> split <;> simp_all
  | _ => simp [UncoreField.get, readPackageCStateResidencies]

theorem additive_latency (f : UncoreField) (socket : Nat) :
    Additive f.get {} (m.readUncoreLatency socket) := by
  intro s
  unfold readUncoreLatency
  cases m.llcReadMissLatencyMetricsAvailable <;> cases m.uncoreFrequencyMetricAvailable <;>
    cases f <;> simp [UncoreField.get]

theorem additive_ufsStatus (f : UncoreField) (socket : Nat) :
    Additive f.get {} (m.readUFSStatus socket) := by
  intro s
  unfold readUFSStatus
  cases m.ufsStatus[socket]? <;> cases f <;> simp [UncoreField.get]

theorem additive_serverBW (f : UncoreField) (socket : Nat) :
    Additive f.get {} (m.readServerBW socket) := by
  intro s
  unfold readServerBW
  cases m.serverBW[socket]? <;> cases m.pmmTrafficMetricsAvailable <;> cases f <;>
    simp [UncoreField.get]

theorem additive_serverMC (f : UncoreField) (socket : Nat) (pmus : ServerUncoreReadings) :
    Additive f.get {} (m.readServerMC socket pmus) := by
  intro s
  unfold readServerMC
  cases m.serverBW[socket]?.isSome <;> cases m.cpuFamilyModel.nearMemoryMetricsAvailable <;>
    cases f <;> simp [UncoreField.get]

theorem additive_serverHA (f : UncoreField) (socket : Nat) (pmus : ServerUncoreReadings) :
    Additive f.get {} (m.readServerHA socket pmus) := by
  intro s
  unfold readServerHA
  cases m.cpuFamilyModel.localMemoryRequestRatioMetricAvailable <;>
    cases m.cpuFamilyModel.hasCHA <;> cases f <;> simp [UncoreField.get]

theorem additive_serverPMM (f : UncoreField) (socket : Nat) (pmus : ServerUncoreReadings) :
    Additive f.get {} (m.readServerPMM socket pmus) := by
  intro s
  unfold readServerPMM
  cases m.pmmTrafficMetricsAvailable <;> cases m.serverBW[socket]?.isSome <;> cases f <;>
    simp [UncoreField.get]

theorem additive_serverEDC (f : UncoreField) (pmus : ServerUncoreReadings) :
    Additive f.get {} (m.readServerEDC pmus) := by
  intro s
  unfold readServerEDC
  cases m.hbmMemoryTrafficMetricsAvailable <;> cases f <;> simp [UncoreField.get]

theorem additive_serverUncore (f : UncoreField) (socket : Nat) (pmus : ServerUncoreReadings) :
    Additive f.get {} (m.readServerUncore socket pmus) := by
  unfold readServerUncore
  exact (m.additive_serverEDC f pmus).comp ((m.additive_serverPMM f socket pmus).comp
    ((m.additive_serverHA f socket pmus).comp (m.additive_serverMC f socket pmus)))

theorem additive_clientBW (f : UncoreField) (client : ClientReadings) :
    Additive f.get {} (readClientBW client) := by
  intro s
  cases f <;> simp [UncoreField.get, readClientBW]

theorem additive_uncoreMSRs (f : UncoreField) (socket : Nat) :
    Additive f.get {} (m.readUncoreMSRs socket) := by
  intro s
  unfold readUncoreMSRs
  split <;> cases f <;> simp [UncoreField.get, add_assoc]

theorem additive_uncoreByKind (f : UncoreField) (socket : Nat) :
    Additive f.get {} (m.readUncoreByKind socket) := by
  intro s
  unfold readUncoreByKind
  by_cases server : m.cpuFamilyModel.hasPCICFGUncore = true
  · rw [if_pos server, if_pos server]
    cases m.serverUncorePMUs[socket]? with
    | some pmus => exact m.additive_serverUncore f socket pmus s
    | none => rw [UncoreField.get_default, add_zero]
  · rw [if_neg server, if_neg server]
    cases m.clientBW with
    | none => exact m.additive_uncoreMSRs f socket s
    | some client =>
        cases socket with
        | zero => exact additive_clientBW f client s
        | succ socket => exact m.additive_uncoreMSRs f (socket + 1) s

theorem additive_energy (f : UncoreField) (socket : Nat) :
    Additive f.get {} (m.readAndAggregateEnergyCounters socket) := by
  intro s
  by_cases first : socket = 0 <;> cases f <;>
    simp [UncoreField.get, readAndAggregateEnergyCounters, first]

/-- What a socket's own counters add to a field, whatever was there. -/
theorem additive_socketUncore (f : UncoreField) (socket : Nat) :
    Additive f.get {} (m.readSocketUncore socket) := by
  unfold readSocketUncore readAndAggregateUncoreMCCounters
  exact (m.additive_energy f socket).comp ((m.additive_uncoreByKind f socket).comp
    ((m.additive_serverBW f socket).comp ((m.additive_ufsStatus f socket).comp
      (m.additive_latency f socket))))

/-! ## `getAllCounterStates` -/

/-- The final state of a socket, in terms of its own cores. -/
theorem socketStates_eq {socket : Nat} (h : socket < m.numSockets) :
    m.getAllCounterStates.socketStates socket =
      (m.socketCores socket).foldl (fun s core => s.addBasic (m.coreState core))
        (m.socketTask socket ((m.socketCores socket).foldl (fun s core => m.coreTask core s) {})) := by
  unfold getAllCounterStates
  simp only [if_true]
  rw [foldl_modify Core.socket (fun core (s : SocketCounterState) => s.addBasic (m.coreState core)),
    foldl_modify_range h, foldl_modify Core.socket m.coreTask]
  rfl

theorem get_readMSRs (f : BasicField) (msr : Nat → BitVec 64) (config : RawPMUConfig)
    (s : BasicCounterState) : f.get (readMSRs msr config s) = f.get s := by
  cases f with
  | data c => cases c <;> rfl
  | overflows c => cases c <;> rfl
  | _ => rfl

theorem get_readPackageThermalHeadroom (f : BasicField) (socket : Nat) (s : BasicCounterState) :
    f.get (m.readPackageThermalHeadroom socket s) = f.get s := by
  unfold readPackageThermalHeadroom
  split
  · cases f with
    | data c => cases c <;> rfl
    | overflows c => cases c <;> rfl
    | _ => rfl
  · cases f with
    | data c => cases c <;> rfl
    | overflows c => cases c <;> rfl
    | _ => rfl

theorem get_coreState (f : BasicField) {core : Core} (online : core.online = true) :
    f.get (m.coreState core) = (m.coreUpdate f core).val := by
  rw [coreState, if_pos online, get_readMSRs, get_readAndAggregate, BasicField.get_default,
    Update.apply_zero]

theorem online_of_mem_socketCores {core : Core} {socket : Nat} (mem : core ∈ m.socketCores socket) :
    core.online = true := by
  have inner := (List.mem_filter.mp mem).1
  exact (List.mem_filter.mp inner).2

/-- A core field of a socket is the sum of its cores' readings. -/
theorem basic_socketStates (f : BasicField) {socket : Nat} (h : socket < m.numSockets) :
    f.get (m.getAllCounterStates.socketStates socket).basic =
      ((m.socketCores socket).map fun core => (m.coreUpdate f core).val).sum := by
  have tasks : f.get (m.socketTask socket
      ((m.socketCores socket).foldl (fun s core => m.coreTask core s) {})).basic = 0 := by
    have untouched := observe_foldl_const SocketCounterState.basic
      (fun s core => m.coreTask core s) (m.socketCores socket) (fun _ _ _ => rfl) {}
    simp only [socketTask]
    rw [get_readMSRs, get_readPackageThermalHeadroom, untouched, BasicField.get_default]
  rw [m.socketStates_eq h, observe_foldl (fun s : SocketCounterState => f.get s.basic) _
    (fun core => (m.coreUpdate f core).val), tasks, zero_add]
  intro s core mem
  simp only [SocketCounterState.addBasic, BasicField.get_add]
  rw [m.get_coreState f (m.online_of_mem_socketCores mem)]

theorem basic_systemState (f : BasicField) :
    f.get m.getAllCounterStates.systemState.basic =
      ((List.range m.numSockets).map fun socket =>
        f.get (m.getAllCounterStates.socketStates socket).basic).sum := by
  have sum := observe_foldl (fun s : SystemCounterState => f.get s.basic)
    (fun s socket => s.addSocket (m.getAllCounterStates.socketStates socket))
    (fun socket => f.get (m.getAllCounterStates.socketStates socket).basic)
    (List.range m.numSockets) (fun s socket _ => by simp [SystemCounterState.addSocket])
    (SystemCounterState.construct m.numSockets)
  simp only [SystemCounterState.construct, BasicField.get_default, zero_add] at sum
  exact sum

/-- An uncore field of a socket: the package C-states that its cores add, and its own counters. -/
theorem uncore_socketStates (f : UncoreField) {socket : Nat} (h : socket < m.numSockets) :
    f.get (m.getAllCounterStates.socketStates socket).uncore =
      ((m.socketCores socket).map fun core => f.get (m.readPackageCStateResidencies core {})).sum +
        f.get (m.readSocketUncore socket {}) := by
  rw [m.socketStates_eq h, observe_foldl_const (fun s : SocketCounterState => f.get s.uncore)
    (fun s core => s.addBasic (m.coreState core)) _ (fun _ _ _ => rfl)]
  simp only [socketTask]
  rw [m.additive_socketUncore f socket]
  congr 1
  have sum := observe_foldl (fun s : SocketCounterState => f.get s.uncore)
    (fun s core => m.coreTask core s) (fun core => f.get (m.readPackageCStateResidencies core {}))
    (m.socketCores socket) (fun s core _ => m.additive_packageCStates f core s.uncore) {}
  rw [UncoreField.get_default, zero_add] at sum
  exact sum

/-- The system state holds the sum of the sockets, except in the fields that `operator +=` does
not list. -/
theorem uncore_systemState (f : UncoreField) :
    f.get m.getAllCounterStates.systemState.uncore =
      if f.summed then ((List.range m.numSockets).map fun socket =>
        f.get (m.getAllCounterStates.socketStates socket).uncore).sum
      else 0 := by
  have sum := observe_foldl (fun s : SystemCounterState => f.get s.uncore)
    (fun s socket => s.addSocket (m.getAllCounterStates.socketStates socket))
    (fun socket =>
      if f.summed then f.get (m.getAllCounterStates.socketStates socket).uncore else 0)
    (List.range m.numSockets)
    (fun s socket _ => by simp [SystemCounterState.addSocket, UncoreField.get_add])
    (SystemCounterState.construct m.numSockets)
  simp only [SystemCounterState.construct, UncoreField.get_default, zero_add] at sum
  refine sum.trans ?_
  cases f.summed <;> simp

/-! ## The running states -/

/-- Reading a list of cores into one state. -/
theorem basic_readCores (f : BasicField) (cores : List Core) (s : SocketCounterState) :
    f.get (cores.foldl m.readCore s).basic =
      (cores.map (m.coreUpdate f)).foldl Update.apply (f.get s.basic) :=
  observe_foldl_update (fun s : SocketCounterState => f.get s.basic) _ _ cores
    (fun s core _ => m.get_readAndAggregate f core s.basic) s

theorem uncore_readCores (f : UncoreField) (cores : List Core) (s : SocketCounterState) :
    f.get (cores.foldl m.readCore s).uncore =
      f.get s.uncore +
        (cores.map fun core => f.get (m.readPackageCStateResidencies core {})).sum :=
  observe_foldl (fun s : SocketCounterState => f.get s.uncore) _ _ cores
    (fun s core _ => m.additive_packageCStates f core s.uncore) s

/-- Every socket has an online core. -/
def AllSocketsOnline : Prop := ∀ socket < m.numSockets, m.isSocketOnline socket = true

variable {m}

theorem numSockets_of_isEmpty (allOnline : m.AllSocketsOnline) (none : m.cores.isEmpty = true) :
    m.numSockets = 0 := by
  by_contra some
  have online := allOnline 0 (by omega)
  rw [List.isEmpty_iff] at none
  simp [isSocketOnline, socketRefCore, socketCores, onlineCores, none] at online

theorem onlineCores_of_isEmpty (none : m.cores.isEmpty = true) : m.onlineCores = [] := by
  rw [List.isEmpty_iff] at none
  rw [onlineCores, none]
  rfl

theorem filter_isSocketOnline (allOnline : m.AllSocketsOnline) :
    (List.range m.numSockets).filter m.isSocketOnline = List.range m.numSockets := by
  rw [List.filter_eq_self]
  intro socket mem
  exact allOnline socket (List.mem_range.mp mem)

theorem basic_getSystem (f : BasicField) :
    f.get m.getSystemCounterState.basic =
      (m.onlineCores.map (m.coreUpdate f)).foldl Update.apply 0 := by
  unfold getSystemCounterState
  by_cases none : m.cores.isEmpty = true
  · rw [if_pos none, onlineCores_of_isEmpty none]
    exact BasicField.get_default f
  · rw [if_neg none]
    have running := m.basic_readCores f m.onlineCores {}
    rw [BasicField.get_default] at running
    rw [← running]
    cases f with
    | data c => cases c <;> rfl
    | overflows c => cases c <;> rfl
    | _ => rfl

theorem uncore_getSystem (allOnline : m.AllSocketsOnline) (f : UncoreField) :
    f.get m.getSystemCounterState.uncore =
      (m.onlineCores.map fun core => f.get (m.readPackageCStateResidencies core {})).sum +
        ((List.range m.numSockets).map fun socket => f.get (m.readSocketUncore socket {})).sum := by
  unfold getSystemCounterState
  by_cases none : m.cores.isEmpty = true
  · rw [if_pos none, onlineCores_of_isEmpty none, numSockets_of_isEmpty allOnline none]
    exact UncoreField.get_default f
  · rw [if_neg none, filter_isSocketOnline allOnline]
    have cores := m.uncore_readCores f m.onlineCores {}
    rw [UncoreField.get_default, zero_add] at cores
    rw [← cores]
    exact observe_foldl f.get _ _ (List.range m.numSockets)
      (fun s socket _ => m.additive_socketUncore f socket s) _

theorem basic_getSocket (f : BasicField) {socket : Nat} (some : m.cores.isEmpty = false) :
    f.get (m.getSocketCounterState socket).basic =
      ((m.socketCores socket).map (m.coreUpdate f)).foldl Update.apply 0 := by
  unfold getSocketCounterState
  rw [some, if_neg Bool.false_ne_true]
  simp only
  rw [get_readPackageThermalHeadroom, basic_readCores, BasicField.get_default]

theorem uncore_getSocket (f : UncoreField) {socket : Nat} (some : m.cores.isEmpty = false) :
    f.get (m.getSocketCounterState socket).uncore =
      ((m.socketCores socket).map fun core => f.get (m.readPackageCStateResidencies core {})).sum +
        f.get (m.readSocketUncore socket {}) := by
  unfold getSocketCounterState
  rw [some, if_neg Bool.false_ne_true]
  simp only
  rw [m.additive_socketUncore f socket, uncore_readCores, UncoreField.get_default, zero_add]

theorem cores_of_socket (allOnline : m.AllSocketsOnline) {socket : Nat}
    (h : socket < m.numSockets) : m.cores.isEmpty = false := by
  by_contra none
  have zero := numSockets_of_isEmpty allOnline (by simpa using none)
  omega

/-- A sum over the online cores, socket by socket. -/
theorem sum_socketCores (val : Core → BitVec 64) :
    ((List.range m.numSockets).map fun socket => ((m.socketCores socket).map val).sum).sum =
      (m.onlineCores.map val).sum := by
  apply sum_by_key m.onlineCores Core.socket val
  intro core mem
  obtain ⟨inside, online⟩ := List.mem_filter.mp mem
  obtain ⟨low, high⟩ := m.socketsInRange core inside online
  unfold Core.socket
  omega

/-! ## When the states agree -/

variable (m)

/-- Field by field: the system state of `getAllCounterStates` is the sum of its socket states and
what `getSystemCounterState` returns, and its socket states are what `getSocketCounterState`
returns. -/
structure StatesAgree : Prop where
  basicSum : ∀ f : BasicField, f.get m.getAllCounterStates.systemState.basic =
    ((List.range m.numSockets).map fun socket =>
      f.get (m.getAllCounterStates.socketStates socket).basic).sum
  basicSystem : ∀ f : BasicField, f.get m.getAllCounterStates.systemState.basic =
    f.get m.getSystemCounterState.basic
  basicSocket : ∀ f : BasicField, ∀ socket < m.numSockets,
    f.get (m.getAllCounterStates.socketStates socket).basic =
      f.get (m.getSocketCounterState socket).basic
  uncoreSum : ∀ f : UncoreField, f.get m.getAllCounterStates.systemState.uncore =
    ((List.range m.numSockets).map fun socket =>
      f.get (m.getAllCounterStates.socketStates socket).uncore).sum
  uncoreSystem : ∀ f : UncoreField, f.get m.getAllCounterStates.systemState.uncore =
    f.get m.getSystemCounterState.uncore
  uncoreSocket : ∀ f : UncoreField, ∀ socket < m.numSockets,
    f.get (m.getAllCounterStates.socketStates socket).uncore =
      f.get (m.getSocketCounterState socket).uncore
  cxlWriteMem : m.getAllCounterStates.systemState.cxlWriteMem =
    m.getSystemCounterState.cxlWriteMem
  cxlWriteCache : m.getAllCounterStates.systemState.cxlWriteCache =
    m.getSystemCounterState.cxlWriteCache

/-- The near memory counters of a socket, where they are read. -/
def nearMemoryReading (counter : ServerUncoreReadings → BitVec 64) (socket : Nat) : BitVec 64 :=
  if m.cpuFamilyModel.hasPCICFGUncore && m.cpuFamilyModel.nearMemoryMetricsAvailable &&
      !m.serverBW[socket]?.isSome then
    match m.serverUncorePMUs[socket]? with
    | some pmus => counter pmus
    | none => 0
  else 0

/-- What has to hold of the readings for the states to agree: those that one of the ways
overwrites, leaves out of its sum or never takes come to nothing. -/
structure NothingLost : Prop where
  overwritten : ∀ f ∈ overwritable, Update.overwritten (m.onlineCores.map (m.coreUpdate f)) = 0
  overwrittenSocket : ∀ f ∈ overwritable, ∀ socket < m.numSockets,
    Update.overwritten ((m.socketCores socket).map (m.coreUpdate f)) = 0
  nmHits : ((List.range m.numSockets).map (m.nearMemoryReading (·.nmHits))).sum = 0
  nmMisses : ((List.range m.numSockets).map (m.nearMemoryReading (·.nmMisses))).sum = 0
  powerPlanes : 0 < m.numSockets → ∀ pp : PowerPlane, m.ppEnergyStatus.getD pp 0 = 0
  cxlWriteMem : ∀ socket < m.numSockets, ((m.cxlPorts socket).map Prod.fst).foldl (· + ·) 0 = 0
  cxlWriteCache : ∀ socket < m.numSockets, ((m.cxlPorts socket).map Prod.snd).foldl (· + ·) 0 = 0

/-- The fields that `operator +=` does not list. -/
def unsummed (s : UncoreCounterState) : BitVec 64 × BitVec 64 × (PowerPlane → BitVec 64) :=
  (s.uncNMHit, s.uncNMMiss, s.ppEnergyStatus)

theorem unsummed_latency (socket : Nat) (s : UncoreCounterState) :
    unsummed (m.readUncoreLatency socket s) = unsummed s := by
  unfold readUncoreLatency
  cases m.llcReadMissLatencyMetricsAvailable <;> cases m.uncoreFrequencyMetricAvailable <;> rfl

theorem unsummed_ufsStatus (socket : Nat) (s : UncoreCounterState) :
    unsummed (m.readUFSStatus socket s) = unsummed s := by
  unfold readUFSStatus
  cases m.ufsStatus[socket]? <;> rfl

theorem unsummed_serverBW (socket : Nat) (s : UncoreCounterState) :
    unsummed (m.readServerBW socket s) = unsummed s := by
  unfold readServerBW
  cases m.serverBW[socket]? <;> cases m.pmmTrafficMetricsAvailable <;> rfl

theorem unsummed_serverHA (socket : Nat) (pmus : ServerUncoreReadings) (s : UncoreCounterState) :
    unsummed (m.readServerHA socket pmus s) = unsummed s := by
  unfold readServerHA
  cases m.cpuFamilyModel.localMemoryRequestRatioMetricAvailable <;>
    cases m.cpuFamilyModel.hasCHA <;> rfl

theorem unsummed_serverPMM (socket : Nat) (pmus : ServerUncoreReadings) (s : UncoreCounterState) :
    unsummed (m.readServerPMM socket pmus s) = unsummed s := by
  unfold readServerPMM
  cases m.pmmTrafficMetricsAvailable && !m.serverBW[socket]?.isSome <;> rfl

theorem unsummed_serverEDC (pmus : ServerUncoreReadings) (s : UncoreCounterState) :
    unsummed (m.readServerEDC pmus s) = unsummed s := by
  unfold readServerEDC
  cases m.hbmMemoryTrafficMetricsAvailable <;> rfl

theorem unsummed_uncoreMSRs (socket : Nat) (s : UncoreCounterState) :
    unsummed (m.readUncoreMSRs socket s) = unsummed s := by
  unfold readUncoreMSRs
  split <;> rfl

theorem unsummed_serverMC (socket : Nat) (pmus : ServerUncoreReadings) (s : UncoreCounterState) :
    unsummed (m.readServerMC socket pmus s) =
      if m.cpuFamilyModel.nearMemoryMetricsAvailable && !m.serverBW[socket]?.isSome then
        (s.uncNMHit + pmus.nmHits, s.uncNMMiss + pmus.nmMisses, s.ppEnergyStatus)
      else unsummed s := by
  unfold readServerMC
  cases m.serverBW[socket]?.isSome <;> cases m.cpuFamilyModel.nearMemoryMetricsAvailable <;> rfl

/-- What the counters of a socket's memory controllers add to these fields. -/
theorem unsummed_uncoreMC (socket : Nat) :
    unsummed (m.readAndAggregateUncoreMCCounters socket {}) =
      (m.nearMemoryReading (·.nmHits) socket, m.nearMemoryReading (·.nmMisses) socket,
        fun _ => 0) := by
  let before := m.readServerBW socket (m.readUFSStatus socket (m.readUncoreLatency socket {}))
  have untouched : unsummed before = (0, 0, fun _ => 0) := by
    rw [m.unsummed_serverBW, m.unsummed_ufsStatus, m.unsummed_latency]
    rfl
  have hit : before.uncNMHit = 0 := congrArg Prod.fst untouched
  have miss : before.uncNMMiss = 0 := congrArg (·.2.1) untouched
  have planes : before.ppEnergyStatus = fun _ => 0 := congrArg (·.2.2) untouched
  change unsummed (m.readUncoreByKind socket before) = _
  unfold readUncoreByKind nearMemoryReading
  cases m.cpuFamilyModel.hasPCICFGUncore with
  | true =>
      cases m.serverUncorePMUs[socket]? with
      | some pmus =>
          simp only [if_true]
          unfold readServerUncore
          rw [m.unsummed_serverEDC, m.unsummed_serverPMM, m.unsummed_serverHA,
            m.unsummed_serverMC, hit, miss, planes, untouched]
          cases m.serverBW[socket]?.isSome <;>
            cases m.cpuFamilyModel.nearMemoryMetricsAvailable <;> simp
      | none => simp [untouched]
  | false =>
      cases m.clientBW with
      | none => simp [m.unsummed_uncoreMSRs, untouched]
      | some client =>
          cases socket with
          | zero => exact untouched
          | succ socket => simp [m.unsummed_uncoreMSRs, untouched]

/-- What a socket adds to a field that `operator +=` does not list, summed over the sockets. -/
theorem sum_nmHit : ((List.range m.numSockets).map fun socket =>
    UncoreField.uncNMHit.get (m.readSocketUncore socket {})).sum =
      ((List.range m.numSockets).map (m.nearMemoryReading (·.nmHits))).sum := by
  congr 1
  apply List.map_congr_left
  intro socket _
  exact congrArg Prod.fst (m.unsummed_uncoreMC socket)

theorem sum_nmMiss : ((List.range m.numSockets).map fun socket =>
    UncoreField.uncNMMiss.get (m.readSocketUncore socket {})).sum =
      ((List.range m.numSockets).map (m.nearMemoryReading (·.nmMisses))).sum := by
  congr 1
  apply List.map_congr_left
  intro socket _
  exact congrArg (·.2.1) (m.unsummed_uncoreMC socket)

/-- The power planes are read once, with socket 0. -/
theorem sum_ppEnergy (pp : PowerPlane) : ((List.range m.numSockets).map fun socket =>
    (UncoreField.ppEnergyStatus pp).get (m.readSocketUncore socket {})).sum =
      if 0 < m.numSockets then m.ppEnergyStatus.getD pp 0 else 0 := by
  have each : ((List.range m.numSockets).map fun socket =>
      (UncoreField.ppEnergyStatus pp).get (m.readSocketUncore socket {})) =
      (List.range m.numSockets).map fun socket =>
        if 0 = socket then m.ppEnergyStatus.getD pp 0 else 0 := by
    apply List.map_congr_left
    intro socket _
    have planes : (m.readAndAggregateUncoreMCCounters socket {}).ppEnergyStatus = fun _ => 0 :=
      congrArg (·.2.2) (m.unsummed_uncoreMC socket)
    simp only [UncoreField.get, readSocketUncore, readAndAggregateEnergyCounters, planes]
    by_cases first : socket = 0
    · simp [first]
    · simp [first, Ne.symm first]
  rw [each]
  by_cases some : 0 < m.numSockets
  · rw [if_pos some, sum_range_single some]
  · rw [if_neg some, show m.numSockets = 0 by omega]
    rfl

variable {m}

/-- A core field: the sum agrees with the running states when nothing of it is overwritten. -/
theorem basic_agrees_iff (allOnline : m.AllSocketsOnline) (f : BasicField) :
    (f.get m.getAllCounterStates.systemState.basic = f.get m.getSystemCounterState.basic ∧
      ∀ socket < m.numSockets, f.get (m.getAllCounterStates.socketStates socket).basic =
        f.get (m.getSocketCounterState socket).basic) ↔
    (Update.overwritten (m.onlineCores.map (m.coreUpdate f)) = 0 ∧
      ∀ socket < m.numSockets,
        Update.overwritten ((m.socketCores socket).map (m.coreUpdate f)) = 0) := by
  have vals : ∀ cores : List Core, (cores.map fun core => (m.coreUpdate f core).val) =
      (cores.map (m.coreUpdate f)).map Update.val := by
    intro cores
    rw [List.map_map]
    rfl
  have system : f.get m.getAllCounterStates.systemState.basic =
      ((m.onlineCores.map (m.coreUpdate f)).map Update.val).sum := by
    rw [m.basic_systemState f, ← vals, ← sum_socketCores]
    congr 1
    apply List.map_congr_left
    intro socket mem
    exact m.basic_socketStates f (List.mem_range.mp mem)
  rw [system, basic_getSystem, eq_comm, Update.foldl_apply_zero_eq_sum_iff]
  refine and_congr_right fun _ => forall₂_congr fun socket h => ?_
  rw [m.basic_socketStates f h, basic_getSocket f (cores_of_socket allOnline h), vals, eq_comm,
    Update.foldl_apply_zero_eq_sum_iff]

/-- An uncore field of a socket is the same either way. -/
theorem uncore_socket_agrees (allOnline : m.AllSocketsOnline) (f : UncoreField) {socket : Nat}
    (h : socket < m.numSockets) :
    f.get (m.getAllCounterStates.socketStates socket).uncore =
      f.get (m.getSocketCounterState socket).uncore := by
  rw [m.uncore_socketStates f h, uncore_getSocket f (cores_of_socket allOnline h)]

/-- The sum of the sockets is what `getSystemCounterState` returns. -/
theorem uncore_sum_sockets (allOnline : m.AllSocketsOnline) (f : UncoreField) :
    ((List.range m.numSockets).map fun socket =>
      f.get (m.getAllCounterStates.socketStates socket).uncore).sum =
      f.get m.getSystemCounterState.uncore := by
  rw [uncore_getSystem allOnline, ← sum_socketCores, ← List.sum_map_add]
  congr 1
  apply List.map_congr_left
  intro socket mem
  exact m.uncore_socketStates f (List.mem_range.mp mem)

/-- An uncore field of the system agrees when it is summed up, or when there is nothing to sum. -/
theorem uncore_agrees_iff (allOnline : m.AllSocketsOnline) (f : UncoreField) :
    f.get m.getAllCounterStates.systemState.uncore = f.get m.getSystemCounterState.uncore ↔
      (f.summed = false → ((List.range m.numSockets).map fun socket =>
        f.get (m.readSocketUncore socket {})).sum = 0) := by
  rw [m.uncore_systemState f, uncore_sum_sockets allOnline f]
  cases h : f.summed with
  | true => simp
  | false =>
      have cores : (m.onlineCores.map fun core =>
          f.get (m.readPackageCStateResidencies core {})).sum = 0 := by
        apply List.sum_eq_zero
        intro x mem
        obtain ⟨core, -, rfl⟩ := List.mem_map.mp mem
        cases f <;> first | rfl | simp [UncoreField.summed] at h
      rw [uncore_getSystem allOnline, cores, zero_add, if_neg Bool.false_ne_true, eq_comm]
      simp

theorem uncore_all_agree_iff (allOnline : m.AllSocketsOnline) :
    (∀ f : UncoreField, f.get m.getAllCounterStates.systemState.uncore =
      f.get m.getSystemCounterState.uncore) ↔
    ((List.range m.numSockets).map (m.nearMemoryReading (·.nmHits))).sum = 0 ∧
    ((List.range m.numSockets).map (m.nearMemoryReading (·.nmMisses))).sum = 0 ∧
    (0 < m.numSockets → ∀ pp : PowerPlane, m.ppEnergyStatus.getD pp 0 = 0) := by
  constructor
  · intro agree
    refine ⟨?_, ?_, ?_⟩
    · rw [← m.sum_nmHit]
      exact (uncore_agrees_iff allOnline _).mp (agree .uncNMHit) rfl
    · rw [← m.sum_nmMiss]
      exact (uncore_agrees_iff allOnline _).mp (agree .uncNMMiss) rfl
    · intro some pp
      have zero := (uncore_agrees_iff allOnline _).mp (agree (.ppEnergyStatus pp)) rfl
      rwa [m.sum_ppEnergy, if_pos some] at zero
  · rintro ⟨hits, misses, planes⟩ f
    rw [uncore_agrees_iff allOnline f]
    intro left
    cases f with
    | uncNMHit => rw [m.sum_nmHit, hits]
    | uncNMMiss => rw [m.sum_nmMiss, misses]
    | ppEnergyStatus pp =>
        rw [m.sum_ppEnergy]
        split
        · next some => exact planes some pp
        · rfl
    | _ => simp [UncoreField.summed] at left

/-- `getAllCounterStates` leaves the CXL entries at zero. -/
theorem cxl_getAll : m.getAllCounterStates.systemState.cxlWriteMem =
      List.replicate m.numSockets 0 ∧
    m.getAllCounterStates.systemState.cxlWriteCache = List.replicate m.numSockets 0 := by
  have untouched := observe_foldl_const
    (fun s : SystemCounterState => (s.cxlWriteMem, s.cxlWriteCache))
    (fun s socket => s.addSocket (m.getAllCounterStates.socketStates socket))
    (List.range m.numSockets) (fun _ _ _ => rfl) (SystemCounterState.construct m.numSockets)
  exact Prod.mk.inj untouched

theorem cxl_getSystem (allOnline : m.AllSocketsOnline) :
    m.getSystemCounterState.cxlWriteMem = (List.range m.numSockets).map (fun socket =>
      ((m.cxlPorts socket).map Prod.fst).foldl (· + ·) 0) ∧
    m.getSystemCounterState.cxlWriteCache = (List.range m.numSockets).map (fun socket =>
      ((m.cxlPorts socket).map Prod.snd).foldl (· + ·) 0) := by
  unfold getSystemCounterState
  by_cases none : m.cores.isEmpty = true
  · rw [if_pos none, numSockets_of_isEmpty allOnline none]
    exact ⟨rfl, rfl⟩
  · rw [if_neg none]
    exact ⟨rfl, rfl⟩

theorem replicate_eq_map_range_iff {n : Nat} {g : Nat → BitVec 64} :
    List.replicate n 0 = (List.range n).map g ↔ ∀ i < n, g i = 0 := by
  rw [eq_comm, List.eq_replicate_iff]
  simp

/-- The system, socket and core states agree in every field, with every way to take them, exactly
when the readings that get lost on one of the ways come to nothing. -/
theorem states_agree_iff (allOnline : m.AllSocketsOnline) : m.StatesAgree ↔ m.NothingLost := by
  have uncore := uncore_all_agree_iff allOnline
  obtain ⟨allMem, allCache⟩ := m.cxl_getAll
  obtain ⟨systemMem, systemCache⟩ := cxl_getSystem allOnline
  constructor
  · intro agree
    obtain ⟨hits, misses, planes⟩ := uncore.mp agree.uncoreSystem
    have basic := fun f => (basic_agrees_iff allOnline f).mp
      ⟨agree.basicSystem f, agree.basicSocket f⟩
    have mem := agree.cxlWriteMem
    have cache := agree.cxlWriteCache
    rw [allMem, systemMem, replicate_eq_map_range_iff] at mem
    rw [allCache, systemCache, replicate_eq_map_range_iff] at cache
    exact ⟨fun f _ => (basic f).1, fun f _ => (basic f).2, hits, misses, planes, mem, cache⟩
  · intro lost
    have kept : ∀ f : BasicField, Update.overwritten (m.onlineCores.map (m.coreUpdate f)) = 0 ∧
        ∀ socket < m.numSockets,
          Update.overwritten ((m.socketCores socket).map (m.coreUpdate f)) = 0 := by
      intro f
      by_cases risky : f ∈ overwritable
      · exact ⟨lost.overwritten f risky, lost.overwrittenSocket f risky⟩
      · exact ⟨m.overwritten_coreUpdate risky _, fun _ _ => m.overwritten_coreUpdate risky _⟩
    have basic := fun f => (basic_agrees_iff allOnline f).mpr (kept f)
    have system := uncore.mpr ⟨lost.nmHits, lost.nmMisses, lost.powerPlanes⟩
    exact
      { basicSum := m.basic_systemState
        basicSystem := fun f => (basic f).1
        basicSocket := fun f => (basic f).2
        uncoreSum := fun f => by rw [system f, uncore_sum_sockets allOnline f]
        uncoreSystem := system
        uncoreSocket := fun f socket h => uncore_socket_agrees allOnline f h
        cxlWriteMem := by
          rw [allMem, systemMem, replicate_eq_map_range_iff]
          exact lost.cxlWriteMem
        cxlWriteCache := by
          rw [allCache, systemCache, replicate_eq_map_range_iff]
          exact lost.cxlWriteCache }

/-! ## Two sockets with a core each -/

def twoSockets : Machine where
  cpuFamilyModel := .SKX
  numSockets := 2
  cores := [{ osId := 0, coreId := 0, socketId := 0, msr := fun _ => 3, tsc := 100 },
    { osId := 1, coreId := 1, socketId := 1, msr := fun _ => 4, tsc := 200 }]
  socketsInRange := by decide
  arith := { scale := fun x d => x / BitVec.ofNat 64 d, share := fun part total slots => part * slots / total }
  energyStatus := [10, 20]

theorem states_agree_iff_two_sockets :
    twoSockets.AllSocketsOnline ∧ twoSockets.StatesAgree ∧
    twoSockets.getSystemCounterState.basic.invariantTSC = 100 + 200 ∧
    twoSockets.getSystemCounterState.uncore.packageEnergyStatus = 10 + 20 ∧
    (twoSockets.getSocketCounterState 1).basic.smiCount = 4 := by
  have online : twoSockets.AllSocketsOnline := by
    unfold AllSocketsOnline
    decide
  refine ⟨online, (states_agree_iff online).mpr ?_, by decide, by decide, by decide⟩
  constructor
  · decide
  · decide
  · decide
  · decide
  · decide
  · decide
  · decide

/-! ## A socket with a few cores that each hold 4 KB of the last level cache -/

def cacheCore (id : Nat) : Core :=
  { osId := id, coreId := id, socketId := 0, msr := fun _ => 0, resctrlL3OCC := 4096 }

def cacheMachine (numCores : Nat) : Machine where
  cpuFamilyModel := .SKX
  numSockets := 1
  cores := (List.range numCores).map cacheCore
  socketsInRange := by simp [cacheCore]
  arith := { scale := fun x d => x / BitVec.ofNat 64 d, share := fun part total slots => part * slots / total }
  useResctrl := true
  l3CacheOccupancyMetricAvailable := true

/-- Two cores: the system state of `getAllCounterStates` has 8 KB, `getSystemCounterState` has the
4 KB of the last core. -/
theorem states_disagree_two_cores :
    (cacheMachine 2).AllSocketsOnline ∧
    (cacheMachine 2).getAllCounterStates.systemState.basic.l3Occupancy = 8 ∧
    (cacheMachine 2).getSystemCounterState.basic.l3Occupancy = 4 ∧
    ¬ (cacheMachine 2).StatesAgree := by
  have all : (cacheMachine 2).getAllCounterStates.systemState.basic.l3Occupancy = 8 := by decide
  have system : (cacheMachine 2).getSystemCounterState.basic.l3Occupancy = 4 := by decide
  refine ⟨?_, all, system, ?_⟩
  · unfold AllSocketsOnline
    decide
  · intro agree
    have same := agree.basicSystem .l3Occupancy
    simp only [BasicField.get, all, system] at same
    revert same
    decide

end Machine

end Pcm

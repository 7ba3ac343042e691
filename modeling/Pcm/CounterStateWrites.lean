import Pcm.ReadCounters

/-!
# The writes of the read functions

`readAndAggregate` (`cpucounters.cpp:5682-5908`) and the functions for a socket (`cpucounters.cpp:6688-6855`,
`7141-7154`) as lists of their writes to a counter state, one member at a time and in the order of the source. One
after another the writes are what the functions of `ReadCounters` do.
-/

namespace Pcm

/-! ## Writes to a member -/

/-- The members of a `BasicCounterState`. -/
inductive BasicMember
  | field (f : BasicField)
  | thermalHeadroom
  | msrValues
  deriving DecidableEq

/-- The members of an `UncoreCounterState`. -/
inductive UncoreMember
  | field (f : UncoreField)
  | ufsStatus
  deriving DecidableEq

inductive BasicWrite
  /-- `+=` -/
  | add (f : BasicField) (value : BitVec 64)
  | assign (f : BasicField) (value : BitVec 64)
  | thermalHeadroom (value : Int)
  /-- `MSRValues[index] = value` -/
  | msrValue (index : Nat) (value : BitVec 64)
  /-- The same where the index has no value yet. -/
  | newMSRValue (index : Nat) (value : BitVec 64)
  deriving DecidableEq

inductive UncoreWrite
  | add (f : UncoreField) (value : BitVec 64)
  | clearUFSStatus
  | pushUFSStatus (value : BitVec 64)
  deriving DecidableEq

def BasicWrite.member : BasicWrite → BasicMember
  | add f _ | assign f _ => .field f
  | thermalHeadroom _ => .thermalHeadroom
  | msrValue _ _ | newMSRValue _ _ => .msrValues

def UncoreWrite.member : UncoreWrite → UncoreMember
  | add f _ => .field f
  | clearUFSStatus | pushUFSStatus _ => .ufsStatus

def CoreCounter.modify (f : CheckedUint64 → CheckedUint64) (s : BasicCounterState) : CoreCounter → BasicCounterState
  | instRetiredAny => { s with instRetiredAny := f s.instRetiredAny }
  | cpuClkUnhaltedThread => { s with cpuClkUnhaltedThread := f s.cpuClkUnhaltedThread }
  | cpuClkUnhaltedRef => { s with cpuClkUnhaltedRef := f s.cpuClkUnhaltedRef }
  | event i => { s with event := Accumulate.modify s.event i f }

def BasicField.modify (f : BitVec 64 → BitVec 64) (s : BasicCounterState) : BasicField → BasicCounterState
  | data c => c.modify (fun v => { v with data := f v.data }) s
  | overflows c => c.modify (fun v => { v with overflows := f v.overflows }) s
  | invariantTSC => { s with invariantTSC := f s.invariantTSC }
  | cStateResidency i => { s with cStateResidency := Accumulate.modify s.cStateResidency i f }
  | l3Occupancy => { s with l3Occupancy := f s.l3Occupancy }
  | memoryBWLocal => { s with memoryBWLocal := f s.memoryBWLocal }
  | memoryBWTotal => { s with memoryBWTotal := f s.memoryBWTotal }
  | smiCount => { s with smiCount := f s.smiCount }
  | frontendBoundSlots => { s with frontendBoundSlots := f s.frontendBoundSlots }
  | badSpeculationSlots => { s with badSpeculationSlots := f s.badSpeculationSlots }
  | backendBoundSlots => { s with backendBoundSlots := f s.backendBoundSlots }
  | retiringSlots => { s with retiringSlots := f s.retiringSlots }
  | allSlotsRaw => { s with allSlotsRaw := f s.allSlotsRaw }
  | memBoundSlots => { s with memBoundSlots := f s.memBoundSlots }
  | fetchLatSlots => { s with fetchLatSlots := f s.fetchLatSlots }
  | brMispredSlots => { s with brMispredSlots := f s.brMispredSlots }
  | heavyOpsSlots => { s with heavyOpsSlots := f s.heavyOpsSlots }

def UncoreField.modify (f : BitVec 64 → BitVec 64) (s : UncoreCounterState) : UncoreField → UncoreCounterState
  | uncMCFullWrites => { s with uncMCFullWrites := f s.uncMCFullWrites }
  | uncMCNormalReads => { s with uncMCNormalReads := f s.uncMCNormalReads }
  | uncHARequests => { s with uncHARequests := f s.uncHARequests }
  | uncHALocalRequests => { s with uncHALocalRequests := f s.uncHALocalRequests }
  | uncNMMiss => { s with uncNMMiss := f s.uncNMMiss }
  | uncNMHit => { s with uncNMHit := f s.uncNMHit }
  | uncPMMWrites => { s with uncPMMWrites := f s.uncPMMWrites }
  | uncPMMReads => { s with uncPMMReads := f s.uncPMMReads }
  | uncEDCFullWrites => { s with uncEDCFullWrites := f s.uncEDCFullWrites }
  | uncEDCNormalReads => { s with uncEDCNormalReads := f s.uncEDCNormalReads }
  | uncMCGTRequests => { s with uncMCGTRequests := f s.uncMCGTRequests }
  | uncMCIARequests => { s with uncMCIARequests := f s.uncMCIARequests }
  | uncMCIORequests => { s with uncMCIORequests := f s.uncMCIORequests }
  | packageEnergyStatus => { s with packageEnergyStatus := f s.packageEnergyStatus }
  | ppEnergyStatus pp => { s with ppEnergyStatus := Accumulate.modify s.ppEnergyStatus pp f }
  | dramEnergyStatus => { s with dramEnergyStatus := f s.dramEnergyStatus }
  | torOccupancyIAMiss => { s with torOccupancyIAMiss := f s.torOccupancyIAMiss }
  | torInsertsIAMiss => { s with torInsertsIAMiss := f s.torInsertsIAMiss }
  | uncClocks => { s with uncClocks := f s.uncClocks }
  | cStateResidency i => { s with cStateResidency := Accumulate.modify s.cStateResidency i f }

def BasicWrite.perform (s : BasicCounterState) : BasicWrite → BasicCounterState
  | add f value => f.modify (· + value) s
  | assign f value => f.modify (fun _ => value) s
  | thermalHeadroom value => { s with thermalHeadroom := value }
  | msrValue index value => { s with msrValues := Machine.setMSRValue s.msrValues (index, value) }
  | newMSRValue index value =>
      { s with
        msrValues :=
          if (s.msrValues index).isNone then Machine.setMSRValue s.msrValues (index, value) else s.msrValues }

def UncoreWrite.perform (s : UncoreCounterState) : UncoreWrite → UncoreCounterState
  | add f value => f.modify (· + value) s
  | clearUFSStatus => { s with ufsStatus := [] }
  | pushUFSStatus value => { s with ufsStatus := s.ufsStatus ++ [value] }

theorem BasicField.modify_eq_self (f : BasicField) (s : BasicCounterState) : f.modify (fun old => old) s = s := by
  cases f with
  | data c => cases c <;> simp only [BasicField.modify, CoreCounter.modify, Accumulate.modify_eq_self]
  | overflows c => cases c <;> simp only [BasicField.modify, CoreCounter.modify, Accumulate.modify_eq_self]
  | cStateResidency i => simp only [BasicField.modify, Accumulate.modify_eq_self]
  | _ => rfl

theorem UncoreField.modify_eq_self (f : UncoreField) (s : UncoreCounterState) : f.modify (fun old => old) s = s := by
  cases f with
  | ppEnergyStatus pp => simp only [UncoreField.modify, Accumulate.modify_eq_self]
  | cStateResidency i => simp only [UncoreField.modify, Accumulate.modify_eq_self]
  | _ => rfl

namespace Machine

variable (m : Machine)

/-! ## A core -/

/-- `+=` of a `checked_uint64`. -/
def counterWrites (c : CoreCounter) (value : CheckedUint64) : List BasicWrite :=
  [.add (.data c) value.data, .add (.overflows c) value.overflows]

/-- One of the two halves of `readAndAggregateMemoryBWCounters`. -/
def memoryBWWrites (f : BasicField) (available : Bool) (resctrl : BitVec 64) (counter : Option (BitVec 64)) :
    List BasicWrite :=
  if m.useResctrl then
    if available then [.add f (resctrl / (1024 * 1024))] else []
  else
    match counter with
    | none => []
    | some raw =>
        let c := extractQOSMonitoring raw
        if c = invalidQOSMonitoringData then [.assign f invalidQOSMonitoringData]
        else [.add f (m.arith.scale (c * m.l3ScalingFactor) (1024 * 1024))]

/-- The counters, with the overflows that were read with them. -/
def coreCounterWrites (core : Core) : List BasicWrite :=
  let overflows := m.overflows core
  counterWrites .instRetiredAny
      ⟨m.extractCoreFixedCounterValue (m.readCounter core .instRetiredAny), extractBits overflows 32 32⟩ ++
    counterWrites .cpuClkUnhaltedThread
      ⟨m.extractCoreFixedCounterValue (m.readCounter core .cpuClkUnhaltedThread), extractBits overflows 33 33⟩ ++
    counterWrites .cpuClkUnhaltedRef
      ⟨m.extractCoreFixedCounterValue (m.readCounter core .cpuClkUnhaltedRef), extractBits overflows 34 34⟩ ++
    ((List.finRange 8).filter fun i : CustomCounter => i < m.coreGenCounterNumMax).flatMap fun i =>
      counterWrites (.event i)
        ⟨m.extractCoreGenCounterValue (m.readCounter core (.event i)), extractBits overflows i i⟩

/-- The writes of `BasicCounterState::readAndAggregate`. -/
def coreWrites (core : Core) : List BasicWrite :=
  let slots := m.readSlots core
  m.memoryBWWrites .memoryBWLocal m.coreLocalMemoryBWMetricAvailable core.resctrlMBL core.memoryBWLocal ++
    m.memoryBWWrites .memoryBWTotal m.coreRemoteMemoryBWMetricAvailable core.resctrlMBT core.memoryBWTotal ++
    (if m.hasInvariantTSC then [.msrValue 0x10 core.tsc] else []) ++
    [.add .invariantTSC core.tsc] ++
    ((List.finRange 11).filter fun i => m.coreCStateMsr i ≠ 0).map
      (fun i => .msrValue (m.coreCStateMsr i) (core.msr (m.coreCStateMsr i))) ++
    [.msrValue 0x19C (core.msr 0x19C), .msrValue 0x34 (core.msr 0x34)] ++
    m.coreCounterWrites core ++
    [.assign .l3Occupancy (m.readL3Occupancy core)] ++
    (List.finRange 11).map (fun i => .add (.cStateResidency i) (m.readCoreCState core i)) ++
    [.thermalHeadroom (extractThermalHeadroom (core.msr 0x19C)), .add .smiCount (core.msr 0x34),
      .add .frontendBoundSlots slots.frontendBound, .add .badSpeculationSlots slots.badSpeculation,
      .add .backendBoundSlots slots.backendBound, .add .retiringSlots slots.retiring,
      .add .allSlotsRaw slots.allSlotsRaw, .add .memBoundSlots slots.memBound, .add .fetchLatSlots slots.fetchLat,
      .add .brMispredSlots slots.brMispred, .add .heavyOpsSlots slots.heavyOps]

/-- The writes of `readMSRs`. -/
def readMSRsWrites (msr : Nat → BitVec 64) (config : RawPMUConfig) : List BasicWrite :=
  config.events.map fun cfg => .newMSRValue (cfg.encoding.get 0).toNat (msr (cfg.encoding.get 0).toNat)

/-! ## A socket -/

def uncoreLatencyWrites (socket : Nat) : List UncoreWrite :=
  (if m.llcReadMissLatencyMetricsAvailable then
      [.add .torOccupancyIAMiss (m.cboCounterState socket 0), .add .torInsertsIAMiss (m.cboCounterState socket 1)]
    else []) ++
    if m.llcReadMissLatencyMetricsAvailable || m.uncoreFrequencyMetricAvailable then
      [.add .uncClocks (m.uncoreClocks socket)]
    else []

def ufsStatusWrites (socket : Nat) : List UncoreWrite :=
  match m.ufsStatus[socket]? with
  | some entries => .clearUFSStatus :: (entries.filterMap id).map .pushUFSStatus
  | none => []

def serverBWWrites (socket : Nat) : List UncoreWrite :=
  match m.serverBW[socket]? with
  | none => []
  | some bw =>
      [.add .uncMCNormalReads bw.imcReads, .add .uncMCFullWrites bw.imcWrites] ++
        if m.pmmTrafficMetricsAvailable then [.add .uncPMMReads bw.pmmReads, .add .uncPMMWrites bw.pmmWrites] else []

def serverMCWrites (socket : Nat) (pmus : ServerUncoreReadings) : List UncoreWrite :=
  if m.serverBW[socket]?.isSome then [] else
    [.add .uncMCNormalReads pmus.imcReads, .add .uncMCFullWrites pmus.imcWrites] ++
      if m.cpuFamilyModel.nearMemoryMetricsAvailable then [.add .uncNMHit pmus.nmHits, .add .uncNMMiss pmus.nmMisses]
      else []

def serverHAWrites (socket : Nat) (pmus : ServerUncoreReadings) : List UncoreWrite :=
  if m.cpuFamilyModel.localMemoryRequestRatioMetricAvailable then
    if m.cpuFamilyModel.hasCHA then
      [.add .uncHARequests (m.cboCounterState socket 2), .add .uncHALocalRequests (m.cboCounterState socket 3)]
    else [.add .uncHARequests pmus.haRequests, .add .uncHALocalRequests pmus.haLocalRequests]
  else []

def serverPMMWrites (socket : Nat) (pmus : ServerUncoreReadings) : List UncoreWrite :=
  if m.pmmTrafficMetricsAvailable && !m.serverBW[socket]?.isSome then
    [.add .uncPMMReads pmus.pmmReads, .add .uncPMMWrites pmus.pmmWrites]
  else []

def serverEDCWrites (pmus : ServerUncoreReadings) : List UncoreWrite :=
  if m.hbmMemoryTrafficMetricsAvailable then
    [.add .uncEDCNormalReads pmus.edcReads, .add .uncEDCFullWrites pmus.edcWrites]
  else []

def clientBWWrites (client : ClientReadings) : List UncoreWrite :=
  [.add .uncMCNormalReads client.imcReads, .add .uncMCFullWrites client.imcWrites,
    .add .uncMCGTRequests client.gtRequests, .add .uncMCIARequests client.iaRequests,
    .add .uncMCIORequests client.ioRequests]

def uncoreMSRsWrites (socket : Nat) : List UncoreWrite :=
  let msr := fun a => m.extractUncoreGenCounterValue (m.refCoreMsr socket a)
  match m.cpuFamilyModel with
  | .WESTMERE_EP | .NEHALEM_EP => [.add .uncMCFullWrites (msr 0x3B0), .add .uncMCNormalReads (msr 0x3B1)]
  | .NEHALEM_EX | .WESTMERE_EX =>
      [.add .uncMCNormalReads (msr 0xCB1), .add .uncMCNormalReads (msr 0xCF1), .add .uncMCFullWrites (msr 0xC33),
        .add .uncMCFullWrites (msr 0xC73)]
  | _ => []

def uncoreByKindWrites (socket : Nat) : List UncoreWrite :=
  if m.cpuFamilyModel.hasPCICFGUncore then
    match m.serverUncorePMUs[socket]? with
    | some pmus =>
        m.serverMCWrites socket pmus ++ m.serverHAWrites socket pmus ++ m.serverPMMWrites socket pmus ++
          m.serverEDCWrites pmus
    | none => []
  else
    match m.clientBW, socket with
    | some client, 0 => clientBWWrites client
    | _, _ => m.uncoreMSRsWrites socket

def energyWrites (socket : Nat) : List UncoreWrite :=
  (m.energyStatus[socket]?.map (UncoreWrite.add .packageEnergyStatus)).toList ++
    (m.dramEnergyStatus[socket]?.map (UncoreWrite.add .dramEnergyStatus)).toList ++
    if socket = 0 then
      (List.finRange 2).flatMap fun pp : PowerPlane =>
        (m.ppEnergyStatus[(pp : Nat)]?.map (UncoreWrite.add (.ppEnergyStatus pp))).toList
    else []

/-- The writes of `readAndAggregateUncoreMCCounters` and `readAndAggregateEnergyCounters`. -/
def uncoreWrites (socket : Nat) : List UncoreWrite :=
  m.uncoreLatencyWrites socket ++ m.ufsStatusWrites socket ++ m.serverBWWrites socket ++
    m.uncoreByKindWrites socket ++ m.energyWrites socket

/-- The writes of `readPackageThermalHeadroom`. -/
def packageThermalWrites (socket : Nat) : List BasicWrite :=
  if m.cpuFamilyModel.packageThermalMetricsAvailable then
    [.msrValue 0x1B1 (m.refCoreMsr socket 0x1B1),
      .thermalHeadroom (extractThermalHeadroom (m.refCoreMsr socket 0x1B1))]
  else [.thermalHeadroom (-2 ^ 31)]

theorem add_uncoreByKindWrites (socket : Nat) (i : CState) (value : BitVec 64) :
    UncoreWrite.add (.cStateResidency i) value ∉ m.uncoreByKindWrites socket := by
  intro listed
  unfold uncoreByKindWrites at listed
  split at listed
  · split at listed
    · simp only [List.mem_append] at listed
      rcases listed with ((mc | ha) | pmm) | edc
      · unfold serverMCWrites at mc
        split at mc
        · simp at mc
        · split at mc <;> simp at mc
      · unfold serverHAWrites at ha
        split at ha
        · split at ha <;> simp at ha
        · simp at ha
      · unfold serverPMMWrites at pmm
        split at pmm <;> simp at pmm
      · unfold serverEDCWrites at edc
        split at edc <;> simp at edc
    · simp at listed
  · split at listed
    · simp [clientBWWrites] at listed
    · unfold uncoreMSRsWrites at listed
      dsimp only at listed
      split at listed <;> simp at listed

/-- No write of a socket is to a package C-state, to which the tasks of its cores add. -/
theorem member_uncoreWrites {socket : Nat} {write : UncoreWrite} (listed : write ∈ m.uncoreWrites socket) (i : CState) :
    write.member ≠ .field (.cStateResidency i) := by
  intro package
  have kind : ∃ value, write = .add (.cStateResidency i) value := by
    cases write with
    | add f value =>
        cases package
        exact ⟨value, rfl⟩
    | _ => cases package
  obtain ⟨value, rfl⟩ := kind
  simp only [uncoreWrites, List.mem_append] at listed
  rcases listed with (((latency | ufs) | bw) | kind) | energy
  · unfold uncoreLatencyWrites at latency
    split at latency <;> split at latency <;> simp at latency
  · unfold ufsStatusWrites at ufs
    split at ufs <;> simp at ufs
  · unfold serverBWWrites at bw
    split at bw
    · simp at bw
    · split at bw <;> simp at bw
  · exact m.add_uncoreByKindWrites socket i value kind
  · unfold energyWrites at energy
    split at energy <;> simp at energy

/-! ## One after another -/

theorem foldl_counterWrites (c : CoreCounter) (value : CheckedUint64) (s : BasicCounterState) :
    (counterWrites c value).foldl BasicWrite.perform s = c.modify (·.add value) s := by
  cases c with
  | event i =>
      simp only [counterWrites, List.foldl_cons, List.foldl_nil, BasicWrite.perform, BasicField.modify,
        CoreCounter.modify, Accumulate.modify_modify]
      rfl
  | _ => rfl

theorem foldl_memoryBWWrites (f : BasicField) (available : Bool) (resctrl : BitVec 64) (counter : Option (BitVec 64))
    (s : BasicCounterState) :
    (m.memoryBWWrites f available resctrl counter).foldl BasicWrite.perform s =
      f.modify (m.aggregateMemoryBW available resctrl counter) s := by
  have same := f.modify_eq_self s
  unfold memoryBWWrites aggregateMemoryBW
  cases m.useResctrl with
  | true =>
      cases available with
      | true => rfl
      | false => exact same.symm
  | false =>
      cases counter with
      | none => exact same.symm
      | some raw =>
          simp only [Bool.false_eq_true, if_false]
          split <;> rfl

theorem foldl_msrValues {α : Type*} (l : List α) (index : α → Nat) (value : α → BitVec 64) (s : BasicCounterState) :
    (l.map fun a => BasicWrite.msrValue (index a) (value a)).foldl BasicWrite.perform s =
      { s with msrValues := (l.map fun a => (index a, value a)).foldl setMSRValue s.msrValues } := by
  induction l generalizing s with
  | nil => rfl
  | cons a l ih =>
      rw [List.map_cons, List.foldl_cons, ih]
      rfl

theorem foldl_readMSRsWrites (msr : Nat → BitVec 64) (config : RawPMUConfig) (s : BasicCounterState) :
    (readMSRsWrites msr config).foldl BasicWrite.perform s = readMSRs msr config s := by
  rw [readMSRsWrites, readMSRs]
  generalize config.events = events
  induction events generalizing s with
  | nil => rfl
  | cons cfg events ih =>
      rw [List.map_cons, List.foldl_cons, ih]
      rfl

theorem foldl_cStateResidency (value : CState → BitVec 64) (s : BasicCounterState) :
    ((List.finRange 11).map fun i => BasicWrite.add (.cStateResidency i) (value i)).foldl BasicWrite.perform s =
      { s with cStateResidency := fun i => s.cStateResidency i + value i } := by
  have only : ∀ (l : List CState) (s : BasicCounterState),
      (l.map fun i => BasicWrite.add (.cStateResidency i) (value i)).foldl BasicWrite.perform s =
        { s with
          cStateResidency :=
            l.foldl (fun values i => Accumulate.modify values i (· + value i)) s.cStateResidency } := by
    intro l
    induction l with
    | nil => exact fun s => rfl
    | cons i l ih => exact fun s => ih _
  rw [only]
  congr 1
  funext i
  have each := Accumulate.foldl_modify_nodup Function.injective_id (fun i old => old + value i)
    (List.nodup_finRange 11) s.cStateResidency i
  simpa using each

theorem foldl_events (number : Nat) (value : CustomCounter → CheckedUint64) (s : BasicCounterState) :
    (((List.finRange 8).filter fun i : CustomCounter => i < number).flatMap fun i =>
        counterWrites (.event i) (value i)).foldl BasicWrite.perform s =
      { s with event := fun i => if i < number then (s.event i).add (value i) else s.event i } := by
  have only : ∀ (l : List CustomCounter) (s : BasicCounterState),
      (l.flatMap fun i => counterWrites (.event i) (value i)).foldl BasicWrite.perform s =
        { s with event := l.foldl (fun events i => Accumulate.modify events i (·.add (value i))) s.event } := by
    intro l
    induction l with
    | nil => exact fun s => rfl
    | cons i l ih =>
        intro s
        rw [List.flatMap_cons, List.foldl_append, foldl_counterWrites, ih]
        rfl
  rw [only]
  congr 1
  funext i
  have each := Accumulate.foldl_modify_nodup Function.injective_id (fun i old => old.add (value i))
    ((List.nodup_finRange 8).filter fun i : CustomCounter => i < number) s.event i
  simpa using each

theorem foldl_coreWrites (core : Core) (s : BasicCounterState) :
    (m.coreWrites core).foldl BasicWrite.perform s = m.readAndAggregate core s := by
  have own : (m.ownMSRValues core).foldl setMSRValue s.msrValues =
      [(0x19C, core.msr 0x19C), (0x34, core.msr 0x34)].foldl setMSRValue
        ((((List.finRange 11).filter fun i => m.coreCStateMsr i ≠ 0).map
          fun i => (m.coreCStateMsr i, core.msr (m.coreCStateMsr i))).foldl setMSRValue
            ((if m.hasInvariantTSC then [(0x10, core.tsc)] else []).foldl setMSRValue s.msrValues)) := by
    rw [ownMSRValues, List.foldl_append, List.foldl_append]
  have first : (if m.hasInvariantTSC then [BasicWrite.msrValue 0x10 core.tsc] else []) =
      (if m.hasInvariantTSC then [(0x10, core.tsc)] else []).map fun e => BasicWrite.msrValue e.1 e.2 := by
    split <;> rfl
  rw [readAndAggregate, own]
  simp only [coreWrites, coreCounterWrites, first, List.foldl_append, foldl_memoryBWWrites, foldl_msrValues,
    foldl_counterWrites, foldl_events, foldl_cStateResidency, List.foldl_cons, List.foldl_nil, BasicWrite.perform,
    BasicField.modify, CoreCounter.modify, List.map_id']

section Uncore

variable (socket : Nat) (s : UncoreCounterState)

theorem foldl_uncoreLatencyWrites :
    (m.uncoreLatencyWrites socket).foldl UncoreWrite.perform s = m.readUncoreLatency socket s := by
  unfold uncoreLatencyWrites readUncoreLatency
  cases m.llcReadMissLatencyMetricsAvailable <;> cases m.uncoreFrequencyMetricAvailable <;> rfl

theorem foldl_ufsStatusWrites : (m.ufsStatusWrites socket).foldl UncoreWrite.perform s = m.readUFSStatus socket s := by
  have pushes : ∀ (values : List (BitVec 64)) (s : UncoreCounterState),
      (values.map UncoreWrite.pushUFSStatus).foldl UncoreWrite.perform s =
        { s with ufsStatus := s.ufsStatus ++ values } := by
    intro values
    induction values with
    | nil => intro s; simp
    | cons value values ih =>
        intro s
        rw [List.map_cons, List.foldl_cons, ih]
        simp [UncoreWrite.perform]
  unfold ufsStatusWrites readUFSStatus
  cases m.ufsStatus[socket]? with
  | none => rfl
  | some entries => exact (pushes (entries.filterMap id) _).trans rfl

theorem foldl_serverBWWrites : (m.serverBWWrites socket).foldl UncoreWrite.perform s = m.readServerBW socket s := by
  unfold serverBWWrites readServerBW
  cases m.serverBW[socket]? with
  | none => rfl
  | some bw => cases m.pmmTrafficMetricsAvailable <;> rfl

theorem foldl_serverMCWrites (pmus : ServerUncoreReadings) :
    (m.serverMCWrites socket pmus).foldl UncoreWrite.perform s = m.readServerMC socket pmus s := by
  unfold serverMCWrites readServerMC
  cases m.serverBW[socket]?.isSome <;> cases m.cpuFamilyModel.nearMemoryMetricsAvailable <;> rfl

theorem foldl_serverHAWrites (pmus : ServerUncoreReadings) :
    (m.serverHAWrites socket pmus).foldl UncoreWrite.perform s = m.readServerHA socket pmus s := by
  unfold serverHAWrites readServerHA
  cases m.cpuFamilyModel.localMemoryRequestRatioMetricAvailable <;> cases m.cpuFamilyModel.hasCHA <;> rfl

theorem foldl_serverPMMWrites (pmus : ServerUncoreReadings) :
    (m.serverPMMWrites socket pmus).foldl UncoreWrite.perform s = m.readServerPMM socket pmus s := by
  unfold serverPMMWrites readServerPMM
  cases m.pmmTrafficMetricsAvailable <;> cases m.serverBW[socket]?.isSome <;> rfl

theorem foldl_serverEDCWrites (pmus : ServerUncoreReadings) :
    (m.serverEDCWrites pmus).foldl UncoreWrite.perform s = m.readServerEDC pmus s := by
  unfold serverEDCWrites readServerEDC
  cases m.hbmMemoryTrafficMetricsAvailable <;> rfl

theorem foldl_uncoreMSRsWrites :
    (m.uncoreMSRsWrites socket).foldl UncoreWrite.perform s = m.readUncoreMSRs socket s := by
  unfold uncoreMSRsWrites readUncoreMSRs
  cases m.cpuFamilyModel <;> rfl

theorem foldl_uncoreByKindWrites :
    (m.uncoreByKindWrites socket).foldl UncoreWrite.perform s = m.readUncoreByKind socket s := by
  unfold uncoreByKindWrites readUncoreByKind
  cases m.cpuFamilyModel.hasPCICFGUncore with
  | true =>
      cases m.serverUncorePMUs[socket]? with
      | none => rfl
      | some pmus =>
          simp only [if_true, List.foldl_append, foldl_serverMCWrites, foldl_serverHAWrites, foldl_serverPMMWrites,
            foldl_serverEDCWrites, readServerUncore]
  | false =>
      have msrs := m.foldl_uncoreMSRsWrites socket s
      cases m.clientBW with
      | none => exact msrs
      | some client =>
          cases socket with
          | zero => rfl
          | succ socket => exact msrs

theorem foldl_energyWrites :
    (m.energyWrites socket).foldl UncoreWrite.perform s = m.readAndAggregateEnergyCounters socket s := by
  have optional : ∀ (f : UncoreField) (value : Option (BitVec 64)) (s : UncoreCounterState),
      (value.map (UncoreWrite.add f)).toList.foldl UncoreWrite.perform s = f.modify (· + value.getD 0) s := by
    intro f value s
    cases value with
    | some value => rfl
    | none =>
        have nothing : (fun old : BitVec 64 => old + 0) = fun old => old := funext add_zero
        rw [Option.getD_none, nothing, UncoreField.modify_eq_self]
        rfl
  have planes : ∀ (s : UncoreCounterState),
      ((List.finRange 2).flatMap fun pp : PowerPlane =>
        (m.ppEnergyStatus[(pp : Nat)]?.map (UncoreWrite.add (.ppEnergyStatus pp))).toList).foldl UncoreWrite.perform s =
        { s with ppEnergyStatus := fun pp => s.ppEnergyStatus pp + m.ppEnergyStatus.getD pp 0 } := by
    intro s
    have two : List.finRange 2 = [(0 : PowerPlane), 1] := rfl
    rw [two, List.flatMap_cons, List.flatMap_cons, List.flatMap_nil, List.append_nil, List.foldl_append, optional,
      optional]
    simp only [UncoreField.modify, List.getD_eq_getElem?_getD]
    congr 1
    exact funext (Fin.forall_fin_two.mpr ⟨rfl, rfl⟩)
  simp only [energyWrites, List.foldl_append, optional, readAndAggregateEnergyCounters]
  split
  · rw [planes]
    simp [UncoreField.modify]
  · simp [UncoreField.modify]

/-- The writes of a socket to its uncore counters. -/
theorem foldl_uncoreWrites : (m.uncoreWrites socket).foldl UncoreWrite.perform s = m.readSocketUncore socket s := by
  simp only [uncoreWrites, List.foldl_append, foldl_uncoreLatencyWrites, foldl_ufsStatusWrites, foldl_serverBWWrites,
    foldl_uncoreByKindWrites, foldl_energyWrites]
  rfl

end Uncore

theorem foldl_packageThermalWrites (socket : Nat) (s : BasicCounterState) :
    (m.packageThermalWrites socket).foldl BasicWrite.perform s = m.readPackageThermalHeadroom socket s := by
  unfold packageThermalWrites readPackageThermalHeadroom
  cases m.cpuFamilyModel.packageThermalMetricsAvailable <;> rfl

end Machine

end Pcm

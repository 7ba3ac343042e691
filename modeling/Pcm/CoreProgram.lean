import Pcm.Bits
import Pcm.CpuModel
import Pcm.RawConfig

/-!
# Programming the core PMU

`PCM::program` in its two forms (`cpucounters.cpp:3661-4160`, `6149-6254`) and the core part of
`cleanup` (`cpucounters.cpp:5267-5305`, `5462-5480`): the NMI watchdog, the choice between Linux
perf and direct access, the choice of events with the availability flags of the metrics, and
`IA32_PEBS_ENABLE`. The model is that of the Linux build with `PCM_USE_PERF`.
-/

namespace Pcm

inductive ErrorCode
  | success
  | msrAccessDenied
  | pmuBusy
  | unknownError
  deriving DecidableEq, Repr

inductive ProgramMode
  | defaultEvents
  | customCoreEvents
  | extCustomCoreEvents
  | invalidMode
  deriving DecidableEq, Repr

/-- `CustomCoreEventDescription`. -/
structure EventDescription where
  eventNumber : BitVec 32 := 0
  umaskValue : BitVec 32 := 0
  deriving DecidableEq, Repr

/-- `ExtendedCustomCoreEventDescription`; a null pointer is `none`, an event select register its
value. -/
structure ExtendedDescription where
  fixedCfg : Option (BitVec 64) := none
  nGPCounters : Nat := 0
  gpCounterCfg : Option (Nat → BitVec 64) := none
  gpCounterHybridAtomCfg : Option (Nat → BitVec 64) := none
  offcoreResponseMsrValue : BitVec 64 × BitVec 64 := (0, 0)
  loadLatencyMsrValue : BitVec 64 := -1
  frontendMsrValue : BitVec 64 := -1
  defaultUncoreProgramming : Bool := true

/-- The mode and the parameter of a call, which has the type that the mode asks for. The default
modes ignore theirs. -/
inductive Request
  | defaultEvents (hasParameter : Bool)
  | customCoreEvents (parameter : Option (Nat → EventDescription))
  | extCustomCoreEvents (parameter : Option ExtendedDescription)
  | invalidMode (hasParameter : Bool)

namespace Request

def mode : Request → ProgramMode
  | defaultEvents _ => .defaultEvents
  | customCoreEvents _ => .customCoreEvents
  | extCustomCoreEvents _ => .extCustomCoreEvents
  | invalidMode _ => .invalidMode

def hasParameter : Request → Bool
  | defaultEvents has => has
  | customCoreEvents p => p.isSome
  | extCustomCoreEvents p => p.isSome
  | invalidMode has => has

/-- `EXT_CUSTOM_CORE_EVENTS == mode_ && pExtDesc`. -/
def extended : Request → Option ExtendedDescription
  | extCustomCoreEvents p => p
  | _ => none

end Request

/-- The availability flags (`cpucounters.h:862-869`). -/
inductive Metric
  | l2CacheHitRatio
  | l3CacheHitRatio
  | l3CacheMisses
  | l2CacheMisses
  | l2CacheHits
  | l3CacheHitsNoSnoop
  | l3CacheHitsSnoop
  | l3CacheHits
  deriving DecidableEq, Repr

/-- One logical core, for the programming loop. -/
structure CoreInfo where
  online : Bool
  isAtom : Bool
  deriving DecidableEq, Repr

/-- What is fixed for a PCM instance: the machine, the kernel and the environment variables. -/
structure Instance where
  cpuFamilyModel : CpuModel
  /-- `MSR.empty()`. -/
  noMsrAccess : Bool := false
  hybrid : Bool := false
  coreGenCounterNumMax : Nat
  coreFixedCounterNumMax : Nat := 3
  cores : List CoreInfo
  hwTMAL1Supported : Bool := false
  perfSupportsTopDown : Bool := false
  /-- `PERF_COUNT_HW_MAX > PCM_PERF_COUNT_HW_REF_CPU_CYCLES`. -/
  perfHasRefCycles : Bool := true
  /-- The sysfs format of `offcore_rsp` is `config1:0-63`. -/
  perfHasOffcoreResponse : Bool := true
  /-- `PCM_NO_PERF=1`, `PCM_KEEP_NMI_WATCHDOG=1` and `PCM_NO_MSR=1`. -/
  noPerf : Bool := false
  keepNMIWatchdog : Bool := false
  noMSRMode : Bool := false

/-- The members that programming changes, the NMI watchdog and `IA32_PEBS_ENABLE` of the cores. -/
structure CoreState where
  /-- What `/proc/sys/kernel/nmi_watchdog` holds, if it can be read. -/
  nmiWatchdog : Option Int
  needToRestoreNMIWatchdog : Bool := false
  canUsePerf : Bool := true
  programmedCorePMU : Bool := false
  mode : ProgramMode := .invalidMode
  available : Metric → Bool := fun _ => false
  coreEventDesc : Nat → EventDescription := fun _ => {}
  hybridAtomEventDesc : Nat → EventDescription := fun _ => {}
  coreGenCounterNumUsed : Nat := 0
  cleanupPEBS : Bool := false
  pebsEnable : Nat → BitVec 64 := fun _ => 0

/-- A call of `program(mode, parameter, silent, pid)` and what it meets. -/
structure Call where
  request : Request
  pid : Option Nat := none
  /-- What `PMUinUse` would find. -/
  pmuInUse : Bool := false
  /-- Whether `/proc/<pid>/task/` can be opened. -/
  taskDirectory : Bool := true
  /-- Whether perf accepts the events of a core. -/
  perfOpens : Nat → Bool := fun _ => true

namespace CoreState

/-- `isNMIWatchdogEnabled` (`cpucounters.cpp:3104-3113`). -/
def isNMIWatchdogEnabled (s : CoreState) : Bool := s.nmiWatchdog = some 1

/-- The first lines of `program` (`cpucounters.cpp:3663-3669`). -/
def disableNMIWatchdog (inst : Instance) (s : CoreState) : CoreState :=
  if s.isNMIWatchdogEnabled && !inst.keepNMIWatchdog then
    { s with nmiWatchdog := some 0, needToRestoreNMIWatchdog := true }
  else s

end CoreState

/-- Whether a call gives up Linux perf (`cpucounters.cpp:3678-3729`). -/
def Instance.dropsPerf (inst : Instance) (call : Call) : Bool :=
  let first :=
    if inst.noPerf then true
    else if !inst.perfHasRefCycles then true
    else match call.request.extended with
      | some desc =>
          if (desc.fixedCfg.any fun value => value &&& 0x444 ≠ 0) then true
          else if desc.offcoreResponseMsrValue.1 ≠ 0 || desc.offcoreResponseMsrValue.2 ≠ 0 then
            !inst.perfHasOffcoreResponse
          else false
      | none => false
  first || (inst.hwTMAL1Supported && !inst.perfSupportsTopDown && call.pid.isNone) ||
    match inst.cpuFamilyModel with
    | .ADL | .RPL | .MTL | .LNL | .ARL | .PTL => true
    | _ => false

/-! ## The events -/

/-- What a branch of `program` assigns: entries of the event tables, flags and the number of
counters. -/
structure EventPlan where
  core : List (Nat × EventDescription)
  hybridAtom : List (Nat × EventDescription) := []
  flags : List Metric := []
  numUsed : Nat

def assign (table : Nat → EventDescription) (entries : List (Nat × EventDescription)) :
    Nat → EventDescription :=
  fun i => match entries.lookup i with
    | some desc => desc
    | none => table i

def CoreState.follow (s : CoreState) (plan : EventPlan) : CoreState :=
  { s with
    coreEventDesc := assign s.coreEventDesc plan.core
    hybridAtomEventDesc := assign s.hybridAtomEventDesc plan.hybridAtom
    available := fun metric => s.available metric || decide (metric ∈ plan.flags)
    coreGenCounterNumUsed := plan.numUsed }

/-- `LLCArchEventInit`. -/
def llcArchEvents : List (Nat × EventDescription) := [(0, ⟨0x2E, 0x41⟩), (1, ⟨0x2E, 0x4F⟩)]

/-- `SKL_MEM_LOAD_RETIRED_L2_MISS` and `SKL_MEM_LOAD_RETIRED_L2_HIT`. -/
def sklL2Events : List (Nat × EventDescription) := [(2, ⟨0xD1, 0x10⟩), (3, ⟨0xD1, 0x02⟩)]

/-- All flags but the one for hits without snoop. -/
def snoopFlags : List Metric :=
  [.l2CacheHitRatio, .l3CacheHitRatio, .l3CacheMisses, .l2CacheMisses, .l2CacheHits,
    .l3CacheHitsSnoop, .l3CacheHits]

def allFlags : List Metric := .l3CacheHitsNoSnoop :: snoopFlags

/-- The default events of a model (`cpucounters.cpp:3771-3990`). -/
def Instance.defaultPlan (inst : Instance) : EventPlan :=
  if inst.cpuFamilyModel.isAtom || inst.cpuFamilyModel = .KNL then
    { core := llcArchEvents, flags := [.l2CacheHitRatio, .l2CacheMisses, .l2CacheHits], numUsed := 2 }
  else if inst.cpuFamilyModel.memoryEventErrata then
    let flags := [.l3CacheHitRatio, .l3CacheMisses, .l2CacheMisses, .l3CacheHits]
    if inst.cpuFamilyModel = .HASWELLX || inst.cpuFamilyModel = .HASWELL then
      { core := llcArchEvents ++ [(2, ⟨0x24, 0x3F⟩), (3, ⟨0x24, 0xFF⟩)]
        flags := flags ++ [.l2CacheHitRatio, .l2CacheHits], numUsed := 4 }
    else { core := llcArchEvents, flags := flags, numUsed := 2 }
  else match inst.cpuFamilyModel with
    | .ADL | .RPL | .MTL | .LNL | .ARL | .PTL =>
        { core := llcArchEvents ++ sklL2Events, hybridAtom := llcArchEvents ++ sklL2Events
          flags := snoopFlags, numUsed := 4 }
    | .SNOWRIDGE | .ELKHART_LAKE | .JASPER_LAKE =>
        { core := llcArchEvents ++ sklL2Events, flags := snoopFlags, numUsed := 4 }
    | .GRR | .SRF =>
        { core := llcArchEvents ++ [(2, ⟨0xD1, 0x80⟩), (3, ⟨0xD1, 0x02⟩)]
          flags := snoopFlags, numUsed := 4 }
    | .SKL_UY | .KBL | .KBL_1 | .CML | .ICL | .RKL | .TGL | .SKL | .SKX | .ICX | .SPR | .EMR | .GNR
    | .GNR_D =>
        let core := [(0, ⟨0xD1, 0x20⟩), (1, ⟨0xD1, 0x04⟩)] ++ sklL2Events
        if inst.coreGenCounterNumMax = 2 then
          { core := core
            flags := [.l3CacheHitRatio, .l3CacheMisses, .l3CacheHitsSnoop, .l3CacheHits], numUsed := 2 }
        else if inst.coreGenCounterNumMax = 3 then
          { core := core
            flags := [.l3CacheHitRatio, .l3CacheMisses, .l2CacheMisses, .l3CacheHitsSnoop,
              .l3CacheHits], numUsed := 3 }
        else { core := core, flags := snoopFlags, numUsed := 4 }
    | .SANDY_BRIDGE | .JAKETOWN | .IVYTOWN | .IVY_BRIDGE | .HASWELL | .HASWELLX | .BROADWELL | .BDX_DE
    | .BDX =>
        let core := [(0, ⟨0x2E, 0x41⟩), (1, ⟨0xD2, 0x08⟩), (2, ⟨0xD2, 0x07⟩), (3, ⟨0xD1, 0x02⟩)]
        if inst.coreGenCounterNumMax = 3 then
          { core := core
            flags := [.l3CacheHitRatio, .l3CacheMisses, .l2CacheMisses, .l3CacheHitsNoSnoop,
              .l3CacheHitsSnoop, .l3CacheHits], numUsed := 3 }
        else { core := core, flags := allFlags, numUsed := 4 }
    | .NEHALEM_EP | .WESTMERE_EP | .CLARKDALE =>
        { core := [(0, ⟨0xCB, 0x10⟩), (1, ⟨0xCB, 0x04⟩), (2, ⟨0xCB, 0x08⟩), (3, ⟨0xCB, 0x02⟩)]
          flags := allFlags, numUsed := 4 }
    | _ =>
        { core := [(0, ⟨0x2E, 0x41⟩), (1, ⟨0xCB, 0x04⟩), (2, ⟨0xCB, 0x08⟩), (3, ⟨0xCB, 0x02⟩)]
          flags := allFlags, numUsed := 4 }

/-- The custom events of a call (`cpucounters.cpp:3757-3769`). -/
def Instance.customPlan (inst : Instance) (desc : Nat → EventDescription) : EventPlan :=
  let entries := fun (n : Nat) => (List.range n).map fun i => (i, desc i)
  if !inst.cpuFamilyModel.isAtom && inst.cpuFamilyModel ≠ .KNL then
    if 3 < inst.coreGenCounterNumMax then { core := entries 4, numUsed := 4 }
    else { core := entries 3, numUsed := 3 }
  else { core := entries 2, numUsed := 2 }

/-- The choice of the events; `none` where a call in custom mode has no parameter. -/
def CoreState.selectEvents (inst : Instance) (request : Request) (s : CoreState) :
    Option CoreState :=
  match request with
  | .customCoreEvents none => none
  | .customCoreEvents (some desc) => some (s.follow (inst.customPlan desc))
  | .extCustomCoreEvents (some desc) =>
      if desc.gpCounterCfg.isSome || desc.gpCounterHybridAtomCfg.isSome then
        some { s with coreGenCounterNumUsed := desc.nGPCounters }
      else some s
  | .extCustomCoreEvents none => some s
  | .defaultEvents _ | .invalidMode _ => some (s.follow inst.defaultPlan)

/-! ## The cores -/

/-- The event select and umask fields that a description puts into an event select register. -/
def eventFields (desc : EventDescription) : BitVec 64 × BitVec 64 :=
  ((desc.eventNumber.setWidth 8).setWidth 64, (desc.umaskValue.setWidth 8).setWidth 64)

/-- The same fields of a raw event select register. -/
def registerFields (value : BitVec 64) : BitVec 64 × BitVec 64 :=
  (extractBits value 0 7, extractBits value 8 15)

/-- The event of counter `j` on a core (`cpucounters.cpp:4392-4421`). -/
def CoreState.eventOf (inst : Instance) (request : Request) (s : CoreState) (core : CoreInfo)
    (j : Nat) : BitVec 64 × BitVec 64 :=
  if !inst.hybrid || !core.isAtom then
    match request.extended.bind (·.gpCounterCfg) with
    | some regs => registerFields (regs j)
    | none => eventFields (s.coreEventDesc j)
  else
    match request.extended.bind (·.gpCounterHybridAtomCfg) with
    | some regs => registerFields (regs j)
    | none => eventFields (s.hybridAtomEventDesc j)

/-- `PEBSEnable`: the counters that take load latency samples. -/
def CoreState.pebsValue (inst : Instance) (request : Request) (s : CoreState) (core : CoreInfo) :
    BitVec 64 :=
  (List.range s.coreGenCounterNumUsed).foldl
    (fun value j =>
      if request.hasParameter && s.eventOf inst request core j = (0xCD, 0x01) then
        value ||| 1#64 <<< j
      else value) 0

/-- `programCoreCounters` on core `i` (`cpucounters.cpp:4213-4575`), as far as it writes
`IA32_PEBS_ENABLE`: a core whose events perf rejects does not get there. -/
def CoreState.programCoreCounters (inst : Instance) (call : Call) (i : Nat) (core : CoreInfo)
    (s : CoreState) : CoreState :=
  if s.canUsePerf && !call.perfOpens i then s
  else if s.pebsValue inst call.request core ≠ 0 then
    { s with
      cleanupPEBS := true
      pebsEnable := fun k => if k = i then s.pebsValue inst call.request core else s.pebsEnable k }
  else s

/-- The online cores with their numbers. -/
def Instance.onlineCores (inst : Instance) : List (Nat × CoreInfo) :=
  ((List.range inst.cores.length).zip inst.cores).filter (·.2.online)

/-- The end of the core part (`cpucounters.cpp:4078-4108`). -/
def CoreState.programCores (inst : Instance) (call : Call) (s : CoreState) :
    ErrorCode × CoreState :=
  let s := inst.onlineCores.foldl (fun s core => s.programCoreCounters inst call core.1 core.2) s
  if s.canUsePerf && inst.onlineCores.any (fun core => !call.perfOpens core.1) then
    (.unknownError, s)
  else (.success, { s with programmedCorePMU := true })

/-- The checks between the choice of events and the cores (`cpucounters.cpp:4010-4060`). -/
def CoreState.accepts (inst : Instance) (call : Call) (s : CoreState) : Bool :=
  s.coreGenCounterNumUsed ≤ inst.coreGenCounterNumMax && 3 ≤ inst.coreFixedCounterNumMax &&
    (call.pid.isNone || s.canUsePerf) && (!s.isNMIWatchdogEnabled || s.canUsePerf) &&
    (call.pid.isNone || call.taskDirectory)

/-- The state when it is decided whether to use perf. -/
def CoreState.prepare (inst : Instance) (call : Call) (s : CoreState) : CoreState :=
  let s := s.disableNMIWatchdog inst
  { s with canUsePerf := s.canUsePerf && !inst.dropsPerf call }

def CoreState.setMode (mode : ProgramMode) (s : CoreState) : CoreState := { s with mode := mode }

/-- `program(mode, parameter, silent, pid)` without the uncore part at its end. -/
def CoreState.program (inst : Instance) (call : Call) (s : CoreState) : ErrorCode × CoreState :=
  if inst.noMsrAccess then (.msrAccessDenied, s.disableNMIWatchdog inst) else
  let s := s.prepare inst call
  if !s.canUsePerf && inst.noMSRMode then (.unknownError, s) else
  if !s.programmedCorePMU && !s.canUsePerf && call.pmuInUse then (.pmuBusy, s) else
  let s := s.setMode call.request.mode
  match s.selectEvents inst call.request with
  | none => (.unknownError, s)
  | some s => if s.accepts inst call then s.programCores inst call else (.unknownError, s)

/-! ## Raw configurations -/

/-- `updateRegs` (`cpucounters.cpp:6160-6179`): the event select registers of a core PMU, or `none`
if it has too many events. Registers without an event are zero. -/
def Instance.updateRegs (inst : Instance) (config : RawPMUConfig) : Option (List (BitVec 64)) :=
  if inst.coreGenCounterNumMax < config.programmable.length then none
  else some ((config.programmable.take 8).map (·.encoding.get 0))

/-- `setOtherConf` (`cpucounters.cpp:6181-6208`). -/
def setOtherConf (config : RawPMUConfig) (conf : ExtendedDescription) : ExtendedDescription :=
  let conf := match config.programmable.head? with
    | some e => { conf with
        offcoreResponseMsrValue := (e.encoding.get 1, e.encoding.get 2)
        loadLatencyMsrValue := e.encoding.get 3
        frontendMsrValue := e.encoding.get 4 }
    | none => conf
  if config.fixed.isEmpty then { conf with fixedCfg := none }
  else { conf with fixedCfg := some ((config.fixed.map (·.encoding.get 0)).foldl (· ||| ·) 0) }

def registers (values : List (BitVec 64)) (j : Nat) : BitVec 64 := values.getD j 0

/-- The core part of `program(RawPMUConfigs)` (`cpucounters.cpp:6213-6254`): the description that it
programs in extended mode, if there is one; an error if there are too many events. -/
def Instance.rawCoreRequest (inst : Instance) (configs : RawPMUConfigs) :
    Except Unit (Option ExtendedDescription) :=
  let conf : ExtendedDescription := { defaultUncoreProgramming := false }
  match configs.entries.lookup "core", configs.entries.lookup "atom" with
  | none, none => .ok none
  | some core, none =>
      match inst.updateRegs core with
      | none => .error ()
      | some regs => .ok (some (setOtherConf core
          { conf with nGPCounters := regs.length, gpCounterCfg := some (registers regs) }))
  | some core, some atom =>
      match inst.updateRegs core, inst.updateRegs atom with
      | some regs, some atomRegs => .ok (some (setOtherConf core
          { conf with
            nGPCounters := max regs.length atomRegs.length
            gpCounterCfg := some (registers regs)
            gpCounterHybridAtomCfg := some (registers atomRegs) }))
      | _, _ => .error ()
  | none, some atom =>
      match inst.updateRegs atom with
      | none => .error ()
      | some atomRegs => .ok (some (setOtherConf atom
          { conf with
            nGPCounters := atomRegs.length
            gpCounterHybridAtomCfg := some (registers atomRegs) }))

/-- `program(RawPMUConfigs)` up to the uncore PMUs; `call` is what it meets when it programs the
cores. -/
def CoreState.programRaw (inst : Instance) (configs : RawPMUConfigs) (call : Call) (s : CoreState) :
    ErrorCode × CoreState :=
  if inst.noMsrAccess then (.msrAccessDenied, s) else
  match inst.rawCoreRequest configs with
  | .error _ => (.unknownError, s)
  | .ok none => (.success, s)
  | .ok (some desc) => s.program inst { call with request := .extCustomCoreEvents (some desc) }

/-! ## Cleaning up -/

/-- `cleanupPMU` (`cpucounters.cpp:5267-5305`). -/
def CoreState.cleanupPMU (inst : Instance) (s : CoreState) : CoreState :=
  let s := { s with programmedCorePMU := false }
  if s.canUsePerf then s
  else
    { s with
      pebsEnable := fun i =>
        if s.cleanupPEBS && i < inst.cores.length then 0 else s.pebsEnable i
      cleanupPEBS := false }

/-- `cleanup` (`cpucounters.cpp:5462-5480`), the core part and the NMI watchdog. -/
def CoreState.cleanup (inst : Instance) (s : CoreState) : CoreState :=
  if inst.noMsrAccess then s else
  let s := s.cleanupPMU inst
  if s.needToRestoreNMIWatchdog then
    { s with nmiWatchdog := some 1, needToRestoreNMIWatchdog := false }
  else s

end Pcm

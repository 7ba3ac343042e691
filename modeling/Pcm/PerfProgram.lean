import Pcm.CoreProgram
import Pcm.EventSyntax
import Pcm.ReadCounters
import Pcm.Lib.BitFields
import Pcm.Lib.PerfEvents
import Pcm.Lib.Transition

/-!
# Programming the core PMU through Linux perf

The part of `program` and `programCoreCounters` (`cpucounters.cpp:3661-4108`, `4213-4575`) that opens a perf file
for each event, `closePerfHandles` (`cpucounters.cpp:5239-5265`) and `readPerfData` (`cpucounters.cpp:5608-5680`).
The worker threads of the cores run `programCoreCounters` at the same time: what each does is a list of actions,
and the actions of different cores interleave. `CoreProgram` has the rest of `program`.
-/

namespace Pcm.Perf

open BitFields PerfEvents StdString Transition

/-- `perf_event_attr`, as far as PCM sets it. `group` is `PERF_FORMAT_GROUP` in `read_format`. -/
structure PerfEventAttr where
  type : Nat
  config : BitVec 64
  config1 : BitVec 64 := 0
  excludeUser : Bool := false
  excludeKernel : Bool := false
  excludeHv : Bool := false
  inherit : Bool := false
  group : Bool := true
  deriving DecidableEq, Repr

/-- Reading the leader of such events reads their group. -/
def PerfEventAttr.Grouped (e : PerfEventAttr) : Prop := e.group

/-! ## Positions (`cpucounters.h:1137-1165`) -/

def PERF_GEN_EVENT_0_POS : Nat := 3

def PERF_MAX_CUSTOM_COUNTERS : Nat := 8

def PERF_TOPDOWN_SLOTS_POS : Nat := PERF_GEN_EVENT_0_POS + PERF_MAX_CUSTOM_COUNTERS

def PERF_MAX_COUNTERS : Nat := 20

/-- What is fixed, with the descriptions of the top-down events in sysfs by position. -/
structure PerfInstance extends Instance where
  fixedCounter3Supported : Bool := true
  hwTMAL2Supported : Bool := false
  eventSource : Nat → Bytes := fun _ => []

/-- A call of `program`, with the tasks of the process and the event select registers of the cores. Where the
parameter is of another type, `foreign` is what is found in its place. -/
structure PerfCall extends Call where
  tasks : List Int := []
  eventSelect : Nat → Nat → BitVec 64 := fun _ _ => 0
  foreign : ExtendedDescription := {}

/-- `tids` -/
def PerfCall.tids (call : PerfCall) : List Int := if call.pid.isSome then call.tasks else []

/-! ## The events of a core -/

/-- `initFixedCtrl(false)` -/
def initFixedCtrl (request : Request) : BitVec 64 := (request.extended.bind (·.fixedCfg)).getD 0x333

/-- The event of fixed counter `k`; its fields in the control register are four bits apart. -/
def fixedEvent (ctrl_reg config : BitVec 64) (k : Nat) : PerfEventAttr :=
  let kernel := !ctrl_reg.getLsbD (4 * k)
  { type := 0, config := config, excludeKernel := kernel, excludeHv := kernel
    excludeUser := !ctrl_reg.getLsbD (4 * k + 1) }

/-- `setEvent` (`cpucounters.cpp:4382-4397`): the fields of the register with their values. -/
def setEvent (reg event umask : BitVec 64) : BitVec 64 :=
  [((⟨0, 8⟩ : Field), event), (⟨8, 8⟩, umask), (⟨16, 1⟩, 1), (⟨17, 1⟩, 1), (⟨18, 1⟩, 0), (⟨19, 1⟩, 0),
    (⟨20, 1⟩, 0), (⟨21, 1⟩, 0), (⟨22, 1⟩, 1), (⟨23, 1⟩, 0), (⟨24, 8⟩, 0), (⟨32, 1⟩, 0), (⟨33, 1⟩, 0)].foldl
    (fun reg w => w.1.set reg w.2) reg

/-- `event_select_reg` of counter `j` on core `i`. -/
def eventSelectReg (inst : PerfInstance) (call : PerfCall) (s : CoreState) (i : Nat) (core : CoreInfo)
    (j : Nat) : BitVec 64 :=
  if !inst.hybrid || !core.isAtom then
    match call.request.extended.bind (·.gpCounterCfg) with
    | some regs => (⟨22, 1⟩ : Field).set (regs j) 1
    | none => setEvent (call.eventSelect i j) ((s.coreEventDesc j).eventNumber.setWidth 64)
        ((s.coreEventDesc j).umaskValue.setWidth 64)
  else
    match call.request.extended.bind (·.gpCounterHybridAtomCfg) with
    | some regs => (⟨22, 1⟩ : Field).set (regs j) 1
    | none => setEvent (call.eventSelect i j) ((s.hybridAtomEventDesc j).eventNumber.setWidth 64)
        ((s.hybridAtomEventDesc j).umaskValue.setWidth 64)

/-- `getOCREventNr(event, core)` (`cpucounters.h:1709-1771`), for events 0 and 1. -/
def getOCREventNr (inst : PerfInstance) (core : CoreInfo) (event : Nat) : BitVec 64 × BitVec 64 :=
  let eCoreOCREvent := (0xB7, BitVec.ofNat 64 (event + 1))
  let bigCore := fun glc => if event = 0 then (if glc then 0x2A else 0xB7, 1) else (if glc then 0x2B else 0xBB, 1)
  match inst.cpuFamilyModel with
  | .ADL | .RPL | .MTL | .LNL | .ARL | .PTL =>
      if inst.hybrid && core.isAtom then eCoreOCREvent else bigCore true
  | .SPR | .EMR | .GNR | .GNR_D => bigCore true
  | .ATOM | .ATOM_2 | .CENTERTON | .BAYTRAIL | .AVOTON | .CHERRYTRAIL | .APOLLO_LAKE | .GEMINI_LAKE | .DENVERTON
  | .SNOWRIDGE | .ELKHART_LAKE | .JASPER_LAKE | .SRF | .GRR => eCoreOCREvent
  | _ => bigCore false

/-- `pExtDesc`, which is not null for a parameter of another type either. -/
def PerfCall.pExtDesc (call : PerfCall) : Option ExtendedDescription :=
  match call.request.extended with
  | some desc => some desc
  | none => if call.request.hasParameter then some call.foreign else none

/-- `e.config1` -/
def config1 (inst : PerfInstance) (call : PerfCall) (core : CoreInfo) (reg : BitVec 64) : BitVec 64 :=
  match call.pExtDesc with
  | none => 0
  | some desc =>
      let event := registerFields reg
      let value := if event = getOCREventNr inst core 0 then desc.offcoreResponseMsrValue.1 else 0
      let value := if event = getOCREventNr inst core 1 then desc.offcoreResponseMsrValue.2 else value
      let value := if event = (0xCD, 0x01) then desc.loadLatencyMsrValue else value
      if event = (0xC6, 0x01) then desc.frontendMsrValue else value

/-- The event of general counter `j`. -/
def genericEvent (inst : PerfInstance) (call : PerfCall) (s : CoreState) (i : Nat) (core : CoreInfo) (j : Nat) :
    PerfEventAttr :=
  let reg := eventSelectReg inst call s i core j
  { type := 4, config := 1#64 <<< 63 + reg, config1 := config1 inst call core reg }

/-- The event number and the umask of a top-down event; `none` where there is an unknown token. -/
def topDownFields (eventDesc : Bytes) : Option (BitVec 64 × BitVec 64) :=
  (Raw.split eventDesc 44).foldlM
    (fun fields token =>
      match Raw.matchNumber token (ascii "event=") with
      | some eventSel => some (eventSel, fields.2)
      | none => (Raw.matchNumber token (ascii "umask=")).map fun umask => (fields.1, umask))
    (0, 0)

def topDownEvent (fields : BitVec 64 × BitVec 64) : PerfEventAttr :=
  { type := 4, config := (⟨8, 8⟩ : Field).set ((⟨0, 8⟩ : Field).set 0 fields.1) fields.2 }

/-- The positions of `topDownEvents`, in their order. -/
def PerfInstance.topDownEvents (inst : PerfInstance) : List Nat :=
  [11, 13, 14, 12, 15] ++ if inst.hwTMAL2Supported then [16, 17, 18, 19] else []

/-! ## What the worker of a core does -/

/-- A call of `perf_event_open`. `leader` is the position whose handle is the group leader, `task` the place in
`perfEventTaskHandle` (in `perfEventHandle` if there is none), and `readPos` what `perfTopDownPos` gets. -/
structure Opening where
  pos : Nat
  attr : PerfEventAttr
  leader : Option Nat := none
  tid : Int := -1
  task : Option Nat := none
  readPos : Option Nat := none
  deriving DecidableEq, Repr

/-- An action of the worker. -/
inductive Action
  | perfEventOpen (o : Opening)
  | unknownToken
  deriving DecidableEq, Repr

/-- `programPerfEvent` -/
def programPerfEvent (call : PerfCall) (o : Opening) : List Action :=
  if call.tids = [] then [.perfEventOpen o]
  else call.tids.zipIdx.map fun tid => .perfEventOpen { o with
    attr := { o.attr with inherit := true, excludeKernel := true, excludeHv := true, group := false }
    leader := none, tid := tid.1, task := some tid.2 }

/-- The events of the first group: the fixed counters and the general ones. -/
def counterEvents (inst : PerfInstance) (call : PerfCall) (s : CoreState) (i : Nat) (core : CoreInfo) :
    List Opening :=
  let ctrl_reg := initFixedCtrl call.request
  { pos := 0, attr := fixedEvent ctrl_reg 1 0 } ::
    { pos := 1, attr := fixedEvent ctrl_reg 0 1, leader := some 0 } ::
    { pos := 2, attr := fixedEvent ctrl_reg 9 2, leader := some 0 } ::
    (List.range s.coreGenCounterNumUsed).map fun j =>
      { pos := PERF_GEN_EVENT_0_POS + j, attr := genericEvent inst call s i core j, leader := some 0 }

/-- Whether the top-down events are programmed: a call for a process does without them. -/
def PerfInstance.usesTopDown (inst : PerfInstance) (call : PerfCall) : Bool :=
  inst.fixedCounter3Supported && inst.hwTMAL1Supported && inst.perfSupportsTopDown && call.tids = []

/-- The top-down events with their place in the data; `none` for one whose description has an unknown token. -/
def topDownOpenings (inst : PerfInstance) (s : CoreState) : List (Option Opening) :=
  inst.topDownEvents.zipIdx.map fun event =>
    (topDownFields (inst.eventSource event.1)).map fun fields =>
      { pos := event.1, attr := topDownEvent fields
        leader := if event.2 = 0 then none else some PERF_TOPDOWN_SLOTS_POS
        readPos := some (3 + s.coreGenCounterNumUsed + event.2) }

/-- All events of a core, in the order in which they are programmed. -/
def coreEvents (inst : PerfInstance) (call : PerfCall) (s : CoreState) (i : Nat) (core : CoreInfo) :
    List (Option Opening) :=
  (counterEvents inst call s i core).map some ++ if inst.usesTopDown call then topDownOpenings inst s else []

/-- What is done for an event. -/
def eventActions (call : PerfCall) : Option Opening → List Action
  | some o => programPerfEvent call o
  | none => [.unknownToken]

/-- The actions of `programCoreCounters` on core `i`. -/
def coreActions (inst : PerfInstance) (call : PerfCall) (s : CoreState) (i : Nat) (core : CoreInfo) :
    List Action :=
  (coreEvents inst call s i core).flatMap (eventActions call)

/-- The actions of the worker of a core; an offline one has none. -/
def plan (inst : PerfInstance) (call : PerfCall) (s : CoreState) (i : Nat) : List Action :=
  match inst.cores[i]? with
  | some info => if info.online then coreActions inst call s i info else []
  | none => []

/-- A worker, with what it has opened. -/
structure Worker where
  opened : List (Opening × Nat) := []
  todo : List Action := []
  failed : Bool := false

def Worker.finished (w : Worker) : Bool := w.failed || w.todo.isEmpty

/-- The handles of a table; −1 is `none`. -/
abbrev Handles := Nat → Nat → Option Nat

structure State where
  core : CoreState
  files : List (File PerfEventAttr) := []
  perfEventHandle : Handles := fun _ _ => none
  perfEventTaskHandle : List Handles := []
  perfTopDownPos : Nat → Nat := fun _ => 0
  /-- The last call that has come to the cores since the files were closed. -/
  call : Option PerfCall := none
  /-- Whether it is under way. -/
  running : Bool := false
  workers : Nat → Worker := fun _ => {}

namespace State

variable (inst : PerfInstance)

/-- The handle at a position of a core, in `perfEventHandle` or in one of the tables of `perfEventTaskHandle`. -/
def handle (s : State) (slot : Option Nat × Nat × Nat) : Option Nat :=
  match slot.1 with
  | none => s.perfEventHandle slot.2.1 slot.2.2
  | some k => s.perfEventTaskHandle[k]?.bind fun cont => cont slot.2.1 slot.2.2

/-- The places of all handles, in the order in which they are closed. -/
def slots (s : State) : List (Option Nat × Nat × Nat) :=
  (none :: (List.range s.perfEventTaskHandle.length).map some).product
    ((List.range inst.cores.length).product (List.range PERF_MAX_COUNTERS))

/-- All handles that are not −1. -/
def handles (s : State) : List Nat := (s.slots inst).filterMap s.handle

def closePerfHandles (s : State) : State :=
  if s.core.canUsePerf then
    { s with
      files := closeAll s.files (s.handles inst)
      perfEventHandle := fun _ _ => none
      perfEventTaskHandle := []
      call := none
      workers := fun _ => {} }
  else s

/-- The first part of `program`, up to the start of the workers. -/
def program (call : PerfCall) (s : State) : State :=
  if inst.noMsrAccess then { s with core := s.core.disableNMIWatchdog inst.toInstance } else
  let s := s.closePerfHandles inst
  let core := s.core.prepare inst.toInstance call.toCall
  if !core.canUsePerf && inst.noMSRMode then { s with core := core } else
  if !core.programmedCorePMU && !core.canUsePerf && call.pmuInUse then { s with core := core } else
  match (core.setMode call.request.mode).selectEvents inst.toInstance call.request with
  | none => { s with core := core.setMode call.request.mode }
  | some core =>
      if core.accepts inst.toInstance call.toCall then
        if core.canUsePerf then
          { s with
            core := core
            perfEventTaskHandle := List.replicate call.tids.length fun _ _ => none
            call := some call
            running := true
            workers := fun i => { todo := plan inst call core i } }
        else { s with core := (core.programCores inst.toInstance call.toCall).2 }
      else { s with core := core }

/-- The handle of an opening gets a value. -/
def setHandle (i : Nat) (o : Opening) (h : Option Nat) (s : State) : State :=
  let assign (cont : Handles) : Handles := Function.update cont i (Function.update (cont i) o.pos h)
  match o.task with
  | none => { s with perfEventHandle := assign s.perfEventHandle }
  | some k => { s with perfEventTaskHandle := s.perfEventTaskHandle.modify k assign }

/-- `perf_event_open` for the worker of core `i`, and the kernel's answer. A handle that is 0 is taken for an
error. -/
def perfEventOpen (i : Nat) (o : Opening) (rest : List Action) (answer : Option Nat) (s : State) : State :=
  let leader := o.leader.bind (s.perfEventHandle i)
  let worker := s.workers i
  let s := s.setHandle i o answer
  match answer with
  | none => { s with workers := Function.update s.workers i { worker with todo := rest, failed := true } }
  | some fd =>
      let s : State := { s with
        files := s.files ++ [⟨fd, o.attr, o.tid, i, leader⟩]
        workers := Function.update s.workers i
          { opened := worker.opened ++ [(o, fd)], todo := rest, failed := fd = 0 } }
      if fd = 0 then s
      else { s with perfTopDownPos :=
        match o.readPos with
        | some readPos => Function.update s.perfTopDownPos o.pos readPos
        | none => s.perfTopDownPos }

/-- The end of the cores' part: what the workers have met decides its result. -/
def finish (call : PerfCall) (s : State) : ErrorCode × State :=
  let result := s.core.programCores inst.toInstance
    { call.toCall with perfOpens := fun i => !(s.workers i).failed }
  (result.1, { s with core := result.2, running := false })

/-- `cleanupPMU`, without its writes of registers. -/
def cleanupPMU (s : State) : State :=
  { s.closePerfHandles inst with core := { s.core with programmedCorePMU := false } }

/-! ## Reading -/

/-- `data` with `values` from `pos` on. -/
def overwrite (data : List (BitVec 64)) (pos : Nat) (values : List (BitVec 64)) : List (BitVec 64) :=
  data.take pos ++ values ++ data.drop (pos + values.length)

/-- `readPerfDataHelper` -/
def readPerfDataHelper (kernel : Kernel) (s : State) (core leader num_counters : Nat)
    (outData : List (BitVec 64)) : List (BitVec 64) :=
  match s.perfEventHandle core leader with
  | none => List.replicate outData.length 0
  | some fd =>
      match kernel.read fd (1 + num_counters) with
      | none => outData
      | some data =>
          if data.length ≠ 1 + num_counters then outData
          else if data.headD 0 ≠ BitVec.ofNat 64 num_counters then outData
          else overwrite outData 0 data.tail

/-- `readPerfData`, with the vector of zeros that `readAndAggregate` gives it. -/
def readPerfData (kernel : Kernel) (s : State) (core : Nat) : List (BitVec 64) :=
  let outData : List (BitVec 64) := List.replicate PERF_MAX_COUNTERS 0
  if s.perfEventTaskHandle ≠ [] then
    s.perfEventTaskHandle.foldl
      (fun outData handleArray => outData.zipIdx.map fun entry =>
        match (handleArray core entry.2).bind (kernel.read · 1) with
        | some [result] => entry.1 + result
        | _ => entry.1)
      outData
  else
    let used := 3 + s.core.coreGenCounterNumUsed
    let outData := readPerfDataHelper kernel s core 0 used outData
    if inst.hwTMAL1Supported && inst.perfSupportsTopDown then
      let topdownCtrNum := inst.topDownEvents.length
      let outTopDownData := readPerfDataHelper kernel s core PERF_TOPDOWN_SLOTS_POS topdownCtrNum
        (List.replicate outData.length 0)
      overwrite outData used (outTopDownData.take topdownCtrNum)
    else outData

end State

/-! ## Runs -/

/-- A step: a call begins, the worker of a core opens a file or meets an unknown token, all workers are done, or the
PMU is cleaned up. A new file has a number that no open file has. -/
inductive Step (inst : PerfInstance) : State → State → Prop
  | program {s call} : s.running = false → Step inst s (s.program inst call)
  | open {s i o rest answer} : s.running = true → (s.workers i).failed = false →
      (s.workers i).todo = .perfEventOpen o :: rest → (∀ fd ∈ answer, fd ∉ fds s.files) →
      Step inst s (s.perfEventOpen i o rest answer)
  | token {s i rest} : s.running = true → (s.workers i).failed = false →
      (s.workers i).todo = .unknownToken :: rest →
      Step inst s { s with workers := Function.update s.workers i { s.workers i with failed := true } }
  | finish {s call} : s.running = true → s.call = some call →
      (∀ i < inst.cores.length, (s.workers i).finished) → Step inst s (s.finish inst call).2
  | cleanup {s} : s.running = false → Step inst s (s.cleanupPMU inst)

/-- Before the first call. -/
def start (core : CoreState) : State := { core := core }

end Pcm.Perf

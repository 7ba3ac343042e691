import Mathlib.Algebra.Order.Field.Rat
import Mathlib.Algebra.Order.BigOperators.Group.List
import Mathlib.Data.BitVec
import Mathlib.Data.Rat.Defs
import Mathlib.Tactic.Positivity
import Pcm.Daemon
import Pcm.Lib.Accumulate
import Pcm.Lib.Compaction

/-!
# The tables of the daemon

`getPCMCore`, `getPCMMemory` and `getPCMQPI` (`daemon/daemon.cpp:485-750`) fill tables with one entry
for each online core or socket. Each loop runs over all sockets and counts the online ones. The
total of a QPI entry is stored at the number of the socket and everything else at the count, and two
fields of the memory system record are summed up and never stored. The values that the counter
functions return are given; `ℚ` stands for `float` and `double`.
-/

namespace Pcm.Daemon.Tables

open Compaction

/-- What the daemon asks `pcmInstance_` about the machine, with `isCoreOnline` for every core. -/
structure Instance extends Config where
  numCores : Nat
  isCoreOnline : Nat → Bool
  onlineCores_eq : onlineCores = (List.range numCores).filter isCoreOnline

/-- What the counter functions return for one core. -/
structure CoreReadings where
  socketId : Int := 0
  instructionsPerCycle : ℚ := 0
  cycles : BitVec 64 := 0
  instructionsRetired : BitVec 64 := 0
  execUsage : ℚ := 0
  relativeFrequency : ℚ := 0
  activeRelativeFrequency : ℚ := 0
  /-- `getNumberOfCustomEvents`. -/
  customEvents : Nat → BitVec 64 := fun _ => 0
  l2CacheMisses : BitVec 64 := 0
  l3CacheHitRatio : ℚ := 0
  l2CacheHitRatio : ℚ := 0
  thermalHeadroom : Int := 0
  l3CacheOccupancy : BitVec 64 := 0
  localMemoryBW : BitVec 64 := 0
  remoteMemoryBW : BitVec 64 := 0

/-- What the counter functions return for one socket. -/
structure SocketReadings where
  consumedJoules : ℚ := 0
  bytesReadFromPMM : BitVec 64 := 0
  bytesWrittenToPMM : BitVec 64 := 0
  /-- `getMCCounter` with `MEMORY_READ` and with `MEMORY_WRITE`. -/
  memoryRead : Nat → BitVec 64 := fun _ => 0
  memoryWrite : Nat → BitVec 64 := fun _ => 0
  dramConsumedJoules : ℚ := 0

/-- What the counter functions return in one iteration. -/
structure Measured where
  elapsedTime : BitVec 64 := 0
  core : Nat → CoreReadings := fun _ => {}
  socket : Nat → SocketReadings := fun _ => {}
  linkBytes : Direction → Nat → Nat → BitVec 64 := fun _ _ _ => 0
  linkUtilization : Direction → Nat → Nat → ℚ := fun _ _ _ => 0

/-! ## The shared tables (`daemon/common.h:52-218`) -/

structure CoreCounter where
  coreId : Nat := 0
  socketId : Int := 0
  instructionsPerCycle : ℚ := 0
  cycles : BitVec 64 := 0
  instructionsRetired : BitVec 64 := 0
  execUsage : ℚ := 0
  relativeFrequency : ℚ := 0
  activeRelativeFrequency : ℚ := 0
  l3CacheMisses : BitVec 64 := 0
  l3CacheReference : BitVec 64 := 0
  l2CacheMisses : BitVec 64 := 0
  l3CacheHitRatio : ℚ := 0
  l2CacheHitRatio : ℚ := 0
  l3CacheMPI : ℚ := 0
  l2CacheMPI : ℚ := 0
  l3CacheOccupancyAvailable : Bool := false
  l3CacheOccupancy : BitVec 64 := 0
  localMemoryBWAvailable : Bool := false
  localMemoryBW : BitVec 64 := 0
  remoteMemoryBWAvailable : Bool := false
  remoteMemoryBW : BitVec 64 := 0
  localMemoryAccesses : BitVec 64 := 0
  remoteMemoryAccesses : BitVec 64 := 0
  thermalHeadroom : Int := 0

structure CoreTable where
  cores : Nat → CoreCounter := fun _ => {}
  packageEnergyMetricsAvailable : Bool := false
  energyUsedBySockets : Nat → ℚ := fun _ => -1

structure ChannelCounter where
  read : ℚ := -1
  write : ℚ := -1
  total : ℚ := -1
  deriving DecidableEq

structure MemorySocketCounter where
  socketId : Nat := 0
  channels : Nat → ChannelCounter := fun _ => {}
  numOfChannels : Nat := 0
  read : ℚ := -1
  write : ℚ := -1
  pmmRead : ℚ := -1
  pmmWrite : ℚ := -1
  total : ℚ := -1
  memoryModeHitRate : ℚ := -1
  dramEnergy : ℚ := 0

structure MemorySystemCounter where
  read : ℚ := -1
  write : ℚ := -1
  pmmRead : ℚ := -1
  pmmWrite : ℚ := -1
  total : ℚ := -1

structure MemoryTable where
  sockets : Nat → MemorySocketCounter := fun _ => {}
  system : MemorySystemCounter := {}
  dramEnergyMetricsAvailable : Bool := false
  pmmMetricsAvailable : Bool := false

structure LinkCounter where
  bytes : BitVec 64 := 0
  utilization : ℚ := -1
  deriving DecidableEq

structure QPISocketCounter where
  socketId : Nat := 0
  links : Nat → LinkCounter := fun _ => {}
  total : BitVec 64 := 0

/-- The members `incoming…` or `outgoing…` of `PCMQPI`. -/
structure QPITable where
  sockets : Nat → QPISocketCounter := fun _ => {}
  total : BitVec 64 := 0
  trafficMetricsAvailable : Bool := false

structure Counters where
  core : CoreTable := {}
  memory : MemoryTable := {}
  qpi : Direction → QPITable := fun _ => {}

/-! ## Filling them -/

variable (p : Instance) (m : Measured)

/-- The body of the core loop (`daemon.cpp:497-554`). -/
def storeCore (coreI : Nat) (counters : CoreCounter) : CoreCounter :=
  let readings := m.core coreI
  { coreId := coreI
    socketId := readings.socketId
    instructionsPerCycle := readings.instructionsPerCycle
    cycles := readings.cycles
    instructionsRetired := readings.instructionsRetired
    execUsage := readings.execUsage
    relativeFrequency := readings.relativeFrequency
    activeRelativeFrequency := readings.activeRelativeFrequency
    l3CacheMisses := readings.customEvents 2
    l3CacheReference := readings.customEvents 3
    l2CacheMisses := readings.l2CacheMisses
    l3CacheHitRatio := readings.l3CacheHitRatio
    l2CacheHitRatio := readings.l2CacheHitRatio
    l3CacheMPI := (readings.customEvents 2).toNat / (readings.instructionsRetired.toNat : ℚ)
    l2CacheMPI := readings.l2CacheMisses.toNat / (readings.instructionsRetired.toNat : ℚ)
    thermalHeadroom := readings.thermalHeadroom
    l3CacheOccupancyAvailable := p.l3CacheOccupancyMetricAvailable
    l3CacheOccupancy := if p.l3CacheOccupancyMetricAvailable then readings.l3CacheOccupancy
      else counters.l3CacheOccupancy
    localMemoryBWAvailable := p.coreLocalMemoryBWMetricAvailable
    localMemoryBW := if p.coreLocalMemoryBWMetricAvailable then readings.localMemoryBW
      else counters.localMemoryBW
    remoteMemoryBWAvailable := p.coreRemoteMemoryBWMetricAvailable
    remoteMemoryBW := if p.coreRemoteMemoryBWMetricAvailable then readings.remoteMemoryBW
      else counters.remoteMemoryBW
    localMemoryAccesses := readings.customEvents 0
    remoteMemoryAccesses := readings.customEvents 1 }

/-- `getPCMCore` (`daemon.cpp:485-569`). -/
def getPCMCore (core : CoreTable) : CoreTable where
  cores := (walk p.isCoreOnline (fun onlineCoresI coreI cores =>
    Function.update cores onlineCoresI (storeCore p m coreI (cores onlineCoresI))) p.numCores
    core.cores).1
  packageEnergyMetricsAvailable := p.packageEnergyMetricsAvailable
  energyUsedBySockets := fun i =>
    if p.packageEnergyMetricsAvailable ∧ i < p.numSockets then (m.socket i).consumedJoules
    else core.energyUsedBySockets i

def memoryMaxIMCChannels : Nat := 12

/-- The bandwidth in MByte/s, for an elapsed time in ms (`daemon.cpp:602-605`). -/
def toBW (bytes : BitVec 64) : ℚ :=
  bytes.toNat / 1000000 / (m.elapsedTime.toNat / 1000)

/-- Whether both counters of a channel are 0 (`daemon.cpp:616-618`). -/
def notAvailable (skt channel : Nat) : Bool :=
  (m.socket skt).memoryRead channel = 0 && (m.socket skt).memoryWrite channel = 0

/-- `iMC_Rd_socket_chan` and `iMC_Wr_socket_chan`; -1 marks a channel that is not there. -/
def channelRead (skt channel : Nat) : ℚ :=
  if notAvailable m skt channel then -1 else toBW m ((m.socket skt).memoryRead channel * 64)

def channelWrite (skt channel : Nat) : ℚ :=
  if notAvailable m skt channel then -1 else toBW m ((m.socket skt).memoryWrite channel * 64)

/-- `iMC_Rd_socket` and `iMC_Wr_socket`, summed up channel by channel. -/
def socketSum (chan : Nat → ℚ) (skt : Nat) : ℚ :=
  (List.range memoryMaxIMCChannels).foldl
    (fun total channel => if notAvailable m skt channel then total else total + chan channel) 0

def socketRead (skt : Nat) : ℚ := socketSum m (channelRead m skt) skt

def socketWrite (skt : Nat) : ℚ := socketSum m (channelWrite m skt) skt

/-- `iMC_PMM_Rd_socket` and `iMC_PMM_Wr_socket`. -/
def socketPMMRead (skt : Nat) : ℚ :=
  if p.pmmTrafficMetricsAvailable then toBW m (m.socket skt).bytesReadFromPMM else 0

def socketPMMWrite (skt : Nat) : ℚ :=
  if p.pmmTrafficMetricsAvailable then toBW m (m.socket skt).bytesWrittenToPMM else 0

/-- Whether the second loop over the channels stores this one (`daemon.cpp:646-648`). -/
def working (skt channel : Nat) : Bool :=
  !(channelRead m skt channel < 0 && channelWrite m skt channel < 0)

/-- The channels of a socket, compacted (`daemon.cpp:642-658`). -/
def storeChannels (skt : Nat) (channels : Nat → ChannelCounter) : (Nat → ChannelCounter) × Nat :=
  walk (working m skt) (fun currentChannelI channel channels =>
    Function.update channels currentChannelI
      { read := channelRead m skt channel
        write := channelWrite m skt channel
        total := channelRead m skt channel + channelWrite m skt channel }) memoryMaxIMCChannels channels

/-- The entry of one socket (`daemon.cpp:642-673`). -/
def storeSocket (skt : Nat) (counters : MemorySocketCounter) : MemorySocketCounter :=
  let all := socketRead m skt + socketWrite m skt + socketPMMRead p m skt + socketPMMWrite p m skt
  { socketId := skt
    channels := (storeChannels m skt counters.channels).1
    numOfChannels := (storeChannels m skt counters.channels).2
    read := socketRead m skt
    write := socketWrite m skt
    pmmRead := socketPMMRead p m skt
    pmmWrite := socketPMMWrite p m skt
    total := all
    memoryModeHitRate := if all = 0 then -1 else (socketRead m skt + socketWrite m skt) / all
    dramEnergy := if p.dramEnergyMetricsAvailable then (m.socket skt).dramConsumedJoules
      else counters.dramEnergy }

/-- The table and the four sums of the loop over the sockets. -/
structure Sums where
  sockets : Nat → MemorySocketCounter
  systemRead : ℚ := 0
  systemWrite : ℚ := 0
  systemPMMRead : ℚ := 0
  systemPMMWrite : ℚ := 0

def sumSocket (onlineSocketsI skt : Nat) (s : Sums) : Sums where
  sockets := Function.update s.sockets onlineSocketsI
    (storeSocket p m skt (s.sockets onlineSocketsI))
  systemRead := s.systemRead + socketRead m skt
  systemWrite := s.systemWrite + socketWrite m skt
  systemPMMRead := s.systemPMMRead + socketPMMRead p m skt
  systemPMMWrite := s.systemPMMWrite + socketPMMWrite p m skt

def sumSockets (memory : MemoryTable) : Sums :=
  (walk p.isSocketOnline (sumSocket p m) p.numSockets { sockets := memory.sockets }).1

/-- `getPCMMemory` (`daemon.cpp:571-686`). The sums of the persistent memory are not stored. -/
def getPCMMemory (memory : MemoryTable) : MemoryTable :=
  let s := sumSockets p m memory
  { sockets := s.sockets
    system := { memory.system with
      read := s.systemRead
      write := s.systemWrite
      total := s.systemRead + s.systemWrite }
    dramEnergyMetricsAvailable := p.dramEnergyMetricsAvailable
    pmmMetricsAvailable := p.pmmTrafficMetricsAvailable }

/-- The sum of the bytes of all links of a socket. -/
def linkTotal (d : Direction) (i : Nat) : BitVec 64 :=
  ((List.range p.qpiLinksPerSocket).map (m.linkBytes d i)).sum

/-- One link of a socket, and the running total (`daemon.cpp:709-713`). -/
def storeLink (d : Direction) (i : Nat) (s : (Nat → LinkCounter) × BitVec 64) (l : Nat) :
    (Nat → LinkCounter) × BitVec 64 :=
  (Function.update s.1 l ⟨m.linkBytes d i l, m.linkUtilization d i l⟩, s.2 + m.linkBytes d i l)

def storeLinks (d : Direction) (i : Nat) (links : Nat → LinkCounter) :
    (Nat → LinkCounter) × BitVec 64 :=
  (List.range p.qpiLinksPerSocket).foldl (storeLink m d i) (links, 0)

/-- One online socket (`daemon.cpp:704-717`): the identifier and the links go to the entry of the
count, the total goes to that of the socket. -/
def storeQPISocket (d : Direction) (onlineSocketsI i : Nat) (sockets : Nat → QPISocketCounter) :
    Nat → QPISocketCounter :=
  let entry := sockets onlineSocketsI
  let (links, total) := storeLinks p m d i entry.links
  let sockets := Function.update sockets onlineSocketsI { entry with socketId := i, links := links }
  Function.update sockets i { sockets i with total := total }

/-- One direction of `getPCMQPI` (`daemon.cpp:688-750`). -/
def getPCMQPIDirection (d : Direction) (table : QPITable) : QPITable :=
  if p.qpiTrafficMetricsAvailable d then
    { sockets := (walk p.isSocketOnline (storeQPISocket p m d) p.numSockets table.sockets).1
      total := ((List.range p.numSockets).map (linkTotal p m d)).sum
      trafficMetricsAvailable := true }
  else { table with trafficMetricsAvailable := false }

/-- The tables in one `getPCMCounters` (`daemon.cpp:407-435`). -/
def getPCMCounters (t : Counters) (m : Measured) : Counters where
  core := if p.core then getPCMCore p m t.core else t.core
  memory := if p.memory then getPCMMemory p m t.memory else t.memory
  qpi := fun d => if p.qpi then getPCMQPIDirection p m d (t.qpi d) else t.qpi d

/-- The shared tables after some iterations. -/
def published (history : List Measured) : Counters := history.foldl (getPCMCounters p) {}

/-! ## What the entries should say -/

/-- The channels of a socket with traffic. -/
def presentChannels (skt : Nat) : List Nat :=
  (List.range memoryMaxIMCChannels).filter fun channel =>
    (m.socket skt).memoryRead channel ≠ 0 ∨ (m.socket skt).memoryWrite channel ≠ 0

def readBW (skt channel : Nat) : ℚ := toBW m ((m.socket skt).memoryRead channel * 64)

def writeBW (skt channel : Nat) : ℚ := toBW m ((m.socket skt).memoryWrite channel * 64)

structure DescribesCore (core : Nat) (entry : CoreCounter) : Prop where
  coreId : entry.coreId = core
  socketId : entry.socketId = (m.core core).socketId
  instructionsPerCycle : entry.instructionsPerCycle = (m.core core).instructionsPerCycle
  cycles : entry.cycles = (m.core core).cycles
  instructionsRetired : entry.instructionsRetired = (m.core core).instructionsRetired
  execUsage : entry.execUsage = (m.core core).execUsage
  relativeFrequency : entry.relativeFrequency = (m.core core).relativeFrequency
  activeRelativeFrequency : entry.activeRelativeFrequency = (m.core core).activeRelativeFrequency
  l3CacheMisses : entry.l3CacheMisses = (m.core core).customEvents 2
  l3CacheReference : entry.l3CacheReference = (m.core core).customEvents 3
  l2CacheMisses : entry.l2CacheMisses = (m.core core).l2CacheMisses
  l3CacheHitRatio : entry.l3CacheHitRatio = (m.core core).l3CacheHitRatio
  l2CacheHitRatio : entry.l2CacheHitRatio = (m.core core).l2CacheHitRatio
  l3CacheMPI : entry.l3CacheMPI = entry.l3CacheMisses.toNat / (entry.instructionsRetired.toNat : ℚ)
  l2CacheMPI : entry.l2CacheMPI = entry.l2CacheMisses.toNat / (entry.instructionsRetired.toNat : ℚ)
  thermalHeadroom : entry.thermalHeadroom = (m.core core).thermalHeadroom
  l3CacheOccupancyAvailable : entry.l3CacheOccupancyAvailable = p.l3CacheOccupancyMetricAvailable
  l3CacheOccupancy : entry.l3CacheOccupancyAvailable = true →
    entry.l3CacheOccupancy = (m.core core).l3CacheOccupancy
  localMemoryBWAvailable : entry.localMemoryBWAvailable = p.coreLocalMemoryBWMetricAvailable
  localMemoryBW : entry.localMemoryBWAvailable = true →
    entry.localMemoryBW = (m.core core).localMemoryBW
  remoteMemoryBWAvailable : entry.remoteMemoryBWAvailable = p.coreRemoteMemoryBWMetricAvailable
  remoteMemoryBW : entry.remoteMemoryBWAvailable = true →
    entry.remoteMemoryBW = (m.core core).remoteMemoryBW
  localMemoryAccesses : entry.localMemoryAccesses = (m.core core).customEvents 0
  remoteMemoryAccesses : entry.remoteMemoryAccesses = (m.core core).customEvents 1

structure DescribesSocket (skt : Nat) (entry : MemorySocketCounter) : Prop where
  socketId : entry.socketId = skt
  numOfChannels : entry.numOfChannels = (presentChannels m skt).length
  channels : ∀ c (h : c < (presentChannels m skt).length), entry.channels c =
    ⟨readBW m skt (presentChannels m skt)[c], writeBW m skt (presentChannels m skt)[c],
      readBW m skt (presentChannels m skt)[c] + writeBW m skt (presentChannels m skt)[c]⟩
  read : entry.read = ((presentChannels m skt).map (readBW m skt)).sum
  write : entry.write = ((presentChannels m skt).map (writeBW m skt)).sum
  pmmRead : entry.pmmRead =
    if p.pmmTrafficMetricsAvailable then toBW m (m.socket skt).bytesReadFromPMM else 0
  pmmWrite : entry.pmmWrite =
    if p.pmmTrafficMetricsAvailable then toBW m (m.socket skt).bytesWrittenToPMM else 0
  total : entry.total = entry.read + entry.write + entry.pmmRead + entry.pmmWrite
  memoryModeHitRate : entry.memoryModeHitRate =
    if entry.total = 0 then -1 else (entry.read + entry.write) / entry.total
  dramEnergy : p.dramEnergyMetricsAvailable = true →
    entry.dramEnergy = (m.socket skt).dramConsumedJoules

structure DescribesLinks (d : Direction) (i : Nat) (entry : QPISocketCounter) : Prop where
  socketId : entry.socketId = i
  links : ∀ l < p.qpiLinksPerSocket,
    entry.links l = ⟨m.linkBytes d i l, m.linkUtilization d i l⟩
  total : entry.total =
    ((List.range p.qpiLinksPerSocket).map fun l => (entry.links l).bytes).sum

/-- The fields that a memory entry and the system record share. -/
inductive MemoryField
  | read | write | pmmRead | pmmWrite | total
  deriving DecidableEq

def MemoryField.ofSocket (c : MemorySocketCounter) : MemoryField → ℚ
  | read => c.read
  | write => c.write
  | pmmRead => c.pmmRead
  | pmmWrite => c.pmmWrite
  | total => c.total

def MemoryField.ofSystem (c : MemorySystemCounter) : MemoryField → ℚ
  | read => c.read
  | write => c.write
  | pmmRead => c.pmmRead
  | pmmWrite => c.pmmWrite
  | total => c.total

/-- The tables of all subscribers, as they should be after an iteration. -/
structure Consistent (t : Counters) : Prop where
  core : p.core = true → ∀ k (h : k < p.onlineCores.length),
    DescribesCore p m p.onlineCores[k] (t.core.cores k)
  sockets : p.memory = true → ∀ k (h : k < p.onlineSockets.length),
    DescribesSocket p m p.onlineSockets[k] (t.memory.sockets k)
  system : p.memory = true → ∀ field : MemoryField, field.ofSystem t.memory.system =
    ((List.range p.onlineSockets.length).map fun k => field.ofSocket (t.memory.sockets k)).sum
  qpi : p.qpi = true → ∀ d, p.qpiTrafficMetricsAvailable d = true →
    ∀ k (h : k < p.onlineSockets.length),
      DescribesLinks p m d p.onlineSockets[k] ((t.qpi d).sockets k)

/-! ## Cores -/

theorem describes_storeCore (core : Nat) (counters : CoreCounter) :
    DescribesCore p m core (storeCore p m core counters) := by
  constructor <;> simp +contextual [storeCore]

theorem cores_getPCMCore (table : CoreTable) (k : Nat) (h : k < p.onlineCores.length) :
    DescribesCore p m p.onlineCores[k] ((getPCMCore p m table).cores k) := by
  have online : p.onlineCores = kept p.isCoreOnline p.numCores := p.onlineCores_eq
  have inside : k < (kept p.isCoreOnline p.numCores).length := online ▸ h
  have entry : (getPCMCore p m table).cores k =
      storeCore p m (kept p.isCoreOnline p.numCores)[k] (table.cores k) :=
    @walk_compacted _ _ p.isCoreOnline _ (fun s => s) (storeCore p m) (fun _ _ _ => rfl) p.numCores
      table.cores k inside
  rw [entry, List.getElem_of_eq online]
  exact describes_storeCore p m _ _

/-! ## Memory -/

theorem toBW_nonneg (bytes : BitVec 64) : 0 ≤ toBW m bytes := by
  unfold toBW
  positivity

/-- The marker is not a bandwidth, so that the second loop skips what the first has marked. -/
theorem working_eq (skt channel : Nat) : working m skt channel = !notAvailable m skt channel := by
  unfold working channelRead channelWrite
  cases marked : notAvailable m skt channel with
  | true => simp
  | false =>
      have read : ¬ toBW m ((m.socket skt).memoryRead channel * 64) < 0 :=
        not_lt.mpr (toBW_nonneg m _)
      rw [if_neg Bool.false_ne_true, decide_eq_false read]
      rfl

theorem kept_working (skt : Nat) :
    kept (working m skt) memoryMaxIMCChannels = presentChannels m skt := by
  apply List.filter_congr
  intro channel _
  rw [working_eq, Bool.eq_iff_iff]
  simp [notAvailable]

theorem not_notAvailable_of_mem {skt channel : Nat} (mem : channel ∈ presentChannels m skt) :
    ¬ notAvailable m skt channel = true := by
  rw [← kept_working, mem_kept, working_eq] at mem
  simpa using mem.2

theorem channelRead_of_mem {skt channel : Nat} (mem : channel ∈ presentChannels m skt) :
    channelRead m skt channel = readBW m skt channel :=
  if_neg (not_notAvailable_of_mem m mem)

theorem channelWrite_of_mem {skt channel : Nat} (mem : channel ∈ presentChannels m skt) :
    channelWrite m skt channel = writeBW m skt channel :=
  if_neg (not_notAvailable_of_mem m mem)

/-- A running sum whose passes may `continue`. -/
theorem foldl_skip (skip : Nat → Bool) (f : Nat → ℚ) (l : List Nat) (total : ℚ) :
    l.foldl (fun total i => if skip i then total else total + f i) total =
      total + ((l.filter fun i => !skip i).map f).sum := by
  induction l generalizing total with
  | nil => simp
  | cons i l ih =>
      rw [List.foldl_cons, ih]
      cases skipped : skip i with
      | true => simp [skipped]
      | false => simp [skipped, add_assoc]

theorem socketSum_eq (chan : Nat → ℚ) (skt : Nat) :
    socketSum m chan skt = ((presentChannels m skt).map chan).sum := by
  unfold socketSum
  rw [foldl_skip, zero_add, ← kept_working, kept, funext (working_eq m skt)]

theorem socketRead_eq (skt : Nat) :
    socketRead m skt = ((presentChannels m skt).map (readBW m skt)).sum := by
  unfold socketRead
  rw [socketSum_eq]
  congr 1
  exact List.map_congr_left fun channel mem => channelRead_of_mem m mem

theorem socketWrite_eq (skt : Nat) :
    socketWrite m skt = ((presentChannels m skt).map (writeBW m skt)).sum := by
  unfold socketWrite
  rw [socketSum_eq]
  congr 1
  exact List.map_congr_left fun channel mem => channelWrite_of_mem m mem

theorem length_storeChannels (skt : Nat) (channels : Nat → ChannelCounter) :
    (storeChannels m skt channels).2 = (presentChannels m skt).length := by
  unfold storeChannels
  rw [walk_snd, kept_working]

theorem getElem_storeChannels (skt : Nat) (channels : Nat → ChannelCounter) {c : Nat}
    (h : c < (presentChannels m skt).length) : (storeChannels m skt channels).1 c =
      ⟨readBW m skt (presentChannels m skt)[c], writeBW m skt (presentChannels m skt)[c],
        readBW m skt (presentChannels m skt)[c] + writeBW m skt (presentChannels m skt)[c]⟩ := by
  have entry := @walk_compacted _ _ (working m skt) _ (fun s => s)
    (fun channel _ => { read := channelRead m skt channel
                        write := channelWrite m skt channel
                        total := channelRead m skt channel + channelWrite m skt channel })
    (fun _ _ _ => rfl) memoryMaxIMCChannels channels c (by rwa [kept_working])
  have mem := List.getElem_mem h
  rw [List.getElem_of_eq (kept_working m skt)] at entry
  rw [← channelRead_of_mem m mem, ← channelWrite_of_mem m mem]
  exact entry

theorem describes_storeSocket (skt : Nat) (counters : MemorySocketCounter) :
    DescribesSocket p m skt (storeSocket p m skt counters) where
  socketId := rfl
  numOfChannels := length_storeChannels m skt _
  channels := fun _ h => getElem_storeChannels m skt _ h
  read := socketRead_eq m skt
  write := socketWrite_eq m skt
  pmmRead := rfl
  pmmWrite := rfl
  total := rfl
  memoryModeHitRate := rfl
  dramEnergy := fun available => if_pos available

theorem sockets_getPCMMemory (table : MemoryTable) (k : Nat) (h : k < p.onlineSockets.length) :
    (getPCMMemory p m table).sockets k = storeSocket p m p.onlineSockets[k] (table.sockets k) :=
  @walk_compacted _ _ p.isSocketOnline (sumSocket p m) Sums.sockets (storeSocket p m)
    (fun _ _ _ => rfl) p.numSockets { sockets := table.sockets } k h

/-- A sum over the entries is a sum over the online sockets. -/
theorem sum_sockets (table : MemoryTable) (field : MemorySocketCounter → ℚ) (value : Nat → ℚ)
    (stores : ∀ skt counters, field (storeSocket p m skt counters) = value skt) :
    ((List.range p.onlineSockets.length).map fun k =>
      field ((getPCMMemory p m table).sockets k)).sum = (p.onlineSockets.map value).sum := by
  congr 1
  apply List.ext_getElem (by simp)
  intro k _ inside
  have below : k < p.onlineSockets.length := by simpa using inside
  simp only [List.getElem_map, List.getElem_range, sockets_getPCMMemory p m table k below, stores]

theorem system_read (table : MemoryTable) : (getPCMMemory p m table).system.read =
    (p.onlineSockets.map (socketRead m)).sum := by
  have sum := @walk_sum _ _ p.isSocketOnline (sumSocket p m) _ Sums.systemRead (socketRead m)
    (fun _ _ _ => rfl) p.numSockets { sockets := table.sockets }
  exact sum.trans (zero_add _)

theorem system_write (table : MemoryTable) : (getPCMMemory p m table).system.write =
    (p.onlineSockets.map (socketWrite m)).sum := by
  have sum := @walk_sum _ _ p.isSocketOnline (sumSocket p m) _ Sums.systemWrite (socketWrite m)
    (fun _ _ _ => rfl) p.numSockets { sockets := table.sockets }
  exact sum.trans (zero_add _)

/-- The stored sums are right. The other two fields must be so before, and the total has no
persistent memory. -/
theorem system_iff (table : MemoryTable) :
    (∀ field : MemoryField, field.ofSystem (getPCMMemory p m table).system =
      ((List.range p.onlineSockets.length).map fun k =>
        field.ofSocket ((getPCMMemory p m table).sockets k)).sum) ↔
    table.system.pmmRead = (p.onlineSockets.map (socketPMMRead p m)).sum ∧
      table.system.pmmWrite = (p.onlineSockets.map (socketPMMWrite p m)).sum ∧
      (p.onlineSockets.map (socketPMMRead p m)).sum +
        (p.onlineSockets.map (socketPMMWrite p m)).sum = 0 := by
  have read := sum_sockets p m table (fun c => MemoryField.read.ofSocket c) (socketRead m)
    fun _ _ => rfl
  have write := sum_sockets p m table (fun c => MemoryField.write.ofSocket c) (socketWrite m)
    fun _ _ => rfl
  have pmmRead := sum_sockets p m table (fun c => MemoryField.pmmRead.ofSocket c)
    (socketPMMRead p m) fun _ _ => rfl
  have pmmWrite := sum_sockets p m table (fun c => MemoryField.pmmWrite.ofSocket c)
    (socketPMMWrite p m) fun _ _ => rfl
  have total := sum_sockets p m table (fun c => MemoryField.total.ofSocket c)
    (fun skt => socketRead m skt + socketWrite m skt + socketPMMRead p m skt + socketPMMWrite p m skt)
    fun _ _ => rfl
  simp only [List.sum_map_add] at total
  have stored : (getPCMMemory p m table).system.total =
      (p.onlineSockets.map (socketRead m)).sum + (p.onlineSockets.map (socketWrite m)).sum := by
    rw [← system_read p m table, ← system_write p m table]
    rfl
  constructor
  · intro sums
    refine ⟨(sums .pmmRead).trans pmmRead, (sums .pmmWrite).trans pmmWrite, ?_⟩
    have all : (getPCMMemory p m table).system.total = _ := (sums .total).trans total
    rw [stored, add_assoc, left_eq_add] at all
    exact all
  · rintro ⟨pmmReads, pmmWrites, nothing⟩ field
    cases field with
    | read => exact (system_read p m table).trans read.symm
    | write => exact (system_write p m table).trans write.symm
    | pmmRead => exact pmmReads.trans pmmRead.symm
    | pmmWrite => exact pmmWrites.trans pmmWrite.symm
    | total =>
        rw [add_assoc, nothing, add_zero] at total
        exact stored.trans total.symm

theorem socketPMMRead_nonneg (skt : Nat) : 0 ≤ socketPMMRead p m skt := by
  unfold socketPMMRead
  cases p.pmmTrafficMetricsAvailable with
  | true => exact toBW_nonneg m _
  | false => exact le_refl 0

/-! ## Links -/

theorem storeLinks_total (d : Direction) (i : Nat) (links : Nat → LinkCounter) :
    (storeLinks p m d i links).2 = linkTotal p m d i := by
  have sum := Accumulate.observe_foldl Prod.snd (storeLink m d i) (m.linkBytes d i)
    (List.range p.qpiLinksPerSocket) (fun _ _ _ => rfl) (links, 0)
  exact sum.trans (zero_add _)

theorem foldl_storeLink (d : Direction) (i : Nat) (s : (Nat → LinkCounter) × BitVec 64) {n l : Nat}
    (h : l < n) : ((List.range n).foldl (storeLink m d i) s).1 l =
      ⟨m.linkBytes d i l, m.linkUtilization d i l⟩ := by
  induction n with
  | zero => omega
  | succ n ih =>
      rw [List.range_succ, List.foldl_concat]
      by_cases last : l = n
      · subst last
        exact Function.update_self ..
      · rw [← ih (by omega)]
        exact Function.update_of_ne last ..

theorem describes_storeLinks (d : Direction) (i : Nat) (entry : QPISocketCounter)
    (socketId : entry.socketId = i) {links : Nat → LinkCounter}
    (stored : entry.links = (storeLinks p m d i links).1) :
    DescribesLinks p m d i entry ↔ entry.total = linkTotal p m d i := by
  have link : ∀ l < p.qpiLinksPerSocket,
      entry.links l = ⟨m.linkBytes d i l, m.linkUtilization d i l⟩ := by
    intro l below
    rw [stored]
    exact foldl_storeLink m d i _ below
  have sum : ((List.range p.qpiLinksPerSocket).map fun l => (entry.links l).bytes).sum =
      linkTotal p m d i := by
    unfold linkTotal
    congr 1
    apply List.map_congr_left
    intro l mem
    rw [link l (List.mem_range.mp mem)]
  constructor
  · intro describes
    exact describes.total.trans sum
  · intro total
    exact ⟨socketId, link, total.trans sum.symm⟩

/-- The total goes to the entry with the number of the socket. -/
theorem total_storeQPISocket (d : Direction) (j i : Nat) (sockets : Nat → QPISocketCounter) :
    (fun k => (storeQPISocket p m d j i sockets k).total) =
      Function.update (fun k => (sockets k).total) i (linkTotal p m d i) := by
  funext k
  unfold storeQPISocket
  by_cases own : k = i
  · subst own
    simp [storeLinks_total]
  · by_cases counted : k = j
    · subst counted
      simp [own]
    · simp [own, counted]

/-- The identifier and the links go to the entry of the count. -/
theorem links_storeQPISocket (d : Direction) (j i : Nat) (sockets : Nat → QPISocketCounter) :
    (fun k => ((storeQPISocket p m d j i sockets k).socketId,
      (storeQPISocket p m d j i sockets k).links)) =
      Function.update (fun k => ((sockets k).socketId, (sockets k).links)) j
        (i, (storeLinks p m d i (sockets j).links).1) := by
  funext k
  unfold storeQPISocket
  by_cases counted : k = j
  · subst counted
    by_cases own : k = i
    · subst own
      simp
    · simp [own]
  · by_cases own : k = i
    · subst own
      simp [counted]
    · simp [own, counted]

section Direction

variable {p} {d : Direction}

theorem sockets_getPCMQPIDirection (available : p.qpiTrafficMetricsAvailable d = true)
    (table : QPITable) : (getPCMQPIDirection p m d table).sockets =
    (walk p.isSocketOnline (storeQPISocket p m d) p.numSockets table.sockets).1 := by
  unfold getPCMQPIDirection
  rw [if_pos available]

theorem total_getPCMQPIDirection (available : p.qpiTrafficMetricsAvailable d = true)
    (table : QPITable) (k : Nat) :
    ((getPCMQPIDirection p m d table).sockets k).total =
      if k < p.numSockets ∧ p.isSocketOnline k = true then linkTotal p m d k
      else (table.sockets k).total := by
  rw [sockets_getPCMQPIDirection m available]
  exact @walk_in_place _ _ p.isSocketOnline (storeQPISocket p m d) (fun s k => (s k).total)
    (linkTotal p m d) (fun j i s => total_storeQPISocket p m d j i s) p.numSockets table.sockets k

theorem links_getPCMQPIDirection (available : p.qpiTrafficMetricsAvailable d = true)
    (table : QPITable) {k : Nat} (h : k < p.onlineSockets.length) :
    (((getPCMQPIDirection p m d table).sockets k).socketId,
      ((getPCMQPIDirection p m d table).sockets k).links) =
      (p.onlineSockets[k],
        (storeLinks p m d p.onlineSockets[k] (table.sockets k).links).1) := by
  rw [sockets_getPCMQPIDirection m available]
  exact @walk_compacted _ _ p.isSocketOnline (storeQPISocket p m d)
    (fun s k => ((s k).socketId, (s k).links))
    (fun i entry => (i, (storeLinks p m d i entry.2).1))
    (fun j i s => links_storeQPISocket p m d j i s) p.numSockets table.sockets k h

/-- An entry is right when its total, the one of the socket with its number, is. -/
theorem describes_iff (available : p.qpiTrafficMetricsAvailable d = true) (table : QPITable)
    {k : Nat} (h : k < p.onlineSockets.length) :
    DescribesLinks p m d p.onlineSockets[k] ((getPCMQPIDirection p m d table).sockets k) ↔
      (if p.isSocketOnline k = true then linkTotal p m d k else (table.sockets k).total) =
        linkTotal p m d p.onlineSockets[k] := by
  have below : k < p.numSockets := Nat.lt_of_lt_of_le h (length_kept_le _ _)
  have stored := links_getPCMQPIDirection m available table h
  rw [Prod.mk.injEq] at stored
  rw [describes_storeLinks p m d _ _ stored.1 stored.2, total_getPCMQPIDirection m available]
  simp only [below, true_and]

end Direction

/-! ## Runs -/

theorem published_concat (history : List Measured) :
    published p (history ++ [m]) = getPCMCounters p (published p history) m := by
  unfold published
  rw [List.foldl_append]
  rfl

/-- No iteration stores the sum of the persistent memory. -/
theorem pmmRead_published (history : List Measured) :
    (published p history).memory.system.pmmRead = -1 := by
  induction history using List.reverseRecOn with
  | nil => rfl
  | append_singleton history m ih =>
      rw [published_concat, ← ih, getPCMCounters]
      cases p.memory with
      | true => rfl
      | false => rfl

/-- The total at the number of an offline socket is never stored. -/
theorem total_published_offline (history : List Measured) (d : Direction) {k : Nat}
    (offline : ¬ p.isSocketOnline k = true) :
    (((published p history).qpi d).sockets k).total = 0 := by
  induction history using List.reverseRecOn with
  | nil => rfl
  | append_singleton history m ih =>
      rw [published_concat, getPCMCounters]
      cases p.qpi with
      | false => exact ih
      | true =>
          by_cases available : p.qpiTrafficMetricsAvailable d = true
          · show ((getPCMQPIDirection p m d ((published p history).qpi d)).sockets k).total = 0
            rw [total_getPCMQPIDirection m available, if_neg (by simp [offline]), ih]
          · show ((getPCMQPIDirection p m d ((published p history).qpi d)).sockets k).total = 0
            unfold getPCMQPIDirection
            rw [if_neg available]
            exact ih

/-- A marker is not a sum of bandwidths. -/
theorem system_inconsistent (table : MemoryTable) (marker : table.system.pmmRead = -1) :
    ¬ ∀ field : MemoryField, field.ofSystem (getPCMMemory p m table).system =
      ((List.range p.onlineSockets.length).map fun k =>
        field.ofSocket ((getPCMMemory p m table).sockets k)).sum := by
  rw [system_iff, marker]
  rintro ⟨sum, _⟩
  have nonneg : 0 ≤ (p.onlineSockets.map (socketPMMRead p m)).sum := by
    apply List.sum_nonneg
    intro bandwidth mem
    obtain ⟨skt, _, rfl⟩ := List.mem_map.mp mem
    exact socketPMMRead_nonneg p m skt
  rw [← sum] at nonneg
  exact absurd nonneg (by norm_num)

/-- After any iteration of any run the entries of the cores describe the online cores, those of the memory the
online sockets, and the two sums that are stored for the system are right. -/
theorem entries_published (history : List Measured) :
    (p.core = true → ∀ k (h : k < p.onlineCores.length),
      DescribesCore p m p.onlineCores[k] ((published p (history ++ [m])).core.cores k)) ∧
    (p.memory = true → (∀ k (h : k < p.onlineSockets.length),
        DescribesSocket p m p.onlineSockets[k] ((published p (history ++ [m])).memory.sockets k)) ∧
      ∀ field ∈ [MemoryField.read, MemoryField.write],
        field.ofSystem (published p (history ++ [m])).memory.system =
          ((List.range p.onlineSockets.length).map fun k =>
            field.ofSocket ((published p (history ++ [m])).memory.sockets k)).sum) := by
  rw [published_concat, getPCMCounters]
  constructor
  · intro subscribed k h
    rw [if_pos subscribed]
    exact cores_getPCMCore p m _ k h
  · intro subscribed
    rw [if_pos subscribed]
    constructor
    · intro k h
      rw [sockets_getPCMMemory p m _ k h]
      exact describes_storeSocket p m _ _
    · intro field member
      rcases List.mem_pair.mp member with rfl | rfl
      · exact (system_read p m _).trans
          (sum_sockets p m _ (fun c => MemoryField.read.ofSocket c) (socketRead m) fun _ _ => rfl).symm
      · exact (system_write p m _).trans
          (sum_sockets p m _ (fun c => MemoryField.write.ofSocket c) (socketWrite m) fun _ _ => rfl).symm

/-- After any iteration of any run the tables are right exactly when no one has subscribed to
memory, and the QPI totals at the first numbers are those of the first online sockets. -/
theorem consistent_iff (history : List Measured) :
    Consistent p m (published p (history ++ [m])) ↔
      p.memory = false ∧ (p.qpi = true → ∀ d, p.qpiTrafficMetricsAvailable d = true →
        ∀ k (h : k < p.onlineSockets.length),
          (if p.isSocketOnline k = true then linkTotal p m d k else 0) =
            linkTotal p m d p.onlineSockets[k]) := by
  have entry : ∀ d, p.qpiTrafficMetricsAvailable d = true → p.qpi = true →
      ∀ k (h : k < p.onlineSockets.length),
      (DescribesLinks p m d p.onlineSockets[k]
          (((published p (history ++ [m])).qpi d).sockets k) ↔
        (if p.isSocketOnline k = true then linkTotal p m d k else 0) =
          linkTotal p m d p.onlineSockets[k]) := by
    intro d available subscribed k h
    have table : (published p (history ++ [m])).qpi d =
        getPCMQPIDirection p m d ((published p history).qpi d) := by
      rw [published_concat]
      exact if_pos subscribed
    rw [table, describes_iff m available _ h]
    by_cases online : p.isSocketOnline k = true
    · rw [if_pos online, if_pos online]
    · rw [if_neg online, if_neg online, total_published_offline p history d online]
  constructor
  · intro consistent
    constructor
    · cases subscribed : p.memory with
      | false => rfl
      | true =>
          have sums := consistent.system subscribed
          rw [published_concat, getPCMCounters, if_pos subscribed] at sums
          exact absurd sums (system_inconsistent p m _ (pmmRead_published p history))
    · intro subscribed d available k h
      exact (entry d available subscribed k h).mp (consistent.qpi subscribed d available k h)
  · rintro ⟨unsubscribed, totals⟩
    constructor
    · exact (entries_published p m history).1
    · intro subscribed
      simp [unsubscribed] at subscribed
    · intro subscribed
      simp [unsubscribed] at subscribed
    · intro subscribed d available k h
      exact (entry d available subscribed k h).mpr (totals subscribed d available k h)

/-- Two sockets of which the first is offline, with one link each. -/
def firstOffline : Instance where
  mode := .difference
  core := false
  memory := false
  qpi := true
  onlineCores := [1]
  numSockets := 2
  isSocketOnline := fun i => i == 1
  qpiLinksPerSocket := 1
  l3CacheOccupancyMetricAvailable := false
  coreLocalMemoryBWMetricAvailable := false
  coreRemoteMemoryBWMetricAvailable := false
  packageEnergyMetricsAvailable := false
  dramEnergyMetricsAvailable := false
  pmmTrafficMetricsAvailable := false
  qpiTrafficMetricsAvailable := fun _ => true
  numCores := 2
  isCoreOnline := fun i => i == 1
  onlineCores_eq := rfl

def sevenBytes : Measured where
  linkBytes := fun _ _ _ => 7

theorem firstOffline_not_consistent :
    ¬ Consistent firstOffline sevenBytes (published firstOffline [sevenBytes]) := by
  intro consistent
  have describes := consistent.qpi rfl .incoming rfl 0 (by decide)
  exact absurd describes.total (by decide +kernel)

end Pcm.Daemon.Tables

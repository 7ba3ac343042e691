import Mathlib.Algebra.Order.Field.Rat
import Pcm.CpuModel

/-!
# Memory bandwidth of `pcm-memory`

`calculate_bandwidth` (`pcm-memory.cpp:903-1161`): what one sample of the uncore counters gives for a socket.
Values of type `float` are rational numbers; an elapsed time of zero gives zero.
-/

namespace Pcm.Memory

/-! ## Counters -/

/-- `ServerUncoreMemoryMetrics` -/
inductive Metrics
  | partialWrites | pmem | pmemMemoryMode | pmemMixedMode
  deriving DecidableEq, Repr

def anyPmem (metrics : Metrics) : Bool :=
  metrics = .pmem ∨ metrics = .pmemMixedMode ∨ metrics = .pmemMemoryMode

/-- `ServerUncorePMUs::EventPosition` and `PCM::EventPosition` -/
inductive EventPosition
  | read | write | read2 | write2 | partialWrite | pmmRead | pmmWrite | mmMissClean | mmMissDirty | nmHit
  | cxlTxcMem | cxlTxcCache | cxlRxcMem | cxlRxcCache
  deriving DecidableEq, Repr

def EventPosition.index : EventPosition → Nat
  | read | nmHit | cxlTxcMem => 0
  | write | cxlTxcCache => 1
  | read2 | partialWrite | pmmRead | mmMissClean => 2
  | write2 | pmmWrite | mmMissDirty => 3
  | cxlRxcMem => 4
  | cxlRxcCache => 5

inductive FreeRunningCounterID
  | imcReads | imcWrites | pmmReads | pmmWrites
  deriving DecidableEq, Repr

/-- `ServerUncoreCounterState`: counters by unit and position. -/
structure UncoreCounterState where
  mcCounter : Nat → Nat → BitVec 64 := fun _ _ => 0
  edcCounter : Nat → Nat → BitVec 64 := fun _ _ => 0
  m2mCounter : Nat → Nat → BitVec 64 := fun _ _ => 0
  cxlcmCounter : Nat → Nat → BitVec 64 := fun _ _ => 0
  cxldpCounter : Nat → Nat → BitVec 64 := fun _ _ => 0
  freeRunningCounter : FreeRunningCounterID → Option (BitVec 64) := fun _ => none

section Differences

variable (before after : UncoreCounterState)

/-- `getMCCounter`, `getEDCCounter`, `getM2MCounter`, `getCXLCMCounter` and `getCXLDPCounter` -/
def difference (counters : UncoreCounterState → Nat → Nat → BitVec 64) (unit : Nat)
    (position : EventPosition) : BitVec 64 :=
  counters after unit position.index - counters before unit position.index

def getFreeRunningCounter (counter : FreeRunningCounterID) : Int :=
  match before.freeRunningCounter counter, after.freeRunningCounter counter with
  | some beforeValue, some afterValue => (afterValue - beforeValue).toInt
  | _, _ => -1

end Differences

/-- What stays as it is during a run. -/
structure Setup where
  cpuFamilyModel : CpuModel
  numSockets : Nat
  /-- `max_imc_channels` -/
  maxImcChannels : Nat
  /-- `getMCChannels(skt, 0)` -/
  mcChannels : Nat → Nat := fun _ => 0
  /-- `HBMmemoryTrafficMetricsAvailable` -/
  hbm : Bool := false
  numCXLPorts : Nat → Nat := fun _ => 0
  metrics : Metrics := .partialWrites
  /-- `SPR_CXL` -/
  sprCxl : Bool := false
  skipInactiveChannels : Bool := true
  showChannelOutput : Bool := true
  showCxlOutput : Bool := true

/-- The counters before and after one interval, by sockets. -/
structure Sample where
  uncState1 : Nat → UncoreCounterState
  uncState2 : Nat → UncoreCounterState
  elapsedTime : Nat
  sprChaCxlCount : BitVec 64 := 0

def maxEdcChannels : Nat := 32

def maxImcControllers : Nat := 32

/-! ## The values of a socket -/

/-- The entries of `memdata_t` for one socket. -/
structure SocketData where
  iMC_Rd_chan : Nat → ℚ := fun _ => 0
  iMC_Wr_chan : Nat → ℚ := fun _ => 0
  iMC_PMM_Rd_chan : Nat → ℚ := fun _ => 0
  iMC_PMM_Wr_chan : Nat → ℚ := fun _ => 0
  iMC_Rd : ℚ := 0
  iMC_Wr : ℚ := 0
  iMC_PMM_Rd : ℚ := 0
  iMC_PMM_Wr : ℚ := 0
  CXLMEM_Rd_port : Nat → ℚ := fun _ => 0
  CXLMEM_Wr_port : Nat → ℚ := fun _ => 0
  CXLCACHE_Rd_port : Nat → ℚ := fun _ => 0
  CXLCACHE_Wr_port : Nat → ℚ := fun _ => 0
  MemoryMode_Miss : ℚ := 0
  MemoryMode_Hit : ℚ := 0
  NM_hit_rate : ℚ := 0
  M2M_NM_read_hit_rate : Nat → ℚ := fun _ => 0
  EDC_Rd_chan : Nat → ℚ := fun _ => 0
  EDC_Wr_chan : Nat → ℚ := fun _ => 0
  EDC_Rd : ℚ := 0
  EDC_Wr : ℚ := 0
  partial_write : BitVec 64 := 0

def setAt (values : Nat → ℚ) (i : Nat) (value : ℚ) : Nat → ℚ :=
  fun j => if j = i then value else values j

section Calculate

variable (setup : Setup) (sample : Sample) (skt : Nat)

def Sample.counter (counters : UncoreCounterState → Nat → Nat → BitVec 64) (unit : Nat)
    (position : EventPosition) : BitVec 64 :=
  difference (sample.uncState1 skt) (sample.uncState2 skt) counters unit position

def Sample.freeRunning (counter : FreeRunningCounterID) : Int :=
  getFreeRunningCounter (sample.uncState1 skt) (sample.uncState2 skt) counter

def toBW (nEvents : BitVec 64) : ℚ :=
  ((nEvents * 64).toNat : ℚ) / 1000000 / ((sample.elapsedTime : ℚ) / 1000)

def toRate (nEvents : BitVec 64) : ℚ := (nEvents.toNat : ℚ) / ((sample.elapsedTime : ℚ) / 1000)

/-- Models for which channels have two more counters, and no partial writes. -/
def twoSubChannels : Bool :=
  setup.cpuFamilyModel = .GNR ∨ setup.cpuFamilyModel = .GNR_D ∨ setup.cpuFamilyModel = .GRR ∨
    setup.cpuFamilyModel = .SRF

/-- `md.BHS_NM` and `md.BHS` -/
def bhs : Bool := setup.cpuFamilyModel.nearMemoryMetricsAvailable

/-- `getHBMCASTransferSize() / 64` -/
def scalingFactor : ℚ := if setup.cpuFamilyModel = .SPR then 32 / 64 else 64 / 64

/-- No traffic was counted on an HBM channel. -/
def Sample.idle (channel : Nat) : Prop :=
  sample.counter skt (·.edcCounter) channel .read = 0 ∧ sample.counter skt (·.edcCounter) channel .write = 0

instance decidableIdle (channel : Nat) : Decidable (sample.idle skt channel) :=
  inferInstanceAs (Decidable (_ ∧ _))

/-- An HBM channel. -/
def edcChannel (md : SocketData) (channel : Nat) : SocketData :=
  if setup.skipInactiveChannels ∧ sample.idle skt channel then
    { md with
      EDC_Rd_chan := setAt md.EDC_Rd_chan channel (-1)
      EDC_Wr_chan := setAt md.EDC_Wr_chan channel (-1) }
  else
    let rd := scalingFactor setup * toBW sample (sample.counter skt (·.edcCounter) channel .read)
    let wr := scalingFactor setup * toBW sample (sample.counter skt (·.edcCounter) channel .write)
    { md with
      EDC_Rd_chan := setAt md.EDC_Rd_chan channel rd
      EDC_Wr_chan := setAt md.EDC_Wr_chan channel wr
      EDC_Rd := md.EDC_Rd + rd
      EDC_Wr := md.EDC_Wr + wr }

/-- What was counted on a DRAM channel. -/
structure ChannelCounts where
  reads : BitVec 64
  writes : BitVec 64
  pmmReads : BitVec 64
  pmmWrites : BitVec 64
  memoryModeCleanMisses : BitVec 64
  memoryModeDirtyMisses : BitVec 64
  memoryModeHits : BitVec 64
  partialWrites : BitVec 64

def channelCounts (channel : Nat) : ChannelCounts :=
  let counter := sample.counter skt (·.mcCounter) channel
  let misses : Bool := setup.metrics = .pmemMixedMode ∨ setup.metrics = .pmemMemoryMode
  { reads := counter .read + if twoSubChannels setup then counter .read2 else 0
    writes := counter .write + if twoSubChannels setup then counter .write2 else 0
    pmmReads := if setup.metrics = .pmem then counter .pmmRead else 0
    pmmWrites := if setup.metrics = .pmem then counter .pmmWrite else 0
    memoryModeCleanMisses := if misses then counter .mmMissClean else 0
    memoryModeDirtyMisses := if misses then counter .mmMissDirty else 0
    memoryModeHits := if setup.metrics = .pmemMemoryMode then counter .nmHit else 0
    partialWrites := counter .partialWrite }

def ChannelCounts.inactive (c : ChannelCounts) (metrics : Metrics) : Bool :=
  c.reads + c.writes = 0 ∧ (metrics ≠ .pmem ∨ c.pmmReads + c.pmmWrites = 0) ∧
    (metrics ≠ .pmemMixedMode ∨ c.memoryModeCleanMisses + c.memoryModeDirtyMisses = 0)

/-- The traffic of a channel, which is not counted by channels in memory mode. -/
def addTraffic (channel : Nat) (c : ChannelCounts) (md : SocketData) : SocketData :=
  if setup.metrics ≠ .pmemMemoryMode then
    { md with
      iMC_Rd_chan := setAt md.iMC_Rd_chan channel (toBW sample c.reads)
      iMC_Wr_chan := setAt md.iMC_Wr_chan channel (toBW sample c.writes)
      iMC_Rd := md.iMC_Rd + toBW sample c.reads
      iMC_Wr := md.iMC_Wr + toBW sample c.writes }
  else md

/-- What the metrics add for a channel. -/
def addMetrics (channel : Nat) (c : ChannelCounts) (md : SocketData) : SocketData :=
  match setup.metrics with
  | .pmem =>
      let controller := if channel < setup.mcChannels skt then 0 else 1
      { md with
        iMC_PMM_Rd_chan := setAt md.iMC_PMM_Rd_chan channel (toBW sample c.pmmReads)
        iMC_PMM_Wr_chan := setAt md.iMC_PMM_Wr_chan channel (toBW sample c.pmmWrites)
        iMC_PMM_Rd := md.iMC_PMM_Rd + toBW sample c.pmmReads
        iMC_PMM_Wr := md.iMC_PMM_Wr + toBW sample c.pmmWrites
        M2M_NM_read_hit_rate := setAt md.M2M_NM_read_hit_rate controller
          (md.M2M_NM_read_hit_rate controller + c.reads.toNat) }
  | .pmemMixedMode =>
      let misses := c.memoryModeCleanMisses + 2 * c.memoryModeDirtyMisses
      { md with MemoryMode_Miss := md.MemoryMode_Miss + toBW sample misses }
  | .pmemMemoryMode =>
      let misses := c.memoryModeCleanMisses + c.memoryModeDirtyMisses
      { md with
        MemoryMode_Miss := md.MemoryMode_Miss + toRate sample misses
        MemoryMode_Hit := md.MemoryMode_Hit + toRate sample c.memoryModeHits }
  | .partialWrites =>
      if twoSubChannels setup then md
      else
        let rate := BitVec.ofInt 64 (toRate sample c.partialWrites).floor
        { md with partial_write := md.partial_write + rate }

/-- A DRAM channel. -/
def imcChannel (md : SocketData) (channel : Nat) : SocketData :=
  let c := channelCounts setup sample skt channel
  if setup.skipInactiveChannels ∧ c.inactive setup.metrics then
    { md with
      iMC_Rd_chan := setAt md.iMC_Rd_chan channel (-1)
      iMC_Wr_chan := setAt md.iMC_Wr_chan channel (-1) }
  else addMetrics setup sample skt channel c (addTraffic setup sample channel c md)

/-- The sum over the memory controllers. -/
def m2mSum (position : EventPosition) (convert : BitVec 64 → ℚ) : ℚ :=
  (List.range maxImcControllers).foldl
    (fun sum c => sum + convert (sample.counter skt (·.m2mCounter) c position)) 0

/-- The free running counters of the memory controllers. -/
def imcTotals (md : SocketData) : SocketData :=
  if setup.metrics = .pmemMemoryMode then
    let reads := sample.freeRunning skt .imcReads
    let writes := sample.freeRunning skt .imcWrites
    { md with
      iMC_Rd := if 0 ≤ reads then md.iMC_Rd + toBW sample (BitVec.ofInt 64 reads) else md.iMC_Rd
      iMC_Wr := if 0 ≤ writes then md.iMC_Wr + toBW sample (BitVec.ofInt 64 writes) else md.iMC_Wr }
  else md

/-- A free running counter, or what the controllers have counted. -/
def freeRunningOr (counter : FreeRunningCounterID) (position : EventPosition) : ℚ :=
  if 0 ≤ sample.freeRunning skt counter then
    toBW sample (BitVec.ofInt 64 (sample.freeRunning skt counter))
  else m2mSum sample skt position (toBW sample)

def pmmTotals (md : SocketData) : SocketData :=
  if setup.metrics = .pmemMixedMode ∨ setup.metrics = .pmemMemoryMode then
    { md with
      iMC_PMM_Rd := md.iMC_PMM_Rd + freeRunningOr sample skt .pmmReads .pmmRead
      iMC_PMM_Wr := md.iMC_PMM_Wr + freeRunningOr sample skt .pmmWrites .pmmWrite }
  else md

/-- Hit rates of the near memory. -/
def nearMemory (md : SocketData) : SocketData :=
  let md :=
    if setup.metrics = .pmem then
      { md with M2M_NM_read_hit_rate := fun c =>
          if c < maxImcControllers ∧ md.M2M_NM_read_hit_rate c ≠ 0 then
            ((sample.counter skt (·.m2mCounter) c .nmHit).toNat : ℚ) / md.M2M_NM_read_hit_rate c
          else md.M2M_NM_read_hit_rate c }
    else md
  let md :=
    if bhs setup then
      { md with
        MemoryMode_Hit := md.MemoryMode_Hit + m2mSum sample skt .nmHit (toRate sample)
        MemoryMode_Miss := md.MemoryMode_Miss + m2mSum sample skt .mmMissClean (toRate sample) +
          m2mSum sample skt .mmMissDirty (toRate sample) }
    else md
  let all := md.MemoryMode_Miss + md.MemoryMode_Hit
  if (setup.metrics = .pmemMemoryMode ∨ bhs setup) ∧ all ≠ 0 then
    { md with NM_hit_rate := md.MemoryMode_Hit / all }
  else md

/-- A CXL port. -/
def cxlPort (md : SocketData) (p : Nat) : SocketData :=
  if bhs setup then
    { md with
      CXLMEM_Rd_port := setAt md.CXLMEM_Rd_port p
        (toBW sample (sample.counter skt (·.cxlcmCounter) p .cxlRxcMem))
      CXLMEM_Wr_port := setAt md.CXLMEM_Wr_port p
        (toBW sample (sample.counter skt (·.cxldpCounter) p .cxlTxcMem))
      CXLCACHE_Rd_port := setAt md.CXLCACHE_Rd_port p
        (toBW sample (sample.counter skt (·.cxlcmCounter) p .cxlRxcCache))
      CXLCACHE_Wr_port := setAt md.CXLCACHE_Wr_port p
        (toBW sample (sample.counter skt (·.cxlcmCounter) p .cxlTxcCache)) }
  else
    -- `CXLBWWrScalingFactor`
    { md with
      CXLMEM_Wr_port := setAt md.CXLMEM_Wr_port p
        (1 / 2 * toBW sample (sample.counter skt (·.cxlcmCounter) p .cxlTxcMem))
      CXLCACHE_Wr_port := setAt md.CXLCACHE_Wr_port p
        (1 / 2 * toBW sample (sample.counter skt (·.cxlcmCounter) p .cxlTxcCache)) }

def edcChannels (md : SocketData) : SocketData :=
  if setup.hbm then (List.range maxEdcChannels).foldl (edcChannel setup sample skt) md else md

/-- What is computed for a socket. -/
def socketData : SocketData :=
  let md := edcChannels setup sample skt {}
  let md := (List.range setup.maxImcChannels).foldl (imcChannel setup sample skt) md
  let md := imcTotals setup sample skt md
  let md := pmmTotals setup sample skt md
  let md := nearMemory setup sample skt md
  (List.range (setup.numCXLPorts skt)).foldl (cxlPort setup sample skt) md

end Calculate

end Pcm.Memory

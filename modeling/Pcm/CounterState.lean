import Mathlib.Data.BitVec

/-!
# Counter states

The snapshots PCM hands out: `checked_uint64` (`utils.h:303-325`), `BasicCounterState`
(`cpucounters.h:3050-3240`), `UncoreCounterState` (`cpucounters.h:3677-3841`) and the socket and
system states built from them (`cpucounters.h:4016-4145`), with their `operator +=`. Every
accumulated field has a name of its own in `BasicField` or `UncoreField`, so that "each field"
can be quantified over.
-/

namespace Pcm

/-- `checked_uint64`: a counter value and the overflows seen when it was read. -/
structure CheckedUint64 where
  data : BitVec 64 := 0
  overflows : BitVec 64 := 0
  deriving DecidableEq, Repr

namespace CheckedUint64

/-- `operator +=`. -/
def add (a o : CheckedUint64) : CheckedUint64 := ⟨a.data + o.data, a.overflows + o.overflows⟩

/-- `operator -` (`utils.h:317-322`), with the fixed `counter_width` of 48. -/
def sub (a o : CheckedUint64) : BitVec 64 := a.data + a.overflows * (1#64 <<< 48) - o.data

end CheckedUint64

/-- `PCM::MAX_C_STATE + 1`. -/
abbrev CState := Fin 11

/-- `PERF_MAX_CUSTOM_COUNTERS`. -/
abbrev CustomCounter := Fin 8

/-- `PCM::MAX_PP + 1`. -/
abbrev PowerPlane := Fin 2

/-- `BasicCounterState`. A field that the default constructor sets has that default here. -/
structure BasicCounterState where
  instRetiredAny : CheckedUint64 := {}
  cpuClkUnhaltedThread : CheckedUint64 := {}
  cpuClkUnhaltedRef : CheckedUint64 := {}
  event : CustomCounter → CheckedUint64 := fun _ => {}
  invariantTSC : BitVec 64 := 0
  cStateResidency : CState → BitVec 64 := fun _ => 0
  /-- `PCM_INVALID_THERMAL_HEADROOM` is the smallest 32-bit number. -/
  thermalHeadroom : Int := -2 ^ 31
  l3Occupancy : BitVec 64 := 0
  memoryBWLocal : BitVec 64 := 0
  memoryBWTotal : BitVec 64 := 0
  smiCount : BitVec 64 := 0
  frontendBoundSlots : BitVec 64 := 0
  badSpeculationSlots : BitVec 64 := 0
  backendBoundSlots : BitVec 64 := 0
  retiringSlots : BitVec 64 := 0
  allSlotsRaw : BitVec 64 := 0
  memBoundSlots : BitVec 64 := 0
  fetchLatSlots : BitVec 64 := 0
  brMispredSlots : BitVec 64 := 0
  heavyOpsSlots : BitVec 64 := 0
  msrValues : Nat → Option (BitVec 64) := fun _ => none

/-- `operator +=` (`cpucounters.h:3201-3239`). The thermal headroom is not accumulative, and the
register values stay with the core they were read on. -/
def BasicCounterState.add (s o : BasicCounterState) : BasicCounterState :=
  { s with
    instRetiredAny := s.instRetiredAny.add o.instRetiredAny
    cpuClkUnhaltedThread := s.cpuClkUnhaltedThread.add o.cpuClkUnhaltedThread
    cpuClkUnhaltedRef := s.cpuClkUnhaltedRef.add o.cpuClkUnhaltedRef
    event := fun i => (s.event i).add (o.event i)
    invariantTSC := s.invariantTSC + o.invariantTSC
    cStateResidency := fun i => s.cStateResidency i + o.cStateResidency i
    l3Occupancy := s.l3Occupancy + o.l3Occupancy
    memoryBWLocal := s.memoryBWLocal + o.memoryBWLocal
    memoryBWTotal := s.memoryBWTotal + o.memoryBWTotal
    smiCount := s.smiCount + o.smiCount
    frontendBoundSlots := s.frontendBoundSlots + o.frontendBoundSlots
    badSpeculationSlots := s.badSpeculationSlots + o.badSpeculationSlots
    backendBoundSlots := s.backendBoundSlots + o.backendBoundSlots
    retiringSlots := s.retiringSlots + o.retiringSlots
    allSlotsRaw := s.allSlotsRaw + o.allSlotsRaw
    memBoundSlots := s.memBoundSlots + o.memBoundSlots
    fetchLatSlots := s.fetchLatSlots + o.fetchLatSlots
    brMispredSlots := s.brMispredSlots + o.brMispredSlots
    heavyOpsSlots := s.heavyOpsSlots + o.heavyOpsSlots }

/-- The core counters: the three fixed ones and the programmable ones. -/
inductive CoreCounter
  | instRetiredAny
  | cpuClkUnhaltedThread
  | cpuClkUnhaltedRef
  | event (i : CustomCounter)
  deriving DecidableEq, Repr

def CoreCounter.get : CoreCounter → BasicCounterState → CheckedUint64
  | instRetiredAny, s => s.instRetiredAny
  | cpuClkUnhaltedThread, s => s.cpuClkUnhaltedThread
  | cpuClkUnhaltedRef, s => s.cpuClkUnhaltedRef
  | event i, s => s.event i

/-- The accumulated fields of `BasicCounterState`; a checked counter has its value and its
overflows. -/
inductive BasicField
  | data (c : CoreCounter)
  | overflows (c : CoreCounter)
  | invariantTSC
  | cStateResidency (i : CState)
  | l3Occupancy
  | memoryBWLocal
  | memoryBWTotal
  | smiCount
  | frontendBoundSlots
  | badSpeculationSlots
  | backendBoundSlots
  | retiringSlots
  | allSlotsRaw
  | memBoundSlots
  | fetchLatSlots
  | brMispredSlots
  | heavyOpsSlots
  deriving DecidableEq, Repr

def BasicField.get : BasicField → BasicCounterState → BitVec 64
  | data c, s => (c.get s).data
  | overflows c, s => (c.get s).overflows
  | invariantTSC, s => s.invariantTSC
  | cStateResidency i, s => s.cStateResidency i
  | l3Occupancy, s => s.l3Occupancy
  | memoryBWLocal, s => s.memoryBWLocal
  | memoryBWTotal, s => s.memoryBWTotal
  | smiCount, s => s.smiCount
  | frontendBoundSlots, s => s.frontendBoundSlots
  | badSpeculationSlots, s => s.badSpeculationSlots
  | backendBoundSlots, s => s.backendBoundSlots
  | retiringSlots, s => s.retiringSlots
  | allSlotsRaw, s => s.allSlotsRaw
  | memBoundSlots, s => s.memBoundSlots
  | fetchLatSlots, s => s.fetchLatSlots
  | brMispredSlots, s => s.brMispredSlots
  | heavyOpsSlots, s => s.heavyOpsSlots

@[simp] theorem BasicField.get_default (f : BasicField) : f.get {} = 0 := by
  cases f with
  | data c => cases c <;> rfl
  | overflows c => cases c <;> rfl
  | _ => rfl

/-- `operator +=` adds every accumulated field. -/
@[simp] theorem BasicField.get_add (f : BasicField) (s o : BasicCounterState) :
    f.get (s.add o) = f.get s + f.get o := by
  cases f with
  | data c => cases c <;> rfl
  | overflows c => cases c <;> rfl
  | _ => rfl

/-- `UncoreCounterState`. -/
structure UncoreCounterState where
  ufsStatus : List (BitVec 64) := []
  uncMCFullWrites : BitVec 64 := 0
  uncMCNormalReads : BitVec 64 := 0
  uncHARequests : BitVec 64 := 0
  uncHALocalRequests : BitVec 64 := 0
  uncNMMiss : BitVec 64 := 0
  uncNMHit : BitVec 64 := 0
  uncPMMWrites : BitVec 64 := 0
  uncPMMReads : BitVec 64 := 0
  uncEDCFullWrites : BitVec 64 := 0
  uncEDCNormalReads : BitVec 64 := 0
  uncMCGTRequests : BitVec 64 := 0
  uncMCIARequests : BitVec 64 := 0
  uncMCIORequests : BitVec 64 := 0
  packageEnergyStatus : BitVec 64 := 0
  ppEnergyStatus : PowerPlane → BitVec 64 := fun _ => 0
  dramEnergyStatus : BitVec 64 := 0
  torOccupancyIAMiss : BitVec 64 := 0
  torInsertsIAMiss : BitVec 64 := 0
  uncClocks : BitVec 64 := 0
  cStateResidency : CState → BitVec 64 := fun _ => 0

/-- `operator +=` (`cpucounters.h:3819-3840`), field by field as the source lists them: the near
memory and power plane fields are not among them. -/
def UncoreCounterState.add (s o : UncoreCounterState) : UncoreCounterState :=
  { s with
    uncMCFullWrites := s.uncMCFullWrites + o.uncMCFullWrites
    uncMCNormalReads := s.uncMCNormalReads + o.uncMCNormalReads
    uncHARequests := s.uncHARequests + o.uncHARequests
    uncHALocalRequests := s.uncHALocalRequests + o.uncHALocalRequests
    uncPMMReads := s.uncPMMReads + o.uncPMMReads
    uncPMMWrites := s.uncPMMWrites + o.uncPMMWrites
    uncEDCFullWrites := s.uncEDCFullWrites + o.uncEDCFullWrites
    uncEDCNormalReads := s.uncEDCNormalReads + o.uncEDCNormalReads
    uncMCGTRequests := s.uncMCGTRequests + o.uncMCGTRequests
    uncMCIARequests := s.uncMCIARequests + o.uncMCIARequests
    uncMCIORequests := s.uncMCIORequests + o.uncMCIORequests
    packageEnergyStatus := s.packageEnergyStatus + o.packageEnergyStatus
    dramEnergyStatus := s.dramEnergyStatus + o.dramEnergyStatus
    torOccupancyIAMiss := s.torOccupancyIAMiss + o.torOccupancyIAMiss
    torInsertsIAMiss := s.torInsertsIAMiss + o.torInsertsIAMiss
    uncClocks := s.uncClocks + o.uncClocks
    cStateResidency := fun i => s.cStateResidency i + o.cStateResidency i }

/-- The accumulated fields of `UncoreCounterState`. -/
inductive UncoreField
  | uncMCFullWrites
  | uncMCNormalReads
  | uncHARequests
  | uncHALocalRequests
  | uncNMMiss
  | uncNMHit
  | uncPMMWrites
  | uncPMMReads
  | uncEDCFullWrites
  | uncEDCNormalReads
  | uncMCGTRequests
  | uncMCIARequests
  | uncMCIORequests
  | packageEnergyStatus
  | ppEnergyStatus (pp : PowerPlane)
  | dramEnergyStatus
  | torOccupancyIAMiss
  | torInsertsIAMiss
  | uncClocks
  | cStateResidency (i : CState)
  deriving DecidableEq, Repr

def UncoreField.get : UncoreField → UncoreCounterState → BitVec 64
  | uncMCFullWrites, s => s.uncMCFullWrites
  | uncMCNormalReads, s => s.uncMCNormalReads
  | uncHARequests, s => s.uncHARequests
  | uncHALocalRequests, s => s.uncHALocalRequests
  | uncNMMiss, s => s.uncNMMiss
  | uncNMHit, s => s.uncNMHit
  | uncPMMWrites, s => s.uncPMMWrites
  | uncPMMReads, s => s.uncPMMReads
  | uncEDCFullWrites, s => s.uncEDCFullWrites
  | uncEDCNormalReads, s => s.uncEDCNormalReads
  | uncMCGTRequests, s => s.uncMCGTRequests
  | uncMCIARequests, s => s.uncMCIARequests
  | uncMCIORequests, s => s.uncMCIORequests
  | packageEnergyStatus, s => s.packageEnergyStatus
  | ppEnergyStatus pp, s => s.ppEnergyStatus pp
  | dramEnergyStatus, s => s.dramEnergyStatus
  | torOccupancyIAMiss, s => s.torOccupancyIAMiss
  | torInsertsIAMiss, s => s.torInsertsIAMiss
  | uncClocks, s => s.uncClocks
  | cStateResidency i, s => s.cStateResidency i

/-- Whether `operator +=` has a line for the field. -/
def UncoreField.summed : UncoreField → Bool
  | uncNMMiss | uncNMHit | ppEnergyStatus _ => false
  | _ => true

@[simp] theorem UncoreField.get_default (f : UncoreField) : f.get {} = 0 := by
  cases f <;> rfl

/-- `operator +=` adds the fields it lists and leaves the three others alone. -/
theorem UncoreField.get_add (f : UncoreField) (s o : UncoreCounterState) :
    f.get (s.add o) = f.get s + if f.summed then f.get o else 0 := by
  cases f <;> simp [UncoreField.get, UncoreField.summed, UncoreCounterState.add]

/-- `SocketCounterState`. -/
structure SocketCounterState where
  basic : BasicCounterState := {}
  uncore : UncoreCounterState := {}

/-- `operator += (const BasicCounterState &)`. -/
def SocketCounterState.addBasic (s : SocketCounterState) (o : BasicCounterState) :
    SocketCounterState := { s with basic := s.basic.add o }

/-- `SystemCounterState`, with one CXL entry for each socket. -/
structure SystemCounterState where
  basic : BasicCounterState := {}
  uncore : UncoreCounterState := {}
  cxlWriteMem : List (BitVec 64)
  cxlWriteCache : List (BitVec 64)

/-- The constructor, on a machine with `numSockets` sockets. -/
def SystemCounterState.construct (numSockets : Nat) : SystemCounterState where
  cxlWriteMem := List.replicate numSockets 0
  cxlWriteCache := List.replicate numSockets 0

/-- `operator += (const SocketCounterState &)`. -/
def SystemCounterState.addSocket (s : SystemCounterState) (o : SocketCounterState) :
    SystemCounterState := { s with basic := s.basic.add o.basic, uncore := s.uncore.add o.uncore }

end Pcm

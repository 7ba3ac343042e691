import Pcm.CpuModel
import Pcm.Lib.Blocks
import Mathlib.Data.BitVec

/-!
# Memory controllers and their channels

A `ServerUncorePMUs` object keeps its memory channels in one vector and the number of channels of
each memory controller in another. The channels of a controller are those behind the channels of
the controllers before it. `initDirect` and `initPerf` (`cpucounters.cpp:8387-8680`, `9337-9356`)
fill the two vectors, and every channel has a controller when the numbers add up to at least the
number of channels. The numbers stay far below 2^32, so that they are natural numbers here.
-/

namespace Pcm.MemoryControllers

open Blocks

/-- A memory channel: what its counter registers read, `none` for a missing register. -/
structure ImcPMU where
  counterValue : Nat → Option (BitVec 64)

structure ServerUncorePMUs where
  cpuFamilyModel : CpuModel
  imcPMUs : List ImcPMU := []
  /-- `num_imc_channels`. -/
  numImcChannels : List Nat := []

/-- `EventPosition::READ` and `EventPosition::READ2`. -/
def READ : Nat := 0
def READ2 : Nat := 2

/-- `getPMUCounter` (`cpucounters.cpp:10103-10117`). -/
def getPMUCounter (pmu : List ImcPMU) (id counter : Nat) : BitVec 64 :=
  match pmu[id]? with
  | some p => if counter < 4 then (p.counterValue counter).getD 0 else 0
  | none => 0

namespace ServerUncorePMUs

variable (s : ServerUncorePMUs)

def getMCCounter (channel counter : Nat) : BitVec 64 := getPMUCounter s.imcPMUs channel counter

/-- What one pass of `getImcReadsForChannels` adds. -/
def channelReads (i : Nat) : BitVec 64 :=
  match s.cpuFamilyModel with
  | .GNR | .GNR_D | .GRR | .SRF => s.getMCCounter i READ + s.getMCCounter i READ2
  | _ => s.getMCCounter i READ

/-- `getImcReadsForChannels` (`cpucounters.cpp:9681-9698`): the loop also ends with the vector of
channels. -/
def getImcReadsForChannels (beginChannel endChannel : Nat) : BitVec 64 :=
  ((span beginChannel endChannel s.imcPMUs.length).map s.channelReads).sum

/-- `getImcReads` (`cpucounters.cpp:9664-9667`). -/
def getImcReads : BitVec 64 := s.getImcReadsForChannels 0 s.imcPMUs.length

def getNumMC : Nat := s.numImcChannels.length

/-- `beginChannel` of a controller, the sum of the channels of the controllers before it. -/
def beginChannel (controller : Nat) : Nat := start s.numImcChannels controller

def endChannel (controller : Nat) : Nat :=
  s.beginChannel controller + s.numImcChannels.getD controller 0

/-- `getImcReadsForController` (`cpucounters.cpp:9669-9679`). -/
def getImcReadsForController (controller : Nat) : BitVec 64 :=
  s.getImcReadsForChannels (s.beginChannel controller) (s.endChannel controller)

/-- The channels that `getImcReadsForController` reads. -/
def channelsOf (controller : Nat) : List Nat :=
  span (s.beginChannel controller) (s.endChannel controller) s.imcPMUs.length

/-- The controllers share out the channels, and their reads add up to all reads. -/
structure Partitioned : Prop where
  once : ∀ i < s.imcPMUs.length, ∃! c, c < s.getNumMC ∧ i ∈ s.channelsOf c
  sum : ((List.range s.getNumMC).map s.getImcReadsForController).sum = s.getImcReads

/-- The numbers of channels cover the vector of channels. -/
def Covered : Prop := s.imcPMUs.length ≤ s.numImcChannels.sum

variable {s}

theorem endChannel_eq {c : Nat} (h : c < s.getNumMC) :
    s.endChannel c = start s.numImcChannels (c + 1) := by
  rw [endChannel, start_succ h, List.getD_eq_getElem?_getD, List.getElem?_eq_getElem h]
  rfl

theorem mem_channelsOf {c i : Nat} (h : c < s.getNumMC) : i ∈ s.channelsOf c ↔
    start s.numImcChannels c ≤ i ∧ i < start s.numImcChannels (c + 1) ∧ i < s.imcPMUs.length := by
  rw [channelsOf, mem_span, endChannel_eq h]
  rfl

variable (s) in
/-- Together the controllers read the channels below the sum of their numbers. -/
theorem sum_getImcReadsForController :
    ((List.range s.getNumMC).map s.getImcReadsForController).sum =
      s.getImcReadsForChannels 0 s.numImcChannels.sum := by
  have ends : (List.range s.getNumMC).map s.getImcReadsForController =
      (List.range s.getNumMC).map fun c => ((span (start s.numImcChannels c)
        (start s.numImcChannels (c + 1)) s.imcPMUs.length).map s.channelReads).sum := by
    apply List.map_congr_left
    intro c mem
    rw [getImcReadsForController, endChannel_eq (List.mem_range.mp mem)]
    rfl
  rw [ends, sum_blocks, getNumMC, start_length]
  rfl

/-- Every channel has exactly one controller, and the sums agree, exactly when the numbers of
channels cover the vector. -/
theorem partitioned_iff_covered : s.Partitioned ↔ s.Covered := by
  constructor
  · intro parts
    by_contra short
    rw [Covered, Nat.not_le] at short
    obtain ⟨c, ⟨below, mem⟩, -⟩ := parts.once s.numImcChannels.sum short
    have upper := ((mem_channelsOf below).mp mem).2.1
    have last := start_mono s.numImcChannels (show c + 1 ≤ s.numImcChannels.length from below)
    rw [start_length] at last
    omega
  · intro covered
    refine ⟨?_, ?_⟩
    · intro i inside
      obtain ⟨c, below, lower, upper⟩ := exists_block (Nat.lt_of_lt_of_le inside covered)
      refine ⟨c, ⟨below, (mem_channelsOf below).mpr ⟨lower, upper, inside⟩⟩, ?_⟩
      rintro d ⟨belowD, mem⟩
      obtain ⟨lowerD, upperD, -⟩ := (mem_channelsOf belowD).mp mem
      exact block_unique lowerD upperD lower upper
    · rw [s.sum_getImcReadsForController, getImcReads, getImcReadsForChannels,
        span_limit covered]
      rfl

/-! ## Adding channels -/

def add (s : ServerUncorePMUs) (pmus : List ImcPMU) (counts : List Nat) : ServerUncorePMUs :=
  { s with imcPMUs := s.imcPMUs ++ pmus, numImcChannels := s.numImcChannels ++ counts }

theorem covered_add {pmus : List ImcPMU} {counts : List Nat} (covered : s.Covered)
    (enough : pmus.length ≤ counts.sum) : (s.add pmus counts).Covered := by
  unfold Covered add at *
  rw [List.length_append, List.sum_append]
  omega

theorem covered_foldl {α : Type*} (step : ServerUncorePMUs → α → ServerUncorePMUs)
    (keeps : ∀ s a, s.Covered → (step s a).Covered) (l : List α) (covered : s.Covered) :
    (l.foldl step s).Covered := by
  induction l generalizing s with
  | nil => exact covered
  | cons a l ih => exact ih (keeps s a covered)

end ServerUncorePMUs

/-! ## Direct access -/

def SERVER_MC_CH_PMON_BASE_ADDR : Nat := 0x22800
def SERVER_MC_CH_PMON_STEP : Nat := 0x4000
def BHS_MC_CH_PMON_BASE_ADDR : Nat := 0x024e800
def GNR_D_A_MC_CH_PMON_BASE_ADDR : Nat := 0x0104800
def GNR_D_B_MC_CH_PMON_BASE_ADDR : Nat := 0x0208800

/-- What `initDirect` finds on a socket. -/
structure Platform where
  cpuFamilyModel : CpuModel
  /-- `getCPUFamilyModelFromCPUID()`. -/
  modelFromCPUID : CpuModel
  cpuStepping : Nat := 0
  /-- `PCM_NO_IMC_DISCOVERY` is 1. -/
  noImcDiscovery : Bool := false
  /-- By controller and channel of `MCRegisterLocation`, the device that answers there. -/
  mcDevices : List (List (Option ImcPMU)) := []
  /-- The size of `m2mPMUs`. -/
  numM2M : Nat := 0
  /-- The socket is in `socket2UBOX0bus`. -/
  uboxFound : Bool := false
  /-- The configuration space of UBOX 0. -/
  ubox0 : Nat → Nat := fun _ => 0
  /-- `createIMCPMU` at an address. -/
  createIMCPMU : Nat → ImcPMU := fun _ => ⟨fun _ => none⟩
  /-- By die, the boxes of `SPR_IMC_BOX_TYPE`: `none` without MMIO access or box control register. -/
  discoveredBoxes : List (List (Option ImcPMU)) := []

namespace Platform

variable (p : Platform)

/-- `getServerBars` (`bw.cpp:132-156`); it throws on a bar of zero. -/
def getServerBars (regBase numIMC : Nat) : Option (List Nat) :=
  (List.range numIMC).mapM fun i =>
    let memBar := ((p.ubox0 0xd0 &&& (1 <<< 29 - 1)) <<< 23) |||
      ((p.ubox0 (regBase + i * 4) &&& (1 <<< 11 - 1)) <<< 12)
    if memBar = 0 then none else some memBar

/-- `getServerMemBars` and `getServerSCFBar` (`bw.cpp:158-168`). -/
def getServerMemBars : Option (List Nat) := p.getServerBars 0xd8 p.numM2M
def getServerSCFBar : Option Nat := (p.getServerBars 0xd4 1).bind List.head?

/-- The channels of one controller of `MCRegisterLocation` (`cpucounters.cpp:8394-8406`); a
controller without a channel is left out. -/
def addController (s : ServerUncorePMUs) (ctrl : List (Option ImcPMU)) : ServerUncorePMUs :=
  let handles := ctrl.reduceOption
  s.add handles (if 0 < handles.length then [handles.length] else [])

/-- `numChannels` (`cpucounters.cpp:8507-8522`). -/
def numChannels : Nat :=
  if p.cpuFamilyModel = .SNOWRIDGE ∨ p.cpuFamilyModel = .ICX then
    if p.modelFromCPUID = .ICX_D then 3 else 2
  else if p.noImcDiscovery = true ∧ (p.cpuFamilyModel = .SPR ∨ p.cpuFamilyModel = .EMR) then 3
  else 0

/-- The channels behind one memory bar (`cpucounters.cpp:8556-8563`). -/
def addMemBar (s : ServerUncorePMUs) (memBar : Nat) : ServerUncorePMUs :=
  s.add ((List.range p.numChannels).map fun channel =>
    p.createIMCPMU (memBar + SERVER_MC_CH_PMON_BASE_ADDR + channel * SERVER_MC_CH_PMON_STEP))
    [p.numChannels]

def addMemBars (s : ServerUncorePMUs) : Option ServerUncorePMUs :=
  if p.uboxFound then p.getServerMemBars.map fun memBars => memBars.foldl p.addMemBar s else some s

/-- The boxes of the uncore discovery (`cpucounters.cpp:8568-8636`), two channels to a
controller. -/
def addDiscovered (s : ServerUncorePMUs) : ServerUncorePMUs :=
  match p.cpuFamilyModel with
  | .SPR | .EMR =>
      let boxes := p.discoveredBoxes.flatten.reduceOption
      s.add boxes (List.replicate ((s.imcPMUs.length + boxes.length + 1) / 2) 2)
  | _ => s

/-- `initBHSiMCPMUsBase` (`cpucounters.cpp:8638-8651`). -/
def initBHSiMCPMUsBase (base numChannelsParam : Nat) (s : ServerUncorePMUs) :
    Option ServerUncorePMUs :=
  let numChannels := min numChannelsParam p.numM2M
  if p.uboxFound then
    p.getServerSCFBar.map fun memBar =>
      s.add ((List.range numChannels).map fun channel =>
        p.createIMCPMU (memBar + base + channel * SERVER_MC_CH_PMON_STEP))
        (List.replicate numChannels 1)
  else some s

def initBHSiMCPMUs (numChannelsParam : Nat) : ServerUncorePMUs → Option ServerUncorePMUs :=
  p.initBHSiMCPMUsBase BHS_MC_CH_PMON_BASE_ADDR numChannelsParam

/-- The switch after the discovery (`cpucounters.cpp:8658-8670`). -/
def addBHS (s : ServerUncorePMUs) : Option ServerUncorePMUs :=
  match p.cpuFamilyModel with
  | .GRR => p.initBHSiMCPMUs 2 s
  | .GNR | .SRF => p.initBHSiMCPMUs 12 s
  | .GNR_D => p.initBHSiMCPMUsBase
      (if p.cpuStepping ≠ 0 then GNR_D_B_MC_CH_PMON_BASE_ADDR else GNR_D_A_MC_CH_PMON_BASE_ADDR) 8 s
  | _ => some s

/-- The channels behind the PCI configuration space (`cpucounters.cpp:8551-8636`). -/
def addMMIO (s : ServerUncorePMUs) : Option ServerUncorePMUs :=
  if 0 < p.numChannels then p.addMemBars s else some (p.addDiscovered s)

/-- The memory channels of `initDirect` (`cpucounters.cpp:8387-8676`); `none` when it throws. -/
def initDirect : Option ServerUncorePMUs := do
  let s ← p.addMMIO (p.mcDevices.foldl addController { cpuFamilyModel := p.cpuFamilyModel })
  let s ← p.addBHS s
  if s.imcPMUs.isEmpty then none else some s

variable {p} {s : ServerUncorePMUs}

theorem covered_addController (ctrl : List (Option ImcPMU)) (covered : s.Covered) :
    (addController s ctrl).Covered := by
  apply s.covered_add covered
  split <;> simp_all

theorem covered_addMemBar (memBar : Nat) (covered : s.Covered) : (p.addMemBar s memBar).Covered :=
  s.covered_add covered (by simp)

theorem covered_addMemBars (covered : s.Covered) : ∀ t ∈ p.addMemBars s, t.Covered := by
  intro t mem
  unfold addMemBars at mem
  split at mem
  · obtain ⟨memBars, -, rfl⟩ := Option.map_eq_some_iff.mp mem
    exact ServerUncorePMUs.covered_foldl _ (fun s memBar => covered_addMemBar memBar) memBars covered
  · cases mem
    exact covered

/-- Half of all channels, rounded up, is enough controllers of two. -/
theorem covered_addDiscovered (covered : s.Covered) : (p.addDiscovered s).Covered := by
  have pairs : (s.add p.discoveredBoxes.flatten.reduceOption (List.replicate
      ((s.imcPMUs.length + p.discoveredBoxes.flatten.reduceOption.length + 1) / 2) 2)).Covered := by
    apply s.covered_add covered
    rw [List.sum_replicate_nat]
    omega
  unfold addDiscovered
  split
  · exact pairs
  · exact pairs
  · exact covered

theorem covered_initBHSiMCPMUsBase (base numChannelsParam : Nat) (covered : s.Covered) :
    ∀ t ∈ p.initBHSiMCPMUsBase base numChannelsParam s, t.Covered := by
  intro t mem
  unfold initBHSiMCPMUsBase at mem
  split at mem
  · obtain ⟨memBar, -, rfl⟩ := Option.map_eq_some_iff.mp mem
    exact s.covered_add covered (by simp)
  · cases mem
    exact covered

theorem covered_addBHS (covered : s.Covered) : ∀ t ∈ p.addBHS s, t.Covered := by
  intro t mem
  unfold addBHS at mem
  split at mem
  · exact covered_initBHSiMCPMUsBase _ _ covered t mem
  · exact covered_initBHSiMCPMUsBase _ _ covered t mem
  · exact covered_initBHSiMCPMUsBase _ _ covered t mem
  · exact covered_initBHSiMCPMUsBase _ _ covered t mem
  · cases mem
    exact covered

theorem covered_mmio (covered : s.Covered) : ∀ t ∈ p.addMMIO s, t.Covered := by
  intro t mem
  unfold addMMIO at mem
  split at mem
  · exact covered_addMemBars covered t mem
  · cases mem
    exact covered_addDiscovered covered

/-- `initDirect` finds a controller for every channel. -/
theorem covered_initDirect : ∀ t ∈ p.initDirect, t.Covered := by
  intro t mem
  have empty : ({ cpuFamilyModel := p.cpuFamilyModel } : ServerUncorePMUs).Covered :=
    Nat.le_refl 0
  have controllers := ServerUncorePMUs.covered_foldl addController
    (fun s ctrl => covered_addController ctrl) p.mcDevices empty
  obtain ⟨s, channels, rest⟩ := Option.bind_eq_some_iff.mp mem
  obtain ⟨t', bhs, last⟩ := Option.bind_eq_some_iff.mp rest
  have covered := covered_addBHS (covered_mmio controllers s channels) t' bhs
  split at last
  · cases last
  · cases last
    exact covered

end Platform

/-! ## Perf -/

/-- `initPerf` with the memory units that perf reports (`cpucounters.cpp:9337-9356`);
`populatePerfPMUs` makes one unit of each id. -/
def initPerf (cpuFamilyModel : CpuModel) (perfPMU : Int → ImcPMU) (imcIDs m2mIDs haIDs : List Int) :
    ServerUncorePMUs :=
  let numMemControllers := max m2mIDs.length haIDs.length
  { cpuFamilyModel := cpuFamilyModel
    numImcChannels := List.replicate numMemControllers (imcIDs.length / numMemControllers)
    imcPMUs := imcIDs.map perfPMU }

theorem covered_initPerf_iff (cpuFamilyModel : CpuModel) (perfPMU : Int → ImcPMU)
    (imcIDs m2mIDs haIDs : List Int) :
    (initPerf cpuFamilyModel perfPMU imcIDs m2mIDs haIDs).Covered ↔
      max m2mIDs.length haIDs.length ∣ imcIDs.length := by
  simp only [ServerUncorePMUs.Covered, initPerf, List.length_map, List.sum_replicate_nat]
  have most := Nat.mul_div_le imcIDs.length (max m2mIDs.length haIDs.length)
  rw [Nat.dvd_iff_div_mul_eq, Nat.mul_comm (_ / _)]
  constructor
  · intro enough
    exact Nat.le_antisymm most enough
  · intro same
    exact same.ge

/-- How an object comes to its channels. -/
inductive Initialisation
  | direct (platform : Platform)
  | perf (cpuFamilyModel : CpuModel) (perfPMU : Int → ImcPMU) (imcIDs m2mIDs haIDs : List Int)

namespace Initialisation

def run : Initialisation → Option ServerUncorePMUs
  | direct platform => platform.initDirect
  | perf cpuFamilyModel perfPMU imcIDs m2mIDs haIDs =>
      some (initPerf cpuFamilyModel perfPMU imcIDs m2mIDs haIDs)

/-- The number of M2M or HA units divides the number of memory channels that perf reports. -/
def Divides : Initialisation → Prop
  | direct _ => True
  | perf _ _ imcIDs m2mIDs haIDs => max m2mIDs.length haIDs.length ∣ imcIDs.length

/-- The controllers share out the channels after every direct initialisation, and after one with
perf exactly when the division leaves no remainder. -/
theorem partitioned_iff (i : Initialisation) : (∀ s ∈ i.run, s.Partitioned) ↔ i.Divides := by
  simp only [ServerUncorePMUs.partitioned_iff_covered]
  cases i with
  | direct platform => exact iff_of_true Platform.covered_initDirect trivial
  | perf cpuFamilyModel perfPMU imcIDs m2mIDs haIDs =>
      have only := covered_initPerf_iff cpuFamilyModel perfPMU imcIDs m2mIDs haIDs
      simpa [run, Divides] using only

end Initialisation

/-! ## Three channels and two M2M units -/

def oneRead : ImcPMU := ⟨fun _ => some 1⟩

/-- The third channel has no controller. -/
theorem initPerf_not_partitioned :
    let s := initPerf .SKX (fun _ => oneRead) [10, 11, 12] [20, 21] []
    s.getImcReads = 3 ∧
    ((List.range s.getNumMC).map s.getImcReadsForController).sum = 2 ∧
    ¬ (∀ t ∈ (Initialisation.perf .SKX (fun _ => oneRead) [10, 11, 12] [20, 21] []).run,
      t.Partitioned) := by
  intro s
  have all : s.getImcReads = 3 := by decide
  have sum : ((List.range s.getNumMC).map s.getImcReadsForController).sum = 2 := by decide
  refine ⟨all, sum, ?_⟩
  intro parts
  have same := (parts s rfl).sum
  rw [all, sum] at same
  revert same
  decide

end Pcm.MemoryControllers

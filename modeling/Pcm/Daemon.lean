import Mathlib.Data.List.Range

/-!
# The measuring daemon

`Daemon` (`daemon/daemon.cpp:32-59`, `406-473`) keeps a "before" and an "after" sample of five kinds
of state and one more "before" for the link utilization, and publishes differences of them in every
iteration. The model keeps, in place of a sample, the number of the iteration that took it: the
daemon never looks into a sample, it only takes, swaps and copies them.
-/

namespace Pcm.Daemon

/-- Which sample a state is: that of the constructor is number 0, that of iteration `k` is number
`k`; `none` is a state that nobody has filled in. -/
abbrev Stamp := Option Nat

inductive Mode
  | difference
  | absolute
  deriving DecidableEq, Repr

inductive Direction
  | incoming
  | outgoing
  deriving DecidableEq, Repr

/-- The members that do not change, and what the PCM instance tells about the machine. -/
structure Config where
  mode : Mode
  /-- The subscribers `core`, `memory` and `qpi`. -/
  core : Bool
  memory : Bool
  qpi : Bool
  onlineCores : List Nat
  numSockets : Nat
  isSocketOnline : Nat → Bool
  qpiLinksPerSocket : Nat
  l3CacheOccupancyMetricAvailable : Bool
  coreLocalMemoryBWMetricAvailable : Bool
  coreRemoteMemoryBWMetricAvailable : Bool
  packageEnergyMetricsAvailable : Bool
  dramEnergyMetricsAvailable : Bool
  pmmTrafficMetricsAvailable : Bool
  qpiTrafficMetricsAvailable : Direction → Bool

def Config.onlineSockets (cfg : Config) : List Nat :=
  (List.range cfg.numSockets).filter cfg.isSocketOnline

/-- A "before" and an "after" state of one kind. -/
structure Pair where
  before : Stamp := none
  after : Stamp := none
  deriving DecidableEq, Repr

def Pair.swap (p : Pair) : Pair := ⟨p.after, p.before⟩

/-- The states a daemon keeps (`daemon.h:95-101`). -/
structure State where
  collectionTime : Pair := {}
  core : Pair := {}
  socket : Pair := {}
  system : Pair := {}
  systemForQPIBefore : Stamp := none
  serverUncore : Pair := {}
  deriving DecidableEq, Repr

/-- Whether `updatePCMState` takes system and socket states. -/
def Config.samples (cfg : Config) : Bool := cfg.core || (cfg.memory || cfg.qpi)

/-- The constructor (`daemon.cpp:53-58`): `updatePCMState` into the "before" states, and the
server uncore states just allocated. -/
def construct (cfg : Config) : State where
  collectionTime := { before := some 0 }
  core := if cfg.core then { before := some 0 } else {}
  socket := if cfg.samples then { before := some 0 } else {}
  system := if cfg.samples then { before := some 0 } else {}
  systemForQPIBefore := if cfg.samples then some 0 else none
  serverUncore := {}

/-- `updatePCMState` into the "after" states (`daemon.cpp:450-464`). -/
def updatePCMState (cfg : Config) (k : Nat) (s : State) : State :=
  { s with
    collectionTime := { s.collectionTime with after := some k }
    core := if cfg.core then { s.core with after := some k } else s.core
    socket := if cfg.samples then { s.socket with after := some k } else s.socket
    system := if cfg.samples then { s.system with after := some k } else s.system }

/-- `swapPCMBeforeAfterState` (`daemon.cpp:466-473`). -/
def swapPCMBeforeAfterState (s : State) : State :=
  { s with
    core := s.core.swap
    socket := s.socket.swap
    system := s.system.swap
    serverUncore := s.serverUncore.swap }

/-- The sampling at the start of `getPCMMemory` (`daemon.cpp:581-584`). -/
def sampleServerUncore (cfg : Config) (k : Nat) (s : State) : State :=
  if cfg.memory then { s with serverUncore := { s.serverUncore with after := some k } } else s

/-- The end of `getPCMCounters` (`daemon.cpp:437-447`). -/
def rotate (cfg : Config) (s : State) : State :=
  let s := if cfg.mode = .difference then swapPCMBeforeAfterState s else s
  let s := if cfg.qpi then { s with systemForQPIBefore := s.system.after } else s
  { s with collectionTime := s.collectionTime.swap }

/-! ## What is published -/

/-- A difference of core states that `getPCMCore` stores. -/
inductive CoreQuantity
  | instructionsPerCycle | cycles | instructionsRetired | execUsage | relativeFrequency
  | activeRelativeFrequency | l3CacheMisses | l3CacheReference | l2CacheMisses | l3CacheHitRatio
  | l2CacheHitRatio | l3CacheMPI | l2CacheMPI | localMemoryBW | remoteMemoryBW
  | localMemoryAccesses | remoteMemoryAccesses
  deriving DecidableEq, Repr

/-- The fields of `sharedPCMState_->pcm` that are computed from samples. -/
inductive Quantity
  | core (core : Nat) (q : CoreQuantity)
  | thermalHeadroom (core : Nat)
  | l3CacheOccupancy (core : Nat)
  | energyUsed (socket : Nat)
  | memoryChannels (socket : Nat)
  | memoryRead (socket : Nat)
  | memoryWrite (socket : Nat)
  | pmmRead (socket : Nat)
  | pmmWrite (socket : Nat)
  | memoryTotal (socket : Nat)
  | memoryModeHitRate (socket : Nat)
  | dramEnergy (socket : Nat)
  | systemRead
  | systemWrite
  | systemTotal
  | linkBytes (d : Direction) (socket link : Nat)
  | linkUtilization (d : Direction) (socket link : Nat)
  | socketLinkTotal (d : Direction) (socket : Nat)
  | linkTotal (d : Direction)
  deriving DecidableEq, Repr

/-- How a quantity uses samples: the newest one alone, a difference, or a difference divided by
the elapsed time. -/
inductive Use
  | now (after : Stamp)
  | difference (p : Pair)
  | rate (p : Pair) (elapsed : Pair)
  deriving DecidableEq, Repr

structure Published where
  quantity : Quantity
  uses : List Use
  deriving DecidableEq, Repr

/-- The quantities of a core that are stored on this machine. -/
def coreQuantities (cfg : Config) : List CoreQuantity :=
  [.instructionsPerCycle, .cycles, .instructionsRetired, .execUsage, .relativeFrequency,
    .activeRelativeFrequency, .l3CacheMisses, .l3CacheReference, .l2CacheMisses, .l3CacheHitRatio,
    .l2CacheHitRatio, .l3CacheMPI, .l2CacheMPI] ++
  (if cfg.coreLocalMemoryBWMetricAvailable then [.localMemoryBW] else []) ++
  (if cfg.coreRemoteMemoryBWMetricAvailable then [.remoteMemoryBW] else []) ++
  [.localMemoryAccesses, .remoteMemoryAccesses]

/-- `getPCMCore` (`daemon.cpp:486-569`). -/
def getPCMCore (cfg : Config) (s : State) : List Published :=
  (cfg.onlineCores.flatMap fun c =>
    (coreQuantities cfg).map (fun q => ⟨.core c q, [.difference s.core]⟩) ++
    [⟨.thermalHeadroom c, [.now s.core.after]⟩] ++
    (if cfg.l3CacheOccupancyMetricAvailable then [⟨.l3CacheOccupancy c, [.now s.core.after]⟩]
      else [])) ++
  (if cfg.packageEnergyMetricsAvailable then
    (List.range cfg.numSockets).map fun i => ⟨.energyUsed i, [.difference s.socket]⟩
  else [])

/-- `getPCMMemory` (`daemon.cpp:571-686`). The channels come from the server uncore states, the
persistent memory from the socket states; a socket total has both. -/
def getPCMMemory (cfg : Config) (s : State) : List Published :=
  let channels := Use.rate s.serverUncore s.collectionTime
  let pmm := if cfg.pmmTrafficMetricsAvailable then [Use.rate s.socket s.collectionTime] else []
  let all := cfg.onlineSockets.map fun _ => channels
  (cfg.onlineSockets.flatMap fun skt =>
    [⟨.memoryChannels skt, [channels]⟩, ⟨.memoryRead skt, [channels]⟩,
      ⟨.memoryWrite skt, [channels]⟩, ⟨.pmmRead skt, pmm⟩, ⟨.pmmWrite skt, pmm⟩,
      ⟨.memoryTotal skt, channels :: pmm⟩, ⟨.memoryModeHitRate skt, channels :: pmm⟩] ++
    (if cfg.dramEnergyMetricsAvailable then [⟨.dramEnergy skt, [.difference s.socket]⟩] else [])) ++
  [⟨.systemRead, all⟩, ⟨.systemWrite, all⟩, ⟨.systemTotal, all⟩]

/-- One direction of `getPCMQPI` (`daemon.cpp:688-750`). -/
def getPCMQPIDirection (cfg : Config) (s : State) (d : Direction) : List Published :=
  if cfg.qpiTrafficMetricsAvailable d then
    (cfg.onlineSockets.flatMap fun i =>
      ((List.range cfg.qpiLinksPerSocket).flatMap fun l =>
        [⟨.linkBytes d i l, [.difference s.system]⟩,
          ⟨.linkUtilization d i l, [.difference ⟨s.systemForQPIBefore, s.system.after⟩]⟩]) ++
      [⟨.socketLinkTotal d i, (List.range cfg.qpiLinksPerSocket).map fun _ => .difference s.system⟩]) ++
    [⟨.linkTotal d, [.difference s.system]⟩]
  else []

def getPCMQPI (cfg : Config) (s : State) : List Published :=
  getPCMQPIDirection cfg s .incoming ++ getPCMQPIDirection cfg s .outgoing

/-- The states from which iteration `k` publishes. -/
def sampled (cfg : Config) (k : Nat) (s : State) : State :=
  sampleServerUncore cfg k (updatePCMState cfg k s)

/-- What iteration `k` publishes (`daemon.cpp:413-429`). -/
def publish (cfg : Config) (k : Nat) (s : State) : List Published :=
  let s := sampled cfg k s
  (if cfg.core then getPCMCore cfg s else []) ++
  (if cfg.memory then getPCMMemory cfg s else []) ++
  (if cfg.qpi then getPCMQPI cfg s else [])

/-- `getPCMCounters` (`daemon.cpp:406-448`): the states after iteration `k`. -/
def getPCMCounters (cfg : Config) (k : Nat) (s : State) : State := rotate cfg (sampled cfg k s)

/-- The states after the constructor and `k` iterations. -/
def run (cfg : Config) : Nat → State
  | 0 => construct cfg
  | k + 1 => getPCMCounters cfg (k + 1) (run cfg k)

/-- What iteration `k + 1` of a run publishes. -/
def published (cfg : Config) (k : Nat) : List Published := publish cfg (k + 1) (run cfg k)

/-! ## The intervals that the published quantities should cover -/

/-- The sample from which iteration `k + 1` should measure. -/
def baseSample (cfg : Config) (k : Nat) : Nat := if cfg.mode = .difference then k else 0

def Quantity.isUtilization : Quantity → Bool
  | linkUtilization .. => true
  | _ => false

/-- A use of samples in iteration `k + 1` covers the right interval; link utilization always
measures from the previous sample, and a rate is divided by the time of its own interval. -/
def Use.Right (cfg : Config) (k : Nat) (utilization : Bool) : Use → Prop
  | now after => after = some (k + 1)
  | difference p => p = ⟨some (if utilization then k else baseSample cfg k), some (k + 1)⟩
  | rate p elapsed => p = ⟨some (baseSample cfg k), some (k + 1)⟩ ∧ elapsed = p

def Published.Right (cfg : Config) (k : Nat) (p : Published) : Prop :=
  ∀ u ∈ p.uses, u.Right cfg k p.quantity.isUtilization

/-- Everything that the first `n` iterations publish covers the right interval. -/
def IntervalsRight (cfg : Config) (n : Nat) : Prop :=
  ∀ k < n, ∀ p ∈ published cfg k, p.Right cfg k

/-! ## Which samples the daemon holds -/

/-- The sample that is the baseline of link utilization after `k` iterations: in difference mode
the states are swapped before it is taken. -/
def qpiSample (cfg : Config) (k : Nat) : Nat := if cfg.mode = .difference then k - 1 else k

/-- After `k` iterations. -/
structure Inv (cfg : Config) (k : Nat) (s : State) : Prop where
  time : s.collectionTime.before = some k
  core : cfg.core = true → s.core.before = some (baseSample cfg k)
  socket : cfg.samples = true → s.socket.before = some (baseSample cfg k)
  system : cfg.samples = true → s.system.before = some (baseSample cfg k)
  qpi : cfg.qpi = true → s.systemForQPIBefore = some (qpiSample cfg k)
  serverUncore : cfg.memory = true →
    s.serverUncore.before = if cfg.mode = .difference ∧ 0 < k then some k else none

theorem samples_of_qpi {cfg : Config} (qpi : cfg.qpi = true) : cfg.samples = true := by
  simp [Config.samples, qpi]

theorem inv_construct (cfg : Config) : Inv cfg 0 (construct cfg) where
  time := rfl
  core := by intro h; simp [construct, h, baseSample]
  socket := by intro h; simp [construct, h, baseSample]
  system := by intro h; simp [construct, h, baseSample]
  qpi := by intro h; simp [construct, samples_of_qpi h, qpiSample]
  serverUncore := by intro h; simp [construct]

theorem Inv.step {cfg : Config} {k : Nat} {s : State} (inv : Inv cfg k s) :
    Inv cfg (k + 1) (getPCMCounters cfg (k + 1) s) := by
  have core := inv.core
  have socket := inv.socket
  have system := inv.system
  have server := inv.serverUncore
  unfold getPCMCounters rotate sampled sampleServerUncore updatePCMState swapPCMBeforeAfterState
  cases mode : cfg.mode with
  | difference =>
      simp only [baseSample, mode] at core socket system server
      constructor
      · cases cfg.qpi <;> cases cfg.memory <;> rfl
      · intro h
        cases cfg.qpi <;> cases cfg.memory <;> simp [h, mode, baseSample, Pair.swap]
      · intro h
        cases cfg.qpi <;> cases cfg.memory <;> simp [h, mode, baseSample, Pair.swap]
      · intro h
        cases cfg.qpi <;> cases cfg.memory <;> simp [h, mode, baseSample, Pair.swap]
      · intro h
        have before := system (samples_of_qpi h)
        cases cfg.memory <;> simp [h, mode, qpiSample, samples_of_qpi h, before, Pair.swap]
      · intro h
        cases cfg.qpi <;> simp [h, mode, Pair.swap]
  | absolute =>
      simp only [baseSample, mode] at core socket system server
      constructor
      · cases cfg.qpi <;> cases cfg.memory <;> rfl
      · intro h
        cases cfg.qpi <;> cases cfg.memory <;> simp [h, mode, baseSample, core h]
      · intro h
        cases cfg.qpi <;> cases cfg.memory <;> simp [h, mode, baseSample, socket h]
      · intro h
        cases cfg.qpi <;> cases cfg.memory <;> simp [h, mode, baseSample, system h]
      · intro h
        cases cfg.memory <;> simp [h, mode, qpiSample, samples_of_qpi h]
      · intro h
        cases cfg.qpi <;> simp [h, mode, server h]

theorem inv_run (cfg : Config) (k : Nat) : Inv cfg k (run cfg k) := by
  induction k with
  | zero => exact inv_construct cfg
  | succ k ih => exact ih.step

/-- The states from which iteration `k + 1` publishes. -/
structure Samples (cfg : Config) (k : Nat) (s : State) : Prop where
  time : s.collectionTime = ⟨some k, some (k + 1)⟩
  core : cfg.core = true → s.core = ⟨some (baseSample cfg k), some (k + 1)⟩
  socket : cfg.samples = true → s.socket = ⟨some (baseSample cfg k), some (k + 1)⟩
  system : cfg.samples = true → s.system = ⟨some (baseSample cfg k), some (k + 1)⟩
  qpi : cfg.qpi = true → s.systemForQPIBefore = some (qpiSample cfg k)
  serverUncore : cfg.memory = true → s.serverUncore =
    ⟨if cfg.mode = .difference ∧ 0 < k then some k else none, some (k + 1)⟩

theorem Inv.samples {cfg : Config} {k : Nat} {s : State} (inv : Inv cfg k s) :
    Samples cfg k (sampled cfg (k + 1) s) := by
  unfold sampled sampleServerUncore updatePCMState
  constructor
  · cases cfg.memory <;> simp [inv.time]
  · intro h
    cases cfg.memory <;> simp [h, inv.core h]
  · intro h
    cases cfg.memory <;> simp [h, inv.socket h]
  · intro h
    cases cfg.memory <;> simp [h, inv.system h]
  · intro h
    cases cfg.memory <;> simp [inv.qpi h]
  · intro h
    simp [h, inv.serverUncore h]

/-! ## Which quantities cover the right interval -/

section Published

variable {cfg : Config} {k : Nat} {s : State}

theorem core_right (held : Samples cfg k s) (core : cfg.core = true) :
    ∀ p ∈ getPCMCore cfg s, p.Right cfg k := by
  have samples : cfg.samples = true := by simp [Config.samples, core]
  intro p mem
  unfold getPCMCore at mem
  rw [held.core core, held.socket samples] at mem
  rcases List.mem_append.mp mem with cores | energy
  · obtain ⟨c, -, inner⟩ := List.mem_flatMap.mp cores
    rcases List.mem_append.mp inner with front | occupancy
    · rcases List.mem_append.mp front with differences | headroom
      · obtain ⟨q, -, rfl⟩ := List.mem_map.mp differences
        simp [Published.Right, Use.Right, Quantity.isUtilization]
      · rw [List.mem_singleton.mp headroom]
        simp [Published.Right, Use.Right]
    · split at occupancy
      · rw [List.mem_singleton.mp occupancy]
        simp [Published.Right, Use.Right]
      · simp at occupancy
  · split at energy
    · obtain ⟨i, -, rfl⟩ := List.mem_map.mp energy
      simp [Published.Right, Use.Right, Quantity.isUtilization]
    · simp at energy

/-- Without a socket that is online, `getPCMMemory` publishes sums over nothing. -/
theorem memory_right_of_offline (offline : cfg.onlineSockets = []) :
    ∀ p ∈ getPCMMemory cfg s, p.Right cfg k := by
  intro p mem
  simp only [getPCMMemory, offline, List.flatMap_nil, List.map_nil, List.nil_append,
    List.mem_cons, List.not_mem_nil, or_false] at mem
  rcases mem with rfl | rfl | rfl <;> simp [Published.Right]

/-- In the first iteration the traffic of the memory channels is measured from server uncore
states that were never filled in. -/
theorem memory_wrong_first (held : Samples cfg 0 s) (memory : cfg.memory = true) {skt : Nat}
    (online : skt ∈ cfg.onlineSockets) : ∃ p ∈ getPCMMemory cfg s, ¬ p.Right cfg 0 := by
  refine ⟨⟨.memoryRead skt, [.rate s.serverUncore s.collectionTime]⟩, ?_, ?_⟩
  · apply List.mem_append_left
    apply List.mem_flatMap.mpr
    exact ⟨skt, online, by simp⟩
  · rw [held.serverUncore memory]
    simp [Published.Right, Use.Right]

/-- Whether some link utilization is published. -/
def Config.publishesUtilization (cfg : Config) : Prop :=
  (∃ d, cfg.qpiTrafficMetricsAvailable d = true) ∧ cfg.onlineSockets ≠ [] ∧
    0 < cfg.qpiLinksPerSocket

theorem qpi_direction_right (held : Samples cfg k s) (qpi : cfg.qpi = true)
    (fine : cfg.publishesUtilization → qpiSample cfg k = k) (d : Direction) :
    ∀ p ∈ getPCMQPIDirection cfg s d, p.Right cfg k := by
  intro p mem
  unfold getPCMQPIDirection at mem
  rw [held.system (samples_of_qpi qpi), held.qpi qpi] at mem
  split at mem
  · next available =>
      rcases List.mem_append.mp mem with sockets | total
      · obtain ⟨i, online, inner⟩ := List.mem_flatMap.mp sockets
        rcases List.mem_append.mp inner with links | sum
        · obtain ⟨l, link, bytes⟩ := List.mem_flatMap.mp links
          have published : cfg.publishesUtilization :=
            ⟨⟨d, available⟩, List.ne_nil_of_mem online, by
              have := List.mem_range.mp link
              omega⟩
          simp only [List.mem_cons, List.not_mem_nil, or_false] at bytes
          rcases bytes with rfl | rfl
          · simp [Published.Right, Use.Right, Quantity.isUtilization]
          · simp [Published.Right, Use.Right, Quantity.isUtilization, fine published]
        · rw [List.mem_singleton.mp sum]
          intro u use
          obtain ⟨l, -, rfl⟩ := List.mem_map.mp use
          simp [Use.Right, Quantity.isUtilization]
      · rw [List.mem_singleton.mp total]
        simp [Published.Right, Use.Right, Quantity.isUtilization]
  · simp at mem

theorem qpi_right (held : Samples cfg k s) (qpi : cfg.qpi = true)
    (fine : cfg.publishesUtilization → qpiSample cfg k = k) :
    ∀ p ∈ getPCMQPI cfg s, p.Right cfg k := by
  intro p mem
  rcases List.mem_append.mp mem with incoming | outgoing
  · exact qpi_direction_right held qpi fine .incoming p incoming
  · exact qpi_direction_right held qpi fine .outgoing p outgoing

/-- A link utilization measured from another sample than the previous one. -/
theorem qpi_wrong (held : Samples cfg k s) (qpi : cfg.qpi = true)
    (published : cfg.publishesUtilization) (late : qpiSample cfg k ≠ k) :
    ∃ p ∈ getPCMQPI cfg s, ¬ p.Right cfg k := by
  obtain ⟨⟨d, available⟩, sockets, links⟩ := published
  obtain ⟨i, online⟩ := List.exists_mem_of_ne_nil _ sockets
  refine ⟨⟨.linkUtilization d i 0, [.difference ⟨s.systemForQPIBefore, s.system.after⟩]⟩, ?_, ?_⟩
  · have direction : (⟨.linkUtilization d i 0,
        [.difference ⟨s.systemForQPIBefore, s.system.after⟩]⟩ : Published) ∈
        getPCMQPIDirection cfg s d := by
      unfold getPCMQPIDirection
      rw [if_pos available]
      apply List.mem_append_left
      apply List.mem_flatMap.mpr
      refine ⟨i, online, List.mem_append_left _ (List.mem_flatMap.mpr ⟨0, ?_, by simp⟩)⟩
      exact List.mem_range.mpr links
    cases d with
    | incoming => exact List.mem_append_left _ direction
    | outgoing => exact List.mem_append_right _ direction
  · rw [held.qpi qpi]
    simp [Published.Right, Use.Right, Quantity.isUtilization, late]

end Published

/-- In a run of `n` iterations everything published covers the right interval exactly when there is
no iteration, or no memory traffic is published, and link utilization only in absolute mode or in
a run of one iteration. -/
theorem intervals_right_iff (cfg : Config) (n : Nat) :
    IntervalsRight cfg n ↔
      n = 0 ∨
      (¬(cfg.memory = true ∧ cfg.onlineSockets ≠ []) ∧
        ¬(cfg.qpi = true ∧ cfg.publishesUtilization ∧ cfg.mode = .difference ∧ 2 ≤ n)) := by
  constructor
  · intro right
    by_cases none : n = 0
    · exact Or.inl none
    · refine Or.inr ⟨?_, ?_⟩
      · rintro ⟨memory, sockets⟩
        obtain ⟨skt, online⟩ := List.exists_mem_of_ne_nil _ sockets
        obtain ⟨p, mem, wrong⟩ := memory_wrong_first (inv_run cfg 0).samples memory online
        apply wrong
        apply right 0 (by omega)
        simp only [published, publish, memory, if_true]
        exact List.mem_append_left _ (List.mem_append_right _ mem)
      · rintro ⟨qpi, utilization, mode, two⟩
        have late : qpiSample cfg 1 ≠ 1 := by simp [qpiSample, mode]
        obtain ⟨p, mem, wrong⟩ := qpi_wrong (inv_run cfg 1).samples qpi utilization late
        apply wrong
        apply right 1 (by omega)
        simp only [published, publish, qpi, if_true]
        exact List.mem_append_right _ mem
  · rintro (rfl | ⟨noMemory, noUtilization⟩)
    · intro k h
      omega
    · intro k h p mem
      have held := (inv_run cfg k).samples
      rcases List.mem_append.mp mem with front | qpi
      · rcases List.mem_append.mp front with core | memory
        · split at core
          · next subscribed => exact core_right held subscribed p core
          · simp at core
        · split at memory
          · next subscribed =>
              have offline : cfg.onlineSockets = [] := by
                by_contra online
                exact noMemory ⟨subscribed, online⟩
              exact memory_right_of_offline offline p memory
          · simp at memory
      · split at qpi
        · next subscribed =>
            refine qpi_right held subscribed ?_ p qpi
            intro utilization
            unfold qpiSample
            split
            · next mode =>
                have short : ¬ 2 ≤ n := fun two =>
                  noUtilization ⟨subscribed, utilization, mode, two⟩
                omega
            · rfl
        · simp at qpi

/-- A daemon in difference mode that is subscribed to memory traffic only, on one socket. -/
def memoryDaemon : Config where
  mode := .difference
  core := false
  memory := true
  qpi := false
  onlineCores := [0]
  numSockets := 1
  isSocketOnline := fun _ => true
  qpiLinksPerSocket := 0
  l3CacheOccupancyMetricAvailable := false
  coreLocalMemoryBWMetricAvailable := false
  coreRemoteMemoryBWMetricAvailable := false
  packageEnergyMetricsAvailable := false
  dramEnergyMetricsAvailable := false
  pmmTrafficMetricsAvailable := false
  qpiTrafficMetricsAvailable := fun _ => false

/-- Its first iteration publishes memory traffic since a sample that was never taken. -/
theorem memoryDaemon_first_iteration :
    ⟨.memoryRead 0, [.rate ⟨none, some 1⟩ ⟨some 0, some 1⟩]⟩ ∈ published memoryDaemon 0 ∧
    ¬ IntervalsRight memoryDaemon 1 := by
  have mem : ⟨.memoryRead 0, [.rate ⟨none, some 1⟩ ⟨some 0, some 1⟩]⟩ ∈
      published memoryDaemon 0 := by decide
  refine ⟨mem, ?_⟩
  intro right
  have covers := right 0 (by decide) _ mem _ (List.mem_singleton.mpr rfl)
  simp [Use.Right] at covers

end Pcm.Daemon

import Pcm.UncoreCleanup

/-!
# Runs of programming calls

A PCM instance through any sequence of programming calls, with the writes it has made so far. If
every call of the sequence can be taken back where it is made, `cleanup` takes all of them back. The
invariant: each unit whose counters were written is in a list that the cleanup walks through, and
each core whose `IA32_PEBS_ENABLE` was written is covered by the flag, with perf given up.
-/

namespace Pcm

open Uncore UncorePMU WriteLog

/-! ## Calls -/

structure PcmState where
  core : CoreState
  units : UncoreUnits
  /-- What the calls have written to uncore units. -/
  log : Log := []
  /-- The cores on which the calls have written `IA32_PEBS_ENABLE`. -/
  pebsWritten : List Nat := []

/-- The programming calls, with what they meet. -/
inductive ProgrammingCall
  | program (call : Call) (readings : Readings)
  | programRaw (configs : RawPMUConfigs) (call : Call) (readback : Nat → BitVec 64)
  | programServerUncoreMemoryMetrics (metrics : MemoryMetrics) (rankA rankB : Int)
  | programServerUncorePowerMetrics (mc_profile pcu_profile : Int)
      (freq_bands : Option (BitVec 32 × BitVec 32 × BitVec 32)) (readback : Nat → BitVec 64)

/-- `EXT_CUSTOM_CORE_EVENTS == mode_ && pExtDesc && pExtDesc->defaultUncoreProgramming == false` does
not hold. -/
def Request.defaultUncore (request : Request) : Bool :=
  request.extended.all (·.defaultUncoreProgramming)

/-- A call of `program(mode, parameter)` comes to the uncore. -/
def CoreState.reachesUncore (inst : Instance) (call : Call) (s : CoreState) : Bool :=
  (s.program inst call).1 = .success && call.request.defaultUncore

/-- `pebsWrites` for a raw configuration. -/
def CoreState.rawPebsWrites (inst : Instance) (configs : RawPMUConfigs) (call : Call)
    (s : CoreState) : List Nat :=
  if inst.noMsrAccess then []
  else match inst.rawCoreRequest configs with
    | .ok (some desc) => s.pebsWrites inst { call with request := .extCustomCoreEvents (some desc) }
    | _ => []

/-- The entries before the first that is rejected. -/
def reachedEntries (entries : List (String × RawPMUConfig)) : List (String × RawPMUConfig) :=
  entries.takeWhile (entryAction · ≠ .reject)

theorem reachedEntries_cons {entry : String × RawPMUConfig} (ok : entryAction entry ≠ .reject)
    (entries : List (String × RawPMUConfig)) :
    reachedEntries (entry :: entries) = entry :: reachedEntries entries := by
  simp [reachedEntries, ok]

namespace PcmState

/-- No access to the uncore: the metrics calls return `MSRAccessDenied`. -/
def noServers (server : Server) (s : PcmState) : Bool :=
  server.noMsrAccess || s.units.serverUncorePMUs.isEmpty

def step (server : Server) (s : PcmState) : ProgrammingCall → PcmState
  | .program call readings =>
      let uncore := if s.core.reachesUncore server.toInstance call then
        s.units.programUncore server readings else (s.units, [])
      { core := (s.core.program server.toInstance call).2
        units := uncore.1
        log := s.log ++ uncore.2
        pebsWritten := s.pebsWritten ++ s.core.pebsWrites server.toInstance call }
  | .programRaw configs call readback =>
      let result := programRawConfigs server.toInstance configs call readback s.core s.units
      { core := result.core
        units := result.units
        log := s.log ++ result.log
        pebsWritten := s.pebsWritten ++ s.core.rawPebsWrites server.toInstance configs call }
  | .programServerUncoreMemoryMetrics metrics rankA rankB =>
      if s.noServers server then s
      else
        let uncore := s.units.programMemoryMetrics server metrics rankA rankB
        { s with units := uncore.1, log := s.log ++ uncore.2 }
  | .programServerUncorePowerMetrics mc_profile pcu_profile freq_bands readback =>
      if s.noServers server then s
      else
        let uncore := s.units.programPowerMetrics server readback mc_profile pcu_profile freq_bands
        { s with units := uncore.1, log := s.log ++ uncore.2 }

def run (server : Server) (s : PcmState) (calls : List ProgrammingCall) : PcmState :=
  calls.foldl (step server) s

/-- The uncore part of `cleanup`. -/
def cleanupLog (server : Server) (s : PcmState) : Log :=
  if server.noMsrAccess then [] else s.units.cleanupUncorePMUs

/-! ## Calls that can be taken back -/

/-- No counter control register of the unit has been written. -/
def Untouched (s : PcmState) (pmu : UncorePMU) : Prop :=
  CountersIn (· ≠ pmu.id) s.log

/-- The links that are found disabled have not been programmed before. -/
def KeepsLinks (server : Server) (readback : Nat → BitVec 64) (s : PcmState) : Prop :=
  ∀ link ∈ s.units.named .xpi, linkDisabled server.cpuFamilyModel readback link → s.Untouched link

/-- A call that works through perf enables PEBS on no core. -/
def KeepsPebs (server : Server) (call : Call) (s : PcmState) : Prop :=
  s.core.canUsePerf → server.dropsPerf call = false →
    s.core.pebsWrites server.toInstance call = []

/-- The entries that `program(RawPMUConfigs)` comes to. -/
def processed (server : Server) (configs : RawPMUConfigs) (call : Call) (s : PcmState) :
    List (String × RawPMUConfig) :=
  if (s.core.programRaw server.toInstance configs call).1 = .success then
    reachedEntries configs.uncoreEntries
  else []

/-- The call takes no programmed link out of its list, programs no M3UPI unit and no old uncore, and
enables PEBS on no core while perf is in use. -/
def Cleanable (server : Server) (s : PcmState) : ProgrammingCall → Prop
  | .program call readings =>
      s.KeepsPebs server call ∧
      (s.core.reachesUncore server.toInstance call →
        if server.cpuFamilyModel.hasPCICFGUncore then s.KeepsLinks server readings.readback
        else s.units.nehalemPMUs = [] ∧ s.units.becktonPMUs = [])
  | .programRaw configs call readback =>
      (∀ desc, server.rawCoreRequest configs = .ok (some desc) →
        s.KeepsPebs server { call with request := .extCustomCoreEvents (some desc) }) ∧
      ∀ entry ∈ s.processed server configs call,
        (entryAction entry = .program .xpi → s.KeepsLinks server readback) ∧
        (entryAction entry = .program .m3upi → s.units.named .m3upi = [])
  | .programServerUncoreMemoryMetrics metrics rankA rankB =>
      s.noServers server = false → (memoryEvents server metrics rankA rankB).isSome →
        ∀ link ∈ s.units.named .xpi, s.Untouched link
  | .programServerUncorePowerMetrics _ _ _ readback =>
      s.noServers server = false → s.KeepsLinks server readback

/-- Every call of a run is cleanable where it is made. -/
def Meets (server : Server) (s : PcmState) : List ProgrammingCall → Prop
  | [] => True
  | call :: calls => s.Cleanable server call ∧ (s.step server call).Meets server calls

end PcmState

/-! ## The uncore part of a call -/

namespace UncoreUnits

section Routines

variable {server : Server} {u : UncoreUnits} {keep : UncorePMU → Prop}

theorem countersIn_programChannels {mc edc : List (BitVec 64)} {s : ServerUncorePMUs}
    (mem : s ∈ u.serverUncorePMUs) :
    CountersIn (u.Survives keep) (u.programChannels server mc edc s) := by
  refine CountersIn.append (CountersIn.append ?_ ?_) ?_
  · exact countersIn_units owned_programBox fun pmu h =>
      survives_of_mem (.named .imc) (List.mem_flatMap.mpr ⟨s, mem, h⟩) rfl (by simp)
  · split
    · exact countersIn_units owned_programBox fun pmu h =>
        survives_of_mem .edc (List.mem_flatMap.mpr ⟨s, mem, h⟩) rfl (by simp)
    · exact countersIn_nil
  · exact countersIn_units owned_programBox fun pmu h =>
      survives_of_mem (.named .m2m) (List.mem_flatMap.mpr ⟨s, mem, h⟩) rfl (by simp)

theorem countersIn_links {readback : Nat → BitVec 64} {events : Option (Nat → BitVec 64)}
    {s : ServerUncorePMUs} (mem : s ∈ u.serverUncorePMUs)
    (kept : ∀ link, linkDisabled server.cpuFamilyModel readback link = false → keep link) :
    CountersIn (u.Survives keep)
      (Uncore.programXPI server.cpuFamilyModel readback events s.xpiPMUs).2 :=
  countersIn_programXPI fun link h enabled =>
    survives_of_link (List.mem_flatMap.mpr ⟨s, mem, h⟩) (kept link enabled)

theorem countersIn_programServers {readback : Nat → BitVec 64}
    (kept : ∀ link, linkDisabled server.cpuFamilyModel readback link = false → keep link) :
    CountersIn (u.Survives keep) (u.programServers server readback).2 := by
  refine CountersIn.flatMap fun s mem => ?_
  refine ((countersIn_programChannels mem).append (countersIn_links mem kept)).append ?_
  exact countersIn_units owned_programBox fun pmu h =>
    survives_of_mem (.named .ha) (List.mem_flatMap.mpr ⟨s, mem, h⟩) rfl (by simp)

theorem countersIn_programDefaultCbo : CountersIn (u.Survives keep) (u.programDefaultCbo server) := by
  refine CountersIn.append ?_ ?_
  · exact countersIn_programCbo fun pmu h => survives_of_mem (.named .cbo) h rfl (by simp)
  · split
    · exact countersIn_units owned_programBox fun pmu h =>
        survives_of_mem (.named .ubox) h rfl (by simp)
    · exact countersIn_nil

/-- A type of a raw configuration, M3UPI apart. -/
theorem countersIn_programType {readback : Nat → BitVec 64} (config : RawPMUConfig) {type : PmuType}
    (kept : ∀ link, linkDisabled server.cpuFamilyModel readback link = false → keep link)
    (m3upi : type = .m3upi → u.named .m3upi = []) :
    CountersIn (u.Survives keep) (u.programType server.cpuFamilyModel readback config type).2 := by
  by_cases links : type = .xpi
  · subst links
    exact CountersIn.flatMap fun s mem => countersIn_links mem kept
  · obtain ⟨pass, programs, log⟩ := programType_log server.cpuFamilyModel readback
      u config type
    rw [log]
    refine countersIn_units programs.owned fun pmu walked => ?_
    have mem := u.walked_subset server.cpuFamilyModel type walked
    refine survives_of_mem (.named type) mem ?_ fun h => links (UnitKind.named.inj h)
    cases type with
    | m3upi => simp [m3upi rfl] at mem
    | _ => rfl

theorem units_programType_subset {readback : Nat → BitVec 64} (config : RawPMUConfig)
    (type : PmuType) (kind : UnitKind) :
    (u.programType server.cpuFamilyModel readback config type).1.units kind ⊆ u.units kind := by
  cases type with
  | xpi => exact u.units_updateXPI_subset (programXPI_subset _ _ _) kind
  | _ => exact fun _ mem => mem

/-- The entries of a raw configuration: what they write survives, and so do the units that were
there before. -/
theorem survives_programEntries (server : Server) (u : UncoreUnits) (keep : UncorePMU → Prop)
    (readback : Nat → BitVec 64) (entries : List (String × RawPMUConfig))
    (kept : ∀ link, linkDisabled server.cpuFamilyModel readback link = false → keep link)
    (links : ∀ entry ∈ reachedEntries entries, entryAction entry = .program .xpi →
      ∀ link, keep link → linkDisabled server.cpuFamilyModel readback link = false)
    (m3upi : ∀ entry ∈ reachedEntries entries, entryAction entry = .program .m3upi →
      u.named .m3upi = []) :
    let result := programEntries server.cpuFamilyModel readback entries u
    (∀ kind, result.2.1.units kind ⊆ u.units kind) ∧
      CountersIn (result.2.1.Survives keep) result.2.2 ∧
      ∀ id, u.Survives keep id → result.2.1.Survives keep id := by
  induction entries generalizing u with
  | nil => exact ⟨fun _ _ mem => mem, countersIn_nil, fun _ h => h⟩
  | cons entry entries ih =>
      simp only [programEntries]
      cases action : entryAction entry with
      | reject => exact ⟨fun _ _ mem => mem, countersIn_nil, fun _ h => h⟩
      | skip | register =>
          rw [reachedEntries_cons (by simp [action])] at links m3upi
          exact ih u (fun e mem => links e (List.mem_cons_of_mem _ mem))
            fun e mem => m3upi e (List.mem_cons_of_mem _ mem)
      | program type =>
          rw [reachedEntries_cons (by simp [action])] at links m3upi
          have sub : ∀ kind, (u.programType server.cpuFamilyModel readback entry.2 type).1.units kind ⊆
              u.units kind := units_programType_subset entry.2 type
          have survives : ∀ id, u.Survives keep id →
              (u.programType server.cpuFamilyModel readback entry.2 type).1.Survives keep id := by
            intro id h
            cases type with
            | xpi => exact h.programXPI (links entry List.mem_cons_self action)
            | _ => exact h
          have first : CountersIn (u.Survives keep)
              (u.programType server.cpuFamilyModel readback entry.2 type).2 :=
            countersIn_programType entry.2 kept fun h => m3upi entry List.mem_cons_self (h ▸ action)
          obtain ⟨units, log, rest⟩ := ih
            (u.programType server.cpuFamilyModel readback entry.2 type).1
            (fun e mem => links e (List.mem_cons_of_mem _ mem)) fun e mem unit =>
              List.eq_nil_of_subset_nil
                (m3upi e (List.mem_cons_of_mem _ mem) unit ▸ sub (.named .m3upi))
          exact ⟨fun kind _ mem => sub kind (units kind mem),
            (first.mono fun id h => rest id (survives id h)).append log,
            fun id h => rest id (survives id h)⟩

end Routines

end UncoreUnits

/-! ## One call -/

namespace PcmState

/-- The units: each one whose counters were written is still where the cleanup finds it. -/
structure UncoreInv (server : Server) (initial : UncoreUnits) (s : PcmState) : Prop where
  units : ∀ kind, s.units.units kind ⊆ initial.units kind
  written : CountersIn (s.units.Survives fun _ => True) s.log
  access : server.noMsrAccess = true → s.log = []

/-- The cores: the flag covers those that were written, and perf is not in use if there are any. -/
structure PebsInv (server : Server) (s : PcmState) : Prop where
  perf : s.core.canUsePerf = true → s.pebsWritten = []
  flag : s.pebsWritten ≠ [] → s.core.cleanupPEBS = true
  cores : ∀ i ∈ s.pebsWritten, i < server.cores.length
  access : server.noMsrAccess = true → s.pebsWritten = []

section Uncore

variable {server : Server} {initial : UncoreUnits} {s : PcmState}

/-- Links that a call takes out of the lists can be left aside if they were not programmed. -/
theorem survives_written {keep : UncorePMU → Prop} (inv : s.UncoreInv server initial)
    (untouched : ∀ link ∈ s.units.named .xpi, ¬ keep link → s.Untouched link) :
    CountersIn (s.units.Survives keep) s.log := by
  intro w mem c counter
  obtain ⟨kind, cleaned, pmu, here, same, -⟩ := inv.written w mem c counter
  refine ⟨kind, cleaned, pmu, here, same, ?_⟩
  rintro rfl
  by_contra dropped
  exact untouched pmu here dropped w mem c counter same.symm

/-- A call that takes links out of the lists and writes counters of units that remain. -/
theorem UncoreInv.next {keep : UncorePMU → Prop} {units : UncoreUnits} {log : Log}
    (inv : s.UncoreInv server initial) (access : server.noMsrAccess = false)
    (sub : ∀ kind, units.units kind ⊆ s.units.units kind)
    (untouched : ∀ link ∈ s.units.named .xpi, ¬ keep link → s.Untouched link)
    (counters : CountersIn (units.Survives keep) log)
    (survives : ∀ id, s.units.Survives keep id → units.Survives keep id)
    (core : CoreState) (pebsWritten : List Nat) :
    UncoreInv server initial ⟨core, units, s.log ++ log, pebsWritten⟩ where
  units := fun kind _ mem => inv.units kind (sub kind mem)
  written := (((survives_written inv untouched).mono survives).append counters).mono
    fun _ h => h.mono fun _ _ => trivial
  access := fun denied => by simp [access] at denied

/-- A call that leaves the lists alone. -/
theorem UncoreInv.same (inv : s.UncoreInv server initial) {log : Log}
    (counters : CountersIn (s.units.Survives fun _ => True) log)
    (access : server.noMsrAccess = true → log = []) (core : CoreState) (pebsWritten : List Nat) :
    UncoreInv server initial ⟨core, s.units, s.log ++ log, pebsWritten⟩ where
  units := inv.units
  written := inv.written.append counters
  access := fun denied => by simp [inv.access denied, access denied]

theorem untouched_of_keepsLinks {readback : Nat → BitVec 64} (keeps : s.KeepsLinks server readback) :
    ∀ link ∈ s.units.named .xpi,
      ¬ linkDisabled server.cpuFamilyModel readback link = false → s.Untouched link :=
  fun link mem disabled => keeps link mem (by simpa using disabled)

theorem access_of_reachesUncore {call : Call}
    (reaches : s.core.reachesUncore server.toInstance call = true) : server.noMsrAccess = false := by
  cases access : server.noMsrAccess with
  | false => rfl
  | true => simp [CoreState.reachesUncore, CoreState.program, access] at reaches

/-- `program(mode, parameter)`. -/
theorem UncoreInv.step_program (inv : s.UncoreInv server initial) {call : Call} {readings : Readings}
    (cleanable : s.Cleanable server (.program call readings)) :
    (s.step server (.program call readings)).UncoreInv server initial := by
  simp only [step]
  by_cases reaches : s.core.reachesUncore server.toInstance call = true
  · have access := access_of_reachesUncore reaches
    have condition := cleanable.2 reaches
    rw [if_pos reaches]
    unfold UncoreUnits.programUncore
    by_cases pcicfg : server.cpuFamilyModel.hasPCICFGUncore = true
    · rw [if_pos pcicfg] at condition ⊢
      have survives : ∀ id, s.units.Survives (linkDisabled server.cpuFamilyModel readings.readback ·
          = false) id → (s.units.programServers server readings.readback).1.Survives
          (linkDisabled server.cpuFamilyModel readings.readback · = false) id :=
        fun id h => h.programXPI fun _ enabled => enabled
      refine inv.next access (fun kind => s.units.units_updateXPI_subset
        (programXPI_subset _ _ _) kind) (untouched_of_keepsLinks condition) ?_ survives _ _
      exact ((UncoreUnits.countersIn_programServers fun _ h => h).append
        UncoreUnits.countersIn_programDefaultCbo).mono survives
    · rw [if_neg pcicfg] at condition ⊢
      obtain ⟨nehalem, beckton⟩ := condition
      have denied : ∀ log : Log, server.noMsrAccess = true → log = [] :=
        fun _ denied => by simp [access] at denied
      split
      · rw [nehalem]
        exact inv.same countersIn_nil (denied _) _ _
      · rw [nehalem]
        exact inv.same countersIn_nil (denied _) _ _
      · rw [nehalem]
        exact inv.same countersIn_nil (denied _) _ _
      · rw [beckton]
        exact inv.same countersIn_nil (denied _) _ _
      · rw [beckton]
        exact inv.same countersIn_nil (denied _) _ _
      · exact inv.same countersIn_nil (denied _) _ _
  · rw [if_neg reaches]
    exact inv.same countersIn_nil (fun _ => rfl) _ _

/-- `program(RawPMUConfigs)`. -/
theorem UncoreInv.step_programRaw (inv : s.UncoreInv server initial) {configs : RawPMUConfigs}
    {call : Call} {readback : Nat → BitVec 64}
    (cleanable : s.Cleanable server (.programRaw configs call readback)) :
    (s.step server (.programRaw configs call readback)).UncoreInv server initial := by
  simp only [step, programRawConfigs]
  by_cases success : (s.core.programRaw server.toInstance configs call).1 = .success
  · have access : server.noMsrAccess = false := by
      cases access : server.noMsrAccess with
      | false => rfl
      | true => simp [CoreState.programRaw, access] at success
    have conditions := cleanable.2
    simp only [processed, success, if_true] at conditions ⊢
    -- a link counts as kept if no entry can take it out of its list
    obtain ⟨sub, counters, survives⟩ := UncoreUnits.survives_programEntries server s.units
      (fun link => (∃ entry ∈ reachedEntries configs.uncoreEntries,
        entryAction entry = .program .xpi) → linkDisabled server.cpuFamilyModel readback link = false)
      readback configs.uncoreEntries (fun _ enabled _ => enabled) (fun entry mem xpi _ kept => kept ⟨entry, mem, xpi⟩)
      fun entry mem => (conditions entry mem).2
    refine inv.next access sub ?_ counters survives _ _
    intro link mem dropped
    simp only [Classical.not_imp] at dropped
    obtain ⟨⟨entry, reached, xpi⟩, disabled⟩ := dropped
    exact (conditions entry reached).1 xpi link mem (by simpa using disabled)
  · simp only [success, if_false]
    exact inv.same countersIn_nil (fun _ => rfl) _ _

/-- `programServerUncoreMemoryMetrics`. -/
theorem UncoreInv.step_memoryMetrics (inv : s.UncoreInv server initial) {metrics : MemoryMetrics}
    {rankA rankB : Int}
    (cleanable : s.Cleanable server (.programServerUncoreMemoryMetrics metrics rankA rankB)) :
    (s.step server (.programServerUncoreMemoryMetrics metrics rankA rankB)).UncoreInv server
      initial := by
  simp only [step]
  by_cases denied : s.noServers server = true
  · rw [if_pos denied]
    exact inv
  · have access : server.noMsrAccess = false := by
      cases access : server.noMsrAccess with
      | false => rfl
      | true => simp [noServers, access] at denied
    have cxl : ∀ (u : UncoreUnits) (keep : UncorePMU → Prop), u.cxlPMUs = s.units.cxlPMUs →
        CountersIn (u.Survives keep)
          (programCXLCM server.cpuFamilyModel (some (registers cxlcmDefaults))
            (s.units.cxlPMUs.map Prod.fst) ++
          programCXLDP server.cpuFamilyModel (some (registers cxldpDefaults))
            (s.units.cxlPMUs.map Prod.snd)) := by
      intro u keep same
      rw [← same]
      exact (countersIn_units owned_programBox fun pmu h => UncoreUnits.survives_of_mem
        (.named .cxlcm) h rfl (by simp)).append
        (countersIn_units owned_programBox fun pmu h => UncoreUnits.survives_of_mem
          (.named .cxldp) h rfl (by simp))
    rw [if_neg denied]
    simp only [UncoreUnits.programMemoryMetrics, List.append_assoc]
    cases events : memoryEvents server metrics rankA rankB with
    | none =>
        exact inv.same (cxl s.units _ rfl) (fun denied => by simp [access] at denied) _ _
    | some tables =>
        have untouched := cleanable (by simpa using denied) (by simp [events])
        have survives : ∀ id, s.units.Survives (fun _ => False) id →
            (s.units.dropLinks (fun _ => []) (by simp)).Survives (fun _ => False) id :=
          fun id h => h.dropLinks _ fun _ _ kept => kept.elim
        refine inv.next access
          (fun kind => s.units.units_updateXPI_subset (by simp) kind)
          (fun link mem _ => untouched link mem) ?_ survives _ _
        refine CountersIn.append ?_ (cxl _ _ rfl)
        exact (CountersIn.flatMap fun _ mem =>
          UncoreUnits.countersIn_programChannels mem).mono survives

/-- `programServerUncorePowerMetrics`. -/
theorem UncoreInv.step_powerMetrics (inv : s.UncoreInv server initial) {mc_profile pcu_profile : Int}
    {freq_bands : Option (BitVec 32 × BitVec 32 × BitVec 32)} {readback : Nat → BitVec 64}
    (cleanable : s.Cleanable server
      (.programServerUncorePowerMetrics mc_profile pcu_profile freq_bands readback)) :
    (s.step server (.programServerUncorePowerMetrics mc_profile pcu_profile freq_bands
      readback)).UncoreInv server initial := by
  simp only [step]
  by_cases denied : s.noServers server = true
  · rw [if_pos denied]
    exact inv
  · have access : server.noMsrAccess = false := by
      cases access : server.noMsrAccess with
      | false => rfl
      | true => simp [noServers, access] at denied
    have keeps := cleanable (by simpa using denied)
    rw [if_neg denied]
    have survives : ∀ id, s.units.Survives (linkDisabled server.cpuFamilyModel readback · = false) id →
        (s.units.programPowerMetrics server readback mc_profile pcu_profile freq_bands).1.Survives
          (linkDisabled server.cpuFamilyModel readback · = false) id :=
      fun id h => h.programXPI fun _ enabled => enabled
    refine inv.next access (fun kind => s.units.units_updateXPI_subset (programXPI_subset _ _ _) kind)
      (untouched_of_keepsLinks keeps) ?_ survives _ _
    refine CountersIn.mono ?_ survives
    refine CountersIn.append (CountersIn.flatMap fun socket mem => ?_) ?_
    · refine (UncoreUnits.countersIn_links mem fun _ h => h).append ?_
      exact countersIn_units owned_programBox fun pmu h => UncoreUnits.survives_of_mem
        (.named .imc) (List.mem_flatMap.mpr ⟨socket, mem, h⟩) rfl (by simp)
    · exact countersIn_units owned_programBox fun pmu h =>
        UncoreUnits.survives_of_mem (.named .pcu) h rfl (by simp)

theorem UncoreInv.step (inv : s.UncoreInv server initial) {call : ProgrammingCall}
    (cleanable : s.Cleanable server call) : (s.step server call).UncoreInv server initial := by
  cases call with
  | program call readings => exact inv.step_program cleanable
  | programRaw configs call readback => exact inv.step_programRaw cleanable
  | programServerUncoreMemoryMetrics metrics rankA rankB => exact inv.step_memoryMetrics cleanable
  | programServerUncorePowerMetrics mc_profile pcu_profile freq_bands readback =>
      exact inv.step_powerMetrics cleanable

end Uncore

section Pebs

variable {server : Server} {s : PcmState}

/-- The members of the core state after a call, and the registers that it writes. -/
theorem PebsInv.next {call : Call} (inv : s.PebsInv server) (keeps : s.KeepsPebs server call)
    (units : UncoreUnits) (log : Log) :
    PebsInv server ⟨(s.core.program server.toInstance call).2, units, log,
      s.pebsWritten ++ s.core.pebsWrites server.toInstance call⟩ := by
  have flags := s.core.pebsFlags_program server.toInstance call
  simp only [CoreState.pebsFlags, Prod.mk.injEq] at flags
  have denied : server.noMsrAccess = true → s.core.pebsWrites server.toInstance call = [] := by
    intro access
    simp [CoreState.pebsWrites, CoreState.beforeCores, access]
  constructor
  · intro perf
    simp only [flags.1, Bool.and_eq_true, Bool.or_eq_true, Bool.not_eq_true'] at perf
    have writes : s.core.pebsWrites server.toInstance call = [] := by
      rcases perf.2 with access | uses
      · exact denied access
      · exact keeps perf.1 uses
    simp [inv.perf perf.1, writes]
  · intro written
    simp only [flags.2, Bool.or_eq_true]
    by_cases before : s.pebsWritten = []
    · right
      rw [before, List.nil_append] at written
      simpa using written
    · exact Or.inl (inv.flag before)
  · intro i mem
    rcases List.mem_append.mp mem with h | h
    · exact inv.cores i h
    · exact s.core.pebsWrites_lt server.toInstance call h
  · intro access
    simp [inv.access access, denied access]

/-- A call that does not come to the cores. -/
theorem PebsInv.same (inv : s.PebsInv server) (units : UncoreUnits) (log : Log) :
    PebsInv server ⟨s.core, units, log, s.pebsWritten⟩ :=
  ⟨inv.perf, inv.flag, inv.cores, inv.access⟩

theorem PebsInv.step_programRaw (inv : s.PebsInv server) {configs : RawPMUConfigs} {call : Call}
    {readback : Nat → BitVec 64}
    (cleanable : s.Cleanable server (.programRaw configs call readback)) :
    (s.step server (.programRaw configs call readback)).PebsInv server := by
  have core : (programRawConfigs server.toInstance configs call readback s.core s.units).core =
      (s.core.programRaw server.toInstance configs call).2 := by
    unfold programRawConfigs
    simp only
    split <;> rfl
  simp only [PcmState.step, core]
  unfold CoreState.programRaw CoreState.rawPebsWrites
  by_cases access : server.noMsrAccess = true
  · rw [if_pos access, if_pos access, List.append_nil]
    exact inv.same _ _
  · rw [if_neg access, if_neg access]
    cases request : server.rawCoreRequest configs with
    | error =>
        rw [List.append_nil]
        exact inv.same _ _
    | ok desc =>
        cases desc with
        | none =>
            rw [List.append_nil]
            exact inv.same _ _
        | some desc => exact inv.next (cleanable.1 desc request) _ _

theorem PebsInv.step (inv : s.PebsInv server) {call : ProgrammingCall}
    (cleanable : s.Cleanable server call) : (s.step server call).PebsInv server := by
  cases call with
  | program call readings => exact inv.next cleanable.1 _ _
  | programRaw configs call readback => exact inv.step_programRaw cleanable
  | programServerUncoreMemoryMetrics metrics rankA rankB =>
      simp only [PcmState.step]
      split
      · exact inv
      · exact inv.same _ _
  | programServerUncorePowerMetrics mc_profile pcu_profile freq_bands readback =>
      simp only [PcmState.step]
      split
      · exact inv
      · exact inv.same _ _

end Pebs

/-! ## Runs -/

/-- An instance before the first call. -/
def start (core : CoreState) (units : UncoreUnits) : PcmState := { core := core, units := units }

section Runs

variable {server : Server} {initial : UncoreUnits} {s : PcmState}

theorem UncoreInv.run (inv : s.UncoreInv server initial) {calls : List ProgrammingCall}
    (meets : s.Meets server calls) : (s.run server calls).UncoreInv server initial := by
  induction calls generalizing s with
  | nil => exact inv
  | cons call calls ih => exact ih (inv.step meets.1) meets.2

theorem PebsInv.run (inv : s.PebsInv server) {calls : List ProgrammingCall}
    (meets : s.Meets server calls) : (s.run server calls).PebsInv server := by
  induction calls generalizing s with
  | nil => exact inv
  | cons call calls ih => exact ih (inv.step meets.1) meets.2

theorem uncoreInv_start (server : Server) (core : CoreState) (units : UncoreUnits) :
    (start core units).UncoreInv server units :=
  ⟨fun _ _ mem => mem, countersIn_nil, fun _ => rfl⟩

theorem pebsInv_start (server : Server) (core : CoreState) (units : UncoreUnits) :
    (start core units).PebsInv server :=
  ⟨fun _ => rfl, fun written => absurd rfl written, by simp [start], fun _ => rfl⟩

/-- The cleanup finds a unit whose counters were written. -/
theorem UncoreInv.writtenBack (inv : s.UncoreInv server initial) {kind : UnitKind} {pmu : UncorePMU}
    (mem : pmu ∈ initial.units kind)
    (touched : ∃ c value, (pmu.register (.counterControl c), value) ∈ s.log) :
    WrittenBack (s.cleanupLog server) pmu := by
  obtain ⟨c, value, written⟩ := touched
  have access : ¬ server.noMsrAccess = true := by
    intro denied
    rw [inv.access denied] at written
    simp at written
  obtain ⟨kind', cleaned, other, here, same, -⟩ := inv.written _ written c rfl
  obtain ⟨-, rfl⟩ := initial.distinct kind' kind other (inv.units kind' here) pmu mem same
  rw [cleanupLog, if_neg access]
  exact writtenBack_cleanup cleaned here

end Runs

/-- After a run of cleanable calls, `cleanup` writes zero back to the unit control and counter control
registers of every unit of which a counter control register was written, and to `IA32_PEBS_ENABLE` of
every core on which it was written. -/
theorem cleanup_disables (server : Server) (core : CoreState) (units : UncoreUnits)
    (calls : List ProgrammingCall) (meets : (start core units).Meets server calls) :
    (∀ kind, ∀ pmu ∈ units.units kind,
      (∃ c value, (pmu.register (.counterControl c), value) ∈
        ((start core units).run server calls).log) →
      WrittenBack (((start core units).run server calls).cleanupLog server) pmu) ∧
    ∀ i ∈ ((start core units).run server calls).pebsWritten,
      (((start core units).run server calls).core.cleanup server.toInstance).pebsEnable i = 0 := by
  have uncore := (uncoreInv_start server core units).run meets
  have pebs := (pebsInv_start server core units).run meets
  refine ⟨fun kind pmu mem touched => uncore.writtenBack mem touched, fun i mem => ?_⟩
  have written : ((start core units).run server calls).pebsWritten ≠ [] := List.ne_nil_of_mem mem
  have access : server.noMsrAccess = false := by
    by_contra denied
    exact written (pebs.access (by simpa using denied))
  have perf : ((start core units).run server calls).core.canUsePerf = false := by
    by_contra uses
    exact written (pebs.perf (by simpa using uses))
  exact CoreState.pebsEnable_cleanup access (Prod.ext perf (pebs.flag written)) (pebs.cores i mem)

/-! ## Examples -/

def icelake : Server := { icelakeServer with }

/-- A raw configuration with one event for memory channels. -/
def imcCall : ProgrammingCall :=
  .programRaw (imcConfigs [0x304]) { request := .defaultEvents false } fun _ => 0

theorem cleanup_disables_channel :
    WrittenBack (((start { nmiWatchdog := none } oneChannel).run icelake [imcCall]).cleanupLog icelake)
      { id := 0, fixedCounterControl := true } := by
  have meets : (start { nmiWatchdog := none } oneChannel).Meets icelake [imcCall] := by
    refine ⟨⟨?_, ?_⟩, trivial⟩
    · intro desc request
      have none : icelake.rawCoreRequest (imcConfigs [0x304]) = .ok none := rfl
      rw [none] at request
      simp at request
    · intro entry mem
      obtain rfl := List.mem_singleton.mp mem
      exact ⟨fun xpi => absurd xpi (by decide), fun m3upi => absurd m3upi (by decide)⟩
  refine (cleanup_disables icelake { nmiWatchdog := none } oneChannel [imcCall] meets).1
    (.named .imc) _ (List.mem_singleton_self _) ⟨0, MC_CH_PCI_PMON_CTL_EN ||| 0x304, ?_⟩
  decide

/-- A socket with one M3UPI unit. -/
def oneM3UPI : UncoreUnits where
  serverUncorePMUs := [{ m3upiPMUs := [{ id := 0 }] }]
  distinct := by
    have kinds : ∀ kind, ∀ pmu ∈ ({ serverUncorePMUs := [{ m3upiPMUs := [{ id := 0 }] }] } :
        UnitLists).units kind, kind = .named .m3upi ∧ pmu = { id := 0 } := by
      intro kind pmu mem
      cases kind with
      | named type => cases type <;> simp_all [UnitLists.units, UnitLists.named]
      | _ => simp_all [UnitLists.units]
    intro kind kind' a ha b hb _
    obtain ⟨rfl, rfl⟩ := kinds kind a ha
    obtain ⟨rfl, rfl⟩ := kinds kind' b hb
    exact ⟨rfl, rfl⟩
  links := by simp [UnitLists.named]

/-- One event for M3UPI units. -/
def m3upiCall : ProgrammingCall :=
  .programRaw
    { entries := [("m3upi", { programmable := [⟨#v[0x101, 0, 0, 0, 0, 0], ""⟩] })], sorted := by simp }
    { request := .defaultEvents false } fun _ => 0

/-- The counter of an M3UPI unit still counts after `cleanup`. -/
theorem m3upi_left_enabled :
    ¬ ∀ (server : Server) (core : CoreState) (units : UncoreUnits) (calls : List ProgrammingCall),
        (∀ kind, ∀ pmu ∈ units.units kind,
          (∃ c value, (pmu.register (.counterControl c), value) ∈
            ((start core units).run server calls).log) →
          WrittenBack (((start core units).run server calls).cleanupLog server) pmu) ∧
        ∀ i ∈ ((start core units).run server calls).pebsWritten,
          (((start core units).run server calls).core.cleanup server.toInstance).pebsEnable i = 0 := by
  intro all
  have back := (all icelake { nmiWatchdog := none } oneM3UPI [m3upiCall]).1 (.named .m3upi)
    { id := 0 } (List.mem_singleton_self _) ⟨0, MC_CH_PCI_PMON_CTL_EN ||| 0x101, by decide⟩
  exact absurd (back.counterControl 0 rfl) (by decide)

end PcmState

end Pcm

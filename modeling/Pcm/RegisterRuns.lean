import Pcm.CounterAgreement
import Pcm.RegisterEvents
import Mathlib.Logic.Function.Basic

/-!
# Register events over several configurations

The register events that `getAllCounterStates` (`cpucounters.cpp:7185-7254`) records after a number
of calls of `program(RawPMUConfigs)`. A call forgets the events of the one before by assigning empty
configurations (`cpucounters.cpp:6152-6156`), but the locations of registers are kept.
-/

namespace Pcm

/-- `threadMSRConfig` and its siblings, and the tables of locations. -/
structure RegisterState where
  config : RegisterEvent → RawPMUConfig := fun _ => {}
  locations : (kind : LocatedKind) → KeyedMap RawEventEncoding (List (Location kind)) := fun _ => []

/-- What `getAllCounterStates` fills in, with the tables of register values. -/
structure Snapshot where
  states : Machine.AllCounterStates
  values : (kind : LocatedKind) → KeyedMap RawEventEncoding (List (BitVec 64))

namespace RegisterState

/-- The first lines of `program(RawPMUConfigs)`, which are about five of the six types. -/
def reset (s : RegisterState) : RegisterState :=
  { s with
    config := fun event => match event with
      | .tpmi => s.config .tpmi
      | .thread_msr | .package_msr | .pcicfg | .mmio | .pmt => {} }

/-- The branch of the loop for a type of register events. -/
def configure (p : Platform) (event : RegisterEvent) (config : RawPMUConfig) (s : RegisterState) :
    RegisterState where
  config := Function.update s.config event config
  locations := match event.located with
    | some kind => Function.update s.locations kind (p.addLocations kind config (s.locations kind))
    | none => s.locations

/-- The loop over the entries, which ends at one that is rejected. -/
def programEntries (p : Platform) : List (String × RawPMUConfig) → RegisterState → RegisterState
  | [], s => s
  | entry :: entries, s =>
      match entryAction entry with
      | .skip | .program _ => programEntries p entries s
      | .reject => s
      | .register event => programEntries p entries (s.configure p event entry.2)

/-- What `program(RawPMUConfigs)` does here; `status` is how the core part of it ended. -/
def program (inst : Instance) (p : Platform) (configs : RawPMUConfigs) (status : ErrorCode)
    (s : RegisterState) : RegisterState :=
  if inst.noMsrAccess then s
  else if status = .success then s.reset.programEntries p configs.uncoreEntries
  else s.reset

/-- The machine with the events for the registers of cores and sockets. -/
def onMachine (m : Machine) (s : RegisterState) : Machine :=
  { m with
    threadMSRConfig := s.config .thread_msr
    packageMSRConfig := s.config .package_msr }

/-- `getAllCounterStates`. -/
def getAllCounterStates (p : Platform) (m : Machine) (r : RegisterReadings) (s : RegisterState)
    (readAndAggregateSocketUncoreCounters : Bool := true) : Snapshot × RegisterState :=
  let tables := fun kind => if readAndAggregateSocketUncoreCounters then
      p.readRegisters r kind (s.config kind.event) (s.locations kind)
    else (s.locations kind, [])
  (⟨(s.onMachine m).getAllCounterStates readAndAggregateSocketUncoreCounters,
      fun kind => (tables kind).2⟩,
    { s with locations := fun kind => (tables kind).1 })

/-! ## Locations are at hand -/

/-- The tables hold locations as the machine has them, and those of all configured events. -/
structure Cached (p : Platform) (s : RegisterState) : Prop where
  sound : ∀ kind, (p.locationKeying kind).Sound (p.locate kind) (s.locations kind)
  holds : ∀ kind, ∀ cfg ∈ (s.config kind.event).events,
    (p.locationKeying kind).Holds (s.locations kind) cfg.encoding

variable {p : Platform} {s : RegisterState}

theorem cached_default (p : Platform) : Cached p {} where
  sound := fun _ => Keying.sound_nil _
  holds := by
    intro kind cfg mem
    simp [RawPMUConfig.events] at mem

theorem Cached.reset (cached : Cached p s) : Cached p s.reset where
  sound := cached.sound
  holds := by
    intro kind cfg mem
    cases kind with
    | tpmi => exact cached.holds .tpmi cfg mem
    | pcicfg | mmio | pmt =>
        simp [RegisterState.reset, LocatedKind.event, RawPMUConfig.events] at mem

/-- Events of a kind that has locations: their configuration and their table are replaced. -/
theorem configure_own (kind : LocatedKind) (config : RawPMUConfig) (s : RegisterState) :
    (s.configure p kind.event config).config kind.event = config ∧
      (s.configure p kind.event config).locations kind =
        p.addLocations kind config (s.locations kind) := by
  simp [RegisterState.configure]

/-- Events of a kind do not touch what belongs to another. -/
theorem configure_other {event : RegisterEvent} {kind : LocatedKind}
    (other : event.located ≠ some kind) (config : RawPMUConfig) (s : RegisterState) :
    (s.configure p event config).config kind.event = s.config kind.event ∧
      (s.configure p event config).locations kind = s.locations kind := by
  constructor
  · apply Function.update_of_ne
    rintro rfl
    exact other kind.located_event
  · unfold RegisterState.configure
    cases located : event.located with
    | none => rfl
    | some kind' =>
        have differs : kind ≠ kind' := by
          rintro rfl
          exact other located
        exact Function.update_of_ne differs ..

theorem Cached.configure (cached : Cached p s) (event : RegisterEvent) (config : RawPMUConfig) :
    Cached p (s.configure p event config) := by
  constructor
  · intro kind
    by_cases own : event.located = some kind
    · obtain rfl := RegisterEvent.eq_event_of_located own
      rw [(configure_own kind config s).2]
      exact (cached.sound kind).foldl_ensure p.locate_congr _
    · rw [(configure_other own config s).2]
      exact cached.sound kind
  · intro kind cfg mem
    by_cases own : event.located = some kind
    · obtain rfl := RegisterEvent.eq_event_of_located own
      rw [(configure_own kind config s).1] at mem
      rw [(configure_own kind config s).2]
      exact Keying.holds_foldl_ensure (List.mem_map_of_mem mem) _
    · rw [(configure_other own config s).1] at mem
      rw [(configure_other own config s).2]
      exact cached.holds kind cfg mem

theorem Cached.programEntries (cached : Cached p s) (entries : List (String × RawPMUConfig)) :
    Cached p (s.programEntries p entries) := by
  induction entries generalizing s with
  | nil => exact cached
  | cons entry entries ih =>
      unfold RegisterState.programEntries
      cases entryAction entry with
      | skip | program => exact ih cached
      | reject => exact cached
      | register event => exact ih (cached.configure event entry.2)

theorem Cached.program (cached : Cached p s) (inst : Instance) (configs : RawPMUConfigs)
    (status : ErrorCode) : Cached p (s.program inst p configs status) := by
  unfold RegisterState.program
  split
  · exact cached
  · split
    · exact cached.reset.programEntries configs.uncoreEntries
    · exact cached.reset

/-- Reading finds all locations and adds none. -/
theorem Cached.getAllCounterStates_state (cached : Cached p s) (m : Machine) (r : RegisterReadings)
    (uncore : Bool) : (s.getAllCounterStates p m r uncore).2 = s := by
  have same : (s.getAllCounterStates p m r uncore).2.locations = s.locations := by
    funext kind
    cases uncore with
    | false => rfl
    | true =>
        change (p.readRegisters r kind (s.config kind.event) (s.locations kind)).1 = _
        rw [p.readRegisters_eq r (cached.sound kind) (cached.holds kind)]
  change { s with locations := (s.getAllCounterStates p m r uncore).2.locations } = s
  rw [same]

/-! ## Events of a call -/

/-- The loop takes over the events under the name of each type. -/
theorem config_programEntries {entries : List (String × RawPMUConfig)}
    (distinct : (entries.map Prod.fst).Nodup)
    (accepted : ∀ entry ∈ entries, entryAction entry ≠ .reject) (event : RegisterEvent) :
    ((s.programEntries p entries).config event).events =
      if ((entries.lookup event.name).getD {}).events = [] then (s.config event).events
      else ((entries.lookup event.name).getD {}).events := by
  induction entries generalizing s with
  | nil => simp [RegisterState.programEntries, RawPMUConfig.events]
  | cons entry entries ih =>
      rw [List.map_cons, List.nodup_cons] at distinct
      have rest := fun {s} => ih (s := s) distinct.2 fun other mem =>
        accepted other (List.mem_cons_of_mem _ mem)
      have absent : entry.1 = event.name → entries.lookup event.name = none := by
        intro own
        rw [List.lookup_eq_none_iff]
        intro other mem
        rw [bne_iff_ne, ← own]
        intro same
        exact distinct.1 (List.mem_map.mpr ⟨other, mem, same.symm⟩)
      by_cases own : entry.1 = event.name
      · have here : (entry :: entries).lookup event.name = some entry.2 := by
          rw [List.lookup_cons, own, beq_self_eq_true]
        rw [here, Option.getD_some]
        unfold RegisterState.programEntries
        by_cases empty : entry.2.events = []
        · rw [entryAction_of_empty empty, if_pos empty, rest, absent own]
          simp [RawPMUConfig.events]
        · rw [entryAction_register_iff.mpr ⟨own, empty⟩, if_neg empty, rest, absent own]
          simp [RegisterState.configure, RawPMUConfig.events]
      · have here : (entry :: entries).lookup event.name = entries.lookup event.name := by
          rw [List.lookup_cons, beq_eq_false_iff_ne.mpr (Ne.symm own)]
        rw [here]
        unfold RegisterState.programEntries
        cases action : entryAction entry with
        | skip | program => exact rest
        | reject => exact absurd action (accepted entry (List.mem_cons_self ..))
        | register event' =>
            have differs : event ≠ event' := by
              rintro rfl
              exact own (entryAction_register_iff.mp action).1
            rw [rest]
            simp [RegisterState.configure, Function.update_of_ne differs]

/-- No entry of a configuration that comes through is rejected. -/
theorem accepted_of_programEntries {model : CpuModel} {readback : Nat → BitVec 64}
    {entries : List (String × RawPMUConfig)} {u : UncoreUnits}
    (ok : (UncoreUnits.programEntries model readback entries u).1) :
    ∀ entry ∈ entries, entryAction entry ≠ .reject := by
  induction entries generalizing u with
  | nil => simp
  | cons first entries ih =>
      unfold UncoreUnits.programEntries at ok
      intro entry mem
      cases action : entryAction first with
      | reject => simp [action] at ok
      | skip | register | program =>
          simp only [action] at ok
          rcases List.mem_cons.mp mem with rfl | rest
          · simp [action]
          · exact ih ok entry rest

/-- The events after a call that forgets and takes over: TPMI events stay until others come. -/
theorem config_program {inst : Instance} {configs : RawPMUConfigs}
    (access : inst.noMsrAccess = false)
    (accepted : ∀ entry ∈ configs.uncoreEntries, entryAction entry ≠ .reject)
    (event : RegisterEvent) :
    ((s.program inst p configs .success).config event).events =
      if event = .tpmi ∧ configs.registerEvents event = [] then (s.config event).events
      else configs.registerEvents event := by
  unfold RegisterState.program
  rw [access, if_neg (by simp), if_pos rfl,
    config_programEntries (nodup_uncoreEntries configs) accepted, lookup_uncoreEntries]
  change (if configs.registerEvents event = [] then _ else configs.registerEvents event) = _
  by_cases empty : configs.registerEvents event = []
  · rw [if_pos empty]
    cases event with
    | tpmi => simp [empty, RegisterState.reset]
    | _ => simp [empty, RegisterState.reset, RawPMUConfig.events]
  · simp [empty]

end RegisterState

/-! ## What is recorded -/

/-- The registers with a value of their own, and those of events. -/
def recordedMSRs (own : Nat → Option (BitVec 64)) (msr : Nat → BitVec 64)
    (events : List RawEventConfig) (index : Nat) : Option (BitVec 64) :=
  (own index).or
    (if events.any fun cfg => (cfg.encoding.get 0).toNat == index then some (msr index) else none)

/-- The register events of a configuration are in a snapshot, and no others: one value for a core or
a socket, and for the other kinds one value for each register of the event. -/
structure Recorded (p : Platform) (m : Machine) (r : RegisterReadings) (configs : RawPMUConfigs)
    (snapshot : Snapshot) : Prop where
  thread : snapshot.states.coreStates.map (·.msrValues) = m.cores.map fun core =>
    if core.online then
      recordedMSRs (m.readAndAggregate core {}).msrValues core.msr
        (configs.registerEvents .thread_msr)
    else fun _ => none
  package : ∀ socket < m.numSockets, (snapshot.states.socketStates socket).basic.msrValues =
    recordedMSRs (m.readPackageThermalHeadroom socket {}).msrValues (m.taskMsr socket)
      (configs.registerEvents .package_msr)
  located : ∀ kind e, (p.valueKeying kind).find (snapshot.values kind) e =
    if (configs.registerEvents kind.event).any fun cfg => valueCmp kind e cfg.encoding then
      some (p.registerValues r kind e)
    else none
  separate : ∀ kind, ∀ a ∈ configs.registerEvents kind.event,
    ∀ b ∈ configs.registerEvents kind.event,
      (∃ i ∈ kind.selectors, a.encoding.get i ≠ b.encoding.get i) →
        valueCmp kind a.encoding b.encoding = false

namespace Machine

theorem msrValues_readMSRs (msr : Nat → BitVec 64) (config : RawPMUConfig) (s : BasicCounterState) :
    (readMSRs msr config s).msrValues = recordedMSRs s.msrValues msr config.events := by
  unfold readMSRs
  generalize s.msrValues = values
  simp only
  induction config.events generalizing values with
  | nil =>
      funext index
      simp [recordedMSRs]
  | cons cfg events ih =>
      rw [List.foldl_cons, ih]
      funext index
      unfold recordedMSRs
      rw [List.any_cons]
      by_cases own : (cfg.encoding.get 0).toNat = index
      · subst own
        cases found : values (cfg.encoding.get 0).toNat <;> simp [setMSRValue, found]
      · have keeps : (if (values (cfg.encoding.get 0).toNat).isNone = true then
            setMSRValue values ((cfg.encoding.get 0).toNat, msr (cfg.encoding.get 0).toNat)
            else values) index = values index := by
          split
          · simp [setMSRValue, Ne.symm own]
          · rfl
        rw [keeps, beq_eq_false_iff_ne.mpr own, Bool.false_or]

/-- The register values of a socket are those of its own task. -/
theorem msrValues_socketStates (m : Machine) {socket : Nat} (below : socket < m.numSockets) :
    (m.getAllCounterStates.socketStates socket).basic.msrValues =
      recordedMSRs (m.readPackageThermalHeadroom socket {}).msrValues (m.taskMsr socket)
        m.packageMSRConfig.events := by
  rw [m.socketStates_eq below,
    Accumulate.observe_foldl_const fun s : SocketCounterState => s.basic.msrValues]
  · change (readMSRs _ _ _).msrValues = _
    rw [msrValues_readMSRs, Accumulate.observe_foldl_const fun s : SocketCounterState => s.basic]
    intro s core _
    rfl
  · intro s core _
    rfl

end Machine

namespace RegisterState

/-- A snapshot records the events that are configured. -/
theorem Cached.find_values {p : Platform} {s : RegisterState} (cached : Cached p s) (m : Machine)
    (r : RegisterReadings) (kind : LocatedKind) (e : RawEventEncoding) :
    (p.valueKeying kind).find ((s.getAllCounterStates p m r).1.values kind) e =
      if (s.config kind.event).events.any fun cfg => valueCmp kind e cfg.encoding then
        some (p.registerValues r kind e) else none := by
  change (p.valueKeying kind).find
    (p.readRegisters r kind (s.config kind.event) (s.locations kind)).2 e = _
  have respects : ∀ {a b}, (p.valueKeying kind).same a b = true →
      p.registerValues r kind a = p.registerValues r kind b :=
    fun same => p.registerValues_congr r (LocatedKind.selectors_of_valueCmp same)
  rw [p.readRegisters_eq r (cached.sound kind) (cached.holds kind),
    Keying.find_foldl_put respects, List.any_map, Keying.find_nil]
  rfl

/-- A snapshot records the events of a configuration if all of them are configured. -/
theorem Cached.recorded {p : Platform} {s : RegisterState} (cached : Cached p s) (m : Machine)
    (r : RegisterReadings) {configs : RawPMUConfigs}
    (all : ∀ event, (s.config event).events = configs.registerEvents event) :
    Recorded p m r configs (s.getAllCounterStates p m r).1 := by
  constructor
  · change ((s.onMachine m).cores.map (s.onMachine m).coreState).map (·.msrValues) = _
    rw [List.map_map]
    apply List.map_congr_left
    intro core _
    simp only [Function.comp_apply, Machine.coreState]
    split
    · rw [Machine.msrValues_readMSRs]
      congr 1
      exact all .thread_msr
    · rfl
  · intro socket below
    change ((s.onMachine m).getAllCounterStates.socketStates socket).basic.msrValues = _
    rw [(s.onMachine m).msrValues_socketStates below]
    congr 1
    exact all .package_msr
  · intro kind e
    rw [cached.find_values, all]
  · rintro kind a - b - ⟨i, mem, differs⟩
    by_contra same
    exact differs (LocatedKind.selectors_of_valueCmp (Bool.of_not_eq_false same) i mem)

/-- With all others configured, it depends on the TPMI events. -/
theorem Cached.recorded_iff {p : Platform} {s : RegisterState} (cached : Cached p s) (m : Machine)
    (r : RegisterReadings) {configs : RawPMUConfigs}
    (others : ∀ event, event ≠ .tpmi → (s.config event).events = configs.registerEvents event)
    (stale : configs.registerEvents .tpmi = [] ∨
      (s.config .tpmi).events = configs.registerEvents .tpmi) :
    Recorded p m r configs (s.getAllCounterStates p m r).1 ↔
      (s.config .tpmi).events = configs.registerEvents .tpmi := by
  constructor
  · intro recorded
    rcases stale with none | same
    · rw [none]
      cases events : (s.config .tpmi).events with
      | nil => rfl
      | cons cfg rest =>
          have found := recorded.located .tpmi cfg.encoding
          rw [cached.find_values] at found
          simp [LocatedKind.event, events, none, LocatedKind.valueCmp_iff] at found
    · exact same
  · intro same
    apply cached.recorded
    intro event
    by_cases tpmi : event = .tpmi
    · rw [tpmi, same]
    · exact others event tpmi

end RegisterState

/-! ## Runs -/

/-- What `program(RawPMUConfigs)` works on. -/
structure RawState where
  core : CoreState
  units : UncoreUnits
  registers : RegisterState := {}

inductive RawAction
  | program (configs : RawPMUConfigs) (call : Call) (readback : Nat → BitVec 64)
  | getAllCounterStates (m : Machine) (r : RegisterReadings) (uncore : Bool)

namespace RawState

/-- `program(RawPMUConfigs)`. -/
def program (inst : Instance) (p : Platform) (configs : RawPMUConfigs) (call : Call)
    (readback : Nat → BitVec 64) (s : RawState) : ErrorCode × RawState :=
  let result := programRawConfigs inst configs call readback s.core s.units
  (result.status, ⟨result.core, result.units,
    s.registers.program inst p configs (s.core.programRaw inst configs call).1⟩)

/-- A run in which every call of `program` succeeds. -/
def run (inst : Instance) (p : Platform) : List RawAction → RawState → Option RawState
  | [], s => some s
  | .program configs call readback :: actions, s =>
      let result := s.program inst p configs call readback
      if result.1 = .success then run inst p actions result.2 else none
  | .getAllCounterStates m r uncore :: actions, s =>
      run inst p actions { s with registers := (s.registers.getAllCounterStates p m r uncore).2 }

/-- The configurations of a run. -/
def configurations (actions : List RawAction) : List RawPMUConfigs :=
  actions.filterMap fun action => match action with
    | .program configs _ _ => some configs
    | .getAllCounterStates _ _ _ => none

/-- The last TPMI events that were configured. -/
def lastTPMI (history : List RawPMUConfigs) : List RawEventConfig :=
  history.foldl
    (fun events configs =>
      if configs.registerEvents .tpmi = [] then events else configs.registerEvents .tpmi) []

theorem lastTPMI_append (history : List RawPMUConfigs) (configs : RawPMUConfigs) :
    lastTPMI (history ++ [configs]) =
      if configs.registerEvents .tpmi = [] then lastTPMI history
      else configs.registerEvents .tpmi := by
  rw [lastTPMI, List.foldl_append]
  rfl

theorem lastTPMI_eq_nil_iff (history : List RawPMUConfigs) :
    lastTPMI history = [] ↔ ∀ configs ∈ history, configs.registerEvents .tpmi = [] := by
  induction history using List.reverseRecOn with
  | nil => simp [lastTPMI]
  | append_singleton history configs ih =>
      rw [lastTPMI_append]
      by_cases empty : configs.registerEvents .tpmi = []
      · simp [empty, ih, or_imp, forall_and]
      · simp [empty, or_imp, forall_and]

/-- What is configured after a number of successful calls. -/
structure Follows (p : Platform) (history : List RawPMUConfigs) (s : RegisterState) : Prop where
  cached : s.Cached p
  tpmi : (s.config .tpmi).events = lastTPMI history
  others : ∀ event, event ≠ .tpmi →
    (s.config event).events = (history.getLast?.map (·.registerEvents event)).getD []

variable {inst : Instance} {p : Platform}

theorem follows_default (p : Platform) : Follows p [] {} where
  cached := RegisterState.cached_default p
  tpmi := rfl
  others := fun _ _ => rfl

/-- A call that succeeds comes to the end of its loop. -/
theorem accepted_of_success {configs : RawPMUConfigs} {call : Call} {readback : Nat → BitVec 64}
    {s : RawState} (success : (s.program inst p configs call readback).1 = .success) :
    inst.noMsrAccess = false ∧ (s.core.programRaw inst configs call).1 = .success ∧
      ∀ entry ∈ configs.uncoreEntries, entryAction entry ≠ .reject := by
  change (programRawConfigs inst configs call readback s.core s.units).status = .success at success
  unfold programRawConfigs at success
  by_cases first : (s.core.programRaw inst configs call).1 = .success
  · simp only [first, if_true] at success
    refine ⟨?_, first, ?_⟩
    · cases access : inst.noMsrAccess with
      | false => rfl
      | true => simp [CoreState.programRaw, access] at first
    · have ok : (UncoreUnits.programEntries inst.cpuFamilyModel readback configs.uncoreEntries
          s.units).1 := by
        by_contra rejected
        simp [rejected] at success
      exact RegisterState.accepted_of_programEntries ok
  · simp only [first, if_false] at success

theorem Follows.program {history : List RawPMUConfigs} {s : RawState}
    (follows : Follows p history s.registers) {configs : RawPMUConfigs} {call : Call}
    {readback : Nat → BitVec 64}
    (success : (s.program inst p configs call readback).1 = .success) :
    Follows p (history ++ [configs]) (s.program inst p configs call readback).2.registers := by
  obtain ⟨access, core, accepted⟩ := accepted_of_success success
  have registers : (s.program inst p configs call readback).2.registers =
      s.registers.program inst p configs .success := by
    rw [← core]
    rfl
  rw [registers]
  refine ⟨follows.cached.program inst configs .success, ?_, fun event other => ?_⟩
  · rw [RegisterState.config_program access accepted, lastTPMI_append, follows.tpmi]
    simp
  · rw [RegisterState.config_program access accepted, List.getLast?_concat]
    simp [other]

/-- Every run leaves what its configurations say. -/
theorem Follows.run {actions : List RawAction} {history : List RawPMUConfigs} {s s' : RawState}
    (follows : Follows p history s.registers) (ran : RawState.run inst p actions s = some s') :
    Follows p (history ++ configurations actions) s'.registers := by
  induction actions generalizing history s with
  | nil =>
      obtain rfl := Option.some.inj ran
      simpa [configurations] using follows
  | cons action actions ih =>
      cases action with
      | program configs call readback =>
          simp only [RawState.run] at ran
          split at ran
          · next success =>
            have rest := ih (follows.program success) ran
            rw [List.append_assoc] at rest
            exact rest
          · simp at ran
      | getAllCounterStates m r uncore =>
          simp only [RawState.run] at ran
          rw [follows.cached.getAllCounterStates_state] at ran
          exact ih follows ran

/-- The events recorded after a run are those of its last configuration exactly if that one has TPMI
events, or none before it had. -/
theorem register_events_recorded_iff {actions : List RawAction} {core : CoreState}
    {units : UncoreUnits} {s : RawState} (ran : run inst p actions { core, units } = some s)
    {earlier : List RawPMUConfigs} {last : RawPMUConfigs}
    (history : configurations actions = earlier ++ [last]) (m : Machine) (r : RegisterReadings) :
    Recorded p m r last (s.registers.getAllCounterStates p m r).1 ↔
      last.registerEvents .tpmi ≠ [] ∨ ∀ configs ∈ earlier, configs.registerEvents .tpmi = [] := by
  have follows : Follows p ([] ++ configurations actions) s.registers :=
    (follows_default p).run ran
  rw [List.nil_append, history] at follows
  have tpmi := follows.tpmi
  rw [lastTPMI_append] at tpmi
  rw [follows.cached.recorded_iff m r, tpmi, ← lastTPMI_eq_nil_iff]
  · by_cases empty : last.registerEvents .tpmi = []
    · simp [empty]
    · simp [empty]
  · intro event other
    rw [follows.others event other, List.getLast?_concat]
    rfl
  · rw [tpmi]
    by_cases empty : last.registerEvents .tpmi = []
    · exact Or.inl empty
    · exact Or.inr (if_neg empty)

/-- A configuration with one TPMI event. -/
def tpmiConfigs : RawPMUConfigs where
  entries := [("tpmi", { programmable := [⟨#v[6, 0x18, 0, 0, 0, 0], ""⟩] })]
  sorted := by simp

/-- A configuration with one event in PCI configuration space. -/
def pcicfgConfigs : RawPMUConfigs where
  entries := [("pcicfg", { programmable := [⟨#v[0x3450, 0x90, 0, 0, 0, 32], ""⟩] })]
  sorted := by simp

def tpmiPlatform : Platform where
  numTPMIInstances := 1
  numTPMIEntries := fun _ _ _ => 1

/-- Switching from one configuration to another, with a snapshot between them. -/
def switch (first second : RawPMUConfigs) : List RawAction :=
  [.program first { request := .defaultEvents false } fun _ => 0,
    .getAllCounterStates (Machine.cacheMachine 1) {} true,
    .program second { request := .defaultEvents false } fun _ => 0]

theorem register_events_recorded_iff_switch :
    ∃ s, run icelakeServer tpmiPlatform (switch pcicfgConfigs tpmiConfigs)
        { core := { nmiWatchdog := none }, units := oneChannel } = some s ∧
      (Recorded tpmiPlatform (Machine.cacheMachine 1) {} tpmiConfigs
          (s.registers.getAllCounterStates tpmiPlatform (Machine.cacheMachine 1) {}).1 ↔
        tpmiConfigs.registerEvents .tpmi ≠ [] ∨
          ∀ configs ∈ [pcicfgConfigs], configs.registerEvents .tpmi = []) := by
  have succeeds : (run icelakeServer tpmiPlatform (switch pcicfgConfigs tpmiConfigs)
      { core := { nmiWatchdog := none }, units := oneChannel }).isSome := by decide
  have ran := (Option.some_get succeeds).symm
  exact ⟨_, ran, register_events_recorded_iff ran rfl _ _⟩

/-- The TPMI event of one configuration is still read when the next has none. -/
theorem tpmi_event_still_read :
    ¬ ∀ (inst : Instance) (p : Platform) (actions : List RawAction) (core : CoreState)
        (units : UncoreUnits) (s : RawState), run inst p actions { core, units } = some s →
        ∀ (earlier : List RawPMUConfigs) (last : RawPMUConfigs),
          configurations actions = earlier ++ [last] → ∀ (m : Machine) (r : RegisterReadings),
            Recorded p m r last (s.registers.getAllCounterStates p m r).1 := by
  intro all
  have succeeds : (run icelakeServer tpmiPlatform (switch tpmiConfigs pcicfgConfigs)
      { core := { nmiWatchdog := none }, units := oneChannel }).isSome := by decide
  have recorded := all icelakeServer tpmiPlatform _ _ _ _ (Option.some_get succeeds).symm
    [tpmiConfigs] pcicfgConfigs rfl (Machine.cacheMachine 1) {}
  have stale : (tpmiPlatform.valueKeying .tpmi).find
      ((RegisterState.getAllCounterStates tpmiPlatform (Machine.cacheMachine 1) {}
        ((run icelakeServer tpmiPlatform (switch tpmiConfigs pcicfgConfigs)
          { core := { nmiWatchdog := none }, units := oneChannel }).get
            (by decide)).registers).1.values .tpmi) #v[6, 0x18, 0, 0, 0, 0] = some [0] := by
    decide
  have nothing := recorded.located .tpmi #v[6, 0x18, 0, 0, 0, 0]
  exact absurd (stale.symm.trans nothing) (by decide)

end RawState

end Pcm

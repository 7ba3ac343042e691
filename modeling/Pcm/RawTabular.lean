import Pcm.RawAlignment

/-!
# When the transposed output is a table

For every kind of PMU type: which places the header names, which places a line has values for, and when
the two are the same.
-/

namespace Pcm.Raw

open StdString

/-! ## Kinds of PMU types -/

/-- The kinds of one PMU type for two configurations: only the name in the data of `imc` may differ. -/
inductive SameKind : Kind → Kind → Prop
  | cores (coreType : CoreType) : SameKind (.cores coreType) (.cores coreType)
  | msrs (scope : MSRScope) : SameKind (.msrs scope) (.msrs scope)
  | registers (getEventString : String → RawEventEncoding → Bytes) :
      SameKind (.registers getEventString) (.registers getEventString)
  | uncore {a b : UncoreRows} (headerUnits : a.headerUnits = b.headerUnits)
      (headerName : a.headerName = b.headerName) (dataUnits : a.dataUnits = b.dataUnits) :
      SameKind (.uncore a) (.uncore b)
  | unrecognized : SameKind .unrecognized .unrecognized

theorem SameKind.refl (kind : Kind) : SameKind kind kind := by
  cases kind with
  | cores coreType => exact .cores coreType
  | msrs scope => exact .msrs scope
  | registers getEventString => exact .registers getEventString
  | uncore rows => exact .uncore rfl rfl rfl
  | unrecognized => exact .unrecognized

theorem kindOf_imc (m : Machine) (config : RawPMUConfig) :
    kindOf m "imc" config = .uncore
      { UncoreRows.same m.mcChannelsPerSocket "CHAN" with
        dataName := fixedEventName config, fixedMetric := true } := by
  simp [kindOf]

theorem sameKind_kindOf (m : Machine) (type : String) (first config : RawPMUConfig) :
    SameKind (kindOf m type first) (kindOf m type config) := by
  by_cases imc : type = "imc"
  · subst imc
    rw [kindOf_imc, kindOf_imc]
    exact .uncore rfl rfl rfl
  · have same : kindOf m type first = kindOf m type config := by
      simp only [kindOf, if_neg imc]
    rw [same]
    exact .refl _

/-! ## Texts of the header -/

/-- The text in the header between the numbers of socket and unit. -/
def headerMisc (m : Machine) (type : String) : Bytes :=
  match kindOf m type {} with
  | .uncore rows => rows.headerName
  | _ => []

/-- The texts with which the headers name a place. -/
def headerTexts (m : Machine) (type : String) : Place → List Bytes
  | .core core =>
      [ascii "SKT" ++ decimalInt (m.socketId core) ++ ascii "CORE" ++ decimal core,
        ascii type ++ ascii "_SKT" ++ decimalInt (m.socketId core) ++ ascii "_CORE" ++ decimal core]
  | .socket s => [ascii "SKT" ++ decimal s, ascii type ++ ascii "_SKT" ++ decimal s]
  | .unit s u =>
      [ascii "SKT" ++ decimal s ++ headerMisc m type ++ decimal u,
        ascii "SKT_" ++ decimal s ++ headerMisc m type ++ decimal u,
        ascii type ++ ascii "_SKT" ++ decimal s ++ (ascii "_" ++ headerMisc m type) ++ decimal u]
  | .system r => [ascii "SYSTEM_" ++ decimal r, ascii type ++ ascii "_SYSTEM_" ++ decimal r]

section Texts

variable {s : Setting} {place : Place}

/-- In a header that records the columns, the name of the units is that of the header. -/
theorem miscName_header (counts : s.outputType.countsColumns = true) (rows : UncoreRows) :
    rows.miscName s = rows.headerName := by
  revert counts
  simp only [UncoreRows.miscName]
  cases s.outputType with
  | header1 => exact fun _ => rfl
  | header21 => exact fun _ => rfl
  | header2 => nofun
  | data => nofun
  | json => nofun

theorem maxUnit_header (counts : s.outputType.countsColumns = true) (rows : UncoreRows) :
    rows.maxUnit s = rows.headerUnits := by
  revert counts
  simp only [UncoreRows.maxUnit]
  cases s.outputType with
  | header1 => exact fun _ => rfl
  | header21 => exact fun _ => rfl
  | header2 => nofun
  | data => nofun
  | json => nofun

theorem headerMisc_eq {config : RawPMUConfig} {rows : UncoreRows}
    (kind : kindOf s.machine s.type config = .uncore rows) :
    headerMisc s.machine s.type = rows.headerName := by
  have same := sameKind_kindOf s.machine s.type {} config
  rw [kind] at same
  rw [headerMisc]
  generalize kindOf s.machine s.type {} = other at same
  cases same with
  | uncore headerUnits headerName dataUnits => exact headerName

theorem mem_units {numSockets maxUnit : Nat} (member : place ∈ units numSockets maxUnit) :
    ∃ skt u, place = .unit skt u := by
  obtain ⟨skt, -, inner⟩ := List.mem_flatMap.mp member
  obtain ⟨u, -, rfl⟩ := List.mem_map.mp inner
  exact ⟨skt, u, rfl⟩

/-- The columns that a line of a PMU type may have. -/
inductive ColumnsOf (s : Setting) (config : RawPMUConfig) : Kind → Columns → Prop
  | cores (coreType : CoreType) (metricFunc : Nat → Nat) :
      ColumnsOf s config (.cores coreType) (coreColumns s coreType metricFunc)
  | msrs (scope : MSRScope) {event : RawEventConfig} (member : event ∈ config.events) :
      ColumnsOf s config (.msrs scope) (msrColumns s scope event)
  | registers (getEventString : String → RawEventEncoding → Bytes) {event : RawEventConfig}
      (member : event ∈ config.events) : ColumnsOf s config (.registers getEventString)
        (registerColumns s (getRegisterEvent s.sample s.type event.encoding))
  | uncore (rows : UncoreRows) {header1 : String} (begins : header1 = "SKT" ∨ header1 = "SKT_")
      {value : Place → Bytes} (counted : value = fixedValue s rows ∨ ∃ i, value = uncoreValue s i) :
      ColumnsOf s config (.uncore rows) (uncoreColumns s rows header1 value)

theorem columnsOf_fixedGroup {coreType : CoreType} {event : RawEventConfig} {cnt : Nat} {row : Row}
    (config : RawPMUConfig) (member : row ∈ fixedGroup s coreType event cnt) :
    ColumnsOf s config (.cores coreType) row.2 := by
  rw [fixedGroup] at member
  rcases List.mem_cons.mp member with rfl | later
  · exact .cores coreType _
  · split at later
    · obtain ⟨t, -, rfl⟩ := List.mem_map.mp later
      exact .cores coreType _
    · cases later

/-- What the lines of a PMU type look like. -/
theorem columnsOf_groups {config : RawPMUConfig} {row : Row}
    (member : row ∈ (groups s config).flatten) :
    ColumnsOf s config (kindOf s.machine s.type config) row.2 := by
  obtain ⟨group, inGroups, inGroup⟩ := List.mem_flatten.mp member
  rw [groups] at inGroups
  revert inGroups
  cases kindOf s.machine s.type config <;> intro inGroups
  case cores coreType =>
      rcases List.mem_append.mp inGroups with fixed | programmable
      · obtain ⟨counter, -, rfl⟩ := List.mem_map.mp fixed
        exact columnsOf_fixedGroup config inGroup
      · obtain ⟨event, -, rfl⟩ := List.mem_map.mp programmable
        rw [List.mem_singleton.mp inGroup]
        exact .cores coreType _
  case msrs scope =>
      obtain ⟨event, here, rfl⟩ := List.mem_map.mp inGroups
      rw [List.mem_singleton.mp inGroup]
      exact .msrs scope here
  case registers getEventString =>
      obtain ⟨event, here, rfl⟩ := List.mem_map.mp inGroups
      rw [List.mem_singleton.mp inGroup]
      exact .registers getEventString here
  case uncore rows =>
      rcases List.mem_append.mp inGroups with fixed | programmable
      · split at fixed
        · cases fixed
        · rw [List.mem_singleton.mp fixed] at inGroup
          rw [List.mem_singleton.mp inGroup]
          exact .uncore rows (Or.inl rfl) (Or.inl rfl)
      · obtain ⟨event, -, rfl⟩ := List.mem_map.mp programmable
        rw [List.mem_singleton.mp inGroup]
        exact .uncore rows (Or.inr rfl) (Or.inr ⟨_, rfl⟩)
  case unrecognized => cases inGroups

theorem headRows_subset {config : RawPMUConfig} {row : Row} (member : row ∈ headRows s config) :
    row ∈ (groups s config).flatten := by
  rw [headRows] at member
  cases shape : groups s config with
  | nil =>
      rw [shape] at member
      cases member
  | cons group gs =>
      rw [shape] at member
      exact List.mem_flatten.mpr ⟨group, List.mem_cons_self, member⟩

/-- A header names the places of its columns. -/
theorem headerName_mem (counts : s.outputType.countsColumns = true) {config : RawPMUConfig} {row : Row}
    (member : row ∈ (groups s config).flatten) (inside : place ∈ row.2.places) :
    row.2.headerName s.outputType place ∈ headerTexts s.machine s.type place := by
  have shape := columnsOf_groups member
  rcases kind : kindOf s.machine s.type config with coreType | scope | getEventString | rows | -
  all_goals rw [kind] at shape
  all_goals generalize row.2 = columns at shape inside
  · cases shape with
    | cores _ metricFunc =>
        obtain ⟨core, -, rfl⟩ := List.mem_map.mp inside
        simp only [Columns.headerName, coreColumns, headerTexts]
        split <;> simp [coreName]
  · cases shape with
    | msrs _ here =>
        cases scope with
        | thread =>
            obtain ⟨core, -, rfl⟩ := List.mem_map.mp inside
            simp only [Columns.headerName, msrColumns, headerTexts]
            split <;> simp [coreName]
        | package =>
            obtain ⟨skt, -, rfl⟩ := List.mem_map.mp inside
            simp only [Columns.headerName, msrColumns, headerTexts]
            split <;> simp [socketName]
  · cases shape with
    | registers _ here =>
        obtain ⟨r, -, rfl⟩ := List.mem_map.mp inside
        simp only [Columns.headerName, registerColumns, headerTexts]
        split <;> simp [systemName]
  · cases shape with
    | uncore _ begins counted =>
        obtain ⟨skt, u, rfl⟩ := mem_units inside
        simp only [Columns.headerName, uncoreColumns, headerTexts, headerMisc_eq kind,
          miscName_header counts]
        rcases begins with rfl | rfl
        · split <;> simp [unitName]
        · split <;> simp [unitName]
  · cases shape

end Texts

/-! ## Places of the header -/

def msrPlaces (m : Machine) : MSRScope → List Place
  | .thread => (List.range m.numCores).map .core
  | .package => (List.range m.numSockets).map .socket

/-- The number of lines in the header of the cores: only the first one is needed, but the topdown metrics
print theirs as well. -/
def headerLines (m : Machine) (first : RawPMUConfig) : Nat :=
  match enabledCounters first with
  | (event, cnt) :: _ => if cnt = 3 && perfMetrics event then 1 + numTMAEvents m else 1
  | [] => if first.programmable = [] then 0 else 1

/-- The number of registers that the first event has when the header is printed. -/
def headerRegisters (sample : Sample) (type : String) (first : RawPMUConfig) : Nat :=
  match first.events with
  | event :: _ => (getRegisterEvent sample type event.encoding).length
  | [] => 0

/-- The places of the columns of a header, by kind of PMU type. -/
def headerPlaces (m : Machine) (options : Options) (sample : Sample) (type : String)
    (first : RawPMUConfig) : List Place :=
  match kindOf m type first with
  | .cores coreType =>
      (List.replicate (headerLines m first) ((printedCores m options coreType).map .core)).flatten
  | .msrs scope => if first.events = [] then [] else msrPlaces m scope
  | .registers _ => (List.range (headerRegisters sample type first)).map .system
  | .uncore rows => units m.numSockets (if first.events = [] then 0 else rows.headerUnits)
  | .unrecognized => []

section Places

variable {s : Setting}

theorem units_zero (numSockets : Nat) : units numSockets 0 = [] := by
  simp [units]

theorem length_units (numSockets maxUnit : Nat) :
    (units numSockets maxUnit).length = numSockets * maxUnit := by
  simp [units, List.length_flatMap]

theorem places_fixedGroup (coreType : CoreType) (event : RawEventConfig) (cnt : Nat) :
    (fixedGroup s coreType event cnt).flatMap (·.2.places) =
      (List.replicate (if cnt = 3 && perfMetrics event then 1 + numTMAEvents s.machine else 1)
        ((printedCores s.machine s.options coreType).map .core)).flatten := by
  have topdown : (topdownRows s coreType).flatMap (·.2.places) =
      (List.replicate (numTMAEvents s.machine)
        ((printedCores s.machine s.options coreType).map .core)).flatten := by
    rw [topdownRows, List.flatMap_map, List.flatMap_def]
    congr 1
    rw [List.eq_replicate_iff]
    refine ⟨by simp, ?_⟩
    intro places member
    obtain ⟨t, -, rfl⟩ := List.mem_map.mp member
    rfl
  rw [fixedGroup]
  split
  · rw [List.flatMap_cons, topdown, Nat.add_comm, List.replicate_succ, List.flatten_cons]
    rfl
  · simp [coreColumns]

theorem places_headRows_cores (first : RawPMUConfig) (coreType : CoreType) :
    ((coreGroups s first coreType).head?.getD []).flatMap (·.2.places) =
      (List.replicate (headerLines s.machine first)
        ((printedCores s.machine s.options coreType).map .core)).flatten := by
  rw [coreGroups, headerLines]
  cases enabledCounters first with
  | cons counter counters => exact places_fixedGroup coreType counter.1 counter.2
  | nil =>
      cases first.programmable with
      | nil => simp
      | cons event events => simp [coreColumns]

theorem places_headRows_uncore (counts : s.outputType.countsColumns = true) (first : RawPMUConfig)
    (rows : UncoreRows) :
    ((uncoreGroups s first rows).head?.getD []).flatMap (·.2.places) =
      units s.machine.numSockets (if first.events = [] then 0 else rows.headerUnits) := by
  rw [uncoreGroups, RawPMUConfig.events]
  cases first.fixed with
  | cons event events => simp [uncoreColumns, maxUnit_header counts]
  | nil =>
      cases first.programmable with
      | nil => simp [units_zero]
      | cons event events => simp [uncoreColumns, maxUnit_header counts]

/-- The columns of a header are for these places. -/
theorem places_headRows (counts : s.outputType.countsColumns = true) (first : RawPMUConfig) :
    (headRows s first).flatMap (·.2.places) =
      headerPlaces s.machine s.options s.sample s.type first := by
  simp only [headRows, groups, headerPlaces]
  cases kindOf s.machine s.type first with
  | cores coreType => exact places_headRows_cores first coreType
  | msrs scope =>
      simp only [msrGroups]
      cases first.events with
      | nil => rfl
      | cons event events => cases scope <;> simp [msrColumns, msrPlaces]
  | registers getEventString =>
      simp only [registerGroups, headerRegisters]
      cases first.events with
      | nil => rfl
      | cons event events => simp [registerColumns]
  | uncore rows => exact places_headRows_uncore counts first rows
  | unrecognized => rfl

/-! ## Places of the data -/

theorem maxUnit_data (data : s.outputType = .data) (rows : UncoreRows) :
    rows.maxUnit s = rows.dataUnits := by
  rw [UncoreRows.maxUnit, data]
  rfl

theorem places_msrColumns (scope : MSRScope) (event : RawEventConfig) :
    (msrColumns s scope event).places = msrPlaces s.machine scope := by
  cases scope <;> rfl

section Shapes

variable {config : RawPMUConfig} {columns : Columns}

theorem cores_places {coreType : CoreType} (shape : ColumnsOf s config (.cores coreType) columns) :
    columns.places = (printedCores s.machine s.options coreType).map .core := by
  cases shape with
  | cores _ metricFunc => rfl

theorem msrs_places {scope : MSRScope} (shape : ColumnsOf s config (.msrs scope) columns) :
    columns.places = msrPlaces s.machine scope := by
  cases shape with
  | msrs _ member => exact places_msrColumns scope _

theorem uncore_places (data : s.outputType = .data) {rows : UncoreRows}
    (shape : ColumnsOf s config (.uncore rows) columns) :
    columns.places = units s.machine.numSockets rows.dataUnits := by
  cases shape with
  | uncore _ begins counted =>
      rw [← maxUnit_data data]
      rfl

end Shapes

theorem flatten_coreGroups_eq_nil {config : RawPMUConfig} {coreType : CoreType} :
    (coreGroups s config coreType).flatten = [] ↔
      enabledCounters config = [] ∧ config.programmable = [] := by
  rw [coreGroups, List.flatten_append, List.append_eq_nil_iff]
  refine and_congr ?_ ?_
  · cases enabledCounters config with
    | nil => simp
    | cons counter counters => simp [fixedGroup]
  · cases config.programmable with
    | nil => simp
    | cons event events => simp

theorem flatten_uncoreGroups_eq_nil {config : RawPMUConfig} {rows : UncoreRows} :
    (uncoreGroups s config rows).flatten = [] ↔ config.events = [] := by
  rw [uncoreGroups, RawPMUConfig.events]
  cases config.fixed with
  | nil =>
      cases config.programmable with
      | nil => simp
      | cons event events => simp
  | cons event events => simp

theorem flatten_msrGroups_eq_nil {config : RawPMUConfig} {scope : MSRScope} :
    (msrGroups s config scope).flatten = [] ↔ config.events = [] := by
  rw [msrGroups]
  cases config.events with
  | nil => simp
  | cons event events => simp

theorem forall_registerGroups {config : RawPMUConfig}
    {getEventString : String → RawEventEncoding → Bytes} {P : Columns → Prop} :
    (∀ row ∈ (registerGroups s config getEventString).flatten, P row.2) ↔
      ∀ event ∈ config.events,
        P (registerColumns s (getRegisterEvent s.sample s.type event.encoding)) := by
  rw [registerGroups, ← List.flatMap_def]
  constructor
  · intro each event member
    exact each _ (List.mem_flatMap.mpr ⟨event, member, List.mem_singleton_self _⟩)
  · intro each row member
    obtain ⟨event, here, single⟩ := List.mem_flatMap.mp member
    rw [List.mem_singleton.mp single]
    exact each event here

end Places

/-- Lines that are all for the same places. -/
theorem forall_length_iff {rows : List Row} {P : List Place} (n : Nat)
    (uniform : ∀ row ∈ rows, row.2.places = P) :
    (∀ row ∈ rows, row.2.places.length = n) ↔ rows = [] ∨ P.length = n := by
  constructor
  · intro each
    cases rows with
    | nil => exact Or.inl rfl
    | cons row rows =>
        have here := each row List.mem_cons_self
        rw [uniform row List.mem_cons_self] at here
        exact Or.inr here
  · rintro (rfl | same) row member
    · cases member
    · rw [uniform row member, same]

/-! ## When the data fits the header -/

/-- When the lines of a PMU type have the columns of its header. -/
def Tabular (m : Machine) (options : Options) (headerSample : Sample) (first : RawPMUConfig)
    (sample : Sample) (type : String) (config : RawPMUConfig) : Prop :=
  match kindOf m type config with
  | .cores coreType =>
      (enabledCounters config = [] ∧ config.programmable = []) ∨
        printedCores m options coreType = [] ∨ headerLines m first = 1
  | .msrs scope => config.events = [] ∨ msrPlaces m scope = [] ∨ first.events ≠ []
  | .registers _ =>
      ∀ event ∈ config.events, (getRegisterEvent sample type event.encoding).length =
        headerRegisters headerSample type first
  | .uncore rows =>
      config.events = [] ∨ m.numSockets = 0 ∨
        (if first.events = [] then 0 else rows.headerUnits) = rows.dataUnits
  | .unrecognized => True

section Fits

variable {m : Machine} {options : Options} {headerSample sample : Sample} {type : String}
  {first config : RawPMUConfig} {start : Nat}

theorem length_flatten_replicate_eq {n : Nat} {places : List Place} :
    places.length = (List.replicate n places).flatten.length ↔ places = [] ∨ n = 1 := by
  have length : (List.replicate n places).flatten.length = n * places.length := by simp
  rw [length]
  constructor
  · intro same
    rcases Nat.eq_zero_or_pos places.length with none | some
    · exact Or.inl (List.length_eq_zero_iff.mp none)
    · exact Or.inr (Nat.eq_of_mul_eq_mul_right some (by omega))
  · rintro (rfl | rfl)
    · simp
    · simp

/-- The lines have as many places as the header. -/
theorem length_places_iff :
    (∀ row ∈ (groups ⟨m, options, sample, .data, type, start⟩ config).flatten,
      row.2.places.length = (headerPlaces m options headerSample type first).length) ↔
      Tabular m options headerSample first sample type config := by
  have shapes : ∀ row ∈ (groups ⟨m, options, sample, .data, type, start⟩ config).flatten,
      ColumnsOf ⟨m, options, sample, .data, type, start⟩ config (kindOf m type config) row.2 :=
    fun row member => columnsOf_groups member
  have same := sameKind_kindOf m type first config
  rw [groups, Tabular, headerPlaces]
  simp only [groups] at shapes
  revert same shapes
  rcases kindOf m type config with coreType | scope | getEventString | rows | -
  all_goals
    intro shapes same
    generalize kindOf m type first = kind at same
    cases same
  · rw [forall_length_iff (P := (printedCores m options coreType).map .core) _
      (fun row member => cores_places (shapes row member)), flatten_coreGroups_eq_nil,
      length_flatten_replicate_eq, List.map_eq_nil_iff]
  · rw [forall_length_iff (P := msrPlaces m scope) _ (fun row member => msrs_places (shapes row member)),
      flatten_msrGroups_eq_nil]
    refine or_congr Iff.rfl ?_
    by_cases none : first.events = []
    · simp [none]
    · simp [none]
  · refine (forall_registerGroups (P := fun columns => columns.places.length = _)).trans ?_
    simp [registerColumns]
  · rename_i headerUnits headerName dataUnits
    rw [forall_length_iff (P := units m.numSockets rows.dataUnits) _
      (fun row member => uncore_places rfl (shapes row member)), flatten_uncoreGroups_eq_nil,
      length_units, length_units, mul_eq_mul_left_iff, headerUnits]
    exact or_congr Iff.rfl (or_comm.trans (or_congr Iff.rfl eq_comm))
  · simp

/-- Where there are as many places, they are the same. -/
theorem places_eq_of_length {row : Row}
    (member : row ∈ (groups ⟨m, options, sample, .data, type, start⟩ config).flatten)
    (same : row.2.places.length = (headerPlaces m options headerSample type first).length) :
    row.2.places = headerPlaces m options headerSample type first := by
  have shape := columnsOf_groups member
  have sameKind := sameKind_kindOf m type first config
  revert same
  rw [headerPlaces]
  generalize row.2 = columns at shape
  generalize kindOf m type first = kind at sameKind
  cases kind' : kindOf m type config
  all_goals
    rw [kind'] at sameKind
    simp only [kind'] at shape
    cases sameKind
  case cores coreType =>
      rw [cores_places shape, length_flatten_replicate_eq]
      rintro (none | one)
      · simp [none]
      · simp [one]
  case msrs scope =>
      rw [msrs_places shape]
      by_cases none : first.events = []
      · simp [none]
      · simp [none]
  case registers getEventString =>
      cases shape with
      | registers _ here =>
          simp only [registerColumns, List.length_map, List.length_range]
          intro same
          rw [same]
  case uncore rows headerRows headerUnits headerName dataUnits =>
      rw [uncore_places rfl shape, length_units, length_units, mul_eq_mul_left_iff]
      rintro (same | none)
      · rw [same]
      · simp only at none
        simp [units, none]
  case unrecognized => cases shape

end Fits

/-! ## Runs of `printAll` -/

/-- One call for each measured group. -/
abbrev Calls := List (RawPMUConfigs × Sample)

section Runs

variable (m : Machine) (options : Options) (PMUConfigs : List RawPMUConfigs)

def printAlls (g : Globals) : Calls → List Printed
  | [] => []
  | call :: calls =>
      (printAll m options call.2 PMUConfigs g call.1).2 ::
        printAlls (printAll m options call.2 PMUConfigs g call.1).1 calls

/-- The header of a run is printed with its first sample. -/
def headerOf (printed : List Printed) : Blocks := (printed.head?.map (·.header1)).getD []

/-- The lines of a PMU type in a sample, by name and columns. -/
def dataRows (sample : Sample) (entry : String × RawPMUConfig) : List Row :=
  (groups ⟨m, options, sample, .data, entry.1, 0⟩ entry.2).flatten

/-- A line under a header: after the leading columns, an empty one for each column of the PMU types before,
and the values of the places that the columns of its PMU type name. -/
def AlignedLine (header : Blocks) (sample : Sample) (type : String) (row : Row) (l : Line) : Prop :=
  ∃ places : List Place,
    List.Forall₂ (fun place text => text ∈ headerTexts m type place) places (columnsFor header type) ∧
      fields l = leading m sample row.1 ++
        (List.replicate (columnsBefore header type).length [] ++ places.map row.2.value)

/-- All lines of all calls are aligned with the header. -/
def Aligned (calls : Calls) (printed : List Printed) : Prop :=
  List.Forall₂ (fun call out =>
    List.Forall₂ (fun entry block => block.1 = entry.1 ∧
      List.Forall₂ (AlignedLine m (headerOf printed) call.2 entry.1)
        (dataRows m options call.2 entry) block.2)
      call.1.entries out.data) calls printed

/-- The type of the header from which the columns are known. -/
def headerType : CsvOutputType := if options.singleHeader then .header21 else .header1

/-- Where the columns of the PMU types begin, by the header of this sample. -/
def offsetsOf (sample : Sample) : List PrintOffset :=
  offsetsFrom m options sample (headerType options) 0 (firsts [] (allEntries PMUConfigs))

def headerBlocks (sample : Sample) : Blocks :=
  (firsts [] (allEntries PMUConfigs)).map (headerBlock m options sample (headerType options))

/-- The lines of a group, with the columns at these places. -/
def dataBlocks (offsets : List PrintOffset) (sample : Sample)
    (entries : List (String × RawPMUConfig)) : Blocks :=
  entries.map (fun entry => (entry.1, (dataRows m options sample entry).map (fun row =>
    line ⟨m, options, sample, .data, entry.1,
      ((offsets.find? (·.entry = entry.1)).map (·.start)).getD 0⟩ row.1 row.2)))

variable {m options PMUConfigs}

theorem countsColumns_headerType (options : Options) :
    (headerType options).countsColumns = true := by
  rw [headerType]
  split <;> rfl

variable (m PMUConfigs) in
theorem printAll_first (extended : options.extendPrintout = true) (sample : Sample)
    (group : RawPMUConfigs) :
    ∃ printedBlocks header2,
      printAll m options sample PMUConfigs {} group =
        (⟨offsetsOf m options PMUConfigs sample, printedBlocks, false⟩,
          ⟨headerBlocks m options PMUConfigs sample, header2,
            dataBlocks m options (offsetsOf m options PMUConfigs sample) sample group.entries⟩) := by
  have header : printTransposed m options sample (headerType options) {} (allEntries PMUConfigs) = _ :=
    printTransposed_header (countsColumns_headerType options) {} (allEntries PMUConfigs)
  rw [headerType] at header
  simp only [printAll, extended, Bool.and_true, if_true, printHeader_eq, offsetsOf, headerBlocks,
    headerType]
  by_cases single : options.singleHeader = true
  · simp only [if_pos single] at header ⊢
    simp only [header, printTransposed_data]
    exact ⟨_, _, rfl⟩
  · simp only [if_neg single] at header ⊢
    have second : ∀ g : Globals, (printTransposed m options sample .header2 g
        (allEntries PMUConfigs)).1.printOffsets = g.printOffsets :=
      fun g => printOffsets_header2 g (allEntries PMUConfigs)
    simp only [header, printTransposed_data, dataBlocks, getPrintOffset, second]
    exact ⟨_, _, rfl⟩

theorem printAll_later {g : Globals} (later : g.displayHeader = false) (sample : Sample)
    (group : RawPMUConfigs) :
    printAll m options sample PMUConfigs g group =
      (g, { data := dataBlocks m options g.printOffsets sample group.entries }) := by
  obtain ⟨printOffsets, printedBlocks, displayHeader⟩ := g
  subst later
  simp only [printAll, Bool.false_and, Bool.false_eq_true, if_false, printTransposed_data]
  rfl

theorem printAlls_later {g : Globals} (later : g.displayHeader = false) (calls : Calls) :
    printAlls m options PMUConfigs g calls = calls.map
      (fun call => { data := dataBlocks m options g.printOffsets call.2 call.1.entries }) := by
  induction calls with
  | nil => rfl
  | cons call calls ih => rw [printAlls, printAll_later later, List.map_cons, ih]

variable (m PMUConfigs) in
/-- Every call of a run prints its data by the header of the first one. -/
theorem printAlls_eq (extended : options.extendPrintout = true) (call : RawPMUConfigs × Sample)
    (calls : Calls) :
    headerOf (printAlls m options PMUConfigs {} (call :: calls)) =
        headerBlocks m options PMUConfigs call.2 ∧
      (printAlls m options PMUConfigs {} (call :: calls)).map (·.data) = (call :: calls).map
        (fun later => dataBlocks m options (offsetsOf m options PMUConfigs call.2) later.2
          later.1.entries) := by
  obtain ⟨printedBlocks, header2, first⟩ :=
    printAll_first m PMUConfigs extended call.2 call.1
  rw [printAlls, first, printAlls_later rfl]
  refine ⟨rfl, ?_⟩
  rw [List.map_cons, List.map_cons, List.map_map]
  rfl

/-! ## Alignment -/

variable {headerSample sample : Sample} {type : String} {first : RawPMUConfig}

/-- The lines of a PMU type begin after the columns before those of its header. -/
theorem start_eq (present : (allEntries PMUConfigs).lookup type = some first) :
    (((offsetsOf m options PMUConfigs headerSample).find? (·.entry = type)).map (·.start)).getD 0 =
      (columnsBefore (headerBlocks m options PMUConfigs headerSample) type).length := by
  have unknown : type ∉ ([] : List String) := List.not_mem_nil
  rw [← lookup_firsts unknown] at present
  rw [offsetsOf, find_offsetsFrom 0 _ present, headerBlocks,
    length_columnsBefore (countsColumns_headerType options), Nat.zero_add]
  rfl

theorem columnsFor_headerBlocks (present : (allEntries PMUConfigs).lookup type = some first) :
    columnsFor (headerBlocks m options PMUConfigs headerSample) type =
      (typeRows m options headerSample (headerType options) type first).flatMap
        (fun row => row.2.places.map (row.2.headerName (headerType options))) := by
  rw [columnsFor, headerBlocks, lookup_headerBlocks, lookup_firsts List.not_mem_nil, present]
  exact columnsOf_headerBlock (countsColumns_headerType options) first

/-- Columns that name their places do so one line after the other. -/
theorem forall₂_flatMap {R : Place → Bytes → Prop} {rows : List Row} (name : Columns → Place → Bytes)
    (named : ∀ row ∈ rows, ∀ place ∈ row.2.places, R place (name row.2 place)) :
    List.Forall₂ R (rows.flatMap (·.2.places))
      (rows.flatMap (fun row => row.2.places.map (name row.2))) := by
  induction rows with
  | nil => exact .nil
  | cons row rows ih =>
      rw [List.flatMap_cons, List.flatMap_cons]
      refine List.rel_append ?_ (ih (fun later member => named later (List.mem_cons_of_mem row member)))
      rw [List.forall₂_map_right_iff, List.forall₂_same]
      exact named row List.mem_cons_self

theorem named_headerPlaces (present : (allEntries PMUConfigs).lookup type = some first) :
    List.Forall₂ (fun place text => text ∈ headerTexts m type place)
      (headerPlaces m options headerSample type first)
      (columnsFor (headerBlocks m options PMUConfigs headerSample) type) := by
  have counts := countsColumns_headerType options
  rw [columnsFor_headerBlocks present]
  have places := places_headRows (s := ⟨m, options, headerSample, headerType options, type, 0⟩) counts first
  simp only at places
  rw [← places]
  refine forall₂_flatMap (fun columns => columns.headerName (headerType options)) ?_
  intro row member place inside
  exact headerName_mem (s := ⟨m, options, headerSample, headerType options, type, 0⟩) counts
    (headRows_subset member) inside

/-- A line is aligned when it has as many values as the header has columns. -/
theorem alignedLine_iff (present : (allEntries PMUConfigs).lookup type = some first)
    {config : RawPMUConfig} {row : Row} (member : row ∈ dataRows m options sample (type, config)) :
    AlignedLine m (headerBlocks m options PMUConfigs headerSample) sample type row
        (line ⟨m, options, sample, .data, type,
          (((offsetsOf m options PMUConfigs headerSample).find? (·.entry = type)).map
            (·.start)).getD 0⟩ row.1 row.2) ↔
      row.2.places.length = (headerPlaces m options headerSample type first).length := by
  have named : List.Forall₂ (fun place text => text ∈ headerTexts m type place) _
    (columnsFor (headerBlocks m options PMUConfigs headerSample) type) := named_headerPlaces present
  rw [AlignedLine, fields_data rfl, start_eq present]
  constructor
  · rintro ⟨places, named', same⟩
    have length := congrArg List.length same
    simp only [List.length_append, List.length_map] at length
    have count := named'.length_eq.trans named.length_eq.symm
    omega
  · intro same
    refine ⟨_, named, ?_⟩
    rw [places_eq_of_length member same]

/-- The first configuration of a PMU type, in the order of the groups. -/
def firstConfig (PMUConfigs : List RawPMUConfigs) (type : String) : RawPMUConfig :=
  ((allEntries PMUConfigs).lookup type).getD {}

theorem lookup_allEntries {group : RawPMUConfigs} (known : group ∈ PMUConfigs)
    {entry : String × RawPMUConfig} (member : entry ∈ group.entries) :
    (allEntries PMUConfigs).lookup entry.1 = some (firstConfig PMUConfigs entry.1) := by
  rw [firstConfig]
  rcases found : (allEntries PMUConfigs).lookup entry.1 with - | config
  · rw [List.lookup_eq_none_iff] at found
    have different := found entry (List.mem_flatMap.mpr ⟨group, known, member⟩)
    simp at different
  · rfl

/-- All lines of a run are aligned when they all have as many values as the header has columns. -/
theorem aligned_iff_length {call : RawPMUConfigs × Sample} {calls : Calls}
    (extended : options.extendPrintout = true)
    (known : ∀ later ∈ call :: calls, later.1 ∈ PMUConfigs) :
    Aligned m options (call :: calls) (printAlls m options PMUConfigs {} (call :: calls)) ↔
      ∀ later ∈ call :: calls, ∀ entry ∈ later.1.entries, ∀ row ∈ dataRows m options later.2 entry,
        row.2.places.length =
          (headerPlaces m options call.2 entry.1 (firstConfig PMUConfigs entry.1)).length := by
  obtain ⟨header, data⟩ := printAlls_eq m PMUConfigs extended call calls
  have byData : ∀ {R : RawPMUConfigs × Sample → Blocks → Prop} {printed : List Printed},
      List.Forall₂ (fun later out => R later out.data) (call :: calls) printed ↔
        List.Forall₂ R (call :: calls) (printed.map (·.data)) :=
    List.forall₂_map_right_iff.symm
  rw [Aligned, header, byData, data, List.forall₂_map_right_iff, List.forall₂_same]
  refine forall₂_congr (fun later member => ?_)
  rw [dataBlocks, List.forall₂_map_right_iff, List.forall₂_same]
  refine forall₂_congr (fun entry inside => ?_)
  have present := lookup_allEntries (known later member) inside
  rw [List.forall₂_map_right_iff, List.forall₂_same, and_iff_right rfl]
  exact forall₂_congr (fun row here => alignedLine_iff present here)

/-- All lines of a run are aligned with its header exactly when the PMU types of its groups fit. -/
theorem printAlls_aligned_iff (m : Machine) (options : Options) (PMUConfigs : List RawPMUConfigs)
    (call : RawPMUConfigs × Sample) (calls : Calls) (extended : options.extendPrintout = true)
    (known : ∀ later ∈ call :: calls, later.1 ∈ PMUConfigs) :
    Aligned m options (call :: calls) (printAlls m options PMUConfigs {} (call :: calls)) ↔
      ∀ later ∈ call :: calls, ∀ entry ∈ later.1.entries,
        Tabular m options call.2 (firstConfig PMUConfigs entry.1) later.2 entry.1 entry.2 := by
  rw [aligned_iff_length extended known]
  refine forall₂_congr (fun later member => ?_)
  exact forall₂_congr (fun entry inside => length_places_iff)

end Runs

section Tables

/-- A machine with one socket and one core. -/
def smallMachine (pcus : Nat) : Machine :=
  { numSockets := 1
    numCores := 1
    socketId := fun _ => 0
    coreType := fun _ => .core
    isHybrid := false
    isHWTMAL2Supported := false
    nominalFrequency := 1000
    qpiLinksPerSocket := 0
    mcChannelsPerSocket := 0
    mcPerSocket := 0
    maxNumOfIIOStacks := 0
    maxNumOfUncorePMUs := fun _ => pcus }

/-- A sample in which every counter is the same. -/
def steadySample (count : Nat) : Sample :=
  { time := ⟨2024, 1, 1, 0, 0, 0, 0⟩
    invariantTSC := 1000
    fixedCore := fun _ _ => count
    topdown := fun _ _ => count
    customEvents := fun _ _ => count
    coreMSR := fun _ _ _ => count
    socketMSR := fun _ _ _ => count
    uncore := fun _ _ _ _ => count
    uncoreFixed := fun _ _ _ => count
    registersBefore := fun _ _ => none
    registersAfter := fun _ _ => none }

/-- One event of the PCU. -/
def pcuGroup : RawPMUConfigs :=
  { entries := [("pcu", { programmable := [{ encoding := Vector.replicate 6 0 }] })]
    sorted := List.pairwise_singleton _ _ }

def extendedOptions : Options := { extendPrintout := true }

theorem tabular_pcuGroup_iff (pcus : Nat) (first sample : Sample) :
    (∀ entry ∈ pcuGroup.entries, Tabular (smallMachine pcus) extendedOptions first
      (firstConfig [pcuGroup] entry.1) sample entry.1 entry.2) ↔ pcus = 1 := by
  simp [pcuGroup, firstConfig, allEntries, Tabular, kindOf, RawPMUConfig.events, smallMachine]

/-- Two sockets with a core and two memory channels each. -/
def twoSocketMachine : Machine :=
  { smallMachine 1 with
    numSockets := 2
    numCores := 2
    socketId := fun core => core
    mcChannelsPerSocket := 2 }

/-- Two events of the memory channels and one of the PCU. -/
def mixedGroup : RawPMUConfigs :=
  { entries :=
      [("imc",
          { programmable :=
              [{ encoding := #v[0x304, 0, 0, 0, 0, 0] }, { encoding := #v[0xC04, 0, 0, 0, 0, 0] }] }),
        ("pcu", { programmable := [{ encoding := Vector.replicate 6 0 }] })]
    sorted := by decide }

/-- The lines of the channels come behind the time, those of the PCUs behind the four columns of the channels. -/
theorem printAlls_aligned_two_types :
    Aligned twoSocketMachine extendedOptions
      [(mixedGroup, steadySample 3), (pcuGroup, steadySample 4), (mixedGroup, steadySample 5)]
      (printAlls twoSocketMachine extendedOptions [mixedGroup, pcuGroup] {}
        [(mixedGroup, steadySample 3), (pcuGroup, steadySample 4), (mixedGroup, steadySample 5)]) := by
  refine (printAlls_aligned_iff twoSocketMachine extendedOptions [mixedGroup, pcuGroup]
    (mixedGroup, steadySample 3) [(pcuGroup, steadySample 4), (mixedGroup, steadySample 5)] rfl (by simp)).mpr ?_
  have tabular : ∀ group ∈ [mixedGroup, pcuGroup], ∀ first sample, ∀ entry ∈ group.entries,
      Tabular twoSocketMachine extendedOptions first (firstConfig [mixedGroup, pcuGroup] entry.1) sample entry.1
        entry.2 := by
    intro group member first sample
    rcases List.mem_pair.mp member with rfl | rfl
    · simp [mixedGroup, pcuGroup, firstConfig, allEntries, Tabular, kindOf, RawPMUConfig.events, twoSocketMachine,
        smallMachine, List.lookup_cons, UncoreRows.same]
    · simp [mixedGroup, pcuGroup, firstConfig, allEntries, Tabular, kindOf, RawPMUConfig.events, twoSocketMachine,
        smallMachine, List.lookup_cons]
  intro later member
  simp only [List.mem_cons, List.not_mem_nil, or_false] at member
  rcases member with rfl | rfl | rfl
  · exact tabular mixedGroup (by simp) _ _
  · exact tabular pcuGroup (by simp) _ _
  · exact tabular mixedGroup (by simp) _ _

/-- With two PCUs the header has two columns, and the line one value. -/
theorem printAlls_misaligned_pcu :
    ¬ Aligned (smallMachine 2) extendedOptions [(pcuGroup, steadySample 3)]
      (printAlls (smallMachine 2) extendedOptions [pcuGroup] {} [(pcuGroup, steadySample 3)]) := by
  rw [aligned_iff_length rfl (by simp)]
  intro each
  have fits := (tabular_pcuGroup_iff 2 (steadySample 3) (steadySample 3)).mp (fun entry inside =>
    length_places_iff.mp (each _ List.mem_cons_self entry inside))
  cases fits

end Tables

end Pcm.Raw

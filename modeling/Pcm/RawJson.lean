import Pcm.RawTabular
import Pcm.Lib.JsonScan

/-!
# JSON output of `pcm-raw`

With `-json` the columns are separated by `,"`, and a line is an object: the time, the event and one member
for each place. The name of a core is printed also where its value is left out, for a core of another type
than that of the PMU, so such a line is no JSON.
-/

namespace Pcm.Raw

open StdString Json

/-! ## The text of a line -/

/-- What is written to `cout`, with the separator that `-json` sets. -/
def Piece.bytes : Piece → Bytes
  | .separator => ascii ",\""
  | .text written => written
  | .endl => [10]

def render (l : Line) : Bytes := l.flatMap Piece.bytes

/-- The text is a JSON object, with pairwise distinct keys. -/
def WellFormed (text : Bytes) : Prop :=
  ∃ members, Document (.object members) text ∧ (members.map (·.1)).Nodup

/-- A key and a value. -/
def itemText (item : Bytes × Bytes) : Bytes := quoted item.1 ++ 58 :: item.2

/-- The items of a line with these columns. -/
def objectText (first : Bytes × Bytes) (rest : List (Bytes × Bytes)) : Bytes :=
  123 :: (itemText first ++ (rest.flatMap (fun item => 44 :: itemText item) ++ [125, 10]))

section Items

variable {first : Bytes × Bytes} {rest : List (Bytes × Bytes)}

/-- Keys with values are members. -/
theorem exists_members {items : List (Bytes × Bytes)}
    (each : ∀ item ∈ items, Plain item.1 ∧ ∃ value, Text value item.2) :
    ∃ members : List ((Bytes × Value) × Bytes), members.map (fun p => p.1.1) = items.map (·.1) ∧
      members.map (·.2) = items.map itemText ∧ ∀ p ∈ members, Member Text p.1 p.2 := by
  induction items with
  | nil => exact ⟨[], rfl, rfl, nofun⟩
  | cons item items ih =>
      obtain ⟨members, keys, texts, isMember⟩ :=
        ih (fun later member => each later (List.mem_cons_of_mem item member))
      obtain ⟨plain, value, isText⟩ := each item List.mem_cons_self
      refine ⟨((item.1, value), itemText item) :: members, ?_, ?_, ?_⟩
      · rw [List.map_cons, List.map_cons, keys]
      · rw [List.map_cons, List.map_cons, texts]
      · intro p member
        rcases List.mem_cons.mp member with rfl | later
        · exact .intro plain.chars blank_nil blank_nil isText
        · exact isMember p later

/-- A line with a value for each key. -/
theorem wellFormed_objectText
    (each : ∀ item ∈ first :: rest, Plain item.1 ∧ ∃ value, Text value item.2)
    (distinct : ((first :: rest).map (·.1)).Nodup) : WellFormed (objectText first rest) := by
  obtain ⟨members, keys, texts, isMember⟩ := exists_members each
  cases members with
  | nil => cases keys
  | cons p members =>
      have commas := separated_of_commas isMember
      have body : p.2 ++ members.flatMap (fun item => 44 :: item.2) =
          itemText first ++ rest.flatMap (fun item => 44 :: itemText item) := by
        have head : p.2 = itemText first := (List.cons.inj texts).1
        have tail : members.map (·.2) = rest.map itemText := (List.cons.inj texts).2
        have later := congrArg (List.flatMap (fun text => 44 :: text)) tail
        rw [List.flatMap_map, List.flatMap_map] at later
        rw [head, later]
      rw [body] at commas
      refine ⟨(p :: members).map (·.1), ⟨[], _, [10], ?_, blank_nil, .object commas, ?_⟩, ?_⟩
      · simp [objectText]
      · intro c member
        rw [List.mem_singleton.mp member]
        decide
      · rw [List.map_map]
        exact keys ▸ distinct

/-! ### Keys without values -/

theorem scan_itemText {item : Bytes × Bytes} (plain : Plain item.1) :
    scan (.outside false) (itemText item) = scan (.outside true) item.2 := by
  rw [itemText, scan_append_of_eq (scan_quoted plain.chars false)]
  exact scan_cons_of_eq rfl _

/-- After a colon neither a comma nor a brace may follow. -/
theorem scan_after_colon (rest : List (Bytes × Bytes)) :
    scan (.outside true) (rest.flatMap (fun item => 44 :: itemText item) ++ [125, 10]) = none := by
  cases rest with
  | nil => rfl
  | cons item rest => rfl

theorem scan_rest_of_missing (each : ∀ item ∈ rest, Plain item.1 ∧ (item.2 = [] ∨ ∃ value, Text value item.2))
    (missing : ∃ item ∈ rest, item.2 = []) :
    scan (.outside false) (rest.flatMap (fun item => 44 :: itemText item) ++ [125, 10]) = none := by
  induction rest with
  | nil =>
      obtain ⟨item, member, -⟩ := missing
      cases member
  | cons item rest ih =>
      obtain ⟨plain, shape⟩ := each item List.mem_cons_self
      have whole : ((item :: rest).flatMap (fun item => 44 :: itemText item)) ++ [125, 10] =
          44 :: (itemText item ++ (rest.flatMap (fun item => 44 :: itemText item) ++ [125, 10])) := by
        simp
      rw [whole, scan_cons_of_eq (t := .outside false) rfl, scan_append, scan_itemText plain]
      rcases shape with none | ⟨value, isText⟩
      · rw [none]
        exact scan_after_colon rest
      · rw [scan_text isText true]
        refine ih (fun later member => each later (List.mem_cons_of_mem item member)) ?_
        obtain ⟨other, member, none⟩ := missing
        rcases List.mem_cons.mp member with rfl | later
        · rw [none] at isText
          exact absurd isText (no_empty_text value)
        · exact ⟨other, later, none⟩

/-- A line is an object exactly when all its keys have values. -/
theorem wellFormed_objectText_iff (plainFirst : Plain first.1) (isFirst : ∃ value, Text value first.2)
    (each : ∀ item ∈ rest, Plain item.1 ∧ (item.2 = [] ∨ ∃ value, Text value item.2))
    (distinct : ((first :: rest).map (·.1)).Nodup) :
    WellFormed (objectText first rest) ↔ ∀ item ∈ rest, item.2 ≠ [] := by
  constructor
  · rintro ⟨members, document, -⟩ item member none
    have closed := document.scan
    obtain ⟨value, isText⟩ := isFirst
    rw [Closed, objectText, scan_cons_of_eq (t := .outside false) rfl, scan_append,
      scan_itemText plainFirst, scan_text isText true, Option.bind_some,
      scan_rest_of_missing each ⟨item, member, none⟩] at closed
    cases closed
  · intro present
    refine wellFormed_objectText ?_ distinct
    intro item member
    rcases List.mem_cons.mp member with rfl | later
    · exact ⟨plainFirst, isFirst⟩
    · exact ⟨(each item later).1, (each item later).2.resolve_left (present item later)⟩

end Items

/-! ## The items of a line -/

section Lines

variable {s : Setting} {name : Bytes} {columns : Columns}

/-- The items after the first one: the time of day, the event, two times and the places. -/
def laterItems (s : Setting) (name : Bytes) (columns : Columns) : List (Bytes × Bytes) :=
  (ascii "Time", quoted s.sample.time.clock) :: (ascii "Event", quoted name) ::
    (ascii "ms", decimal (milliseconds s.machine s.sample)) ::
    (ascii "InvariantTSC", decimal s.sample.invariantTSC) ::
    columns.places.map (fun place => (columns.header21 place, columns.value place))

theorem render_append (a b : Line) : render (a ++ b) = render a ++ render b := List.flatMap_append

theorem render_line (json : s.outputType = .json) :
    render (line s name columns) =
      objectText (ascii "Date", quoted s.sample.time.date) (laterItems s name columns) := by
  have places : ∀ all : List Place, render (all.flatMap (printPlace .json columns)) =
      (all.map (fun place => (columns.header21 place, columns.value place))).flatMap
        (fun item => 44 :: itemText item) := by
    intro all
    induction all with
    | nil => rfl
    | cons place all ih =>
        rw [List.flatMap_cons, render_append, ih, List.map_cons, List.flatMap_cons]
        congr 1
        simp [render, printPlace, Piece.bytes, itemText, quoted, jsonSeparator, ascii]
  rw [line, json, render_append, render_append, places]
  simp [render, printRowBegin, printRowBeginJson, printNewLine, Piece.bytes, objectText, laterItems, itemText,
    quoted, jsonSeparator, ascii]

end Lines

/-! ## Names -/

/-- The names of the events are free of quotes, backslashes and control characters. -/
def PlainNames (config : RawPMUConfig) : Prop := ∀ event ∈ config.events, Plain (ascii event.name)

section Names

variable {type : String} {config : RawPMUConfig}

theorem plain_hexadecimal (n : Nat) : Plain (hexadecimal n) := by
  rw [hexadecimal]
  split
  · decide
  · intro c member
    rw [List.mem_reverse, List.mem_map] at member
    obtain ⟨d, isDigit, rfl⟩ := member
    have less : d < 16 := Nat.digits_lt_base (by decide) isDigit
    interval_cases d <;> decide

theorem plain_getTypeString (typeID : BitVec 64) : Plain (ascii (getTypeString typeID)) := by
  rw [getTypeString]
  split
  · decide
  · split <;> decide

theorem plain_eventString (plain : Plain (ascii type)) (eventEnc : RawEventEncoding)
    {words : List (String × Fin 6)} (texts : ∀ word ∈ words, Plain (ascii word.1)) (typePosition : Fin 6) :
    Plain (eventString type eventEnc words typePosition) := by
  have inner : Plain (words.flatMap (fun word => ascii word.1 ++ hexadecimal (eventEnc.get word.2).toNat)) := by
    intro c member
    obtain ⟨word, isWord, inWord⟩ := List.mem_flatMap.mp member
    exact ((texts word isWord).append (plain_hexadecimal _)) c inWord
  exact ((plain.append inner).append (by decide)).append (plain_getTypeString _)

theorem plain_nameOr {event : RawEventConfig} {name : Bytes} (own : Plain (ascii event.name))
    (other : Plain name) : Plain (nameOr event name) := by
  rw [nameOr]
  split
  · exact other
  · exact own

theorem plain_fixedEventName (names : PlainNames config) : Plain (fixedEventName config) := by
  rw [fixedEventName]
  split
  · rename_i event events shape
    refine plain_nameOr (names event ?_) (by decide)
    rw [RawPMUConfig.events, shape]
    simp
  · decide

/-- The names that a kind of PMU type brings along. -/
def PlainKind (type : String) : Kind → Prop
  | .cores _ | .msrs _ => Plain (ascii type)
  | .registers getEventString => Plain (ascii type) ∧ ∀ eventEnc, Plain (getEventString type eventEnc)
  | .uncore rows => Plain (ascii type) ∧ Plain rows.dataName
  | .unrecognized => True

theorem PlainKind.ite {p : Prop} [Decidable p] {a b : Kind} (yes : p → PlainKind type a)
    (no : PlainKind type b) : PlainKind type (if p then a else b) := by
  split
  · rename_i holds
    exact yes holds
  · exact no

theorem plainKind_same {maxUnit : Nat} {name : String} (isType : Plain (ascii type))
    (isName : Plain (ascii name)) : PlainKind type (.uncore (.same maxUnit name)) := ⟨isType, isName⟩

theorem plainKind_kindOf (m : Machine) (names : PlainNames config) :
    PlainKind type (kindOf m type config) := by
  have registers : ∀ {words : List (String × Fin 6)} {typePosition : Fin 6}, Plain (ascii type) →
      (∀ word ∈ words, Plain (ascii word.1)) → PlainKind type (.registers (fun type eventEnc =>
        eventString type eventEnc words typePosition)) :=
    fun plain texts => ⟨plain, fun eventEnc => plain_eventString plain eventEnc texts _⟩
  have cores : ∀ {coreType : CoreType}, Plain (ascii type) → PlainKind type (.cores coreType) := id
  have msrs : ∀ {scope : MSRScope}, Plain (ascii type) → PlainKind type (.msrs scope) := id
  unfold kindOf
  refine .ite (by rintro rfl; exact cores (by decide)) ?_
  refine .ite (by rintro rfl; exact cores (by decide)) ?_
  refine .ite (by rintro rfl; exact msrs (by decide)) ?_
  refine .ite (by rintro rfl; exact msrs (by decide)) ?_
  refine .ite (by rintro rfl; exact registers (by decide) (by decide)) ?_
  refine .ite (by rintro rfl; exact registers (by decide) (by decide)) ?_
  refine .ite (by rintro rfl; exact registers (by decide) (by decide)) ?_
  refine .ite (by rintro rfl; exact registers (by decide) (by decide)) ?_
  refine .ite (by rintro rfl; exact plainKind_same (by decide) (by decide)) ?_
  refine .ite (by rintro (rfl | rfl | rfl) <;> exact plainKind_same (by decide) (by decide)) ?_
  refine .ite (by rintro rfl; exact ⟨by decide, plain_fixedEventName names⟩) ?_
  refine .ite (by rintro rfl; exact plainKind_same (by decide) (by decide)) ?_
  refine .ite (by rintro rfl; exact plainKind_same (by decide) (by decide)) ?_
  refine .ite (by rintro rfl; exact ⟨by decide, by simp [Plain]⟩) ?_
  refine .ite (by rintro rfl; exact ⟨by decide, by simp only; decide⟩) ?_
  refine .ite (by rintro (rfl | rfl) <;> exact plainKind_same (by decide) (by decide)) ?_
  refine .ite (by rintro rfl; exact plainKind_same (by decide) (by decide)) ?_
  refine .ite (by rintro rfl; exact plainKind_same (by decide) (by decide)) ?_
  refine .ite (by rintro rfl; exact plainKind_same (by decide) (by decide)) ?_
  refine .ite (by rintro rfl; exact plainKind_same (by decide) (by decide)) ?_
  refine .ite (by rintro rfl; exact plainKind_same (by decide) (by decide)) ?_
  refine .ite (by rintro rfl; exact plainKind_same (by decide) (by decide)) ?_
  refine .ite (by rintro rfl; exact plainKind_same (by decide) (by decide)) ?_
  exact trivial

end Names

section Rows

variable {s : Setting} {config : RawPMUConfig}

theorem miscName_json (json : s.outputType = .json) (rows : UncoreRows) :
    rows.miscName s = rows.dataName := by
  rw [UncoreRows.miscName, json]
  rfl

theorem plain_eventName {type : String} (isType : Plain (ascii type)) {event : RawEventConfig}
    (own : Plain (ascii event.name)) (i : Nat) : Plain (eventName type event i) :=
  plain_nameOr own ((isType.append (by decide)).append (plain_decimal i))

theorem plain_fixedCoreName {event : RawEventConfig} (own : Plain (ascii event.name)) (cnt : Nat) :
    Plain (fixedCoreName event cnt) := by
  refine plain_nameOr own ?_
  have all : ∀ name ∈ fixedCoreEventNames, Plain (ascii name) := by decide
  rw [List.getD_eq_getElem?_getD]
  rcases found : fixedCoreEventNames[cnt]? with - | name
  · decide
  · exact all name (List.mem_of_getElem? found)

theorem plain_topdownName (t : Nat) : Plain (ascii (topdownEventNames.getD t "")) := by
  have all : ∀ name ∈ topdownEventNames, Plain (ascii name) := by decide
  rw [List.getD_eq_getElem?_getD]
  rcases found : topdownEventNames[t]? with - | name
  · decide
  · exact all name (List.mem_of_getElem? found)

theorem mem_events_of_programmable {event : RawEventConfig} {i : Nat}
    (member : (event, i) ∈ config.programmable.zipIdx) : event ∈ config.events :=
  List.mem_append_left _ (List.fst_mem_of_mem_zipIdx member)

/-- The names of the lines. -/
theorem plain_rowName (json : s.outputType = .json) (names : PlainNames config) {row : Row}
    (member : row ∈ (groups s config).flatten) : Plain row.1 := by
  have kind : PlainKind s.type (kindOf s.machine s.type config) := plainKind_kindOf s.machine names
  obtain ⟨group, inGroups, inGroup⟩ := List.mem_flatten.mp member
  rw [groups] at inGroups
  revert inGroups kind
  cases kindOf s.machine s.type config <;> intro kind inGroups
  case cores coreType =>
      rcases List.mem_append.mp inGroups with fixed | programmable
      · obtain ⟨⟨event, cnt⟩, inCounters, rfl⟩ := List.mem_map.mp fixed
        obtain ⟨event', inFixed, inner⟩ := List.mem_flatMap.mp inCounters
        obtain ⟨cnt', -, same⟩ := List.mem_map.mp inner
        obtain ⟨rfl, rfl⟩ := Prod.mk.inj same
        rcases List.mem_cons.mp inGroup with rfl | later
        · exact plain_fixedCoreName (names event' (List.mem_append_right _ inFixed)) cnt'
        · split at later
          · obtain ⟨t, -, rfl⟩ := List.mem_map.mp later
            exact plain_topdownName t
          · cases later
      · obtain ⟨event, inZip, rfl⟩ := List.mem_map.mp programmable
        rw [List.mem_singleton.mp inGroup]
        exact plain_eventName kind (names _ (mem_events_of_programmable inZip)) _
  case msrs scope =>
      obtain ⟨event, here, rfl⟩ := List.mem_map.mp inGroups
      rw [List.mem_singleton.mp inGroup]
      exact plain_nameOr (names event here) (plain_eventString kind _ (by decide) _)
  case registers getEventString =>
      obtain ⟨event, here, rfl⟩ := List.mem_map.mp inGroups
      rw [List.mem_singleton.mp inGroup]
      exact plain_nameOr (names event here) (kind.2 _)
  case uncore rows =>
      rcases List.mem_append.mp inGroups with fixed | programmable
      · split at fixed
        · cases fixed
        · rw [List.mem_singleton.mp fixed] at inGroup
          rw [List.mem_singleton.mp inGroup, miscName_json json]
          exact kind.2
      · obtain ⟨event, inZip, rfl⟩ := List.mem_map.mp programmable
        rw [List.mem_singleton.mp inGroup]
        exact plain_eventName kind.1 (names _ (mem_events_of_programmable inZip)) _
  case unrecognized => cases inGroups

/-! ## Keys -/

/-- The keys of a line: one for each place, told from those at the beginning by an underscore. -/
structure Keyed (columns : Columns) : Prop where
  plain : ∀ place ∈ columns.places, Plain (columns.header21 place)
  distinct : (columns.places.map columns.header21).Nodup
  marked : ∀ place ∈ columns.places, 95 ∈ columns.header21 place

theorem plain_decimalInt (n : Int) : Plain (decimalInt n) := by
  cases n with
  | ofNat n => exact plain_decimal n
  | negSucc n => exact (by decide : Plain [45]).append (plain_decimal (n + 1))

theorem keyed_cores {columns : Columns} {cores : List Nat} (isType : Plain (ascii s.type))
    (nodup : cores.Nodup) (places : columns.places = cores.map .core)
    (key : columns.header21 = coreName s (ascii s.type ++ ascii "_SKT") (ascii "_CORE")) :
    Keyed columns := by
  refine ⟨?_, ?_, ?_⟩
  · rw [places, key]
    intro place member
    obtain ⟨core, -, rfl⟩ := List.mem_map.mp member
    exact (((isType.append (by decide)).append (plain_decimalInt _)).append (by decide)).append
      (plain_decimal core)
  · rw [places, key, List.map_map]
    refine List.Nodup.map ?_ nodup
    intro a b same
    simp only [Function.comp_apply, coreName] at same
    refine decimal_suffix_cancel (x := 69) (y := 69)
      (a := ascii s.type ++ ascii "_SKT" ++ decimalInt (s.machine.socketId a) ++ ascii "_COR")
      (b := ascii s.type ++ ascii "_SKT" ++ decimalInt (s.machine.socketId b) ++ ascii "_COR")
      rfl rfl ?_
    simpa [ascii] using same
  · rw [places, key]
    intro place member
    obtain ⟨core, -, rfl⟩ := List.mem_map.mp member
    simp [coreName, ascii]

/-- Keys that are a number after one text. -/
theorem keyed_numbers {columns : Columns} {n : Nat} {place : Nat → Place} {text : Bytes} (plain : Plain text)
    (marked : 95 ∈ text) (places : columns.places = (List.range n).map place)
    (key : ∀ i, columns.header21 (place i) = text ++ decimal i) : Keyed columns := by
  refine ⟨?_, ?_, ?_⟩
  · rw [places]
    intro here member
    obtain ⟨i, -, rfl⟩ := List.mem_map.mp member
    rw [key]
    exact plain.append (plain_decimal i)
  · rw [places, List.map_map]
    refine List.Nodup.map ?_ List.nodup_range
    intro a b same
    simp only [Function.comp_apply, key] at same
    exact decimal_injective (List.append_cancel_left same)
  · rw [places]
    intro here member
    obtain ⟨i, -, rfl⟩ := List.mem_map.mp member
    rw [key]
    exact List.mem_append_left _ marked

theorem nodup_units (numSockets maxUnit : Nat) : (units numSockets maxUnit).Nodup := by
  rw [units, List.nodup_flatMap]
  refine ⟨?_, ?_⟩
  · intro skt _
    exact List.Nodup.map (fun a b same => (Place.unit.inj same).2) List.nodup_range
  · refine List.Pairwise.imp ?_ List.nodup_range
    intro a b different place inA inB
    obtain ⟨u, -, rfl⟩ := List.mem_map.mp inA
    obtain ⟨v, -, same⟩ := List.mem_map.mp inB
    exact different (Place.unit.inj same).1.symm

theorem keyed_units {columns : Columns} {numSockets maxUnit : Nat} (before : Bytes) {between : Bytes}
    (plainBefore : Plain before) (plainBetween : Plain between) (marked : 95 ∈ before)
    (places : columns.places = units numSockets maxUnit)
    (key : columns.header21 = unitName before (95 :: between)) : Keyed columns := by
  refine ⟨?_, ?_, ?_⟩
  · rw [places, key]
    intro place member
    obtain ⟨skt, u, rfl⟩ := mem_units member
    exact ((plainBefore.append (plain_decimal skt)).append
      ((by decide : Plain [95]).append plainBetween)).append (plain_decimal u)
  · rw [places, key]
    refine List.Nodup.map_on ?_ (nodup_units numSockets maxUnit)
    intro a inA b inB same
    obtain ⟨skt, u, rfl⟩ := mem_units inA
    obtain ⟨skt', u', rfl⟩ := mem_units inB
    simp only [unitName, List.append_assoc, List.cons_append, List.append_cancel_left_eq] at same
    have digits : ∀ n, ∀ c ∈ decimal n, isdigit c = true := fun n c member => isdigit_of_mem_decimal member
    obtain ⟨sockets, later⟩ := digits_append_cancel (digits skt) (digits skt') rfl rfl same
    have unitsEqual := List.append_cancel_left (List.cons.inj later).2
    rw [decimal_injective sockets, decimal_injective unitsEqual]
  · rw [places, key]
    intro place member
    obtain ⟨skt, u, rfl⟩ := mem_units member
    simp [unitName, marked]

/-- The keys of every line of a PMU type. -/
theorem keyed_groups (json : s.outputType = .json) (names : PlainNames config) {row : Row}
    (member : row ∈ (groups s config).flatten) : Keyed row.2 := by
  have kind : PlainKind s.type (kindOf s.machine s.type config) := plainKind_kindOf s.machine names
  have shape := columnsOf_groups member
  generalize row.2 = columns at shape
  generalize kindOf s.machine s.type config = k at kind shape
  have marked : ∀ text : Bytes, (95 : UInt8) ∈ ascii s.type ++ 95 :: text := fun text => by simp
  cases shape with
  | cores coreType metricFunc =>
      exact keyed_cores (s := s) kind (List.nodup_range.filter _) rfl rfl
  | msrs scope here =>
      cases scope with
      | thread => exact keyed_cores (s := s) kind List.nodup_range rfl rfl
      | package => exact keyed_numbers (Plain.append kind (by decide)) (marked _) rfl (fun _ => rfl)
  | registers getEventString here =>
      exact keyed_numbers (Plain.append kind.1 (by decide)) (marked _) rfl (fun _ => rfl)
  | uncore rows begins counted =>
      refine keyed_units (ascii s.type ++ ascii "_SKT") (Plain.append kind.1 (by decide)) kind.2
        (marked _) rfl ?_
      rw [← miscName_json json]
      rfl

/-! ## Values -/

/-- A value is a number, or that of a core, which may be left out. -/
theorem value_groups {row : Row} (member : row ∈ (groups s config).flatten) :
    ∀ place ∈ row.2.places, (∃ n, row.2.value place = decimal n) ∨
      row.2.value place = [] ∧ ∃ coreType, kindOf s.machine s.type config = .cores coreType := by
  have shape := columnsOf_groups member
  generalize row.2 = columns at shape
  generalize kindOf s.machine s.type config = k at shape
  intro place inside
  cases shape with
  | cores coreType metricFunc =>
      obtain ⟨core, -, rfl⟩ := List.mem_map.mp inside
      simp only [coreColumns, coreValue]
      split
      · exact Or.inl ⟨_, rfl⟩
      · exact Or.inr ⟨rfl, coreType, rfl⟩
  | msrs scope here =>
      cases scope with
      | thread =>
          obtain ⟨core, -, rfl⟩ := List.mem_map.mp inside
          exact Or.inl ⟨_, rfl⟩
      | package =>
          obtain ⟨skt, -, rfl⟩ := List.mem_map.mp inside
          exact Or.inl ⟨_, rfl⟩
  | registers getEventString here =>
      obtain ⟨r, -, rfl⟩ := List.mem_map.mp inside
      exact Or.inl ⟨_, rfl⟩
  | uncore rows begins counted =>
      obtain ⟨skt, u, rfl⟩ := mem_units inside
      rcases counted with rfl | ⟨i, rfl⟩
      · exact Or.inl ⟨_, rfl⟩
      · exact Or.inl ⟨_, rfl⟩

theorem coreValue_ne_nil {coreType : CoreType} {metricFunc : Nat → Nat} {core : Nat} :
    coreValue s coreType metricFunc (.core core) ≠ [] ↔
      s.machine.isHybrid = false ∨ s.machine.coreType core = coreType := by
  simp only [coreValue]
  split
  · rename_i printed
    simp only [Bool.or_eq_true, Bool.not_eq_true', decide_eq_true_eq] at printed
    exact iff_of_true (digits_decimal _).1 printed
  · rename_i left
    simp only [Bool.or_eq_true, Bool.not_eq_true', decide_eq_true_eq] at left
    exact iff_of_false (fun nonempty => nonempty rfl) left

end Rows

/-! ## When the lines are JSON -/

/-- No line of a PMU type names a core of another type: there are no lines, cores of other types are left
out or do not exist, or none of the selected ones is of another type. -/
def Complete (m : Machine) (options : Options) (type : String) (config : RawPMUConfig) : Prop :=
  match kindOf m type config with
  | .cores coreType =>
      (enabledCounters config = [] ∧ config.programmable = []) ∨ options.extendPrintout = true ∨
        m.isHybrid = false ∨
        ∀ core < m.numCores, (options.showPartialCoreOutput = true → options.ycores core = true) →
          m.coreType core = coreType
  | _ => True

section Complete

variable {m : Machine} {options : Options} {sample : Sample} {type : String} {config : RawPMUConfig}

theorem forall_printedCores {coreType : CoreType} :
    (∀ core ∈ printedCores m options coreType, m.isHybrid = false ∨ m.coreType core = coreType) ↔
      options.extendPrintout = true ∨ m.isHybrid = false ∨
        ∀ core < m.numCores, (options.showPartialCoreOutput = true → options.ycores core = true) →
          m.coreType core = coreType := by
  cases hybrid : m.isHybrid with
  | false => simp
  | true =>
      cases extended : options.extendPrintout with
      | false => cases partialOutput : options.showPartialCoreOutput <;>
          simp [printedCores, hybrid, extended, partialOutput]
      | true => simp +contextual [printedCores, hybrid, extended]

theorem forall_value_cores {coreType : CoreType} (kind : kindOf m type config = .cores coreType) :
    (∀ row ∈ (groups ⟨m, options, sample, .json, type, 0⟩ config).flatten,
      ∀ place ∈ row.2.places, row.2.value place ≠ []) ↔
      (enabledCounters config = [] ∧ config.programmable = []) ∨
        ∀ core ∈ printedCores m options coreType, m.isHybrid = false ∨ m.coreType core = coreType := by
  have each : ∀ row ∈ (groups ⟨m, options, sample, .json, type, 0⟩ config).flatten,
      (∀ place ∈ row.2.places, row.2.value place ≠ []) ↔
        ∀ core ∈ printedCores m options coreType, m.isHybrid = false ∨ m.coreType core = coreType := by
    intro row member
    have shape := columnsOf_groups member
    simp only [kind] at shape
    generalize row.2 = columns at shape
    cases shape with
    | cores _ metricFunc =>
        simp only [coreColumns, List.forall_mem_map, coreValue_ne_nil]
  have empty : (coreGroups ⟨m, options, sample, .json, type, 0⟩ config coreType).flatten = [] ↔
      enabledCounters config = [] ∧ config.programmable = [] := flatten_coreGroups_eq_nil
  have same : groups ⟨m, options, sample, .json, type, 0⟩ config =
      coreGroups ⟨m, options, sample, .json, type, 0⟩ config coreType := by
    simp only [groups, kind]
  rw [← empty, ← same]
  constructor
  · intro all
    rcases rows : (groups ⟨m, options, sample, .json, type, 0⟩ config).flatten with - | ⟨row, others⟩
    · exact Or.inl rfl
    · have here : row ∈ (groups ⟨m, options, sample, .json, type, 0⟩ config).flatten := by
        rw [rows]
        exact List.mem_cons_self
      exact Or.inr ((each row here).mp (all row here))
  · rintro (none | all) row member
    · rw [none] at member
      cases member
    · exact (each row member).mpr all

/-- All values are there. -/
theorem forall_value_iff :
    (∀ row ∈ (groups ⟨m, options, sample, .json, type, 0⟩ config).flatten,
      ∀ place ∈ row.2.places, row.2.value place ≠ []) ↔ Complete m options type config := by
  rw [Complete]
  split
  · rename_i coreType kind
    rw [forall_value_cores kind, forall_printedCores]
  · rename_i other
    refine iff_of_true (fun row member place inside => ?_) trivial
    rcases value_groups member place inside with ⟨n, number⟩ | ⟨-, coreType, kind⟩
    · rw [number]
      exact (digits_decimal n).1
    · exact absurd kind (other coreType)

/-! ## The lines of `printTransposed` -/

theorem plain_padded (width n : Nat) : Plain (padded width n) := by
  refine Plain.append ?_ (plain_decimal n)
  intro c member
  rw [(List.mem_replicate.mp member).2]
  decide

theorem plain_date (t : Time) : Plain t.date :=
  ((((plain_padded 4 t.year).append (by decide)).append (plain_padded 2 t.month)).append (by decide)).append
    (plain_padded 2 t.day)

theorem plain_clock (t : Time) : Plain t.clock :=
  ((((((plain_padded 2 t.hour).append (by decide)).append (plain_padded 2 t.minute)).append
    (by decide)).append (plain_padded 2 t.second)).append (by decide)).append (plain_padded 3 t.millisecond)

def leadingKeys : List Bytes :=
  [ascii "Date", ascii "Time", ascii "Event", ascii "ms", ascii "InvariantTSC"]

theorem unmarked_leadingKeys : ∀ key ∈ leadingKeys, (95 : UInt8) ∉ key := by decide

/-- A line is a JSON object exactly when all its values are there. -/
theorem wellFormed_line_iff (names : PlainNames config) {row : Row}
    (member : row ∈ (groups ⟨m, options, sample, .json, type, 0⟩ config).flatten) :
    WellFormed (render (line ⟨m, options, sample, .json, type, 0⟩ row.1 row.2)) ↔
      ∀ place ∈ row.2.places, row.2.value place ≠ [] := by
  have keyed := keyed_groups rfl names member
  have number : ∀ n, ∃ value, Text value (decimal n) := fun n => ⟨_, .number (isNumber_decimal n)⟩
  have string : ∀ {text : Bytes}, Plain text → ∃ value, Text value (quoted text) :=
    fun plain => ⟨_, .string plain.chars⟩
  have date : Plain (ascii "Date") := by decide
  rw [render_line rfl, wellFormed_objectText_iff date (string (plain_date _))]
  · simp only [laterItems, List.forall_mem_cons, List.forall_mem_map]
    have strings : ∀ text, quoted text ≠ [] := fun text => List.cons_ne_nil _ _
    simp only [ne_eq, strings, (digits_decimal _).1, not_false_eq_true, true_and]
  · simp only [laterItems, List.forall_mem_cons, List.forall_mem_map]
    refine ⟨⟨by decide, Or.inr (string (plain_clock _))⟩,
      ⟨by decide, Or.inr (string (plain_rowName rfl names member))⟩, ⟨by decide, Or.inr (number _)⟩,
      ⟨by decide, Or.inr (number _)⟩, ?_⟩
    intro place inside
    refine ⟨keyed.plain place inside, ?_⟩
    rcases value_groups member place inside with ⟨n, isNumber⟩ | ⟨none, -⟩
    · rw [isNumber]
      exact Or.inr (number n)
    · exact Or.inl none
  · have keys : ((ascii "Date", quoted sample.time.date) ::
        laterItems ⟨m, options, sample, .json, type, 0⟩ row.1 row.2).map (·.1) =
          leadingKeys ++ row.2.places.map row.2.header21 := by
      simp [laterItems, leadingKeys]
    rw [keys, List.nodup_append']
    refine ⟨by decide, keyed.distinct, ?_⟩
    intro key isLeading inKeys
    obtain ⟨place, inside, rfl⟩ := List.mem_map.mp inKeys
    exact unmarked_leadingKeys _ isLeading (keyed.marked place inside)

theorem printTransposed_json (g : Globals) (entries : List (String × RawPMUConfig)) :
    (printTransposed m options sample .json g entries).2 = entries.map (fun entry => (entry.1,
      (groups ⟨m, options, sample, .json, entry.1, 0⟩ entry.2).flatten.map (fun row =>
        line ⟨m, options, sample, .json, entry.1, 0⟩ row.1 row.2))) := by
  induction entries generalizing g with
  | nil => rfl
  | cons entry entries ih =>
      obtain ⟨type, config⟩ := entry
      simp only [printTransposed, ih, printTypeEvents, List.map_cons, List.cons_append, List.nil_append]
      rw [lines_printType_data rfl]

/-- The lines of one PMU type. -/
theorem wellFormed_lines_iff (names : PlainNames config) :
    (∀ row ∈ (groups ⟨m, options, sample, .json, type, 0⟩ config).flatten,
      WellFormed (render (line ⟨m, options, sample, .json, type, 0⟩ row.1 row.2))) ↔
      Complete m options type config := by
  rw [← forall_value_iff]
  exact forall₂_congr (fun row here => wellFormed_line_iff names here)

/-- Every line is a JSON object with distinct keys exactly when no printed core is of another type than its
PMU. -/
theorem printTransposed_json_iff (m : Machine) (options : Options) (sample : Sample) (g : Globals)
    (entries : List (String × RawPMUConfig)) (names : ∀ entry ∈ entries, PlainNames entry.2) :
    (∀ block ∈ (printTransposed m options sample .json g entries).2, ∀ l ∈ block.2,
        WellFormed (render l)) ↔
      ∀ entry ∈ entries, Complete m options entry.1 entry.2 := by
  rw [printTransposed_json, List.forall_mem_map]
  refine forall₂_congr (fun entry member => ?_)
  rw [List.forall_mem_map]
  exact wellFormed_lines_iff (names entry member)

end Complete

section Hybrid

/-- A machine with a core of each type. -/
def hybridMachine : Machine :=
  { smallMachine 1 with
    numCores := 2
    isHybrid := true
    coreType := fun core => if core = 0 then .core else .atom }

/-- One event of the cores. -/
def coreEntries : List (String × RawPMUConfig) :=
  [("core", { programmable := [{ encoding := Vector.replicate 6 0, name := "LOADS" }] })]

theorem plainNames_coreEntries : ∀ entry ∈ coreEntries, PlainNames entry.2 := by
  intro entry member
  rw [List.mem_singleton.mp member]
  intro event isEvent
  rw [List.mem_singleton.mp isEvent]
  decide

theorem complete_coreEntries_iff (options : Options) :
    (∀ entry ∈ coreEntries, Complete hybridMachine options entry.1 entry.2) ↔
      options.extendPrintout = true ∨ options.showPartialCoreOutput = true ∧ options.ycores 1 = false := by
  have selected : (∀ core ≤ 1, (options.showPartialCoreOutput = true → options.ycores core = true) →
      core = 0) ↔ options.showPartialCoreOutput = true ∧ options.ycores 1 = false := by
    constructor
    · intro all
      have one := mt (all 1 (by decide)) (by decide)
      simpa using one
    · rintro ⟨isPartial, unselected⟩ core atMost isSelected
      interval_cases core
      · rfl
      · rw [isSelected isPartial] at unselected
        cases unselected
  simp [coreEntries, Complete, kindOf, hybridMachine, selected]

theorem printTransposed_json_partial :
    (∀ entry ∈ coreEntries, PlainNames entry.2) ∧
      ∀ block ∈ (printTransposed hybridMachine
          { showPartialCoreOutput := true, ycores := fun core => core = 0 } (steadySample 7) .json {}
          coreEntries).2,
        ∀ l ∈ block.2, WellFormed (render l) :=
  ⟨plainNames_coreEntries,
    (printTransposed_json_iff hybridMachine _ (steadySample 7) {} coreEntries plainNames_coreEntries).mpr
      ((complete_coreEntries_iff _).mpr (Or.inr ⟨rfl, by decide⟩))⟩

/-- With all cores selected, the line of the event has a key without a value. -/
theorem printTransposed_json_hybrid :
    ¬ ∀ block ∈ (printTransposed hybridMachine {} (steadySample 7) .json {} coreEntries).2,
      ∀ l ∈ block.2, WellFormed (render l) := by
  rw [printTransposed_json, List.forall_mem_map]
  intro all
  have complete := (complete_coreEntries_iff {}).mp (fun entry member =>
    (wellFormed_lines_iff (plainNames_coreEntries entry member)).mp (fun row here =>
      all entry member _ (List.mem_map.mpr ⟨row, here, rfl⟩)))
  rcases complete with extended | ⟨selected, -⟩
  · cases extended
  · cases selected

end Hybrid

end Pcm.Raw

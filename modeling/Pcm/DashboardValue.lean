import Pcm.DashboardDocument
import Pcm.Lib.JsonReader

/-!
# The value of the dashboard

The panels of a dashboard are read out of the parsed document: their ids, the `refId`s of their targets, and
their places.
-/

namespace Pcm.Dashboard

open StdString Json Reader

/-! ## What a panel of a document says -/

/-- The place of a panel. -/
structure GridPos where
  x : Nat
  y : Nat
  w : Nat
  h : Nat

/-- Rectangles that have nothing in common. -/
def GridPos.Apart (p q : GridPos) : Prop :=
  p.x + p.w ≤ q.x ∨ q.x + q.w ≤ p.x ∨ p.y + p.h ≤ q.y ∨ q.y + q.h ≤ p.y

instance decidableGridPosApart (p q : GridPos) : Decidable (p.Apart q) :=
  inferInstanceAs (Decidable (_ ∨ _ ∨ _ ∨ _))

def Panel.place (p : Panel) : GridPos := ⟨p.x, p.y, p.w, p.h⟩

/-- The natural number of this name. -/
def natOf (name : String) (value : Value) : Option Nat := (value.member (ascii name)).bind Value.nat?

def gridPosOf (panel : Value) : Option GridPos :=
  (panel.member (ascii "gridPos")).bind fun value =>
    (natOf "x" value).bind fun x => (natOf "y" value).bind fun y =>
      (natOf "w" value).bind fun w => (natOf "h" value).bind fun h => some ⟨x, y, w, h⟩

def refIdOf (target : Value) : Option Bytes :=
  match target.member (ascii "refId") with
  | some (.string text) => some text
  | _ => none

def elementsOf (name : String) (value : Value) : Option (List Value) :=
  match value.member (ascii name) with
  | some (.array elements) => some elements
  | _ => none

/-- A dashboard whose panels have ids of their own, targets with `refId`s of their own, and places of their own. -/
def Good (value : Value) : Prop :=
  ∃ panels, elementsOf "panels" value = some panels ∧
    (∃ ids : List Nat, panels.map (natOf "id") = ids.map some ∧ ids.Nodup) ∧
    (∀ panel ∈ panels, ∃ (targets : List Value) (refIds : List Bytes),
      elementsOf "targets" panel = some targets ∧ targets.map refIdOf = refIds.map some ∧ refIds.Nodup) ∧
    ∃ places : List GridPos, panels.map gridPosOf = places.map some ∧ places.Pairwise GridPos.Apart

/-- A panel of the document with what it was printed from. -/
structure Prints (p : Panel) (id : Nat) (value : Value) : Prop where
  id : natOf "id" value = some id
  gridPos : gridPosOf value = some p.place
  refIds : ∃ targets, elementsOf "targets" value = some targets ∧
    targets.map refIdOf = ((List.range p.targets.length).map refId).map some

/-! ## Targets -/

section Targets

variable (type : DashboardType) {t : Target}

/-- At the beginning of the string of this name. -/
def atString (name : Bytes) : State → Bool
  | (.string [], stack) => awaits name stack
  | _ => false

theorem of_atString {name : Bytes} {s : State} (at_ : atString name s = true) : ∃ members,
    valuesOf name members = [] ∧ s = (.string [], [.object members (some name), .array []]) := by
  unfold atString at at_
  split at at_
  · obtain ⟨members, rfl, other⟩ := awaits_iff.mp at_
    exact ⟨members, valuesOf_eq_nil other, rfl⟩
  · cases at_

set_option maxRecDepth 10000 in
theorem read_influxDBFront {title metric : Bytes} (clean : isContent title = true)
    (cleanMetric : isContent metric = true) :
    atString (ascii "refId") (read (.between, [.array []]) (influxDBFront title metric)) = true := by
  simp only [influxDBFront, List.append_assoc, read_append]
  repeat rw [ascii_ofList]
  rw [read_content clean rfl, read_content cleanMetric rfl]
  rfl

theorem read_prometheusFront {legend expr : Bytes} (clean : isContent legend = true)
    (cleanExpr : isContent expr = true) :
    atString (ascii "refId") (read (.between, [.array []]) (prometheusFront legend expr)) = true := by
  simp only [prometheusFront, List.append_assoc, read_append]
  repeat rw [ascii_ofList]
  rw [read_content cleanExpr rfl, read_content clean rfl]
  rfl

theorem read_front (clean : t.Clean) : ∃ members, valuesOf (ascii "refId") members = [] ∧
    read (.between, [.array []]) (t.front type) =
      (.string [], [.object members (some (ascii "refId")), .array []]) := by
  have front : atString (ascii "refId") (read (.between, [.array []]) (t.front type)) = true := by
    rw [Target.front]
    split
    · exact read_influxDBFront clean.1 clean.2.1
    · exact read_prometheusFront clean.1 clean.2.2
  obtain ⟨members, other, whole⟩ := of_atString front
  exact ⟨members, other, whole⟩

set_option maxRecDepth 10000 in
/-- What follows the `refId` and its quote. -/
theorem rest_back : ∃ back, targetBack type = 34 :: back ∧
    Rest [ascii "refId"] (.between, [.object [] none]) back := by
  rw [targetBack]
  split
  · rw [influxDBBack, ascii_ofList, ascii_ofList]
    exact ⟨_, rfl, .closed (by decide) (by decide)⟩
  · rw [prometheusBack, ascii_ofList, ascii_ofList]
    exact ⟨_, rfl, .closed (by decide) (by decide)⟩

/-- A target is an object with one `refId`. -/
theorem read_target (clean : t.Clean) {i : Nat} (small : i < 27) : ∃ target, refIdOf target = some (refId i) ∧
    read (.between, [.array []]) (t.text type (refId i)) = (.between, [.array [target]]) := by
  obtain ⟨members, other, front⟩ := read_front type clean
  obtain ⟨back, isBack, rest⟩ := rest_back type
  obtain ⟨more, names, run⟩ := rest.read
  have none := names (ascii "refId") List.mem_cons_self
  refine ⟨.object (more ++ (ascii "refId", .string (refId i)) :: members).reverse, ?_, ?_⟩
  · rw [refIdOf, member_reverse none (by rw [valuesOf_cons_self, other])]
  · rw [Target.text, read_append, front, read_append, read_content (isContent_refId i small) rfl, isBack, Reader.read,
      List.append_nil]
    have last : step (.string (refId i).reverse, [.object members (some (ascii "refId")), .array []]) 34 =
        (.between, [.object ((ascii "refId", .string (refId i)) :: members) Option.none, .array []]) := by
      change (Place.between, add (.string (refId i).reverse.reverse) _) = _
      rw [List.reverse_reverse]
      rfl
    rw [last]
    exact run _ [] []

/-- The list of targets of a panel. -/
theorem read_targets {targets : List Target} (clean : ∀ t ∈ targets, t.Clean) {i : Nat}
    (few : i + targets.length ≤ 27) : ∃ values : List Value, values.map refIdOf =
        (List.range' i targets.length).map (fun i => some (refId i)) ∧ ∀ done outer,
      read (.between, .array done :: outer) (targetsText type targets i) =
        (.between, .array (values.reverse ++ done) :: outer) := by
  induction targets generalizing i with
  | nil => exact ⟨[], rfl, fun done outer => rfl⟩
  | cons t targets ih =>
      rw [List.length_cons] at few
      obtain ⟨target, own, first⟩ := read_target type (clean t List.mem_cons_self) (show i < 27 by omega)
      obtain ⟨values, refIds, later⟩ := ih (fun other member => clean other (List.mem_cons_of_mem t member))
        (show i + 1 + targets.length ≤ 27 by omega)
      refine ⟨target :: values, ?_, fun done outer => ?_⟩
      · rw [List.map_cons, own, refIds, List.length_cons, List.range'_succ, List.map_cons]
      · have comma : read (.between, .array done :: outer) (if 0 < i then ascii "," else []) =
            (.between, .array done :: outer) := by
          split
          · rfl
          · rfl
        rw [targetsText, List.append_assoc, read_append, comma, read_append, read_element first, later,
          List.reverse_cons, List.append_assoc]
        rfl

end Targets

/-! ## Panels -/

section Panels

variable (type : DashboardType)

/-- The members of a panel that are looked at. -/
def panelNames : List Bytes := [ascii "id", ascii "gridPos", ascii "targets"]

set_option maxRecDepth 10000 in
theorem rest_kind {kind : PanelKind} (clean : kind.Clean) :
    Rest panelNames (.between, [.object [] none]) kind.text := by
  rw [panelNames, ascii_ofList, ascii_ofList, ascii_ofList]
  cases kind with
  | gauge =>
      rw [PanelKind.text, ascii_ofList]
      exact .closed (by decide) (by decide)
  | barGauge =>
      rw [PanelKind.text, ascii_ofList]
      exact .closed (by decide) (by decide)
  | timeSeries yAxisLabel isStacked =>
      simp only [PanelKind.text, List.append_assoc]
      repeat rw [ascii_ofList]
      cases isStacked with
      | false =>
          refine .append (.append (.append (.append (.closed (by decide) ?_))))
          rw [read_content clean rfl]
          rfl
      | true =>
          refine .append (.append (.append (.append (.closed (by decide) ?_))))
          rw [read_content clean rfl]
          rfl

/-- A member with a number. -/
theorem read_member {name text : List Char} {d : Char} {members : List (Bytes × Value)} {stack : List Open}
    (key : Bytes) (n : Nat)
    (opens : read (.between, .object members none :: stack) (ascii (String.ofList name)) =
      (.between, .object members (some key) :: stack))
    (delimiter : isDelimiter (UInt8.ofNat d.toNat) = true) (rest : Bytes) :
    read (.between, .object members none :: stack) (ascii (String.ofList name) ++
        (decimal n ++ (ascii (String.ofList (d :: text)) ++ rest))) =
      read (.between, .object ((key, .number (decimal n)) :: members) none :: stack)
        (ascii (String.ofList (d :: text)) ++ rest) := by
  rw [read_append_of_eq opens, read_decimal n delimiter]
  rfl

/-- The members of the place, the newest first. -/
def Panel.posMembers (p : Panel) : List (Bytes × Value) :=
  [(ascii "h", .number (decimal p.h)), (ascii "w", .number (decimal p.w)), (ascii "y", .number (decimal p.y)),
    (ascii "x", .number (decimal p.x))]

theorem natOf_posMembers {p : Panel} {name : String} {n : Nat}
    (only : valuesOf (ascii name) p.posMembers = [.number (decimal n)]) :
    natOf name (.object p.posMembers.reverse) = some n := by
  have member : (Value.object ([] ++ p.posMembers).reverse).member (ascii name) = _ := member_reverse rfl only
  rw [List.nil_append] at member
  rw [natOf, member, Option.bind_some, nat?_decimal]

theorem read_gridPos (p : Panel) {d : Char} {text : List Char}
    (delimiter : isDelimiter (UInt8.ofNat d.toNat) = true) (stack : List Open) (rest : Bytes) :
    read (.between, .object [] none :: stack) (p.gridPos ++ (ascii (String.ofList (d :: text)) ++ rest)) =
      read (.between, .object p.posMembers none :: stack) (ascii (String.ofList (d :: text)) ++ rest) := by
  have comma : ∀ members : List (Bytes × Value), read (.between, .object members none :: stack) (ascii ",\n") =
      (.between, .object members none :: stack) := fun members => read_ascii rfl
  simp only [Panel.gridPos, List.append_assoc]
  rw [read_member (ascii "x") p.x (read_ascii rfl) (by decide), read_append_of_eq (comma _),
    read_member (ascii "y") p.y (read_ascii rfl) (by decide), read_append_of_eq (comma _),
    read_member (ascii "w") p.w (read_ascii rfl) (by decide), read_append_of_eq (comma _),
    read_member (ascii "h") p.h (read_ascii rfl) delimiter]
  rfl

/-- The members of a panel before its targets, the newest first. -/
def Panel.membersBefore (p : Panel) (id : Nat) (dataSource : Value) : List (Bytes × Value) :=
  [(ascii "id", .number (decimal id)), (ascii "title", .string p.title),
    (ascii "gridPos", .object p.posMembers.reverse), (ascii "interval", .string (ascii "2s")),
    (ascii "datasource", dataSource)]

theorem read_beforeTargets {p : Panel} (clean : p.Clean) (id : Nat) : ∃ dataSource,
    read (.between, [.array []]) (p.beforeTargets type id) = (.between, [.array [],
      .object (p.membersBefore id dataSource) (some (ascii "targets")), .array []]) := by
  have opens : read (.between, [.array []]) (ascii "
    \x7b
      \"datasource\": ") = (.between, [.object [] (some (ascii "datasource")), .array []]) := read_ascii rfl
  have source : ∃ dataSource, ∀ rest : Bytes, read (.between, [.object [] (some (ascii "datasource")), .array []])
      (defaultDataSource type ++ (ascii ",
      \"interval\": \"2s\",
      \"gridPos\": \x7b
" ++ rest)) = read (.between, [.object [] none, .object [(ascii "interval", .string (ascii "2s")),
        (ascii "datasource", dataSource)] (some (ascii "gridPos")), .array []]) rest := by
    rw [defaultDataSource]
    split
    · have word : read (.between, [.object [] (some (ascii "datasource")), .array []]) (ascii "\"prometheus\"") =
          (.between, [.object [(ascii "datasource", .string (ascii "prometheus"))] none, .array []]) :=
        read_ascii rfl
      refine ⟨.string (ascii "prometheus"), fun rest => ?_⟩
      rw [read_append_of_eq word]
      exact read_append_of_eq (read_ascii rfl) rest
    · have word : read (.between, [.object [] (some (ascii "datasource")), .array []]) (ascii "null") =
          (.bare (ascii "llun"), [.object [] (some (ascii "datasource")), .array []]) := read_ascii rfl
      refine ⟨.literal (ascii "null"), fun rest => ?_⟩
      rw [read_append_of_eq word]
      exact read_append_of_eq (read_ascii rfl) rest
  obtain ⟨dataSource, source⟩ := source
  have title : read (.between, [.object p.posMembers none, .object [(ascii "interval", .string (ascii "2s")),
      (ascii "datasource", dataSource)] (some (ascii "gridPos")), .array []]) (ascii "
      \x7d,
      \"title\": \"") = (.string [], [.object [(ascii "gridPos", .object p.posMembers.reverse),
        (ascii "interval", .string (ascii "2s")), (ascii "datasource", dataSource)] (some (ascii "title")),
        .array []]) := read_ascii rfl
  have idBegins : ∀ chars members, read (.string chars, [.object members (some (ascii "title")), .array []])
      (ascii "\",\n      \"id\": ") = (.between, [.object ((ascii "title", .string chars.reverse) :: members)
        (some (ascii "id")), .array []]) := fun _ _ => read_ascii rfl
  refine ⟨dataSource, ?_⟩
  simp only [Panel.beforeTargets, List.append_assoc]
  rw [read_append_of_eq opens, source, read_gridPos p (by decide), read_append_of_eq title, read_append,
    read_content clean.title rfl, read_append_of_eq (idBegins _ _), List.append_nil, List.reverse_reverse,
    ← List.append_nil (ascii ",\n      \"targets\": ["), read_decimal id (by decide), List.append_nil]
  exact read_ascii rfl

/-- The text of a panel is a panel with this id. -/
theorem read_panel {p : Panel} (clean : p.Clean) (few : p.targets.length ≤ 27) (id : Nat) :
    ∃ panel, Prints p id panel ∧
      read (.between, [.array []]) (p.text type id) = (.between, [.array [panel]]) := by
  obtain ⟨dataSource, front⟩ := read_beforeTargets type clean id
  obtain ⟨targets, refIds, list⟩ := read_targets type clean.targets (show 0 + p.targets.length ≤ 27 by omega)
  obtain ⟨more, names, run⟩ := (rest_kind clean.kind).read
  have listEnds : ∀ elements members, read (.between, [.array elements,
      .object members (some (ascii "targets")), .array []]) (ascii "\n      ],\n") =
        (.between, [.object ((ascii "targets", .array elements.reverse) :: members) none, .array []]) :=
    fun _ _ => read_ascii rfl
  refine ⟨.object (more ++ (ascii "targets", .array targets) :: p.membersBefore id dataSource).reverse,
    ⟨?_, ?_, targets, ?_, ?_⟩, ?_⟩
  · rw [natOf, member_reverse (names _ (by decide)) rfl, Option.bind_some, nat?_decimal]
  · rw [gridPosOf, member_reverse (names _ (by decide)) rfl, Option.bind_some, natOf_posMembers rfl,
      natOf_posMembers rfl, natOf_posMembers rfl, natOf_posMembers rfl]
    rfl
  · rw [elementsOf, member_reverse (names _ (by decide)) rfl]
  · rw [refIds, List.range_eq_range', List.map_map]
    rfl
  · rw [Panel.text, Panel.getHeader, List.append_assoc, List.append_assoc, read_append_of_eq front, read_append,
      list, List.append_nil, read_append_of_eq (listEnds _ _), List.reverse_reverse]
    exact run _ [] []

/-- The list of panels, with the ids from this number on. -/
theorem read_panels {panels : List Panel} (clean : ∀ p ∈ panels, p.Clean)
    (few : ∀ p ∈ panels, p.targets.length ≤ 27) (i : Nat) : ∃ values : List Value,
      List.Forall₂ (fun p value => Prints p.1 p.2 value) (panels.zipIdx (i + 2)) values ∧
      ∀ done outer, read (.between, .array done :: outer) (panelsText type panels i) =
        (.between, .array (values.reverse ++ done) :: outer) := by
  induction panels generalizing i with
  | nil => exact ⟨[], .nil, fun done outer => rfl⟩
  | cons p panels ih =>
      obtain ⟨panel, prints, first⟩ := read_panel type (clean p List.mem_cons_self)
        (few p List.mem_cons_self) (i + 2)
      obtain ⟨values, all, later⟩ := ih (fun other member => clean other (List.mem_cons_of_mem p member))
        (fun other member => few other (List.mem_cons_of_mem p member)) (i + 1)
      refine ⟨panel :: values, .cons prints all, fun done outer => ?_⟩
      have comma : read (.between, .array done :: outer) (if 0 < i then ascii "," else []) =
          (.between, .array done :: outer) := by
        split
        · rfl
        · rfl
      rw [panelsText, List.append_assoc, read_append, comma, read_append, read_element first, later,
        List.reverse_cons, List.append_assoc]
      rfl

end Panels

/-! ## Dashboards -/

section Dashboards

variable (type : DashboardType) {title : Bytes} {panels : List Panel}

/-- At the beginning of the array of this name. -/
def atArray (name : Bytes) : State → Bool
  | (.between, .array [] :: stack) => awaits name stack
  | _ => false

theorem of_atArray {name : Bytes} {s : State} (at_ : atArray name s = true) : ∃ members,
    valuesOf name members = [] ∧ s = (.between, [.array [], .object members (some name), .array []]) := by
  unfold atArray at at_
  split at at_
  · obtain ⟨members, rfl, other⟩ := awaits_iff.mp at_
    exact ⟨members, valuesOf_eq_nil other, rfl⟩
  · cases at_

set_option maxRecDepth 10000 in
theorem read_dashboardFront : ∃ members, valuesOf (ascii "panels") members = [] ∧
    read (.between, [.array []]) dashboardFront =
      (.between, [.array [], .object members (some (ascii "panels")), .array []]) := by
  have front : atArray (ascii "panels") (read (.between, [.array []]) dashboardFront) = true := by
    rw [dashboardFront, ascii_ofList, ascii_ofList]
    decide
  obtain ⟨members, other, whole⟩ := of_atArray front
  exact ⟨members, other, whole⟩

/-- The end of an array in an object. -/
theorem read_arrayEnds {l : List Char} {name : Bytes} {elements : List Value} {members : List (Bytes × Value)}
    {outer : List Open} (rest : Bytes) :
    read (.between, .array elements :: .object members (some name) :: outer)
        (('\n' :: ' ' :: ' ' :: ']' :: l).map (fun c => UInt8.ofNat c.toNat) ++ rest) =
      read (.between, .object ((name, .array elements.reverse) :: members) none :: outer)
        (l.map (fun c => UInt8.ofNat c.toNat) ++ rest) := by
  have ends : read (.between, .array elements :: .object members (some name) :: outer) [10, 32, 32, 93] =
      (.between, .object ((name, .array elements.reverse) :: members) none :: outer) := rfl
  exact read_append_of_eq ends (l.map (fun c => UInt8.ofNat c.toNat) ++ rest)

set_option maxRecDepth 10000 in
theorem rest_dashboardBack (clean : isContent title = true) : ∃ l back,
    dashboardBack type title = ('\n' :: ' ' :: ' ' :: ']' :: l).map (fun c => UInt8.ofNat c.toNat) ++ back ∧
      Rest [ascii "panels"] (.between, [.object [] none]) (l.map (fun c => UInt8.ofNat c.toNat) ++ back) := by
  simp only [dashboardBack, definition, query, List.append_assoc]
  repeat rw [ascii_ofList]
  refine ⟨_, _, rfl, .append (.append (.append (.append (.append (.append (.closed (by decide) ?_))))))⟩
  split
  · rw [read_content clean rfl]
    rfl
  · rw [read_content clean rfl]
    rfl

/-- The panels of a dashboard, in the value that its text has. -/
theorem prints_of_document (cleanTitle : isContent title = true) (clean : ∀ p ∈ panels, p.Clean)
    (few : ∀ p ∈ panels, p.targets.length ≤ 27) {value : Value}
    (document : Document value (dashboard type title panels)) : ∃ values,
      elementsOf "panels" value = some values ∧
      List.Forall₂ (fun p value => Prints p.1 p.2 value) (panels.zipIdx 2) values := by
  obtain ⟨members, none, front⟩ := read_dashboardFront
  obtain ⟨values, all, run⟩ := read_panels type clean few 0
  obtain ⟨l, back, isBack, rest⟩ := rest_dashboardBack type cleanTitle
  obtain ⟨more, names, ends⟩ := rest.read
  have whole := read_document document
  rw [dashboard, read_append_of_eq front, read_append, run, List.append_nil, isBack, read_arrayEnds,
    List.reverse_reverse] at whole
  have same : settle (.between, [.array [.object (more ++ (ascii "panels", .array values) :: members).reverse]]) =
      (.between, [.array [value]]) := by
    rw [← ends ((ascii "panels", .array values) :: members) [] []]
    exact whole
  simp only [settle_between, Prod.mk.injEq, List.cons.injEq, Open.array.injEq, true_and, and_true] at same
  have only : valuesOf (ascii "panels") ((ascii "panels", .array values) :: members) = [.array values] := by
    rw [valuesOf_cons_self, none]
  refine ⟨values, ?_, all⟩
  rw [elementsOf, ← same, member_reverse (names _ List.mem_cons_self) only]

/-- What the values of panels say, they say about the panels. -/
theorem map_of_prints {α : Type} {f : Value → α} {g : Panel × Nat → α} {numbered : List (Panel × Nat)}
    {values : List Value} (all : List.Forall₂ (fun p value => Prints p.1 p.2 value) numbered values)
    (each : ∀ p value, Prints p.1 p.2 value → f value = g p) : values.map f = numbered.map g := by
  induction all with
  | nil => rfl
  | cons prints _ ih => rw [List.map_cons, List.map_cons, each _ _ prints, ih]

theorem mem_of_prints {numbered : List (Panel × Nat)} {values : List Value} {value : Value}
    (all : List.Forall₂ (fun p value => Prints p.1 p.2 value) numbered values) (member : value ∈ values) :
    ∃ p ∈ numbered, Prints p.1 p.2 value := by
  induction all with
  | nil => cases member
  | cons prints _ ih =>
      rcases List.mem_cons.mp member with rfl | later
      · exact ⟨_, List.mem_cons_self, prints⟩
      · obtain ⟨p, inside, prints⟩ := ih later
        exact ⟨p, List.mem_cons_of_mem _ inside, prints⟩

theorem refId_injective : ∀ i < 27, ∀ j < 27, refId i = refId j → i = j := by decide

theorem nodup_refIds {n : Nat} (few : n ≤ 27) : ((List.range n).map refId).Nodup := by
  refine List.Nodup.map_on ?_ List.nodup_range
  intro i before j before' same
  exact refId_injective i (Nat.lt_of_lt_of_le (List.mem_range.mp before) few)
    j (Nat.lt_of_lt_of_le (List.mem_range.mp before') few) same

variable {type}

/-- A dashboard that is a document is good if its panels are apart. -/
theorem good_iff (cleanTitle : isContent title = true) (clean : ∀ p ∈ panels, p.Clean)
    (few : ∀ p ∈ panels, p.targets.length ≤ 27) {value : Value}
    (document : Document value (dashboard type title panels)) :
    Good value ↔ panels.Pairwise fun p q => p.place.Apart q.place := by
  obtain ⟨values, array, all⟩ := prints_of_document type cleanTitle clean few document
  have places : values.map gridPosOf = (panels.map Panel.place).map some := by
    rw [map_of_prints (g := fun p => some p.1.place) all fun p value prints => prints.gridPos, List.map_map,
      ← List.zipIdx_map_fst 2 panels, List.map_map, List.zipIdx_map_fst]
    rfl
  constructor
  · rintro ⟨values', array', -, -, places', same, apart⟩
    obtain rfl : values = values' := Option.some.inj (array.symm.trans array')
    have printed := List.map_injective_iff.mpr (Option.some_injective _) (places.symm.trans same)
    rw [← printed, List.pairwise_map] at apart
    exact apart
  · intro apart
    refine ⟨values, array, ⟨List.range' 2 panels.length, ?_, List.nodup_range'⟩, ?_, _, places, ?_⟩
    · rw [map_of_prints (g := fun p => some p.2) all fun p value prints => prints.id,
        ← List.zipIdx_map_snd 2 panels, List.map_map]
      rfl
    · intro panel member
      obtain ⟨⟨p, id⟩, inside, prints⟩ := mem_of_prints all member
      obtain ⟨targets, list, refIds⟩ := prints.refIds
      exact ⟨targets, _, list, refIds, nodup_refIds (few p (List.fst_mem_of_mem_zipIdx inside))⟩
    · rw [List.pairwise_map]
      exact apart

end Dashboards

end Pcm.Dashboard

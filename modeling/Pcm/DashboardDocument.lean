import Pcm.DashboardText

/-!
# The dashboard as a JSON document

The text of a dashboard is a JSON document as long as no panel has more than 27 targets. The `refId` of the
28th target is a backslash, which takes the quote that should end the string into the string.
-/

namespace Pcm.Dashboard

open StdString Json

/-! ## Contents of strings -/

def Target.Clean (t : Target) : Prop :=
  isContent t.title = true ∧ isContent t.influxDBMetric = true ∧ isContent t.prometheusExpr = true

def PanelKind.Clean : PanelKind → Prop
  | .timeSeries yAxisLabel _ => isContent yAxisLabel = true
  | _ => True

/-- The texts of a panel can stand in strings. -/
structure Panel.Clean (p : Panel) : Prop where
  title : isContent p.title = true
  kind : p.kind.Clean
  targets : ∀ t ∈ p.targets, t.Clean

/-! ## Targets -/

/-- In the list of panels, in a panel, and in its list of targets. -/
abbrev inPanels : List Frame := [.array, .object]

abbrev inPanel : List Frame := .object :: inPanels

abbrev inTargets : List Frame := .array :: inPanel

/-- Before the first item of a list, or after an item. -/
def listMode (i : Nat) : Mode := if i = 0 then .first else .after

section Targets

variable {type : DashboardType} {t : Target} {mode : Mode}

set_option maxRecDepth 10000 in
theorem steps_influxDBFront {title metric : Bytes} (clean : isContent title = true)
    (cleanMetric : isContent metric = true) (start : mode = .first ∨ mode = .value) :
    steps (mode, inTargets) (influxDBFront title metric) = some (.string false, .object :: inTargets) := by
  simp only [influxDBFront, List.append_assoc]
  rw [steps_append_of_eq (t := (.string false, .object :: inTargets)),
    steps_append_of_eq (steps_content clean _ _),
    steps_append_of_eq (t := (.string false, .object :: inTargets)),
    steps_append_of_eq (steps_content cleanMetric _ _)]
  · exact steps_ascii (by decide)
  · exact steps_ascii (by decide)
  · rcases start with rfl | rfl
    · exact steps_ascii (by decide)
    · exact steps_ascii (by decide)

theorem steps_prometheusFront {legend expr : Bytes} (clean : isContent legend = true)
    (cleanExpr : isContent expr = true) (start : mode = .first ∨ mode = .value) :
    steps (mode, inTargets) (prometheusFront legend expr) = some (.string false, .object :: inTargets) := by
  simp only [prometheusFront, List.append_assoc]
  rw [steps_append_of_eq (t := (.string false, .object :: inTargets)),
    steps_append_of_eq (steps_content cleanExpr _ _),
    steps_append_of_eq (t := (.string false, .object :: inTargets)),
    steps_append_of_eq (steps_content clean _ _)]
  · exact steps_ascii (by decide)
  · exact steps_ascii (by decide)
  · rcases start with rfl | rfl
    · exact steps_ascii (by decide)
    · exact steps_ascii (by decide)

theorem steps_front (clean : t.Clean) (start : mode = .first ∨ mode = .value) :
    steps (mode, inTargets) (t.front type) = some (.string false, .object :: inTargets) := by
  obtain ⟨title, metric, expr⟩ := clean
  rw [Target.front]
  split
  · exact steps_influxDBFront title metric start
  · exact steps_prometheusFront title expr start

set_option maxRecDepth 10000 in
theorem steps_back : steps (.string false, .object :: inTargets) (targetBack type) = some (.after, inTargets) := by
  rw [targetBack]
  split
  · exact steps_ascii (by decide)
  · exact steps_ascii (by decide)

theorem isContent_refId : ∀ i < 27, isContent (refId i) = true := by
  decide

theorem steps_target (clean : t.Clean) (start : mode = .first ∨ mode = .value) {i : Nat} (small : i < 27) :
    steps (mode, inTargets) (t.text type (refId i)) = some (.after, inTargets) := by
  rw [Target.text, steps_append_of_eq (steps_front clean start),
    steps_append_of_eq (steps_content (isContent_refId i small) _ _)]
  exact steps_back

/-- The targets of a panel from the one with this number on. -/
theorem steps_targets {targets : List Target} (clean : ∀ t ∈ targets, t.Clean) {i : Nat}
    (few : i + targets.length ≤ 27) :
    steps (listMode i, inTargets) (targetsText type targets i) =
      some (listMode (i + targets.length), inTargets) := by
  induction targets generalizing i with
  | nil => rfl
  | cons t targets ih =>
      rw [List.length_cons] at few
      have own := clean t List.mem_cons_self
      have later := ih (fun other member => clean other (List.mem_cons_of_mem t member))
        (show i + 1 + targets.length ≤ 27 by omega)
      have next : i + (t :: targets).length = i + 1 + targets.length := by
        rw [List.length_cons]
        omega
      have first : steps (listMode i, inTargets)
          ((if 0 < i then ascii "," else []) ++ t.text type (refId i)) = some (listMode (i + 1), inTargets) := by
        cases i with
        | zero => exact steps_target own (Or.inl rfl) (by omega)
        | succ i =>
            have comma : steps (listMode (i + 1), inTargets) (ascii ",") = some (.value, inTargets) := by
              change steps (.after, inTargets) (ascii ",") = _
              decide
            rw [if_pos (Nat.succ_pos i), steps_append_of_eq comma]
            exact steps_target own (Or.inr rfl) (by omega)
      rw [targetsText, steps_append_of_eq first, later, next]

end Targets

/-! ## Panels -/

section Panels

variable {type : DashboardType} {mode : Mode}

theorem listMode_cases (i : Nat) : listMode i = .first ∨ listMode i = .after := by
  rw [listMode]
  split
  · exact Or.inl rfl
  · exact Or.inr rfl

theorem steps_dataSource : steps (.value, inPanel) (defaultDataSource type) = some (.word [], inPanel) ∨
    steps (.value, inPanel) (defaultDataSource type) = some (.after, inPanel) := by
  rw [defaultDataSource]
  split
  · exact Or.inr (by decide)
  · exact Or.inl (by decide)

/-- A number between two fragments. -/
theorem steps_number {n : Nat} {stack : List Frame} {l : List Char} {c : Char} {rest : Bytes}
    (notDigit : isdigit (UInt8.ofNat c.toNat) = false) :
    steps (.value, stack) (decimal n ++ (ascii (String.ofList (c :: l)) ++ rest)) =
      steps (.after, stack) (ascii (String.ofList (c :: l)) ++ rest) := by
  rw [ascii_ofList, List.map_cons, List.cons_append, steps_decimal notDigit]

/-- A member with a number, and the text after it. -/
theorem steps_member {mode : Mode} {stack : List Frame} {name text : List Char} {c : Char} (n : Nat)
    (opens : steps (mode, stack) (ascii (String.ofList name)) = some (.value, stack))
    (notDigit : isdigit (UInt8.ofNat c.toNat) = false) (rest : Bytes) :
    steps (mode, stack) (ascii (String.ofList name) ++
      (decimal n ++ (ascii (String.ofList (c :: text)) ++ rest))) =
        steps (.after, stack) (ascii (String.ofList (c :: text)) ++ rest) := by
  rw [steps_append_of_eq opens, steps_number notDigit]

theorem steps_gridPos (p : Panel) {c : Char} {text : List Char}
    (notDigit : isdigit (UInt8.ofNat c.toNat) = false) (rest : Bytes) :
    steps (.firstKey, .object :: inPanel) (p.gridPos ++ (ascii (String.ofList (c :: text)) ++ rest)) =
      steps (.after, .object :: inPanel) (ascii (String.ofList (c :: text)) ++ rest) := by
  have comma : steps (.after, .object :: inPanel) (ascii ",\n") = some (.key, .object :: inPanel) :=
    steps_ascii (by decide)
  simp only [Panel.gridPos, List.append_assoc]
  rw [steps_member p.x (steps_ascii (by decide)) (by decide), steps_append_of_eq comma,
    steps_member p.y (steps_ascii (by decide)) (by decide), steps_append_of_eq comma,
    steps_member p.w (steps_ascii (by decide)) (by decide), steps_append_of_eq comma,
    steps_member p.h (steps_ascii (by decide)) notDigit]

theorem steps_beforeTargets {p : Panel} (clean : p.Clean) (start : mode = .first ∨ mode = .value) (id : Nat) :
    steps (mode, inPanels) (p.beforeTargets type id) = some (.first, inTargets) := by
  have opens : steps (mode, inPanels) (ascii "
    \x7b
      \"datasource\": ") = some (.value, inPanel) := by
    rcases start with rfl | rfl
    · exact steps_ascii (by decide)
    · exact steps_ascii (by decide)
  have source : ∀ rest : Bytes, steps (.value, inPanel) (defaultDataSource type ++ (ascii ",
      \"interval\": \"2s\",
      \"gridPos\": \x7b
" ++ rest)) = steps (.firstKey, .object :: inPanel) rest := by
    intro rest
    rcases @steps_dataSource type with word | value
    · rw [steps_append_of_eq word]
      exact steps_append_of_eq (steps_ascii (by decide)) rest
    · rw [steps_append_of_eq value]
      exact steps_append_of_eq (steps_ascii (by decide)) rest
  have title : steps (.after, .object :: inPanel) (ascii "
      \x7d,
      \"title\": \"") = some (.string false, inPanel) := steps_ascii (by decide)
  simp only [Panel.beforeTargets, List.append_assoc]
  rw [steps_append_of_eq opens, source, steps_gridPos p (by decide), steps_append_of_eq title,
    steps_append_of_eq (steps_content clean.title _ _),
    ← List.append_nil (ascii ",\n      \"targets\": ["),
    steps_member id (steps_ascii (by decide)) (by decide), List.append_nil]
  exact steps_ascii (by decide)

set_option maxRecDepth 10000 in
theorem steps_kind {kind : PanelKind} (clean : kind.Clean) :
    steps (.key, inPanel) kind.text = some (.after, inPanels) := by
  cases kind with
  | gauge => exact steps_ascii (by decide)
  | barGauge => exact steps_ascii (by decide)
  | timeSeries yAxisLabel isStacked =>
      simp only [PanelKind.text, List.append_assoc]
      have isWord : steps (.value, inPanel) (if isStacked then ascii "true" else ascii "false") =
          some (.word [], inPanel) := by
        cases isStacked with
        | false => decide
        | true => decide
      rw [steps_append_of_eq (t := (.value, inPanel)), steps_append_of_eq isWord,
        steps_append_of_eq (t := (.string false, .object :: .array :: inPanel)),
        steps_append_of_eq (steps_content clean _ _)]
      · exact steps_ascii (by decide)
      · exact steps_ascii (by decide)
      · exact steps_ascii (by decide)

/-- A panel with few targets. -/
theorem steps_panel {p : Panel} (clean : p.Clean) (few : p.targets.length ≤ 27)
    (start : mode = .first ∨ mode = .value) (id : Nat) :
    steps (mode, inPanels) (p.text type id) = some (.after, inPanels) := by
  have targets : steps (.first, inTargets) (targetsText type p.targets 0) =
      some (listMode (0 + p.targets.length), inTargets) :=
    steps_targets (i := 0) clean.targets (by omega)
  have closed : steps (listMode (0 + p.targets.length), inTargets) (ascii "\n      ],\n") =
      some (.key, inPanel) := by
    rcases listMode_cases (0 + p.targets.length) with first | after
    · rw [first]
      exact steps_ascii (by decide)
    · rw [after]
      exact steps_ascii (by decide)
  simp only [Panel.text, Panel.getHeader, List.append_assoc]
  rw [steps_append_of_eq (steps_beforeTargets clean start id), steps_append_of_eq targets,
    steps_append_of_eq closed]
  exact steps_kind clean.kind

/-- The panels from the one with this number on. -/
theorem steps_panels {panels : List Panel} (clean : ∀ p ∈ panels, p.Clean)
    (few : ∀ p ∈ panels, p.targets.length ≤ 27) (i : Nat) :
    steps (listMode i, inPanels) (panelsText type panels i) =
      some (listMode (i + panels.length), inPanels) := by
  induction panels generalizing i with
  | nil => rfl
  | cons p panels ih =>
      have own := clean p List.mem_cons_self
      have ownFew := few p List.mem_cons_self
      have later := ih (fun other member => clean other (List.mem_cons_of_mem p member))
        (fun other member => few other (List.mem_cons_of_mem p member)) (i + 1)
      have next : i + (p :: panels).length = i + 1 + panels.length := by
        rw [List.length_cons]
        omega
      have first : steps (listMode i, inPanels)
          ((if 0 < i then ascii "," else []) ++ p.text type (i + 2)) = some (listMode (i + 1), inPanels) := by
        cases i with
        | zero => exact steps_panel own ownFew (Or.inl rfl) 2
        | succ i =>
            have comma : steps (listMode (i + 1), inPanels) (ascii ",") = some (.value, inPanels) := by
              change steps (.after, inPanels) (ascii ",") = _
              decide
            rw [if_pos (Nat.succ_pos i), steps_append_of_eq comma]
            exact steps_panel own ownFew (Or.inr rfl) (i + 1 + 2)
      rw [panelsText, steps_append_of_eq first, later, next]

end Panels

/-! ## The document -/

section Document

variable {type : DashboardType} {title : Bytes} {panels : List Panel}

set_option maxRecDepth 10000 in
theorem steps_dashboardFront : steps (.value, []) dashboardFront = some (.first, inPanels) :=
  steps_ascii (by decide)

set_option maxRecDepth 10000 in
theorem steps_dashboardBack (clean : isContent title = true) {mode : Mode}
    (start : mode = .first ∨ mode = .after) :
    steps (mode, inPanels) (dashboardBack type title) = some (.after, []) := by
  have first : steps (.value, [.object, .array, .object, .object]) (definition type) =
      some (.after, [.object, .array, .object, .object]) := by
    rw [definition]
    split
    · exact steps_ascii (by decide)
    · exact steps_ascii (by decide)
  have second : steps (.value, [.object, .array, .object, .object]) (query type) =
      some (.after, [.object, .array, .object, .object]) := by
    rw [query]
    split
    · exact steps_ascii (by decide)
    · exact steps_ascii (by decide)
  simp only [dashboardBack, List.append_assoc]
  rw [steps_append_of_eq (t := (.value, [.object, .array, .object, .object])), steps_append_of_eq first,
    steps_append_of_eq (t := (.value, [.object, .array, .object, .object])), steps_append_of_eq second,
    steps_append_of_eq (t := (.string false, [.object])), steps_append_of_eq (steps_content clean _ _)]
  · exact steps_ascii (by decide)
  · exact steps_ascii (by decide)
  · exact steps_ascii (by decide)
  · rcases start with rfl | rfl
    · exact steps_ascii (by decide)
    · exact steps_ascii (by decide)

/-- A dashboard whose panels have few targets is a document. -/
theorem document_dashboard (cleanTitle : isContent title = true) (clean : ∀ p ∈ panels, p.Clean)
    (few : ∀ p ∈ panels, p.targets.length ≤ 27) : ∃ value, Document value (dashboard type title panels) := by
  have run : steps (.first, inPanels) (panelsText type panels 0) =
      some (listMode (0 + panels.length), inPanels) := steps_panels clean few 0
  refine document_of_steps ?_
  rw [dashboard, steps_append_of_eq steps_dashboardFront, steps_append_of_eq run]
  exact steps_dashboardBack cleanTitle (listMode_cases _)

/-! ## Too many targets -/

theorem agrees_value {stack : List Frame} : Agrees (Mode.value, stack).1 (.outside false) := ⟨false, rfl⟩

theorem targetsText_append (a b : List Target) (i : Nat) :
    targetsText type (a ++ b) i = targetsText type a i ++ targetsText type b (i + a.length) := by
  induction a generalizing i with
  | nil => rfl
  | cons t a ih =>
      have next : i + 1 + a.length = i + (t :: a).length := by
        rw [List.length_cons]
        omega
      rw [List.cons_append, targetsText, targetsText, ih, next]
      simp only [List.append_assoc]

/-- The quote after a backslash does not end the string. -/
theorem scan_backslash (rest : Bytes) : scan .inside (refId 27 ++ (targetBack type ++ rest)) = none := by
  have name : refId 27 = [92] := by decide
  rw [name, targetBack]
  split
  · rw [influxDBBack, ascii_ofList]
    rfl
  · rw [prometheusBack, ascii_ofList]
    rfl

/-- A panel with many targets is stopped at the 28th. -/
theorem scan_panel {p : Panel} (clean : p.Clean) (many : 27 < p.targets.length) (id : Nat) (rest : Bytes) :
    scan (.outside false) (p.text type id ++ rest) = none := by
  obtain ⟨few, t, others, split, length⟩ : ∃ few t others, p.targets = few ++ t :: others ∧ few.length = 27 := by
    refine ⟨p.targets.take 27, p.targets.get ⟨27, many⟩, p.targets.drop 28, ?_, ?_⟩
    · rw [List.get_eq_getElem, List.getElem_cons_drop, List.take_append_drop]
    · rw [List.length_take]
      omega
  have cleanFew : ∀ other ∈ few, other.Clean := by
    intro other member
    refine clean.targets other ?_
    rw [split]
    exact List.mem_append_left _ member
  have cleanLast : t.Clean := by
    refine clean.targets t ?_
    rw [split]
    exact List.mem_append_right _ List.mem_cons_self
  have before : steps (.value, inPanels) (p.beforeTargets type id ++
      (targetsText type few 0 ++ (ascii "," ++ t.front type))) = some (.string false, .object :: inTargets) := by
    have run : steps (.first, inTargets) (targetsText type few 0) =
        some (listMode (0 + few.length), inTargets) := steps_targets (i := 0) cleanFew (by omega)
    have comma : steps (.after, inTargets) (ascii ",") = some (.value, inTargets) := by decide
    rw [length] at run
    change _ = some (Mode.after, inTargets) at run
    rw [steps_append_of_eq (steps_beforeTargets clean (Or.inr rfl) id), steps_append_of_eq run,
      steps_append_of_eq comma]
    exact steps_front cleanLast (Or.inr rfl)
  obtain ⟨scanned, run, agrees⟩ := scan_of_steps agrees_value before
  obtain rfl : scanned = .inside := agrees
  have text : p.text type id ++ rest = (p.beforeTargets type id ++
      (targetsText type few 0 ++ (ascii "," ++ t.front type))) ++ (refId 27 ++ (targetBack type ++
        (targetsText type others 28 ++ (ascii "\n      ],\n" ++ (p.kind.text ++ rest))))) := by
    rw [Panel.text, Panel.getHeader, split, targetsText_append, length, targetsText, if_pos (by decide),
      Target.text]
    simp only [List.append_assoc]
  rw [text, scan_append_of_eq run]
  exact scan_backslash _

theorem scan_panels (clean : ∀ p ∈ panels, p.Clean) (many : ∃ p ∈ panels, 27 < p.targets.length) (i : Nat)
    (rest : Bytes) : scan (.outside false) (panelsText type panels i ++ rest) = none := by
  induction panels generalizing i with
  | nil =>
      obtain ⟨p, member, -⟩ := many
      cases member
  | cons p panels ih =>
      have comma : scan (.outside false) (if 0 < i then ascii "," else []) = some (.outside false) := by
        split
        · decide
        · rfl
      rw [panelsText, List.append_assoc, List.append_assoc, scan_append_of_eq comma]
      rcases Nat.lt_or_ge 27 p.targets.length with here | few
      · exact scan_panel (clean p List.mem_cons_self) here (i + 2) _
      · have own : steps (.value, inPanels) (p.text type (i + 2)) = some (.after, inPanels) :=
          steps_panel (clean p List.mem_cons_self) few (Or.inr rfl) (i + 2)
        obtain ⟨scanned, run, agrees⟩ := scan_of_steps agrees_value own
        obtain rfl : scanned = .outside false := agrees
        rw [scan_append_of_eq run]
        refine ih (fun other member => clean other (List.mem_cons_of_mem p member)) ?_ (i + 1)
        obtain ⟨other, member, more⟩ := many
        rcases List.mem_cons.mp member with rfl | later
        · omega
        · exact ⟨other, later, more⟩

/-- A dashboard with a panel with many targets is no document. -/
theorem no_document_dashboard (clean : ∀ p ∈ panels, p.Clean) (many : ∃ p ∈ panels, 27 < p.targets.length)
    (value : Value) : ¬ Document value (dashboard type title panels) := by
  intro document
  obtain ⟨scanned, run, agrees⟩ := scan_of_steps agrees_value steps_dashboardFront
  obtain rfl : scanned = .outside false := agrees
  have closed := document.scan
  rw [Closed, dashboard, scan_append_of_eq run, scan_panels clean many] at closed
  cases closed

end Document

end Pcm.Dashboard

import Pcm.RawOutput

/-!
# The lines of a PMU type

`printTransposed` prints the lines of a PMU type in groups: a group is one line, or the line of the fixed
counter for the slots with those of the topdown metrics. Data has all groups, and a header only has the
first one, because the code looks at `is_header_printed` at the beginning of a group and not within it.
-/

namespace Pcm.Raw

open StdString

/-- A line: its name and its columns. -/
abbrev Row := Bytes × Columns

section Groups

variable (s : Setting)

def uncoreGroups (config : RawPMUConfig) (rows : UncoreRows) : List (List Row) :=
  (if config.fixed = [] then []
    else [[(rows.miscName s, uncoreColumns s rows "SKT" (fixedValue s rows))]]) ++
  config.programmable.zipIdx.map (fun event =>
    [(eventName s.type event.1 event.2, uncoreColumns s rows "SKT_" (uncoreValue s event.2))])

def msrGroups (config : RawPMUConfig) (scope : MSRScope) : List (List Row) :=
  config.events.map (fun event =>
    [(nameOr event (getMSREventString s.type event.encoding), msrColumns s scope event)])

def registerGroups (config : RawPMUConfig) (getEventString : String → RawEventEncoding → Bytes) :
    List (List Row) :=
  config.events.map (fun event =>
    [(nameOr event (getEventString s.type event.encoding),
      registerColumns s (getRegisterEvent s.sample s.type event.encoding))])

/-- The lines of the topdown metrics. -/
def topdownRows (coreType : CoreType) : List Row :=
  (List.range (numTMAEvents s.machine)).map (fun t =>
    (ascii (topdownEventNames.getD t ""), coreColumns s coreType (s.sample.topdown t)))

/-- The lines of a fixed counter that is enabled. -/
def fixedGroup (coreType : CoreType) (event : RawEventConfig) (cnt : Nat) : List Row :=
  (fixedCoreName event cnt, coreColumns s coreType (s.sample.fixedCore cnt)) ::
    if cnt = 3 && perfMetrics event then topdownRows s coreType else []

/-- The fixed counters that are enabled, in the order of the loops. -/
def enabledCounters (config : RawPMUConfig) : List (RawEventConfig × Nat) :=
  config.fixed.flatMap (fun event => ([0, 1, 2, 3].filter (countsFixed event)).map (fun cnt => (event, cnt)))

def coreGroups (config : RawPMUConfig) (coreType : CoreType) : List (List Row) :=
  (enabledCounters config).map (fun counter => fixedGroup s coreType counter.1 counter.2) ++
  config.programmable.zipIdx.map (fun event =>
    [(eventName s.type event.1 event.2, coreColumns s coreType (s.sample.customEvents event.2))])

/-- The groups of lines of a PMU type. -/
def groups (config : RawPMUConfig) : List (List Row) :=
  match kindOf s.machine s.type config with
  | .cores coreType => coreGroups s config coreType
  | .msrs scope => msrGroups s config scope
  | .registers getEventString => registerGroups s config getEventString
  | .uncore rows => uncoreGroups s config rows
  | .unrecognized => []

/-! ## Printing groups -/

def printRows (rows : List Row) (p : Printing) : Printing :=
  rows.foldl (fun p row => printLine s row.1 row.2 p) p

/-- A group is left out when a header has been printed. -/
def printGroup (p : Printing) (rows : List Row) : Printing :=
  if s.outputType.isHeader && p.isHeaderPrinted then p else markHeader s (printRows s rows p)

variable {s}

theorem markHeader_printLine (name : Bytes) (columns : Columns) (p : Printing) :
    printLine s name columns (markHeader s p) = markHeader s (printLine s name columns p) := by
  simp only [markHeader]
  split <;> rfl

theorem printRows_markHeader (rows : List Row) (p : Printing) :
    printRows s rows (markHeader s p) = markHeader s (printRows s rows p) := by
  induction rows generalizing p with
  | nil => rfl
  | cons row rows ih =>
      simp only [printRows, List.foldl_cons] at ih ⊢
      rw [markHeader_printLine, ih]

theorem printFixed_eq (coreType : CoreType) (event : RawEventConfig) (p : Printing) (cnt : Nat) :
    printFixed s coreType event p cnt =
      if countsFixed event cnt then printGroup s p (fixedGroup s coreType event cnt) else p := by
  simp only [printFixed, printGroup, fixedGroup]
  split
  · split
    · rfl
    · split
      · change _ = markHeader s (printRows s (topdownRows s coreType) (printLine s _ _ p))
        rw [← printRows_markHeader, topdownRows, printRows, List.foldl_map]
      · rfl
  · rfl

/-- A loop over the members of a list that have something to print. -/
theorem foldl_filter_printGroup {α : Type} (enabled : α → Bool) (group : α → List Row)
    (l : List α) (p : Printing) :
    l.foldl (fun p a => if enabled a then printGroup s p (group a) else p) p =
      ((l.filter enabled).map group).foldl (printGroup s) p := by
  induction l generalizing p with
  | nil => rfl
  | cons a l ih =>
      rw [List.foldl_cons, ih, List.filter_cons]
      split <;> rfl

theorem printCores_eq (config : RawPMUConfig) (coreType : CoreType) (p : Printing) :
    printCores s config coreType p = (coreGroups s config coreType).foldl (printGroup s) p := by
  have fixed : ∀ (events : List RawEventConfig) (p : Printing),
      events.foldl (fun p event => [0, 1, 2, 3].foldl (printFixed s coreType event) p) p =
        ((events.flatMap (fun event =>
          ([0, 1, 2, 3].filter (countsFixed event)).map (fun cnt => (event, cnt)))).map
            (fun counter => fixedGroup s coreType counter.1 counter.2)).foldl (printGroup s) p := by
    intro events
    induction events with
    | nil => exact fun _ => rfl
    | cons event events ih =>
        intro p
        rw [List.foldl_cons, ih, List.flatMap_cons, List.map_append, List.foldl_append, List.map_map]
        congr 1
        have each := funext₂ (fun p cnt => printFixed_eq (s := s) coreType event p cnt)
        rw [each]
        exact foldl_filter_printGroup _ _ _ _
  rw [printCores, coreGroups, List.foldl_append, enabledCounters, ← fixed, List.foldl_map]
  rfl

theorem printMSRRows_eq (config : RawPMUConfig) (scope : MSRScope) (p : Printing) :
    printMSRRows s config scope p = (msrGroups s config scope).foldl (printGroup s) p := by
  rw [msrGroups, List.foldl_map]
  rfl

theorem printRegisterRows_eq (config : RawPMUConfig)
    (getEventString : String → RawEventEncoding → Bytes) (p : Printing) :
    printRegisterRows s config getEventString p =
      (registerGroups s config getEventString).foldl (printGroup s) p := by
  rw [registerGroups, List.foldl_map]
  rfl

theorem printUncoreRows_eq (config : RawPMUConfig) (rows : UncoreRows) {p : Printing}
    (first : p.isHeaderPrinted = false) :
    printUncoreRows s config rows p = (uncoreGroups s config rows).foldl (printGroup s) p := by
  rw [printUncoreRows, uncoreGroups, List.foldl_append, List.foldl_map]
  split
  · rfl
  · simp only [List.foldl_cons, List.foldl_nil, printGroup, first, Bool.and_false, Bool.false_eq_true,
      if_false]
    rfl

/-- The lines of a PMU type are printed group by group. -/
theorem printType_eq (config : RawPMUConfig) {p : Printing} (first : p.isHeaderPrinted = false) :
    printType s config p = (groups s config).foldl (printGroup s) p := by
  simp only [printType, groups]
  cases kindOf s.machine s.type config with
  | cores coreType => exact printCores_eq config coreType p
  | msrs scope => exact printMSRRows_eq config scope p
  | registers getEventString => exact printRegisterRows_eq config getEventString p
  | uncore rows => exact printUncoreRows_eq config rows first
  | unrecognized => rfl

/-! ## Data and headers -/

theorem lines_printRows (rows : List Row) (p : Printing) :
    (printRows s rows p).lines = p.lines ++ rows.map (fun row => line s row.1 row.2) := by
  induction rows generalizing p with
  | nil => simp [printRows]
  | cons row rows ih =>
      simp only [printRows, List.foldl_cons] at ih ⊢
      rw [ih]
      simp [printLine]

theorem stop_printRows (rows : List Row) (p : Printing) :
    (printRows s rows p).stop =
      if s.outputType.countsColumns then p.stop + (rows.map (fun row => row.2.places.length)).sum
      else p.stop := by
  induction rows generalizing p with
  | nil => simp [printRows]
  | cons row rows ih =>
      simp only [printRows, List.foldl_cons] at ih ⊢
      rw [ih]
      simp only [printLine, List.map_cons, List.sum_cons]
      split <;> omega

theorem lines_markHeader (p : Printing) : (markHeader s p).lines = p.lines := by
  rw [markHeader]
  split <;> rfl

theorem stop_markHeader (p : Printing) : (markHeader s p).stop = p.stop := by
  rw [markHeader]
  split <;> rfl

/-- All groups are printed as data. -/
theorem lines_of_data (data : s.outputType.isHeader = false) (gs : List (List Row)) (p : Printing) :
    (gs.foldl (printGroup s) p).lines = p.lines ++ gs.flatten.map (fun row => line s row.1 row.2) := by
  induction gs generalizing p with
  | nil => simp
  | cons rows gs ih =>
      rw [List.foldl_cons, ih, printGroup, data, Bool.false_and, if_neg Bool.false_ne_true,
        lines_markHeader, lines_printRows, List.flatten_cons, List.map_append, List.append_assoc]

/-- After the first group of a header nothing is printed. -/
theorem foldl_of_printed (header : s.outputType.isHeader = true) (gs : List (List Row)) {p : Printing}
    (printed : p.isHeaderPrinted = true) : gs.foldl (printGroup s) p = p := by
  induction gs with
  | nil => rfl
  | cons rows gs ih => rw [List.foldl_cons, printGroup, header, printed, Bool.and_true, if_pos rfl, ih]

/-- The lines of a header. -/
def headRows (s : Setting) (config : RawPMUConfig) : List Row := (groups s config).head?.getD []

theorem printType_header (header : s.outputType.isHeader = true) (config : RawPMUConfig) (start : Nat) :
    printType s config { stop := start } =
      if groups s config = [] then { stop := start }
      else markHeader s (printRows s (headRows s config) { stop := start }) := by
  rw [printType_eq config rfl, headRows]
  cases groups s config with
  | nil => rfl
  | cons rows gs =>
      rw [List.foldl_cons, foldl_of_printed header]
      · simp [printGroup]
      · simp [printGroup, markHeader, header]

theorem lines_printType_header (header : s.outputType.isHeader = true) (config : RawPMUConfig)
    (start : Nat) : (printType s config { stop := start }).lines =
      (headRows s config).map (fun row => line s row.1 row.2) := by
  rw [printType_header header]
  split
  · rename_i none
    rw [headRows, none]
    rfl
  · rw [lines_markHeader, lines_printRows]
    rfl

theorem stop_printType_header (counts : s.outputType.countsColumns = true)
    (config : RawPMUConfig) (start : Nat) : (printType s config { stop := start }).stop =
      start + ((headRows s config).map (fun row => row.2.places.length)).sum := by
  have header : s.outputType.isHeader = true := by
    revert counts
    cases s.outputType <;> decide
  rw [printType_header header]
  split
  · rename_i none
    rw [headRows, none]
    rfl
  · rw [stop_markHeader, stop_printRows, if_pos counts]

theorem lines_printType_data (data : s.outputType.isHeader = false) (config : RawPMUConfig)
    (start : Nat) : (printType s config { stop := start }).lines =
      (groups s config).flatten.map (fun row => line s row.1 row.2) := by
  rw [printType_eq config rfl, lines_of_data data]
  rfl

end Groups

end Pcm.Raw

import Pcm.RawRows

/-!
# Columns of the transposed output

The columns of a PMU type begin where the header has them, and there are as many as the header has, if
the first group of lines of the first event group that names the type had the columns of the data. That
fails for `pcu`, whose header counts the PMUs of a socket while its data has one, where the header repeats
the columns of the cores for the topdown metrics, and where an event has another number of registers than
the first one had when the header was printed.
-/

namespace Pcm.Raw

open StdString

/-! ## Fields of a line -/

/-- The texts between the separators. -/
def fields : Line → List Bytes
  | [] => [[]]
  | .separator :: pieces => [] :: fields pieces
  | .text written :: pieces =>
      match fields pieces with
      | field :: others => (written ++ field) :: others
      | [] => [written]
  | .endl :: pieces => fields pieces

theorem fields_ne_nil (pieces : Line) : fields pieces ≠ [] := by
  induction pieces with
  | nil => exact List.cons_ne_nil _ _
  | cons piece pieces ih =>
      cases piece with
      | separator => exact List.cons_ne_nil _ _
      | text written =>
          rw [fields]
          split <;> exact List.cons_ne_nil _ _
      | endl => exact ih

theorem fields_text_nil (pieces : Line) : fields (.text [] :: pieces) = fields pieces := by
  rw [fields]
  split
  · rename_i shape
    rw [shape]
    rfl
  · rename_i none
    exact absurd none (fields_ne_nil pieces)

/-- A separator and a text for each field. -/
def cells (texts : List Bytes) : List Piece := texts.flatMap (fun text => [.separator, .text text])

theorem fields_text_cells (written : Bytes) (texts : List Bytes) (after : List Piece)
    (empty : fields after = [[]]) :
    fields (.text written :: (cells texts ++ after)) = written :: texts := by
  induction texts generalizing written with
  | nil => simp [cells, fields, empty]
  | cons text texts ih =>
      have shape : cells (text :: texts) ++ after =
          .separator :: .text text :: (cells texts ++ after) := by simp [cells]
      rw [shape, fields, fields, ih text]
      simp

theorem fields_cells (texts : List Bytes) : fields (cells texts) = [] :: texts := by
  have whole := fields_text_cells [] texts [] rfl
  rwa [List.append_nil, fields_text_nil] at whole

/-- Separators alone make empty fields. -/
theorem fields_replicate (written : Bytes) (start : Nat) (texts : List Bytes) (after : List Piece)
    (empty : fields after = [[]]) :
    fields (.text written :: (List.replicate start .separator ++ (cells texts ++ after))) =
      written :: (List.replicate start [] ++ texts) := by
  induction start generalizing written with
  | zero => exact fields_text_cells written texts after empty
  | succ start ih =>
      have next := ih []
      rw [fields_text_nil] at next
      rw [List.replicate_succ, List.cons_append, fields, fields, next, List.replicate_succ]
      simp

section Lines

variable {s : Setting} {name : Bytes} {columns : Columns}

theorem fields_data (data : s.outputType = .data) :
    fields (line s name columns) = leading s.machine s.sample name ++
      (List.replicate s.start [] ++ columns.places.map columns.value) := by
  have body : columns.places.flatMap (printPlace .data columns) =
      cells (columns.places.map columns.value) := by
    rw [cells, List.flatMap_map]
    rfl
  have tail := fields_replicate (decimal s.sample.invariantTSC) s.start
    (columns.places.map columns.value) [.endl] rfl
  simp only [line, data, body, printRowBegin, printRowBeginCSV, printNewLine, List.append_assoc,
    List.cons_append, List.nil_append]
  simp only [fields, leading, List.append_nil, List.cons_append, List.nil_append] at tail ⊢
  rw [tail]

/-- The name of a place in a header. -/
def Columns.headerName (outputType : CsvOutputType) (columns : Columns) : Place → Bytes :=
  if outputType = .header1 then columns.header1 else columns.header21

theorem fields_header (counts : s.outputType.countsColumns = true) :
    (fields (line s name columns)).tail = columns.places.map (columns.headerName s.outputType) := by
  have body : line s name columns = cells (columns.places.map (columns.headerName s.outputType)) := by
    rw [cells, List.flatMap_map, line]
    revert counts
    cases s.outputType with
    | header1 =>
        intro _
        simp only [printRowBegin, printNewLine, List.nil_append, List.append_nil]
        rfl
    | header21 =>
        intro _
        simp only [printRowBegin, printNewLine, List.nil_append, List.append_nil]
        rfl
    | header2 => nofun
    | data => nofun
    | json => nofun
  rw [body, fields_cells]
  rfl

end Lines

/-! ## The header -/

/-- The columns that the lines of a header add. -/
def columnsOf (block : List Line) : List Bytes := block.flatMap (fun l => (fields l).tail)

def columnsFor (header : Blocks) (type : String) : List Bytes :=
  columnsOf ((header.lookup type).getD [])

def columnsBefore (header : Blocks) (type : String) : List Bytes :=
  (header.takeWhile (fun block => block.1 ≠ type)).flatMap (fun block => columnsOf block.2)

/-- The first entry of each PMU type that is not known. -/
def firsts (known : List String) : List (String × RawPMUConfig) → List (String × RawPMUConfig)
  | [] => []
  | (type, config) :: entries =>
      if type ∈ known then firsts known entries
      else (type, config) :: firsts (type :: known) entries

section Header

variable (m : Machine) (options : Options) (sample : Sample) (outputType : CsvOutputType)

/-- The lines of the header of a PMU type. -/
def typeRows (type : String) (config : RawPMUConfig) : List Row :=
  headRows ⟨m, options, sample, outputType, type, 0⟩ config

def width (type : String) (config : RawPMUConfig) : Nat :=
  ((typeRows m options sample outputType type config).map (fun row => row.2.places.length)).sum

def headerBlock (entry : String × RawPMUConfig) : String × List Line :=
  (entry.1, (typeRows m options sample outputType entry.1 entry.2).map
    (fun row => line ⟨m, options, sample, outputType, entry.1, 0⟩ row.1 row.2))

def offsetsFrom (start : Nat) : List (String × RawPMUConfig) → List PrintOffset
  | [] => []
  | (type, config) :: entries =>
      ⟨type, start, start + width m options sample outputType type config⟩ ::
        offsetsFrom (start + width m options sample outputType type config) entries

variable {m options sample outputType}

theorem getPrintOffset_eq_none {g : Globals} {type : String}
    (unknown : type ∉ g.printOffsets.map (·.entry)) : getPrintOffset g type = none := by
  rw [getPrintOffset, List.find?_eq_none]
  intro offset member same
  exact unknown (List.mem_map.mpr ⟨offset, member, by simpa using same⟩)

theorem getPrintOffset_isSome {g : Globals} {type : String}
    (known : type ∈ g.printOffsets.map (·.entry)) : ∃ offset, getPrintOffset g type = some offset := by
  obtain ⟨offset, member, same⟩ := List.mem_map.mp known
  rcases found : getPrintOffset g type with - | offset'
  · rw [getPrintOffset, List.find?_eq_none] at found
    exact absurd (by simpa using same) (found offset member)
  · exact ⟨offset', rfl⟩

theorem printTypeEvents_known (counts : outputType.countsColumns = true) {g : Globals} {type : String}
    (known : type ∈ g.printOffsets.map (·.entry)) (config : RawPMUConfig) :
    printTypeEvents m options sample outputType g type config = (g, []) := by
  obtain ⟨offset, found⟩ := getPrintOffset_isSome known
  revert counts
  cases outputType with
  | header1 => intro _; simp only [printTypeEvents, found]
  | header21 => intro _; simp only [printTypeEvents, found]
  | header2 => nofun
  | data => nofun
  | json => nofun

theorem isHeader_of_counts (counts : outputType.countsColumns = true) : outputType.isHeader = true := by
  revert counts
  cases outputType <;> decide

/-- The place where a line of a header begins does not matter. -/
theorem line_header (header : outputType.isHeader = true) (type : String) (start : Nat) (row : Row) :
    line ⟨m, options, sample, outputType, type, start⟩ row.1 row.2 =
      line ⟨m, options, sample, outputType, type, 0⟩ row.1 row.2 := by
  revert header
  cases outputType with
  | header1 => intro _; rfl
  | header21 => intro _; rfl
  | header2 => intro _; rfl
  | data => nofun
  | json => nofun

theorem printTypeEvents_unknown (counts : outputType.countsColumns = true) {g : Globals}
    {type : String} (unknown : type ∉ g.printOffsets.map (·.entry)) (config : RawPMUConfig) :
    printTypeEvents m options sample outputType g type config =
      ({ g with printOffsets := g.printOffsets ++
          [⟨type, nextStart g, nextStart g + width m options sample outputType type config⟩] },
        [headerBlock m options sample outputType (type, config)]) := by
  have header := isHeader_of_counts counts
  have stop := stop_printType_header
    (s := ⟨m, options, sample, outputType, type, nextStart g⟩) counts config (nextStart g)
  have lines := lines_printType_header
    (s := ⟨m, options, sample, outputType, type, nextStart g⟩) header config (nextStart g)
  simp only [line_header header type (nextStart g)] at lines
  have none := getPrintOffset_eq_none unknown
  revert counts
  cases outputType with
  | header1 =>
      intro _
      simp only [printTypeEvents, none, stop, lines]
      rfl
  | header21 =>
      intro _
      simp only [printTypeEvents, none, stop, lines]
      rfl
  | header2 => nofun
  | data => nofun
  | json => nofun

theorem nextStart_snoc (offsets : List PrintOffset) (offset : PrintOffset) (blocks : List String)
    (displayHeader : Bool) : nextStart ⟨offsets ++ [offset], blocks, displayHeader⟩ = offset.stop := by
  simp [nextStart]

/-- Which of the known PMU types comes first does not matter. -/
theorem firsts_congr {known known' : List String} (same : ∀ type, type ∈ known ↔ type ∈ known')
    (entries : List (String × RawPMUConfig)) : firsts known entries = firsts known' entries := by
  induction entries generalizing known known' with
  | nil => rfl
  | cons entry entries ih =>
      obtain ⟨type, config⟩ := entry
      have more : ∀ other, other ∈ type :: known ↔ other ∈ type :: known' := by
        intro other
        rw [List.mem_cons, List.mem_cons, same]
      simp only [firsts, same type, ih same, ih more]

/-- The header has the first entry of each PMU type, one after the other. -/
theorem printTransposed_header (counts : outputType.countsColumns = true) (g : Globals)
    (entries : List (String × RawPMUConfig)) :
    printTransposed m options sample outputType g entries =
      ({ g with
          printOffsets := g.printOffsets ++
            offsetsFrom m options sample outputType (nextStart g)
              (firsts (g.printOffsets.map (·.entry)) entries) },
        (firsts (g.printOffsets.map (·.entry)) entries).map
          (headerBlock m options sample outputType)) := by
  induction entries generalizing g with
  | nil => simp [printTransposed, firsts, offsetsFrom]
  | cons entry entries ih =>
      obtain ⟨type, config⟩ := entry
      by_cases known : type ∈ g.printOffsets.map (·.entry)
      · simp only [printTransposed, printTypeEvents_known counts known, ih, firsts, if_pos known,
          List.nil_append]
      · have later : ∀ offset : PrintOffset, offset.entry = type →
            firsts ((g.printOffsets ++ [offset]).map (·.entry)) entries =
              firsts (type :: g.printOffsets.map (·.entry)) entries := by
          rintro offset rfl
          refine firsts_congr (fun other => ?_) entries
          rw [List.map_append, List.mem_append, List.map_singleton, List.mem_singleton, List.mem_cons,
            or_comm]
        simp only [printTransposed, printTypeEvents_unknown counts known, ih, firsts, if_neg known,
          later ⟨type, _, _⟩ rfl, nextStart_snoc, offsetsFrom, List.append_assoc, List.cons_append, List.nil_append,
          List.map_cons]

theorem printTransposed_append (g : Globals) (first second : List (String × RawPMUConfig)) :
    printTransposed m options sample outputType g (first ++ second) =
      ((printTransposed m options sample outputType
          (printTransposed m options sample outputType g first).1 second).1,
        (printTransposed m options sample outputType g first).2 ++
          (printTransposed m options sample outputType
            (printTransposed m options sample outputType g first).1 second).2) := by
  induction first generalizing g with
  | nil => rfl
  | cons entry first ih =>
      obtain ⟨type, config⟩ := entry
      simp only [List.cons_append, printTransposed, ih, List.append_assoc]

/-- The entries of all groups. -/
def allEntries (PMUConfigs : List RawPMUConfigs) : List (String × RawPMUConfig) :=
  PMUConfigs.flatMap (·.entries)

theorem printHeader_eq (g : Globals) (PMUConfigs : List RawPMUConfigs) :
    printHeader m options sample outputType g PMUConfigs =
      printTransposed m options sample outputType g (allEntries PMUConfigs) := by
  induction PMUConfigs generalizing g with
  | nil => rfl
  | cons config PMUConfigs ih =>
      rw [allEntries, List.flatMap_cons, printTransposed_append, ← allEntries]
      simp only [printHeader, ih]

theorem printOffsets_header2 (g : Globals) (entries : List (String × RawPMUConfig)) :
    (printTransposed m options sample .header2 g entries).1.printOffsets = g.printOffsets := by
  induction entries generalizing g with
  | nil => rfl
  | cons entry entries ih =>
      obtain ⟨type, config⟩ := entry
      simp only [printTransposed, ih, printTypeEvents]
      split <;> rfl

/-- The lines of a group. -/
theorem printTransposed_data (g : Globals) (entries : List (String × RawPMUConfig)) :
    printTransposed m options sample .data g entries =
      (g, entries.map (fun entry => (entry.1,
        (groups ⟨m, options, sample, .data, entry.1, 0⟩ entry.2).flatten.map (fun row =>
          line ⟨m, options, sample, .data, entry.1, ((getPrintOffset g entry.1).map (·.start)).getD 0⟩
            row.1 row.2)))) := by
  induction entries with
  | nil => rfl
  | cons entry entries ih =>
      obtain ⟨type, config⟩ := entry
      simp only [printTransposed, ih, printTypeEvents, List.map_cons, List.cons_append, List.nil_append]
      rw [lines_printType_data rfl]
      rfl

/-! ### The columns of a PMU type -/

variable {type : String}

theorem lookup_firsts {known : List String} (unknown : type ∉ known)
    (entries : List (String × RawPMUConfig)) :
    (firsts known entries).lookup type = entries.lookup type := by
  induction entries generalizing known with
  | nil => rfl
  | cons entry entries ih =>
      obtain ⟨other, config⟩ := entry
      rw [firsts]
      split
      · rename_i known'
        have different : type ≠ other := fun same => unknown (same ▸ known')
        rw [ih unknown, List.lookup_cons, beq_eq_false_iff_ne.mpr different]
      · rw [List.lookup_cons, List.lookup_cons]
        by_cases same : type = other
        · rw [beq_iff_eq.mpr same]
        · rw [beq_eq_false_iff_ne.mpr same]
          refine ih ?_
          rw [List.mem_cons]
          exact not_or.mpr ⟨same, unknown⟩

theorem lookup_headerBlocks (entries : List (String × RawPMUConfig)) :
    (entries.map (headerBlock m options sample outputType)).lookup type =
      (entries.lookup type).map
        (fun config => (headerBlock m options sample outputType (type, config)).2) := by
  induction entries with
  | nil => rfl
  | cons entry entries ih =>
      obtain ⟨other, config⟩ := entry
      rw [List.map_cons, List.lookup_cons, headerBlock, List.lookup_cons]
      by_cases same : type = other
      · subst same
        simp [headerBlock]
      · rw [beq_eq_false_iff_ne.mpr same]
        exact ih

theorem columnsOf_headerBlock (counts : outputType.countsColumns = true) (config : RawPMUConfig) :
    columnsOf (headerBlock m options sample outputType (type, config)).2 =
      (typeRows m options sample outputType type config).flatMap
        (fun row => row.2.places.map (row.2.headerName outputType)) := by
  rw [columnsOf, headerBlock, List.flatMap_map]
  congr 1
  funext row
  exact fields_header counts

theorem length_columnsOf (counts : outputType.countsColumns = true) (entry : String × RawPMUConfig) :
    (columnsOf (headerBlock m options sample outputType entry).2).length =
      width m options sample outputType entry.1 entry.2 := by
  obtain ⟨type, config⟩ := entry
  rw [columnsOf_headerBlock counts, List.length_flatMap, width]
  simp only [List.length_map]

theorem find_offsetsFrom (start : Nat) (entries : List (String × RawPMUConfig))
    {config : RawPMUConfig} (present : entries.lookup type = some config) :
    ((offsetsFrom m options sample outputType start entries).find? (·.entry = type)).map (·.start) =
      some (start + ((entries.takeWhile (fun entry => entry.1 ≠ type)).map
        (fun entry => width m options sample outputType entry.1 entry.2)).sum) := by
  induction entries generalizing start with
  | nil => cases present
  | cons entry entries ih =>
      obtain ⟨other, config'⟩ := entry
      by_cases same : other = type
      · subst same
        simp [offsetsFrom]
      · have present' : entries.lookup type = some config := by
          rw [List.lookup_cons, beq_eq_false_iff_ne.mpr (Ne.symm same)] at present
          exact present
        rw [offsetsFrom, List.find?_cons_of_neg (by simpa using same), ih _ present',
          List.takeWhile_cons_of_pos (by simpa using same), List.map_cons, List.sum_cons, Nat.add_assoc]

theorem length_columnsBefore (counts : outputType.countsColumns = true)
    (entries : List (String × RawPMUConfig)) :
    (columnsBefore (entries.map (headerBlock m options sample outputType)) type).length =
      ((entries.takeWhile (fun entry => entry.1 ≠ type)).map
        (fun entry => width m options sample outputType entry.1 entry.2)).sum := by
  induction entries with
  | nil => rfl
  | cons entry entries ih =>
      rw [columnsBefore, List.map_cons]
      by_cases same : entry.1 = type
      · rw [List.takeWhile_cons_of_neg (by simp [headerBlock, same]),
          List.takeWhile_cons_of_neg (by simpa using same)]
        rfl
      · rw [List.takeWhile_cons_of_pos (by simp [headerBlock, same]),
          List.takeWhile_cons_of_pos (by simpa using same), List.flatMap_cons, List.length_append,
          length_columnsOf counts, List.map_cons, List.sum_cons, ← ih]
        rfl

end Header

end Pcm.Raw

import Mathlib.Data.List.DropRight
import Mathlib.Data.List.TakeWhile
import Pcm.EventSyntax
import Pcm.Lib.KeyedMap

/-!
# Event lists with tab-separated columns

`parse_tsv` (`pcm-raw.cpp:161-208`) takes the blanks off both ends of every line. A line of blanks only
is no line like the others: in the empty one the search from the right begins at the index
`size() - 1` that has wrapped around, and from two blanks on the same blanks are counted from both ends,
so that `erase` throws. Rows are read at the position that `EventName` has in the header.
-/

namespace Pcm.Raw.Tsv

open StdString

/-- What must not happen: an access out of range, and an exception. -/
inductive Failure
  | access
  | thrown (e : StdException)
  deriving DecidableEq, Repr

def space (c : UInt8) : Bool := c == 32

/-- `line.size() - 1`, which wraps around for the empty line. -/
def lastIndex (line : Bytes) : Nat := if line.length = 0 then npos else line.length - 1

/-- The loop for `ws_right_count` from an index on (`pcm-raw.cpp:179-182`); it never looks at index 0. -/
def countRight (line : Bytes) : Nat → Except Failure Nat
  | 0 => .ok 0
  | i + 1 =>
      if line.length ≤ i + 1 then .error .access
      else if space (charAt line (i + 1)) then (countRight line i).map (· + 1)
      else .ok 0

/-- `line.erase(line.size() - count, count)`; a difference below zero wraps around to a position behind
the end. -/
def eraseBack (line : Bytes) (count : Nat) : Except Failure Bytes :=
  if line.length < count then .error (.thrown .out_of_range)
  else .ok (line.take (line.length - count))

/-- The trimming of a line (`pcm-raw.cpp:172-184`). -/
def trim (line : Bytes) : Except Failure Bytes := do
  let ws_left_count := (line.takeWhile space).length
  let ws_right_count ← countRight line (lastIndex line)
  eraseBack (eraseFront line ws_left_count) ws_right_count

abbrev PMUEventMap := KeyedMap Bytes (List Bytes)

def eventNamePos (col_names : List Bytes) : Option Nat := col_names.findIdx? (· == ascii "EventName")

/-- `event_name_pos` once the header has been parsed, and the map. -/
structure Parsed where
  event_name_pos : Option Nat := none
  map : PMUEventMap := []
  deriving DecidableEq

/-- One line; nothing comes of a header without `EventName`. -/
def passLine (s : Parsed) (line : Bytes) : Except Failure (Option Parsed) :=
  if line.length = 1 ∧ charAt line 0 = 10 then .ok (some s)
  else
    match trim line with
    | .error e => .error e
    | .ok line =>
        if charAt line 0 = 35 then .ok (some s)
        else
          match s.event_name_pos with
          | none =>
              .ok ((eventNamePos (split line 9)).map fun pos =>
                ⟨some pos, s.map.put (ascii "COL_NAMES") (split line 9)⟩)
          | some pos =>
              match (split line 9)[pos]? with
              | none => .error .access
              | some event_name => .ok (some ⟨some pos, s.map.put event_name (split line 9)⟩)

def parseLines (s : Parsed) : List Bytes → Except Failure (Option Parsed)
  | [] => .ok (some s)
  | line :: rest =>
      match passLine s line with
      | .error e => .error e
      | .ok none => .ok none
      | .ok (some next) => parseLines next rest

/-- The end of `parse_tsv`, also after an early return (`pcm-raw.cpp:193-197`, `205-207`). -/
def finish (maps : List PMUEventMap) :
    Except Failure (Option Parsed) → Except Failure (Bool × List PMUEventMap)
  | .error e => .error e
  | .ok none => .ok (false, maps)
  | .ok (some s) => .ok (true, maps ++ [s.map])

/-- `parse_tsv` for the text of the file: what it returns, and `PMUEventMapsTSV`. -/
def parse_tsv (text : Bytes) (maps : List PMUEventMap) : Except Failure (Bool × List PMUEventMap) :=
  finish maps (parseLines {} (getlines 10 [] text))

/-! ## What it should do -/

def isBlank (line : Bytes) : Bool := line.all space

/-- A line without the blanks at its ends. -/
def content (line : Bytes) : Bytes := (line.dropWhile space).rdropWhile space

def isComment (line : Bytes) : Bool := charAt (content line) 0 == 35

def columns (line : Bytes) : List Bytes := split (content line) 9

def noComments (lines : List Bytes) : List Bytes := lines.filter (!isComment ·)

/-- The lines that are neither blank nor comments. -/
def dataLines (lines : List Bytes) : List Bytes := (noComments lines).filter (!isBlank ·)

structure Table where
  col_names : List Bytes
  event_name_pos : Nat
  rows : List (List Bytes)

/-- The first data line as the header, if it has `EventName`, and the later ones as rows. -/
def table (lines : List Bytes) : Option Table :=
  match dataLines lines with
  | [] => none
  | header :: rows => (eventNamePos (columns header)).map fun pos =>
      ⟨columns header, pos, rows.map columns⟩

/-- The last row with an event name. -/
def Table.find (t : Table) (name : Bytes) : Option (List Bytes) :=
  t.rows.reverse.find? fun row => row[t.event_name_pos]? == some name

/-- The header is under a key of its own. -/
def Table.entry (t : Table) (name : Bytes) : Option (List Bytes) :=
  (t.find name).or (if name = ascii "COL_NAMES" then some t.col_names else none)

/-- What `parse_tsv` should do with a text. -/
def Parses (text : Bytes) : Prop :=
  match table (getlines 10 [] text) with
  | none => ∀ maps, parse_tsv text maps = .ok (false, maps)
  | some t => ∃ m : PMUEventMap, (∀ maps, parse_tsv text maps = .ok (true, maps ++ [m])) ∧
      ∀ name, m.lookup name = t.entry name

/-- Where it does: there is a line that is no comment. The first of them is a header with `EventName`
and the later ones have a column for it, or it is a line without `EventName`, or it is a single blank
and there is no header later. -/
def Regular (lines : List Bytes) : Prop :=
  match noComments lines with
  | [] => False
  | first :: later =>
      if isBlank first then first = [32] ∧ (table later).isNone
      else ∀ pos ∈ eventNamePos (columns first), ∀ line ∈ later, pos < (columns line).length

/-! ## Trimming -/

section Trim

variable {line : Bytes}

theorem countRight_eq {row : Bytes} {i : Nat} (inside : i < row.length) :
    countRight row i = .ok ((row.take (i + 1)).tail.rtakeWhile space).length := by
  induction i with
  | zero =>
      cases row with
      | nil => rfl
      | cons c rest => rfl
  | succ i ih =>
      have before : i < row.length := by omega
      have some : row.take (i + 1) ≠ [] := by
        apply List.ne_nil_of_length_pos
        rw [List.length_take]
        omega
      have char : charAt row (i + 1) = row[i + 1] := by simp [charAt, inside]
      rw [countRight, if_neg (by omega), ih before, char, List.take_succ_eq_append_getElem inside,
        List.tail_append_of_ne_nil some, List.rtakeWhile_concat]
      by_cases blank : space row[i + 1] = true
      · rw [if_pos blank, if_pos blank, List.length_append]
        rfl
      · rw [if_neg blank, if_neg blank]
        rfl

theorem countRight_lastIndex (line : Bytes) (something : line ≠ []) :
    countRight line (lastIndex line) = .ok (line.tail.rtakeWhile space).length := by
  have positive : 0 < line.length := List.length_pos_of_ne_nil something
  rw [lastIndex, if_neg (by omega), countRight_eq (by omega), List.take_of_length_le (by omega)]

theorem isBlank_iff : isBlank line = true ↔ ∀ c ∈ line, space c = true := List.all_eq_true

/-- Unless all is blank, the first character does not belong to the blanks at the end. -/
theorem rtakeWhile_cons {c : UInt8} {rest : Bytes} (solid : isBlank (c :: rest) = false) :
    (c :: rest).rtakeWhile space = rest.rtakeWhile space := by
  unfold List.rtakeWhile
  rw [List.reverse_cons, List.takeWhile_append]
  by_cases all : (rest.reverse.takeWhile space).length = rest.reverse.length
  · have blank : ∀ x ∈ rest.reverse, space x = true :=
      List.takeWhile_eq_self_iff.mp ((List.takeWhile_prefix space).eq_of_length all)
    have first : space c = false := by
      cases h : space c with
      | false => rfl
      | true =>
          rw [isBlank, List.all_cons, h, List.all_eq_true.mpr fun x mem =>
            blank x (List.mem_reverse.mpr mem)] at solid
          exact absurd solid (by decide)
    rw [if_pos all, List.takeWhile_cons_of_neg (by simp [first]), List.append_nil,
      List.takeWhile_eq_self_iff.mpr blank]
  · rw [if_neg all]

theorem rtakeWhile_dropWhile (solid : isBlank line = false) :
    (line.dropWhile space).rtakeWhile space = line.rtakeWhile space := by
  induction line with
  | nil => rfl
  | cons c rest ih =>
      rw [rtakeWhile_cons solid]
      by_cases first : space c = true
      · rw [List.dropWhile_cons_of_pos first]
        apply ih
        rw [isBlank, List.all_cons, first, Bool.true_and] at solid
        exact solid
      · rw [List.dropWhile_cons_of_neg first, rtakeWhile_cons solid]

theorem dropWhile_length_takeWhile : line.drop (line.takeWhile space).length = line.dropWhile space := by
  conv => enter [1, 2]; rw [← @List.takeWhile_append_dropWhile _ space line]
  exact List.drop_left

theorem ne_nil_of_not_isBlank (solid : isBlank line = false) : line ≠ [] := by
  rintro rfl
  exact absurd solid (by decide)

theorem trim_solid (solid : isBlank line = false) : trim line = .ok (content line) := by
  have something := ne_nil_of_not_isBlank solid
  have right : line.tail.rtakeWhile space = (line.dropWhile space).rtakeWhile space := by
    rw [rtakeWhile_dropWhile solid]
    cases line with
    | nil => rfl
    | cons c rest => exact (rtakeWhile_cons solid).symm
  have split : content line ++ (line.dropWhile space).rtakeWhile space = line.dropWhile space :=
    List.rdropWhile_append_rtakeWhile
  have total := congrArg List.length split
  rw [List.length_append] at total
  unfold trim
  rw [countRight_lastIndex line something, right]
  show eraseBack (line.drop (line.takeWhile space).length) _ = _
  rw [dropWhile_length_takeWhile, eraseBack, if_neg (by omega)]
  congr 1
  rw [← total, Nat.add_sub_cancel, ← split]
  exact List.take_left

theorem trim_nil : trim [] = .error .access := rfl

theorem trim_single : trim [32] = .ok [] := rfl

/-- From two blanks on they are counted twice. -/
theorem trim_blank (blank : isBlank line = true) (many : 2 ≤ line.length) :
    trim line = .error (.thrown .out_of_range) := by
  have all := isBlank_iff.mp blank
  have tail : line.tail.rtakeWhile space = line.tail :=
    List.rtakeWhile_eq_self_iff.mpr fun c mem => all c (List.mem_of_mem_tail mem)
  unfold trim
  rw [countRight_lastIndex line (List.ne_nil_of_length_pos (by omega)), tail,
    List.takeWhile_eq_self_iff.mpr all]
  show eraseBack (line.drop line.length) _ = _
  rw [List.drop_length, eraseBack, if_pos]
  rw [List.length_tail]
  exact Nat.sub_pos_of_lt many

/-- A blank line is trimmed only if it is a single blank. -/
theorem trim_blank_cases (blank : isBlank line = true) :
    line = [32] ∨ ∃ e, trim line = .error e := by
  rcases Nat.lt_trichotomy line.length 1 with empty | single | many
  · rw [List.length_eq_zero_iff.mp (Nat.lt_one_iff.mp empty)]
    exact .inr ⟨_, trim_nil⟩
  · obtain ⟨c, rfl⟩ := List.length_eq_one_iff.mp single
    have char := isBlank_iff.mp blank c (by simp)
    exact .inl (by rw [eq_of_beq char])
  · exact .inr ⟨_, trim_blank blank many⟩

theorem content_blank (blank : isBlank line = true) : content line = [] := by
  rw [content, List.dropWhile_eq_nil_iff.mpr (isBlank_iff.mp blank), List.rdropWhile_nil]

theorem columns_blank (blank : isBlank line = true) : columns line = [] := by
  rw [columns, content_blank blank]
  rfl

theorem solid_of_isComment (comment : isComment line = true) : isBlank line = false := by
  cases blank : isBlank line with
  | false => rfl
  | true =>
      rw [isComment, content_blank blank] at comment
      exact absurd comment (by decide)

end Trim

/-! ## The loop -/

theorem not_mem_getlines {delim : UInt8} {begun text : Bytes} (clear : delim ∉ begun) :
    ∀ line ∈ getlines delim begun text, delim ∉ line := by
  induction text generalizing begun with
  | nil =>
      intro line mem
      unfold getlines at mem
      by_cases empty : begun = []
      · simp [empty] at mem
      · rw [if_neg empty, List.mem_singleton] at mem
        rwa [mem]
  | cons c rest ih =>
      intro line mem
      unfold getlines at mem
      by_cases ends : c = delim
      · rw [if_pos ends, List.mem_cons] at mem
        rcases mem with rfl | later
        · exact clear
        · exact ih (by simp) line later
      · rw [if_neg ends] at mem
        apply ih _ line mem
        simp [clear, Ne.symm ends]

section Loop

variable {s : Parsed} {line : Bytes} {lines rest : List Bytes} {pos : Nat}

theorem not_newline (clear : 10 ∉ line) : ¬ (line.length = 1 ∧ charAt line 0 = 10) := by
  rintro ⟨single, newline⟩
  obtain ⟨c, rfl⟩ := List.length_eq_one_iff.mp single
  exact clear (by rw [show c = 10 from newline]; simp)

theorem passLine_comment (clear : 10 ∉ line) (comment : isComment line = true) :
    passLine s line = .ok (some s) := by
  rw [passLine, if_neg (not_newline clear), trim_solid (solid_of_isComment comment)]
  exact if_pos (eq_of_beq comment)

/-- Comments are ignored. -/
theorem parseLines_noComments (clear : ∀ line ∈ lines, 10 ∉ line) :
    parseLines s lines = parseLines s (noComments lines) := by
  induction lines generalizing s with
  | nil => rfl
  | cons line rest ih =>
      obtain ⟨first, later⟩ := List.forall_mem_cons.mp clear
      cases comment : isComment line with
      | true =>
          rw [parseLines, passLine_comment first comment, noComments, List.filter_cons_of_neg (by simp [comment])]
          exact ih later
      | false =>
          rw [noComments, List.filter_cons_of_pos (by simp [comment]), parseLines, parseLines]
          cases passLine s line with
          | error e => rfl
          | ok next =>
              cases next with
              | none => rfl
              | some next => exact ih later

theorem passLine_header (clear : 10 ∉ line) (comment : isComment line = false)
    (solid : isBlank line = false) (first : s.event_name_pos = none) :
    passLine s line = .ok ((eventNamePos (columns line)).map fun pos =>
      ⟨some pos, s.map.put (ascii "COL_NAMES") (columns line)⟩) := by
  have mark : ¬ charAt (content line) 0 = 35 := by
    rw [← beq_iff_eq]
    exact ne_true_of_eq_false comment
  rw [passLine, if_neg (not_newline clear), trim_solid solid]
  show (if charAt (content line) 0 = 35 then _ else _) = _
  rw [if_neg mark, first]
  rfl

theorem passLine_row (clear : 10 ∉ line) (comment : isComment line = false)
    (parsed : s.event_name_pos = some pos) (name : Bytes)
    (column : (columns line)[pos]? = some name) :
    passLine s line = .ok (some ⟨some pos, s.map.put name (columns line)⟩) := by
  have mark : ¬ charAt (content line) 0 = 35 := by
    rw [← beq_iff_eq]
    exact ne_true_of_eq_false comment
  have solid : isBlank line = false := by
    cases blank : isBlank line with
    | false => rfl
    | true => simp [columns_blank blank] at column
  rw [columns] at column
  rw [passLine, if_neg (not_newline clear), trim_solid solid]
  show (if charAt (content line) 0 = 35 then _ else _) = _
  rw [if_neg mark, parsed]
  simp only [column]
  rfl

/-- A row without the column, blank or not, is an error of one kind or another. -/
theorem passLine_short (clear : 10 ∉ line) (comment : isComment line = false)
    (parsed : s.event_name_pos = some pos) (short : (columns line).length ≤ pos) :
    ∃ e, passLine s line = .error e := by
  have read : ∀ text, split text 9 = columns line → charAt text 0 ≠ 35 →
      trim line = .ok text → passLine s line = .error .access := by
    intro text same mark trimmed
    rw [passLine, if_neg (not_newline clear), trimmed]
    show (if charAt text 0 = 35 then _ else _) = _
    rw [if_neg mark, parsed]
    simp only [same, List.getElem?_eq_none short]
  cases blank : isBlank line with
  | false =>
      refine ⟨_, read (content line) rfl ?_ (trim_solid blank)⟩
      intro mark
      exact ne_true_of_eq_false comment (beq_iff_eq.mpr mark)
  | true =>
      rcases trim_blank_cases blank with single | ⟨e, failed⟩
      · refine ⟨_, read [] (columns_blank blank).symm (by decide) ?_⟩
        rw [single]
        exact trim_single
      · refine ⟨e, ?_⟩
        rw [passLine, if_neg (not_newline clear), failed]

/-- The rows, stored one after the other. -/
def store (pos : Nat) (m : PMUEventMap) (row : List Bytes) : PMUEventMap :=
  m.put ((row[pos]?).getD []) row

theorem parseLines_rows (clear : ∀ line ∈ lines, 10 ∉ line)
    (comments : ∀ line ∈ lines, isComment line = false) (parsed : s.event_name_pos = some pos)
    (wide : ∀ line ∈ lines, pos < (columns line).length) :
    parseLines s lines = .ok (some ⟨some pos, (lines.map columns).foldl (store pos) s.map⟩) := by
  induction lines generalizing s with
  | nil =>
      rw [parseLines, ← parsed]
      rfl
  | cons line rest ih =>
      obtain ⟨clear, clearRest⟩ := List.forall_mem_cons.mp clear
      obtain ⟨comment, comments⟩ := List.forall_mem_cons.mp comments
      obtain ⟨wide, wideRest⟩ := List.forall_mem_cons.mp wide
      rw [parseLines, passLine_row clear comment parsed _ (List.getElem?_eq_getElem wide)]
      show parseLines _ rest = _
      rw [ih clearRest comments rfl wideRest, List.map_cons, List.foldl_cons, store,
        List.getElem?_eq_getElem wide]
      rfl

theorem parseLines_short (clear : ∀ line ∈ lines, 10 ∉ line)
    (comments : ∀ line ∈ lines, isComment line = false) (parsed : s.event_name_pos = some pos)
    (short : ¬ ∀ line ∈ lines, pos < (columns line).length) :
    ∃ e, parseLines s lines = .error e := by
  induction lines generalizing s with
  | nil => exact absurd (by simp) short
  | cons line rest ih =>
      obtain ⟨clear, clearRest⟩ := List.forall_mem_cons.mp clear
      obtain ⟨comment, comments⟩ := List.forall_mem_cons.mp comments
      rw [parseLines]
      rcases Nat.lt_or_ge pos (columns line).length with wide | narrow
      · rw [passLine_row clear comment parsed _ (List.getElem?_eq_getElem wide)]
        exact ih clearRest comments rfl fun all => short (List.forall_mem_cons.mpr ⟨wide, all⟩)
      · obtain ⟨e, failed⟩ := passLine_short clear comment parsed narrow
        rw [failed]
        exact ⟨e, rfl⟩

end Loop

/-! ## The map -/

/-- The last row wins. -/
theorem lookup_foldl_store (pos : Nat) (rows : List (List Bytes)) (m : PMUEventMap) (name : Bytes)
    (wide : ∀ row ∈ rows, pos < row.length) :
    (rows.foldl (store pos) m).lookup name =
      (rows.reverse.find? fun row => row[pos]? == some name).or (m.lookup name) := by
  induction rows generalizing m with
  | nil => rfl
  | cons row rest ih =>
      obtain ⟨wide, wideRest⟩ := List.forall_mem_cons.mp wide
      rw [List.foldl_cons, ih _ wideRest, List.reverse_cons, List.find?_append, Option.or_assoc, store,
        KeyedMap.put, List.lookup_cons, List.getElem?_eq_getElem wide]
      by_cases same : row[pos] = name
      · simp [List.getElem?_eq_getElem wide, same]
      · have other : (name == row[pos]) = false := beq_false_of_ne (Ne.symm same)
        simp [List.getElem?_eq_getElem wide, same, other]

/-! ## Texts -/

section Text

variable {text : Bytes} {first : Bytes} {later : List Bytes} {pos : Nat}

theorem parse_tsv_eq (maps : List PMUEventMap) :
    parse_tsv text maps = finish maps (parseLines {} (noComments (getlines 10 [] text))) := by
  rw [parse_tsv, parseLines_noComments (not_mem_getlines List.not_mem_nil)]

theorem not_parses_of_error {e : Failure}
    (failed : parseLines {} (noComments (getlines 10 [] text)) = .error e) : ¬ Parses text := by
  have outcome : ∀ maps, parse_tsv text maps = .error e := by
    intro maps
    rw [parse_tsv_eq, failed]
    rfl
  unfold Parses
  cases table (getlines 10 [] text) with
  | none =>
      intro parses
      exact absurd ((outcome []).symm.trans (parses [])) (by simp)
  | some t =>
      rintro ⟨m, parses, _⟩
      exact absurd ((outcome []).symm.trans (parses [])) (by simp)

/-- Where the loop returns early there should be no table. -/
theorem parses_iff_of_none
    (returned : parseLines {} (noComments (getlines 10 [] text)) = .ok none) :
    Parses text ↔ (table (getlines 10 [] text)).isNone = true := by
  have outcome : ∀ maps, parse_tsv text maps = .ok (false, maps) := by
    intro maps
    rw [parse_tsv_eq, returned]
    rfl
  unfold Parses
  cases table (getlines 10 [] text) with
  | none => exact ⟨fun _ => rfl, fun _ => outcome⟩
  | some t =>
      constructor
      · rintro ⟨m, parses, _⟩
        exact absurd ((outcome []).symm.trans (parses [])) (by simp)
      · intro none
        exact absurd none (by simp)

/-- What is known about the lines that are no comments. -/
theorem not_comments (lines : noComments (getlines 10 [] text) = first :: later) :
    (∀ line ∈ first :: later, 10 ∉ line) ∧ ∀ line ∈ first :: later, isComment line = false := by
  rw [← lines, noComments]
  constructor
  · intro line mem
    exact not_mem_getlines List.not_mem_nil line (List.mem_of_mem_filter mem)
  · intro line mem
    simpa using List.of_mem_filter mem

/-- Nothing is parsed of a blank line in front, except that a single blank is taken for a header. -/
theorem parses_iff_blank (lines : noComments (getlines 10 [] text) = first :: later)
    (blank : isBlank first = true) :
    Parses text ↔ first = [32] ∧ (table later).isNone = true := by
  obtain ⟨clear, comments⟩ := not_comments lines
  have rest : noComments later = later := by
    apply List.filter_eq_self.mpr
    intro line mem
    rw [comments line (List.mem_cons_of_mem first mem)]
    rfl
  have same : table (getlines 10 [] text) = table later := by
    rw [table, table, dataLines, dataLines, lines, rest, List.filter_cons_of_neg (by simp [blank])]
  rcases trim_blank_cases blank with single | ⟨e, failed⟩
  · have header : passLine {} first = .ok none := by
      rw [single]
      decide
    have returned : parseLines {} (noComments (getlines 10 [] text)) = .ok none := by
      rw [lines, parseLines, header]
    rw [parses_iff_of_none returned, same]
    exact ⟨fun none => ⟨single, none⟩, fun both => both.2⟩
  · have error : parseLines {} (noComments (getlines 10 [] text)) = .error e := by
      rw [lines, parseLines, passLine, if_neg (not_newline (clear first List.mem_cons_self)), failed]
    constructor
    · intro parses
      exact absurd parses (not_parses_of_error error)
    · rintro ⟨single, _⟩
      rw [single, trim_single] at failed
      exact absurd failed (by simp)

theorem lookup_singleton (name : Bytes) (col_names : List Bytes) :
    (KeyedMap.put [] (ascii "COL_NAMES") col_names).lookup name =
      if name = ascii "COL_NAMES" then some col_names else none := by
  rw [KeyedMap.put, List.lookup_cons]
  by_cases own : name = ascii "COL_NAMES"
  · have equal : (name == ascii "COL_NAMES") = true := beq_iff_eq.mpr own
    rw [if_pos own, equal]
  · have other : (name == ascii "COL_NAMES") = false := beq_false_of_ne own
    rw [if_neg own, other, List.lookup_nil]

/-- The state after the header. -/
def afterHeader (header : Bytes) (pos : Nat) : Parsed where
  event_name_pos := some pos
  map := KeyedMap.put [] (ascii "COL_NAMES") (columns header)

theorem parses_of_wide (lines : table (getlines 10 [] text) =
      some ⟨columns first, pos, later.map columns⟩)
    (parsed : parseLines {} (noComments (getlines 10 [] text)) =
      .ok (some ⟨some pos, (later.map columns).foldl (store pos) (afterHeader first pos).map⟩))
    (wide : ∀ line ∈ later, pos < (columns line).length) : Parses text := by
  unfold Parses
  rw [lines]
  refine ⟨(later.map columns).foldl (store pos) (afterHeader first pos).map, ?_, ?_⟩
  · intro maps
    rw [parse_tsv_eq, parsed]
    rfl
  · intro name
    rw [lookup_foldl_store _ _ _ _ (by simpa using wide), Table.entry, Table.find, afterHeader,
      lookup_singleton]

theorem parses_iff_solid (lines : noComments (getlines 10 [] text) = first :: later)
    (solid : isBlank first = false) :
    Parses text ↔ ∀ pos ∈ eventNamePos (columns first), ∀ line ∈ later, pos < (columns line).length := by
  obtain ⟨clear, comments⟩ := not_comments lines
  obtain ⟨clearFirst, clearLater⟩ := List.forall_mem_cons.mp clear
  obtain ⟨commentFirst, commentsLater⟩ := List.forall_mem_cons.mp comments
  have header := passLine_header (s := {}) clearFirst commentFirst solid rfl
  have data : dataLines (getlines 10 [] text) = first :: later.filter (!isBlank ·) := by
    rw [dataLines, lines, List.filter_cons_of_pos (by simp [solid])]
  cases position : eventNamePos (columns first) with
  | none =>
      have returned : parseLines {} (noComments (getlines 10 [] text)) = .ok none := by
        rw [lines, parseLines, header, position]
        rfl
      rw [parses_iff_of_none returned, table, data]
      simp [position]
  | some pos =>
      have continued : parseLines {} (noComments (getlines 10 [] text)) =
          parseLines (afterHeader first pos) later := by
        rw [lines, parseLines, header, position]
        rfl
      by_cases wide : ∀ line ∈ later, pos < (columns line).length
      · have rows : later.filter (!isBlank ·) = later := by
          apply List.filter_eq_self.mpr
          intro line mem
          cases blank : isBlank line with
          | false => rfl
          | true => exact absurd (wide line mem) (by simp [columns_blank blank])
        have whole : table (getlines 10 [] text) =
            some ⟨columns first, pos, later.map columns⟩ := by
          rw [table, data, rows]
          simp [position]
        have parsed := continued.trans (parseLines_rows clearLater commentsLater rfl wide)
        apply iff_of_true (parses_of_wide whole parsed wide)
        intro other same
        rw [Option.mem_some_iff] at same
        subst same
        exact wide
      · obtain ⟨e, failed⟩ := parseLines_short (s := afterHeader first pos) clearLater commentsLater
          rfl wide
        apply iff_of_false (not_parses_of_error (continued.trans failed))
        intro all
        exact wide (all pos (Option.mem_some_self pos))

/-- A text is parsed as it should be exactly when its lines are regular. -/
theorem parses_iff (text : Bytes) : Parses text ↔ Regular (getlines 10 [] text) := by
  unfold Regular
  cases lines : noComments (getlines 10 [] text) with
  | nil =>
      have data : table (getlines 10 [] text) = none := by
        rw [table, dataLines, lines]
        rfl
      have outcome : parse_tsv text [] = .ok (true, [[]]) := by
        rw [parse_tsv_eq, lines]
        rfl
      unfold Parses
      rw [data]
      constructor
      · intro parses
        exact absurd (outcome.symm.trans (parses [])) (by simp)
      · exact False.elim
  | cons first later =>
      cases blank : isBlank first with
      | true => simpa [blank] using parses_iff_blank lines blank
      | false => simpa [blank] using parses_iff_solid lines blank

/-- A header, an empty line and a row. -/
def withEmptyLine : Bytes := ascii "EventName\n\nA\n"

theorem withEmptyLine_not_parses : ¬ Parses withEmptyLine := by
  have failed : parseLines {} (noComments (getlines 10 [] withEmptyLine)) = .error .access := by
    decide +kernel
  exact not_parses_of_error failed

end Text

end Pcm.Raw.Tsv

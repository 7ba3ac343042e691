import Pcm.EventNumbers
import Mathlib.Data.List.Perm.Basic
import Mathlib.Data.List.Flatten

/-!
# Lines of event files

One record and one number are used for all fields of all lines of an event file. The record gets its defaults at
each line but for the type, and the number keeps its value where a field's text is blank. A file without these two
cases can be put together anew from any of its lines, in any order, with the same records.
-/

namespace Pcm.LoadEvents

open StdString Iio Throwing

variable {ofm : Bytes → PerfmonField} {takes : Bytes → Bool} {unread : List (BitVec 64) → BitVec 64}

/-! ## Files that are accepted -/

/-- A pair of names that has been read. -/
def Known (nameMap : PCIeEventNameMap) (pair : Bytes × Bytes) : Prop :=
  (((nameMap.lookup pair.1).getD (0, [])).2.lookup pair.2).isSome = true

/-- The pairs of names that these names make after a horizontal name. -/
def pairsFrom (h_name : Bytes) : List NameItem → List (Bytes × Bytes)
  | [] => []
  | .h name :: rest => pairsFrom name rest
  | .v name :: rest => (h_name, name) :: pairsFrom h_name rest

theorem known_parseHName (n : Naming) (h : Bytes) (pair : Bytes × Bytes) :
    Known (parseHName n h).nameMap pair ↔ Known n.nameMap pair := by
  unfold parseHName Known
  by_cases present : (n.nameMap.lookup h).isSome = true
  · simp only [if_pos present]
  · simp only [if_neg present, KeyedMap.put, List.lookup_cons]
    cases own : pair.1 == h with
    | true =>
        rw [eq_of_beq own, Option.not_isSome_iff_eq_none.mp present]
        rfl
    | false => rfl

theorem parseVName_ok {n n' : Naming} {v : Bytes} (named : parseVName n v = .ok n') :
    ¬ Known n.nameMap (n.h_name, v) ∧ n'.h_name = n.h_name ∧
      ∀ pair, Known n'.nameMap pair ↔ Known n.nameMap pair ∨ pair = (n.h_name, v) := by
  unfold parseVName at named
  dsimp only at named
  split at named
  · cases named
  · rename_i fresh
    rw [← Except.ok.inj named]
    refine ⟨fresh, rfl, ?_⟩
    rintro ⟨h, name⟩
    simp only [Known, KeyedMap.lookup_assign]
    cases own : h == n.h_name with
    | true =>
        rw [eq_of_beq own, if_pos rfl, Option.getD_some, KeyedMap.put, List.lookup_cons]
        cases same : name == v with
        | true => simp [eq_of_beq same]
        | false => simp [ne_of_beq_false same]
    | false => simp [ne_of_beq_false own]

theorem parseVName_of_fresh {n : Naming} {v : Bytes} (fresh : ¬ Known n.nameMap (n.h_name, v)) :
    ∃ n', parseVName n v = .ok n' := ⟨_, if_neg fresh⟩

theorem known_of_names {names : List NameItem} {n n' : Naming} (named : names.foldlM step n = .ok n')
    (pair : Bytes × Bytes) : Known n'.nameMap pair ↔ Known n.nameMap pair ∨ pair ∈ pairsFrom n.h_name names := by
  induction names generalizing n with
  | nil => simp [← Except.ok.inj named, pairsFrom]
  | cons name rest ih =>
      obtain ⟨middle, first, later⟩ := bind_eq_ok named
      cases name with
      | h name =>
          obtain rfl : parseHName n name = middle := Except.ok.inj first
          rw [ih later, known_parseHName]
          rfl
      | v name =>
          obtain ⟨_, current, known⟩ := parseVName_ok first
          rw [ih later, known, current, pairsFrom, List.mem_cons, or_assoc]

/-- Names are accepted if they make no pair twice and none that is known. -/
theorem names_ok_iff (names : List NameItem) (n : Naming) :
    (∃ n', names.foldlM step n = .ok n') ↔
      (pairsFrom n.h_name names).Nodup ∧ ∀ pair ∈ pairsFrom n.h_name names, ¬ Known n.nameMap pair := by
  induction names generalizing n with
  | nil => exact ⟨fun _ => by simp [pairsFrom], fun _ => ⟨n, rfl⟩⟩
  | cons name rest ih =>
      cases name with
      | h name =>
          rw [foldlM_cons_ok (t := parseHName n name) rfl, ih]
          simp only [known_parseHName]
          rfl
      | v name =>
          rw [pairsFrom, List.nodup_cons, List.forall_mem_cons]
          constructor
          · rintro ⟨n', named⟩
            obtain ⟨middle, first, later⟩ := bind_eq_ok named
            obtain ⟨fresh, current, known⟩ := parseVName_ok first
            obtain ⟨distinct, unknown⟩ := (ih middle).mp ⟨n', later⟩
            rw [current] at distinct unknown
            refine ⟨⟨?_, distinct⟩, fresh, ?_⟩
            · intro again
              exact unknown _ again ((known _).mpr (.inr rfl))
            · intro pair mem old
              exact unknown pair mem ((known pair).mpr (.inl old))
          · rintro ⟨⟨once, distinct⟩, fresh, unknown⟩
            obtain ⟨middle, first⟩ := parseVName_of_fresh fresh
            obtain ⟨_, current, known⟩ := parseVName_ok first
            have rest_unknown : ∀ pair ∈ pairsFrom middle.h_name rest, ¬ Known middle.nameMap pair := by
              rw [current]
              intro pair mem held
              rcases (known pair).mp held with old | rfl
              · exact unknown pair mem old
              · exact once mem
            obtain ⟨n', later⟩ := (ih middle).mpr ⟨current ▸ distinct, rest_unknown⟩
            have accepted : step n (.v name) = .ok middle := first
            exact ⟨n', (foldlM_cons_ok accepted).trans later⟩

/-- The pairs of names of a line. -/
def linePairs (ofm : Bytes → PerfmonField) (line : Bytes) : List (Bytes × Bytes) :=
  if isCounterLine line then pairsFrom [] (namesOf ofm line) else []

/-- A line is right as far as it alone is concerned. -/
def LineFine (ofm : Bytes → PerfmonField) (takes : Bytes → Bool) (line : Bytes) : Prop :=
  isCounterLine line = true → ∀ item ∈ items line, acceptable ofm takes item = true

theorem items_ok_iff (ofm : Bytes → PerfmonField) (takes : Bytes → Bool)
    (unread : List (BitVec 64) → BitVec 64) (items : List Bytes) (p : Parse) :
    (∃ p', items.foldlM (parseItem ofm takes unread) p = .ok p') ↔
      (∀ item ∈ items, acceptable ofm takes item = true) ∧
        ∃ n', (items.filterMap (nameOf ofm)).foldlM step p.naming = .ok n' := by
  induction items generalizing p with
  | nil => exact ⟨fun _ => ⟨by simp, p.naming, rfl⟩, fun _ => ⟨p, rfl⟩⟩
  | cons item rest ih =>
      rw [List.forall_mem_cons]
      constructor
      · rintro ⟨p', parsed⟩
        obtain ⟨middle, first, later⟩ := bind_eq_ok parsed
        exact ⟨⟨(parseItem_ok first).acceptable, ((ih middle).mp ⟨p', later⟩).1⟩, p'.naming,
          naming_of_items parsed⟩
      · rintro ⟨⟨fine, fines⟩, n', named⟩
        obtain ⟨naming, own, others⟩ : ∃ naming,
            (nameOf ofm item).elim (.ok p.naming) (step p.naming) = .ok naming ∧
              ∃ n', (rest.filterMap (nameOf ofm)).foldlM step naming = .ok n' := by
          cases name : nameOf ofm item with
          | none =>
              rw [List.filterMap_cons_none name] at named
              exact ⟨p.naming, rfl, n', named⟩
          | some given =>
              rw [List.filterMap_cons_some name] at named
              obtain ⟨naming, first, later⟩ := bind_eq_ok named
              exact ⟨naming, first, n', later⟩
        obtain ⟨middle, first, same⟩ : ∃ p', parseItem ofm takes unread p item = .ok p' ∧ p'.naming = naming :=
          parseItem_of_acceptable fine own
        rw [← same] at others
        obtain ⟨p', later⟩ := (ih middle).mpr ⟨fines, others⟩
        exact ⟨p', (foldlM_cons_ok first).trans later⟩

/-- A line is accepted if it is right alone and has no pair of names twice, nor one that is known. -/
theorem guarded_loadLine (ofm : Bytes → PerfmonField) (takes : Bytes → Bool)
    (unread : List (BitVec 64) → BitVec 64) :
    Guarded (LineFine ofm takes) (linePairs ofm) (fun l : Loaded => Known l.nameMap)
      (loadLine ofm takes unread) where
  ok_iff := by
    intro l line
    cases isLine : isCounterLine line with
    | false =>
        have skipped : loadLine ofm takes unread l line = .ok l := by rw [loadLine, if_neg (by simp [isLine])]
        exact ⟨fun _ => by simp [LineFine, linePairs, isLine], fun _ => ⟨l, skipped⟩⟩
    | true =>
        have names := names_ok_iff (namesOf ofm line) { nameMap := l.nameMap }
        have whole := items_ok_iff ofm takes unread (items line)
          { naming := { nameMap := l.nameMap }, values := { type := l.type }, earlier := l.earlier }
        have fine : LineFine ofm takes line ↔ ∀ item ∈ items line, acceptable ofm takes item = true := by
          simp [LineFine, isLine]
        rw [linePairs, if_pos isLine, fine, ← names]
        refine Iff.trans ?_ whole
        constructor
        · rintro ⟨l', loaded⟩
          obtain ⟨p, parsed, _⟩ := loadLine_ok isLine loaded
          exact ⟨p, parsed⟩
        · rintro ⟨p, parsed⟩
          rw [loadLine, if_pos isLine, parsed]
          exact ⟨_, rfl⟩
  known_iff := by
    intro l line l' loaded pair
    cases isLine : isCounterLine line with
    | false =>
        rw [loadLine_other isLine loaded]
        simp [linePairs, isLine]
    | true =>
        obtain ⟨p, parsed, rfl⟩ := loadLine_ok isLine loaded
        rw [linePairs, if_pos isLine]
        exact known_of_names (naming_of_items parsed) pair

/-- The files that are accepted: every line is right alone, and no pair of names comes twice. -/
theorem loadLines_ok_iff (ofm : Bytes → PerfmonField) (takes : Bytes → Bool)
    (unread : List (BitVec 64) → BitVec 64) (lines : List Bytes) :
    (∃ l, loadLines ofm takes unread lines = .ok l) ↔
      (∀ line ∈ lines, LineFine ofm takes line) ∧ (lines.flatMap (linePairs ofm)).Nodup := by
  have whole := (guarded_loadLine ofm takes unread).foldlM.ok_iff {} lines
  have empty : ∀ pair, ¬ Known ({} : Loaded).nameMap pair := by
    intro pair held
    simp [Known] at held
  rw [loadLines, whole]
  simp [empty]

/-- What is left of an accepted file, in any order, is accepted, whatever a blank field has got. -/
theorem loadLines_of_subperm {lines lines' : List Bytes} (fewer : lines'.Subperm lines) {l : Loaded}
    (loaded : loadLines ofm takes unread lines = .ok l) (unread' : List (BitVec 64) → BitVec 64) :
    ∃ l', loadLines ofm takes unread' lines' = .ok l' := by
  obtain ⟨fine, distinct⟩ := (loadLines_ok_iff ofm takes unread lines).mp ⟨l, loaded⟩
  obtain ⟨part, same, sub⟩ := fewer
  apply (loadLines_ok_iff ofm takes unread' lines').mpr
  refine ⟨fun line mem => fine line (sub.subset (same.mem_iff.mpr mem)), ?_⟩
  exact (same.flatMap_right (linePairs ofm)).nodup_iff.mp (distinct.sublist (sub.flatMap (linePairs ofm)))

/-! ## What a line tells -/

/-- The numbers of a line's fields, where `read` is what the texts stand for. -/
def lineNumbers (ofm : Bytes → PerfmonField) (read : Bytes → BitVec 64) (items : List Bytes) :
    List (Bytes × BitVec 64) :=
  (items.filter (isNumber ofm)).map fun item => (keyOf item, read (valueOf item))

/-- What an item does to the record's values. -/
def itemValues (ofm : Bytes → PerfmonField) (read : Bytes → BitVec 64) (v : Values) (item : Bytes) : Values :=
  if keyOf item = [] ∨ valueOf item = [] then v else v.set (ofm (keyOf item)) (read (valueOf item))

/-- Only a field with a number needs its number. -/
theorem set_of_no_number {item : Bytes} (present : ¬ (keyOf item = [] ∨ valueOf item = []))
    (none : isNumber ofm item = false) (v : Values) (number other : BitVec 64) :
    v.set (ofm (keyOf item)) number = v.set (ofm (keyOf item)) other := by
  obtain ⟨key, value⟩ := not_or.mp present
  obtain ⟨f, field⟩ : ∃ f, ofm (keyOf item) = f := ⟨_, rfl⟩
  unfold isNumber at none
  rw [field] at none ⊢
  cases f <;> first | rfl | simp [key, value] at none

/-- Every number of the items is read as `read` does. -/
def ReadsAs (ofm : Bytes → PerfmonField) (unread : List (BitVec 64) → BitVec 64) (read : Bytes → BitVec 64)
    (items : List Bytes) : Prop :=
  ∀ item ∈ items, isNumber ofm item = true → ∀ earlier, readNumber unread earlier (valueOf item) = read (valueOf item)

theorem values_of_items {read : Bytes → BitVec 64} {items : List Bytes} {p p' : Parse}
    (reads : ReadsAs ofm unread read items) (parsed : items.foldlM (parseItem ofm takes unread) p = .ok p') :
    p'.values = items.foldl (itemValues ofm read) p.values ∧
      p'.numbers = p.numbers ++ lineNumbers ofm read items := by
  induction items generalizing p with
  | nil =>
      rw [← Except.ok.inj parsed]
      simp [lineNumbers]
  | cons item rest ih =>
      obtain ⟨own, others⟩ := List.forall_mem_cons.mp reads
      obtain ⟨middle, first, later⟩ := bind_eq_ok parsed
      obtain ⟨values, numbers⟩ := ih others later
      have after := parseItem_ok first
      have ownValues : middle.values = itemValues ofm read p.values item := by
        rw [after.values, itemValues]
        by_cases skipped : keyOf item = [] ∨ valueOf item = []
        · rw [if_pos skipped, if_pos skipped]
        · rw [if_neg skipped, if_neg skipped]
          cases number : isNumber ofm item with
          | true => rw [own number]
          | false => exact set_of_no_number skipped number _ _ _
      have ownNumbers : middle.numbers = p.numbers ++ lineNumbers ofm read [item] := by
        rw [after.numbers, lineNumbers, List.filter_cons]
        cases number : isNumber ofm item with
        | true => simp [own number]
        | false => simp
      refine ⟨by rw [values, ownValues, List.foldl_cons], ?_⟩
      rw [numbers, ownNumbers, List.append_assoc]
      congr 1
      simp only [lineNumbers, ← List.map_append, ← List.filter_append, List.singleton_append]

/-- Whether a line has a unit. -/
def hasUnit (ofm : Bytes → PerfmonField) (line : Bytes) : Bool := (items line).any (isUnit ofm)

theorem itemValues_type (read : Bytes → BitVec 64) (v : Values) (item : Bytes) (type : CounterType) :
    itemValues ofm read { v with type := type } item =
      { itemValues ofm read v item with type := if isUnit ofm item then .iio else type } := by
  unfold itemValues isUnit
  by_cases skipped : keyOf item = [] ∨ valueOf item = []
  · rw [if_pos skipped, if_pos skipped]
    rcases skipped with key | value
    · simp [key]
    · simp [value]
  · rw [if_neg skipped, if_neg skipped]
    obtain ⟨key, value⟩ := not_or.mp skipped
    obtain ⟨f, field⟩ : ∃ f, ofm (keyOf item) = f := ⟨_, rfl⟩
    rw [field]
    cases f <;> simp [Values.set, key, value]

/-- The type that a line starts with stays if the line has no unit, and nothing else depends on it. -/
theorem foldl_itemValues_type (read : Bytes → BitVec 64) (items : List Bytes) (v : Values) (type : CounterType) :
    items.foldl (itemValues ofm read) { v with type := type } =
      { items.foldl (itemValues ofm read) v with type := if items.any (isUnit ofm) then .iio else type } := by
  induction items generalizing v type with
  | nil => rfl
  | cons item rest ih =>
      rw [List.foldl_cons, List.foldl_cons, itemValues_type, ih, List.any_cons]
      cases isUnit ofm item with
      | true => simp
      | false => simp

/-- The names of a record after one more name. -/
def giveName (names : Bytes × Bytes) : NameItem → Bytes × Bytes
  | .h h => (h, names.2)
  | .v v => (names.1, v)

def Names.events (names : Names) : Bytes × Bytes := (names.h_event_name, names.v_event_name)

theorem events_of_names {names : List NameItem} {n n' : Naming} (named : names.foldlM step n = .ok n') :
    n'.names.events = names.foldl giveName n.names.events := by
  induction names generalizing n with
  | nil => rw [← Except.ok.inj named, List.foldl_nil]
  | cons name rest ih =>
      obtain ⟨middle, first, later⟩ := bind_eq_ok named
      have own : middle.names.events = giveName n.names.events name := by
        cases name with
        | h h => rw [← Except.ok.inj first]; rfl
        | v v =>
            have first : parseVName n v = .ok middle := first
            unfold parseVName at first
            dsimp only at first
            split at first
            · cases first
            · rw [← Except.ok.inj first]
              rfl
      rw [ih later, own, List.foldl_cons]

/-! ## Records -/

/-- A record is what its line tells, but for the type that it starts with: none, or what a line with a unit left. -/
structure Tells (ofm : Bytes → PerfmonField) (read : Bytes → BitVec 64) (lines : List Bytes) (r : Report) : Prop where
  events : r.names.events = (namesOf ofm r.line).foldl giveName ({} : Names).events
  numbers : r.numbers = lineNumbers ofm read (items r.line)
  counter : r.line ∈ lines ∧ isCounterLine r.line = true
  values : ∃ type, (type = .invalid ∨ ∃ line ∈ lines, isCounterLine line = true ∧ hasUnit ofm line = true) ∧
    r.values = (items r.line).foldl (itemValues ofm read) { type := type }

theorem tells_of_loaded {read : Bytes → BitVec 64} {lines : List Bytes} {l : Loaded}
    (reads : ∀ line ∈ lines, isCounterLine line = true → ReadsAs ofm unread read (items line))
    (loaded : loadLines ofm takes unread lines = .ok l) : ∀ r ∈ l.reports, Tells ofm read lines r := by
  refine (foldlM_invariant (I := fun _ (s : Loaded) => (∀ r ∈ s.reports, Tells ofm read lines r) ∧
    (s.type = .invalid ∨ ∃ line ∈ lines, isCounterLine line = true ∧ hasUnit ofm line = true))
    ?_ ⟨by simp, .inl rfl⟩ loaded).1
  intro _ line s t mem holds first
  cases isLine : isCounterLine line with
  | false =>
      rw [loadLine_other isLine first]
      exact holds
  | true =>
      obtain ⟨tells, typed⟩ := holds
      obtain ⟨p, parsed, rfl⟩ := loadLine_ok isLine first
      obtain ⟨values, numbers⟩ := values_of_items (reads line mem isLine) parsed
      constructor
      · intro r member
        rcases List.mem_append.mp member with old | new
        · exact tells r old
        · rw [List.mem_singleton.mp new]
          exact ⟨events_of_names (naming_of_items parsed), numbers, ⟨mem, isLine⟩, s.type, typed, values⟩
      · have start : ({ type := s.type } : Values) = { ({ type := .invalid } : Values) with type := s.type } := rfl
        rw [values, start, foldl_itemValues_type]
        cases units : (items line).any (isUnit ofm) with
        | true => exact .inr ⟨line, mem, isLine, units⟩
        | false => simpa using typed

/-- All that a callback gets but the numbers of the names. -/
structure SameRecord (r r' : Report) : Prop where
  events : r.names.events = r'.names.events
  values : r.values = r'.values
  numbers : r.numbers = r'.numbers

/-- Every file with some of the lines, in any order, is accepted, and gives each of its lines the record that the
line has in the whole file, whatever a blank field has got. -/
def Independent (ofm : Bytes → PerfmonField) (takes : Bytes → Bool) (lines : List Bytes) : Prop :=
  ∀ unread unread' lines', lines'.Subperm lines →
    ∃ l l', loadLines ofm takes unread lines = .ok l ∧ loadLines ofm takes unread' lines' = .ok l' ∧
      ∀ r ∈ l.reports, ∀ r' ∈ l'.reports, r.line = r'.line → SameRecord r r'

/-- No number in the lines is blank. -/
def NoBlanks (ofm : Bytes → PerfmonField) (lines : List Bytes) : Prop :=
  ∀ line ∈ lines, isCounterLine line = true → ∀ item ∈ items line, isNumber ofm item = true →
    (valueOf item).all isspace = false

/-- All counters have a unit, or none has. -/
def UnitsAgree (ofm : Bytes → PerfmonField) (lines : List Bytes) : Prop :=
  (∀ line ∈ lines, isCounterLine line = true → hasUnit ofm line = true) ∨
    ∀ line ∈ lines, isCounterLine line = true → hasUnit ofm line = false

/-- Where the units agree a record is what its line tells. -/
theorem Tells.values_eq {read : Bytes → BitVec 64} {lines : List Bytes} {r : Report} (tells : Tells ofm read lines r)
    (agree : UnitsAgree ofm lines) :
    r.values = (items r.line).foldl (itemValues ofm read) { type := .invalid } := by
  obtain ⟨type, origin, values⟩ := tells.values
  have start : ({ type := type } : Values) = { ({ type := .invalid } : Values) with type := type } := rfl
  have blank : ({ type := .invalid } : Values) = { ({ type := .invalid } : Values) with type := .invalid } := rfl
  rcases agree with all | none
  · have unit : (items r.line).any (isUnit ofm) = true := all r.line tells.counter.1 tells.counter.2
    rw [values, start, foldl_itemValues_type]
    conv_rhs => rw [blank, foldl_itemValues_type]
    rw [unit]
    rfl
  · rcases origin with rfl | ⟨line, mem, isLine, unit⟩
    · exact values
    · rw [none line mem isLine] at unit
      cases unit

/-! ## Independent lines -/

theorem readsAs_of_noBlanks {lines : List Bytes} (noBlanks : NoBlanks ofm lines)
    (unread : List (BitVec 64) → BitVec 64) :
    ∀ line ∈ lines, isCounterLine line = true → ReadsAs ofm unread numValue (items line) := by
  intro line mem isLine item member number earlier
  rw [readNumber, if_neg (by simp [noBlanks line mem isLine item member number])]

theorem NoBlanks.mono {lines lines' : List Bytes} (noBlanks : NoBlanks ofm lines) (sub : lines' ⊆ lines) :
    NoBlanks ofm lines' := fun line mem => noBlanks line (sub mem)

theorem UnitsAgree.mono {lines lines' : List Bytes} (agree : UnitsAgree ofm lines) (sub : lines' ⊆ lines) :
    UnitsAgree ofm lines' := by
  rcases agree with all | none
  · exact .inl fun line mem => all line (sub mem)
  · exact .inr fun line mem => none line (sub mem)

theorem independent_of_agree {lines : List Bytes} {l : Loaded} (loaded : loadLines ofm takes unread lines = .ok l)
    (noBlanks : NoBlanks ofm lines) (agree : UnitsAgree ofm lines) : Independent ofm takes lines := by
  intro first second lines' fewer
  obtain ⟨whole, loadedWhole⟩ := loadLines_of_subperm (List.Subperm.refl lines) loaded first
  obtain ⟨part, loadedPart⟩ := loadLines_of_subperm fewer loaded second
  refine ⟨whole, part, loadedWhole, loadedPart, ?_⟩
  intro r member r' member' same
  have tells := tells_of_loaded (readsAs_of_noBlanks noBlanks first) loadedWhole r member
  have tells' := tells_of_loaded (readsAs_of_noBlanks (noBlanks.mono fewer.subset) second) loadedPart r' member'
  refine ⟨?_, ?_, ?_⟩
  · rw [tells.events, tells'.events, same]
  · rw [tells.values_eq agree, tells'.values_eq (agree.mono fewer.subset), same]
  · rw [tells.numbers, tells'.numbers, same]

/-- What the texts stand for where a blank field gets the same number each time. -/
def readConst (number : BitVec 64) (value : Bytes) : BitVec 64 :=
  if value.all isspace then number else numValue value

theorem readsAs_const (ofm : Bytes → PerfmonField) (number : BitVec 64) (items : List Bytes) :
    ReadsAs ofm (fun _ => number) (readConst number) items := by
  intro item _ _ earlier
  rfl

theorem report_of_line {lines : List Bytes} {l : Loaded} (loaded : loadLines ofm takes unread lines = .ok l)
    {line : Bytes} (mem : line ∈ lines) (isLine : isCounterLine line = true) : ∃ r ∈ l.reports, r.line = line := by
  have counted : line ∈ l.reports.map Report.line := by
    rw [lines_of_reports loaded]
    exact List.mem_filter.mpr ⟨mem, isLine⟩
  obtain ⟨r, member, same⟩ := List.mem_map.mp counted
  exact ⟨r, member, same⟩

/-- A blank field may have got 0 in one reading of the file and 1 in another. -/
theorem noBlanks_of_independent {lines : List Bytes} (independent : Independent ofm takes lines) :
    NoBlanks ofm lines := by
  intro line mem isLine item member number
  cases blank : (valueOf item).all isspace with
  | false => rfl
  | true =>
      exfalso
      obtain ⟨l, l', loaded, loaded', same⟩ :=
        independent (fun _ => 0) (fun _ => 1) lines (List.Subperm.refl lines)
      obtain ⟨r, inside, own⟩ := report_of_line loaded mem isLine
      obtain ⟨r', inside', own'⟩ := report_of_line loaded' mem isLine
      have numbers := (same r inside r' inside' (own.trans own'.symm)).numbers
      rw [(tells_of_loaded (fun line _ _ => readsAs_const ofm 0 (items line)) loaded r inside).numbers,
        (tells_of_loaded (fun line _ _ => readsAs_const ofm 1 (items line)) loaded' r' inside').numbers,
        own, own'] at numbers
      have agree := List.map_inj_left.mp numbers item (List.mem_filter.mpr ⟨member, number⟩)
      simp [readConst, blank] at agree

/-- The record of a line has the type of the line's unit, or else the type from before. -/
theorem type_of_line {l l' : Loaded} {line : Bytes} (isLine : isCounterLine line = true)
    (loaded : loadLine ofm takes (fun _ => 0) l line = .ok l') :
    l'.type = (if hasUnit ofm line then .iio else l.type) ∧
      ∃ r ∈ l'.reports, r.line = line ∧ r.values.type = l'.type := by
  obtain ⟨p, parsed, rfl⟩ := loadLine_ok isLine loaded
  have values := (values_of_items (readsAs_const ofm 0 (items line)) parsed).1
  have start : ({ type := l.type } : Values) = { ({ type := .invalid } : Values) with type := l.type } := rfl
  rw [start, foldl_itemValues_type] at values
  refine ⟨by rw [values]; rfl, _, List.mem_append_right _ (List.mem_singleton_self _), rfl, rfl⟩

/-- A line without a unit has another record behind a line with one than it has alone. -/
theorem unitsAgree_of_independent {lines : List Bytes} (independent : Independent ofm takes lines) :
    UnitsAgree ofm lines := by
  by_contra differ
  obtain ⟨someNone, someUnit⟩ := not_or.mp differ
  obtain ⟨a, memA, lineA, noUnit⟩ :
      ∃ line ∈ lines, isCounterLine line = true ∧ hasUnit ofm line = false := by simpa using someNone
  obtain ⟨b, memB, lineB, unit⟩ :
      ∃ line ∈ lines, isCounterLine line = true ∧ hasUnit ofm line = true := by simpa using someUnit
  have different : b ≠ a := by
    rintro rfl
    rw [unit] at noUnit
    cases noUnit
  have both : [b, a].Subperm lines := by
    apply List.Nodup.subperm (by simpa using different)
    intro line mem
    rcases List.mem_cons.mp mem with rfl | mem
    · exact memB
    · rw [List.mem_singleton.mp mem]
      exact memA
  have alone : [a].Subperm lines := List.singleton_subperm_iff.mpr memA
  obtain ⟨l, second, loaded, loadedSecond, sameSecond⟩ := independent (fun _ => 0) (fun _ => 0) [b, a] both
  obtain ⟨k, first, again, loadedFirst, sameFirst⟩ := independent (fun _ => 0) (fun _ => 0) [a] alone
  obtain rfl : l = k := Except.ok.inj (loaded.symm.trans again)
  obtain ⟨r, member, own⟩ := report_of_line loaded memA lineA
  -- alone the line's record has no type
  obtain ⟨end₁, stepFirst, rest⟩ := bind_eq_ok loadedFirst
  obtain rfl : end₁ = first := Except.ok.inj rest
  obtain ⟨typeFirst, r₁, member₁, own₁, type₁⟩ := type_of_line lineA stepFirst
  rw [noUnit] at typeFirst
  -- behind the other line it has that line's
  obtain ⟨middle, stepB, rest⟩ := bind_eq_ok loadedSecond
  obtain ⟨end₂, stepA, rest⟩ := bind_eq_ok rest
  obtain rfl : end₂ = second := Except.ok.inj rest
  obtain ⟨typeMiddle, _⟩ := type_of_line lineB stepB
  obtain ⟨typeSecond, r₂, member₂, own₂, type₂⟩ := type_of_line lineA stepA
  rw [noUnit] at typeSecond
  rw [unit] at typeMiddle
  have values₁ := (sameFirst r member r₁ member₁ (own.trans own₁.symm)).values
  have values₂ := (sameSecond r member r₂ member₂ (own.trans own₂.symm)).values
  have types : r₁.values.type = r₂.values.type := by rw [← values₁, values₂]
  rw [type₁, type₂, typeFirst, typeSecond, if_neg (by decide), if_neg (by decide), typeMiddle] at types
  cases types

/-- The lines of a file are independent if and only if no number is blank, and all counters have a unit or none. -/
theorem independent_iff (ofm : Bytes → PerfmonField) (takes : Bytes → Bool)
    (unread : List (BitVec 64) → BitVec 64) (content : Bytes) (l : Loaded)
    (loaded : load_events ofm takes unread content = .ok l) :
    Independent ofm takes (Raw.getlines 10 [] content) ↔
      NoBlanks ofm (Raw.getlines 10 [] content) ∧ UnitsAgree ofm (Raw.getlines 10 [] content) := by
  constructor
  · intro independent
    exact ⟨noBlanks_of_independent independent, unitsAgree_of_independent independent⟩
  · rintro ⟨noBlanks, agree⟩
    exact independent_of_agree loaded noBlanks agree

theorem independent_inboundFile : Independent fieldOf (fun _ => true) (Raw.getlines 10 [] inboundFile) := by
  refine (independent_iff fieldOf (fun _ => true) (fun _ => 0) inboundFile inboundLoaded inboundFile_loaded).mpr ?_
  constructor
  · have filled : ∀ line ∈ Raw.getlines 10 [] inboundFile, isCounterLine line = true →
        ∀ item ∈ items line, isNumber fieldOf item = true → (valueOf item).all isspace = false := by
      decide +kernel
    exact filled
  · have units : ∀ line ∈ Raw.getlines 10 [] inboundFile, isCounterLine line = true → hasUnit fieldOf line = true := by
      decide +kernel
    exact .inl units

/-- A counter with a unit and one without. -/
def mixedUnits : Bytes := ascii "ctr=1,unit=iio\nctr=2"

/-- The second counter gets the type of the first, and a blank index the multiplier's number. -/
theorem mixedUnits_dependent :
    (load_events fieldOf (fun _ => true) (fun _ => 0) mixedUnits).map
        (fun l => l.reports.map fun r => r.values.type) = .ok [.iio, .iio] ∧
      (load_events fieldOf (fun _ => true) (fun _ => 0) (ascii "ctr=2")).map
        (fun l => l.reports.map fun r => r.values.type) = .ok [.invalid] ∧
      ¬ Independent fieldOf (fun _ => true) (Raw.getlines 10 [] mixedUnits) ∧
      (load_events fieldOf (fun _ => true) (fun earlier => earlier.getLastD 0) (ascii "multiplier=7,ctr= ")).map
        (fun l => l.reports.map fun r => r.values.idx) = .ok [7] := by
  refine ⟨by decide +kernel, by decide +kernel, ?_, by decide +kernel⟩
  intro independent
  rcases unitsAgree_of_independent independent with all | none
  · have unit := all (ascii "ctr=2") (by decide +kernel) (by decide +kernel)
    exact absurd unit (by decide +kernel)
  · have unit := none (ascii "ctr=1,unit=iio") (by decide +kernel) (by decide +kernel)
    exact absurd unit (by decide +kernel)

end Pcm.LoadEvents

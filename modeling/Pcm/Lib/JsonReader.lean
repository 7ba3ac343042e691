import Pcm.Lib.JsonAutomaton

/-!
# The value of a JSON text

A reader that goes through a text from left to right and builds its value. It checks nothing: what it makes of
a text that is a value is that value, so a text stands for one value at most, and the value of a text that is
pasted together from fragments can be told from the fragments.
-/

namespace Pcm.Json

open StdString

/-! ## Members -/

/-- The values of the members with this name. -/
def valuesOf (name : Bytes) (members : List (Bytes × Value)) : List Value :=
  (members.filter fun m => m.1 = name).map (·.2)

/-- The value of the only member with this name. -/
def Value.member (name : Bytes) : Value → Option Value
  | .object members =>
      match valuesOf name members with
      | [value] => some value
      | _ => none
  | _ => none

/-- The natural number that a value is. -/
def Value.nat? : Value → Option Nat
  | .number text => if text.all isdigit then some (ofDecimal text) else none
  | _ => none

theorem nat?_decimal (n : Nat) : (Value.number (decimal n)).nat? = some n := by
  rw [Value.nat?, if_pos (List.all_eq_true.mpr fun c member => isdigit_of_mem_decimal member), ofDecimal_decimal]

theorem valuesOf_append (name : Bytes) (a b : List (Bytes × Value)) :
    valuesOf name (a ++ b) = valuesOf name a ++ valuesOf name b := by
  rw [valuesOf, List.filter_append, List.map_append, valuesOf, valuesOf]

theorem valuesOf_reverse (name : Bytes) (members : List (Bytes × Value)) :
    valuesOf name members.reverse = (valuesOf name members).reverse := by
  rw [valuesOf, List.filter_reverse, List.map_reverse, valuesOf]

theorem valuesOf_eq_nil {name : Bytes} {members : List (Bytes × Value)} (other : ∀ m ∈ members, m.1 ≠ name) :
    valuesOf name members = [] := by
  rw [valuesOf, List.map_eq_nil_iff, List.filter_eq_nil_iff]
  intro m member
  simpa using other m member

theorem valuesOf_cons_self (name : Bytes) (value : Value) (members : List (Bytes × Value)) :
    valuesOf name ((name, value) :: members) = value :: valuesOf name members := by
  rw [valuesOf, List.filter_cons_of_pos (by simp), List.map_cons, valuesOf]

/-- A member that later ones have not the name of. -/
theorem member_reverse {name : Bytes} {members more : List (Bytes × Value)} {value : Value}
    (later : valuesOf name more = []) (only : valuesOf name members = [value]) :
    (Value.object (more ++ members).reverse).member name = some value := by
  rw [Value.member, valuesOf_reverse, valuesOf_append, later, only]
  rfl

/-! ## The reader -/

namespace Reader

/-- An array or an object that is open, with what has been read of it, the newest first, and the name that waits
for its value. -/
inductive Open
  | array (elements : List Value)
  | object (members : List (Bytes × Value)) (name : Option Bytes)

/-- Between values, or in a string, after a backslash, or in a number or a word, with the characters so far, the
newest first. -/
inductive Place
  | between
  | string (chars : Bytes)
  | escape (chars : Bytes)
  | bare (chars : Bytes)

abbrev State := Place × List Open

/-- A value that has been read. -/
def add (value : Value) : List Open → List Open
  | .array elements :: outer => .array (value :: elements) :: outer
  | .object members (some name) :: outer => .object ((name, value) :: members) none :: outer
  | .object members none :: outer =>
      match value with
      | .string text => .object members (some text) :: outer
      | _ => .object members none :: outer
  | [] => []

/-- A new array or object. Where nothing is open any more, nothing opens. -/
def start (new : Open) : List Open → List Open
  | own :: outer => new :: own :: outer
  | [] => []

def endArray : List Open → List Open
  | .array elements :: outer => add (.array elements.reverse) outer
  | stack => stack

def endObject : List Open → List Open
  | .object members _ :: outer => add (.object members.reverse) outer
  | stack => stack

/-- A number or a word by its characters, the newest first. -/
def bareValue (chars : Bytes) : Value :=
  if chars.reverse ∈ [ascii "true", ascii "false", ascii "null"] then .literal chars.reverse
  else .number chars.reverse

/-- What ends a number or a word. -/
def isDelimiter (c : UInt8) : Bool := isBlank c || c = 44 || c = 93 || c = 125

def stepBetween (stack : List Open) (c : UInt8) : State :=
  if c = 34 then (.string [], stack)
  else if c = 91 then (.between, start (.array []) stack)
  else if c = 123 then (.between, start (.object [] none) stack)
  else if c = 93 then (.between, endArray stack)
  else if c = 125 then (.between, endObject stack)
  else if isBlank c || c = 44 || c = 58 then (.between, stack)
  else (.bare [c], stack)

def step : State → UInt8 → State
  | (.between, stack), c => stepBetween stack c
  | (.string chars, stack), c =>
      if c = 34 then (.between, add (.string chars.reverse) stack)
      else if c = 92 then (.escape chars, stack)
      else (.string (c :: chars), stack)
  | (.escape chars, stack), c => (.string (c :: 92 :: chars), stack)
  | (.bare chars, stack), c =>
      if isDelimiter c then stepBetween (add (bareValue chars) stack) c else (.bare (c :: chars), stack)

def read : State → Bytes → State
  | s, [] => s
  | s, c :: text => read (step s c) text

/-- At the end of a number or a word. -/
def settle : State → State
  | (.bare chars, stack) => (.between, add (bareValue chars) stack)
  | s => s

variable {s t : State} {stack : List Open} {c : UInt8} {text : Bytes}

theorem read_append (s : State) (a b : Bytes) : read s (a ++ b) = read (read s a) b := by
  induction a generalizing s with
  | nil => rfl
  | cons c a ih => exact ih (step s c)

theorem read_append_of_eq {a : Bytes} (first : read s a = t) (b : Bytes) : read s (a ++ b) = read t b := by
  rw [read_append, first]

/-! ## Tokens -/

@[simp] theorem settle_between : settle (.between, stack) = (.between, stack) := rfl

theorem step_settle (delimiter : isDelimiter c = true) (s : State) : step (settle s) c = step s c := by
  obtain ⟨place, stack⟩ := s
  cases place with
  | bare chars => exact (if_pos delimiter).symm
  | between | string | escape => rfl

theorem read_settle (delimiter : isDelimiter c = true) (s : State) (text : Bytes) :
    read (settle s) (c :: text) = read s (c :: text) := by
  rw [read, step_settle delimiter, read]

theorem stepBetween_blank (blank : isBlank c = true) : stepBetween stack c = (.between, stack) := by
  have none : c ≠ 34 ∧ c ≠ 91 ∧ c ≠ 123 ∧ c ≠ 93 ∧ c ≠ 125 := by
    refine ⟨?_, ?_, ?_, ?_, ?_⟩ <;> rintro rfl <;> exact absurd blank (by decide)
  obtain ⟨quote, bracket, brace, close, closeBrace⟩ := none
  simp [stepBetween, quote, bracket, brace, close, closeBrace, blank]

theorem isBlank_of_mem (blank : Blank text) (member : c ∈ text) : isBlank c = true := by
  rcases blank c member with rfl | rfl | rfl | rfl <;> decide

theorem isDelimiter_of_blank (blank : isBlank c = true) : isDelimiter c = true := by
  rw [isDelimiter, blank]
  rfl

theorem read_blank (blank : Blank text) : read (.between, stack) text = (.between, stack) := by
  induction text with
  | nil => rfl
  | cons c text ih =>
      have first : step (.between, stack) c = (.between, stack) :=
        stepBetween_blank (isBlank_of_mem blank List.mem_cons_self)
      rw [read, first]
      exact ih (fun d member => blank d (List.mem_cons_of_mem c member))

/-- White space changes nothing that matters. -/
theorem settle_read_blank (blank : Blank text) (between : settle s = (.between, stack)) :
    settle (read s text) = (.between, stack) := by
  cases text with
  | nil => exact between
  | cons c text =>
      have delimiter := isDelimiter_of_blank (isBlank_of_mem blank List.mem_cons_self)
      rw [← read_settle delimiter, between, read_blank blank]
      rfl

theorem read_string_plain {chars : Bytes} (itself : c ≠ 34 ∧ c ≠ 92) (stack : List Open) :
    step (.string chars, stack) c = (.string (c :: chars), stack) := by
  rw [step, if_neg itself.1, if_neg itself.2]

theorem read_plain {chars : Bytes} (plain : ∀ c ∈ text, c ≠ 34 ∧ c ≠ 92) (stack : List Open) :
    read (.string chars, stack) text = (.string (text.reverse ++ chars), stack) := by
  induction text generalizing chars with
  | nil => rfl
  | cons c text ih =>
      rw [read, read_string_plain (plain c List.mem_cons_self),
        ih (fun d member => plain d (List.mem_cons_of_mem c member)), List.reverse_cons, List.append_assoc]
      rfl

theorem read_chars {text chars : Bytes} (isChars : Chars text) (stack : List Open) :
    read (.string chars, stack) text = (.string (text.reverse ++ chars), stack) := by
  induction isChars generalizing chars with
  | nil => rfl
  | plain itself _ ih =>
      rw [read, read_string_plain itself.2, ih, List.reverse_cons, List.append_assoc]
      rfl
  | @escape c rest known _ ih =>
      change read (.string (c :: 92 :: chars), stack) rest = _
      simp only [ih, List.reverse_cons, List.append_assoc, List.cons_append, List.nil_append]
  | @unicode digits rest _ hex _ ih =>
      have plain : ∀ c ∈ digits, c ≠ 34 ∧ c ≠ 92 := fun c member =>
        (plain_of_isHexDigit (hex c member)).2
      change read (.string (117 :: 92 :: chars), stack) (digits ++ rest) = _
      rw [read_append, read_plain plain, ih]
      simp only [List.reverse_cons, List.reverse_append, List.append_assoc, List.cons_append, List.nil_append]

theorem read_quoted (isChars : Chars text) (stack : List Open) :
    read (.between, stack) (quoted text) = (.between, add (.string text) stack) := by
  change read (.string [], stack) (text ++ [34]) = _
  rw [read_append, read_chars isChars, List.append_nil]
  change (Place.between, add (.string text.reverse.reverse) stack) = _
  rw [List.reverse_reverse]

/-- The characters of a number or a word, but for the first. -/
theorem read_bare {chars : Bytes} (inside : ∀ c ∈ text, isDelimiter c = false) (stack : List Open) :
    read (.bare chars, stack) text = (.bare (text.reverse ++ chars), stack) := by
  induction text generalizing chars with
  | nil => rfl
  | cons c text ih =>
      have first : step (.bare chars, stack) c = (.bare (c :: chars), stack) :=
        if_neg (by rw [inside c List.mem_cons_self]; decide)
      rw [read, first, ih (fun d member => inside d (List.mem_cons_of_mem c member)), List.reverse_cons,
        List.append_assoc]
      rfl

/-- A character of a number or a word. -/
def isBare (c : UInt8) : Bool := !isDelimiter c && c ≠ 34 && c ≠ 91 && c ≠ 123 && c ≠ 58

theorem read_token (bare : ∀ c ∈ text, isBare c = true) (some : text ≠ []) (stack : List Open) :
    read (.between, stack) text = (.bare text.reverse, stack) := by
  obtain ⟨c, text, rfl⟩ := List.exists_cons_of_ne_nil some
  have inside : ∀ d ∈ text, isDelimiter d = false := by
    intro d member
    have character := bare d (List.mem_cons_of_mem c member)
    simp only [isBare, Bool.and_eq_true, Bool.not_eq_true'] at character
    exact character.1.1.1.1
  have first : step (.between, stack) c = (.bare [c], stack) := by
    have character := bare c List.mem_cons_self
    simp only [isBare, isDelimiter, Bool.and_eq_true, Bool.not_eq_true', Bool.or_eq_false_iff,
      decide_eq_true_eq, decide_eq_false_iff_not] at character
    obtain ⟨⟨⟨⟨⟨⟨⟨blank, comma⟩, close⟩, closeBrace⟩, quote⟩, bracket⟩, brace⟩, colon⟩ := character
    simp [step, stepBetween, quote, bracket, brace, close, closeBrace, blank, comma, colon]
  rw [read, first, read_bare inside, List.reverse_cons]

theorem isBare_of_isdigit (digit : isdigit c = true) : isBare c = true := by
  have other : ∀ {d : UInt8}, isdigit d = false → c ≠ d := by
    rintro d notDigit rfl
    rw [digit] at notDigit
    cases notDigit
  have blank : isBlank c = false := by
    rw [Bool.eq_false_iff]
    intro blank
    rcases blank_singleton blank c (List.mem_singleton_self c) with same | same | same | same
    all_goals exact other (by decide) same
  simp [isBare, isDelimiter, blank, other (d := 44) (by decide), other (d := 93) (by decide),
    other (d := 125) (by decide), other (d := 34) (by decide), other (d := 91) (by decide),
    other (d := 123) (by decide), other (d := 58) (by decide)]

/-- A number is read as a number. -/
theorem settle_read_number (isNumber : IsNumber text) (stack : List Open) :
    settle (read (.between, stack) text) = (.between, add (.number text) stack) := by
  obtain ⟨characters, some⟩ := isNumber.each (P := fun c => isBare c = true ∧ c ≠ 116 ∧ c ≠ 102 ∧ c ≠ 110)
    (fun c digit => ⟨isBare_of_isdigit digit, by refine ⟨?_, ?_, ?_⟩ <;> rintro rfl <;> cases digit⟩)
    (by simp [isBare, isDelimiter, isBlank])
  have noWord : text ∉ [ascii "true", ascii "false", ascii "null"] := by
    simp only [List.mem_cons, List.not_mem_nil, or_false]
    rintro (rfl | rfl | rfl)
    · exact (characters 116 (by decide)).2.1 rfl
    · exact (characters 102 (by decide)).2.2.1 rfl
    · exact (characters 110 (by decide)).2.2.2 rfl
  rw [read_token (fun c member => (characters c member).1) some, settle, bareValue, List.reverse_reverse,
    if_neg noWord]

theorem settle_read_literal {word : Bytes} (known : word ∈ [ascii "true", ascii "false", ascii "null"])
    (stack : List Open) :
    settle (read (.between, stack) word) = (.between, add (.literal word) stack) := by
  have bare : ∀ c ∈ word, isBare c = true := by
    simp only [List.mem_cons, List.not_mem_nil, or_false] at known
    rcases known with rfl | rfl | rfl <;> exact forall_mem_of_all rfl
  have some : word ≠ [] := by
    rintro rfl
    exact absurd known (by decide)
  rw [read_token bare some, settle, bareValue, List.reverse_reverse, if_pos known]

/-! ## Values -/

/-- Items that are read one by one into an array or an object. -/
theorem read_separated {α : Type} {Item : α → Bytes → Prop} {items : List α} {body : Bytes}
    (frame : List α → List Open) (separated : Separated Item items body)
    (each : ∀ item text, text.length ≤ body.length → Item item text → ∀ done,
      settle (read (.between, frame done) text) = (.between, frame (item :: done))) (done : List α) :
    settle (read (.between, frame done) body) = (.between, frame (items.reverse ++ done)) := by
  induction separated generalizing done with
  | nil blank =>
      rw [read_blank blank]
      rfl
  | @last before item text after blankBefore isItem blankAfter =>
      rw [read_append, read_append, read_blank blankBefore]
      exact settle_read_blank blankAfter (each item text (by simp; omega) isItem done)
  | @cons before item text after next rest body blankBefore isItem blankAfter _ ih =>
      have first := settle_read_blank blankAfter (each item text (by simp; omega) isItem done)
      have later := ih (fun item text short => each item text (by simp; omega)) (item :: done)
      have whole : (item :: next :: rest).reverse ++ done = (next :: rest).reverse ++ item :: done := by simp
      rw [read_append, read_append, read_append, read_blank blankBefore, ← read_settle (by decide), first, whole]
      exact later

theorem read_text {value : Value} {stack : List Open} (isText : Text value text) (there : stack ≠ []) :
    settle (read (.between, stack) text) = (.between, add value stack) := by
  -- strong induction on the length: the parts of a value are shorter than the value
  induction length : text.length using Nat.strong_induction_on generalizing value text stack with
  | _ n ih =>
      obtain ⟨own, outer, rfl⟩ := List.exists_cons_of_ne_nil there
      cases isText with
      | string chars =>
          rw [read_quoted chars]
          rfl
      | number isNumber => exact settle_read_number isNumber _
      | literal known => exact settle_read_literal known _
      | @array elements body separated =>
          have inner := read_separated (fun done => .array done :: own :: outer) separated
            (fun item text short isText done => ih text.length (by simp at length; omega) isText (List.cons_ne_nil _ _) rfl) []
          change settle (read (.between, .array [] :: own :: outer) (body ++ [93])) = _
          rw [read_append, ← read_settle (by decide), inner, List.append_nil]
          change (Place.between, add (.array elements.reverse.reverse) (own :: outer)) = _
          rw [List.reverse_reverse]
      | @object members body separated =>
          have inner := read_separated (fun done => .object done none :: own :: outer) separated
            (fun item text short isMember done => by
              cases isMember with
              | @intro name value text before after chars blankBefore blankAfter isText =>
                  rw [read_append, read_quoted chars, read_append, add, read_blank blankBefore]
                  change settle (read (.between, .object done (some name) :: own :: outer) (after ++ text)) = _
                  rw [read_append, read_blank blankAfter]
                  exact ih text.length (by simp [quoted] at length short; omega) isText (List.cons_ne_nil _ _) rfl) []
          change settle (read (.between, .object [] none :: own :: outer) (body ++ [125])) = _
          rw [read_append, ← read_settle (by decide), inner, List.append_nil]
          change (Place.between, add (.object members.reverse.reverse) (own :: outer)) = _
          rw [List.reverse_reverse]

/-- The value of a document is what the reader makes of it. -/
theorem read_document {value : Value} (document : Document value text) :
    settle (read (.between, [.array []]) text) = (.between, [.array [value]]) := by
  obtain ⟨before, inner, after, rfl, blankBefore, isText, blankAfter⟩ := document
  rw [read_append, read_append, read_blank blankBefore]
  exact settle_read_blank blankAfter (read_text isText (List.cons_ne_nil _ _))

/-! ## Fragments -/

/-- What is open, on top of what had been read of it before. -/
def Open.onto : Open → Open → Open
  | .array elements, .array before => .array (elements ++ before)
  | .object members name, .object before _ => .object (members ++ before) name
  | own, _ => own

/-- A stack whose last frame is on top of what had been read of it before, with the frames around it. -/
def onto (before : Open) (outer : List Open) : List Open → List Open
  | [] => []
  | [own] => own.onto before :: outer
  | own :: next :: stack => own :: onto before outer (next :: stack)

section Fragments

variable {before : Open} {outer : List Open}

theorem onto_begin (new : Open) (stack : List Open) :
    start new (onto before outer stack) = onto before outer (start new stack) := by
  match stack with
  | [] => rfl
  | [_] => rfl
  | _ :: _ :: _ => rfl

theorem onto_add (value : Value) (nonempty : stack ≠ []) :
    onto before outer (add value stack) = add value (onto before outer stack) := by
  obtain ⟨own, stack, rfl⟩ := List.exists_cons_of_ne_nil nonempty
  cases stack with
  | nil =>
      match own, before with
      | .array _, .array _ | .array _, .object _ _ => rfl
      | .object _ (some _), .array _ | .object _ (some _), .object _ _ => rfl
      | .object _ none, .array _ | .object _ none, .object _ _ => cases value <;> rfl
  | cons next stack =>
      match own with
      | .array _ | .object _ (some _) => rfl
      | .object _ none => cases value <;> rfl

theorem endArray_onto (nonempty : endArray stack ≠ []) :
    endArray (onto before outer stack) = onto before outer (endArray stack) := by
  match stack with
  | [] => exact absurd rfl nonempty
  | [.array _] => exact absurd rfl nonempty
  | [.object _ _] => cases before <;> rfl
  | .array elements :: next :: stack => exact (onto_add _ (List.cons_ne_nil _ _)).symm
  | .object _ _ :: next :: stack => rfl

theorem endObject_onto (nonempty : endObject stack ≠ []) :
    endObject (onto before outer stack) = onto before outer (endObject stack) := by
  match stack with
  | [] => exact absurd rfl nonempty
  | [.object _ _] => exact absurd rfl nonempty
  | [.array _] => cases before <;> rfl
  | .object _ _ :: next :: stack => exact (onto_add _ (List.cons_ne_nil _ _)).symm
  | .array elements :: next :: stack => rfl

theorem stepBetween_onto (nonempty : (stepBetween stack c).2 ≠ []) :
    stepBetween (onto before outer stack) c =
      ((stepBetween stack c).1, onto before outer (stepBetween stack c).2) := by
  unfold stepBetween at nonempty ⊢
  by_cases quote : c = 34
  · simp only [if_pos quote]
  simp only [if_neg quote] at nonempty ⊢
  by_cases bracket : c = 91
  · simp only [if_pos bracket, onto_begin]
  simp only [if_neg bracket] at nonempty ⊢
  by_cases brace : c = 123
  · simp only [if_pos brace, onto_begin]
  simp only [if_neg brace] at nonempty ⊢
  by_cases close : c = 93
  · simp only [if_pos close] at nonempty ⊢
    rw [endArray_onto nonempty]
  simp only [if_neg close] at nonempty ⊢
  by_cases closeBrace : c = 125
  · simp only [if_pos closeBrace] at nonempty ⊢
    rw [endObject_onto nonempty]
  simp only [if_neg closeBrace] at nonempty ⊢
  split <;> rfl

theorem stepBetween_nil (c : UInt8) : (stepBetween [] c).2 = [] := by
  unfold stepBetween
  repeat' split
  all_goals rfl

/-- Where nothing is open any more, nothing will be. -/
theorem step_nil (place : Place) (c : UInt8) : (step (place, []) c).2 = [] := by
  cases place with
  | between => exact stepBetween_nil c
  | escape => rfl
  | string =>
      rw [step]
      repeat' split
      all_goals rfl
  | bare =>
      rw [step]
      split
      · exact stepBetween_nil c
      · rfl

theorem read_nil (empty : s.2 = []) (text : Bytes) : (read s text).2 = [] := by
  induction text generalizing s with
  | nil => exact empty
  | cons c text ih =>
      obtain ⟨place, stack⟩ := s
      obtain rfl : stack = [] := empty
      exact ih (step_nil place c)

/-- What had been read before stays under a stack that does not end. -/
def State.onto (before : Open) (outer : List Open) (s : State) : State := (s.1, Reader.onto before outer s.2)

theorem step_onto (nonempty : (step s c).2 ≠ []) :
    step (s.onto before outer) c = (step s c).onto before outer := by
  obtain ⟨place, stack⟩ := s
  cases place with
  | between => exact stepBetween_onto nonempty
  | escape => rfl
  | string chars =>
      simp only [step, State.onto] at nonempty ⊢
      by_cases quote : c = 34
      · simp only [if_pos quote] at nonempty ⊢
        have there : stack ≠ [] := by
          rintro rfl
          exact nonempty rfl
        rw [onto_add _ there]
      simp only [if_neg quote]
      split <;> rfl
  | bare chars =>
      simp only [step, State.onto] at nonempty ⊢
      by_cases delimiter : isDelimiter c = true
      · simp only [if_pos delimiter] at nonempty ⊢
        have there : stack ≠ [] := by
          rintro rfl
          exact nonempty (stepBetween_nil c)
        rw [← onto_add _ there, stepBetween_onto nonempty]
      · simp only [if_neg delimiter]

/-- A fragment is read in the same way wherever it stands. -/
theorem read_onto (nonempty : (read s text).2 ≠ []) :
    read (s.onto before outer) text = (read s text).onto before outer := by
  induction text generalizing s with
  | nil => rfl
  | cons c text ih =>
      have there : (step s c).2 ≠ [] := fun empty => nonempty (read_nil empty text)
      rw [read, step_onto there]
      exact ih nonempty

theorem chars_of_isContent (content : isContent text = true) : Chars text := by
  fun_induction isContent text with
  | case1 => exact .nil
  | case2 c =>
      simp only [Bool.and_eq_true, decide_eq_true_eq] at content
      exact .plain ⟨content.1.1, content.1.2, content.2⟩ .nil
  | case3 d rest ih =>
      simp only [Bool.and_eq_true, decide_eq_true_eq] at content
      exact .escape content.1 (ih content.2)
  | case4 c d rest notBackslash ih =>
      simp only [Bool.and_eq_true, decide_eq_true_eq] at content
      exact .plain ⟨content.1.1, content.1.2, notBackslash⟩ (ih content.2)

/-- A text in a string. -/
theorem read_content {chars : Bytes} (content : isContent text = true) (inside : s.1 = .string chars) :
    read s text = (.string (text.reverse ++ chars), s.2) := by
  obtain ⟨place, stack⟩ := s
  obtain rfl : place = .string chars := inside
  exact read_chars (chars_of_isContent content) stack

/-- A number between two fragments. -/
theorem read_decimal {l : List Char} {d : Char} (n : Nat) (delimiter : isDelimiter (UInt8.ofNat d.toNat) = true)
    (stack : List Open) (rest : Bytes) :
    read (.between, stack) (decimal n ++ (ascii (String.ofList (d :: l)) ++ rest)) =
      read (.between, add (.number (decimal n)) stack) (ascii (String.ofList (d :: l)) ++ rest) := by
  rw [ascii_ofList, List.map_cons, List.cons_append, read_append, ← read_settle delimiter,
    settle_read_number (isNumber_decimal n)]

theorem read_ascii {l : List Char} (run : read s (l.map fun c => UInt8.ofNat c.toNat) = t) :
    read s (ascii (String.ofList l)) = t := by
  rw [ascii_ofList, run]

/-- A fragment that is one element of an array. -/
theorem read_element {value : Value} (whole : read (.between, [.array []]) text = (.between, [.array [value]]))
    (done : List Value) (outer : List Open) :
    read (.between, .array done :: outer) text = (.between, .array (value :: done) :: outer) := by
  have nonempty : (read (.between, [.array []]) text).2 ≠ [] := by
    rw [whole]
    exact List.cons_ne_nil _ _
  have here : read (State.onto (.array done) outer (.between, [.array []])) text = _ := read_onto nonempty
  rw [whole] at here
  exact here

/-- The first member with this name waits for its value, in an object in an array. -/
def awaits (name : Bytes) : List Open → Bool
  | [.object members (some key), .array []] => decide (key = name) && members.all fun m => m.1 ≠ name
  | _ => false

theorem awaits_iff {name : Bytes} : awaits name stack = true ↔ ∃ members,
    stack = [.object members (some name), .array []] ∧ ∀ m ∈ members, m.1 ≠ name := by
  constructor
  · intro waits
    unfold awaits at waits
    split at waits
    · rename_i members key
      simp only [Bool.and_eq_true, decide_eq_true_eq] at waits
      obtain ⟨rfl, other⟩ := waits
      exact ⟨members, rfl, fun m member => by simpa using List.all_eq_true.mp other m member⟩
    · cases waits
  · rintro ⟨members, rfl, other⟩
    rw [awaits, decide_eq_true rfl, Bool.true_and, List.all_eq_true]
    exact fun m member => decide_eq_true (other m member)

/-- A fragment has been read into an object, and no member of it has one of these names. -/
def leaves (names : List Bytes) : State → Bool
  | (.between, [.object members none]) => members.all fun m => m.1 ∉ names
  | _ => false

/-- The rest of an object, with members that have none of these names. -/
def Rest (names : List Bytes) (s : State) (text : Bytes) : Prop :=
  ∃ inner, text = inner ++ [125] ∧ leaves names (read s inner) = true

theorem Rest.closed {names : List Bytes} (last : text.getLast? = some 125)
    (inner : leaves names (read s text.dropLast) = true) : Rest names s text :=
  ⟨_, (List.dropLast_append_getLast? 125 last).symm, inner⟩

theorem Rest.append {names : List Bytes} {first : Bytes} (rest : Rest names (read s first) text) :
    Rest names s (first ++ text) := by
  obtain ⟨inner, rfl, run⟩ := rest
  refine ⟨first ++ inner, (List.append_assoc ..).symm, ?_⟩
  rw [read_append, run]

/-- The rest of an object in an array. -/
theorem Rest.read {names : List Bytes} (rest : Rest names s text) :
    ∃ more, (∀ name ∈ names, valuesOf name more = []) ∧ ∀ members elements outer,
      Reader.read (s.onto (.object members none) (.array elements :: outer)) text =
        (.between, .array (.object (more ++ members).reverse :: elements) :: outer) := by
  obtain ⟨inner, rfl, run⟩ := rest
  unfold leaves at run
  split at run
  · rename_i more whole
    refine ⟨more, fun name member => valuesOf_eq_nil ?_, fun members elements outer => ?_⟩
    · rintro m inside rfl
      have other := List.all_eq_true.mp run m inside
      exact absurd member (by simpa using other)
    · have nonempty : (Reader.read s inner).2 ≠ [] := by
        rw [whole]
        exact List.cons_ne_nil _ _
      rw [read_append, read_onto nonempty, whole]
      rfl
  · cases run

end Fragments

end Reader

end Pcm.Json

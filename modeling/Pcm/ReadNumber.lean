import Mathlib.Data.List.DropRight
import Pcm.Lib.Extraction

/-!
# Numbers in texts

`read_number` (`utils.cpp:818-890`) reads the numbers that options, environment variables and file
names hold, and what it reads.
-/

namespace Pcm

open StdString IStream

/-- The characters around a number that are trimmed. -/
def blanks : Bytes := [32, 9, 10, 13]

/-- `s.find_first_not_of(set)`, none for `npos`. -/
def findFirstNotOf (s set : Bytes) : Option Nat := s.findIdx? (fun c => !set.contains c)

/-- `s.find_last_not_of(set)`, none for `npos`. -/
def findLastNotOf (s set : Bytes) : Option Nat :=
  (s.reverse.findIdx? (fun c => !set.contains c)).map (fun i => s.length - 1 - i)

def isHexDigit (c : UInt8) : Bool := (48 ≤ c && c ≤ 57) || (97 ≤ c && c ≤ 102) || (65 ≤ c && c ≤ 70)

/-- The text without the blanks around it (`utils.cpp:825-835`). -/
def trim (input : Bytes) : Except StdException Bytes :=
  match findFirstNotOf input blanks, findLastNotOf input blanks with
  | some start, some last => substr input start (last - start + 1)
  | _, _ => .error .invalid_argument

/-- What is read from the stream, once the characters have been checked (`utils.cpp:842-879`). -/
def readChecked (input : Bytes) : Except StdException (Nat × IStream) :=
  let stream := fresh input
  if 2 ≤ input.length ∧ charAt input 0 = 48 ∧ (charAt input 1 = 120 ∨ charAt input 1 = 88) then
    if input.length = 2 then .error .invalid_argument
    else if (input.drop 2).all isHexDigit then .ok (stream.extract 64 16 0)
    else .error .invalid_argument
  else if input.all isdigit then .ok (stream.extract 64 10 0)
  else .error .invalid_argument

/-- The checks of the stream afterwards (`utils.cpp:874-889`). -/
def checkRead (result : Nat) (stream : IStream) : Except StdException Nat :=
  if stream.fail then .error .invalid_argument
  else if (stream.extractWord []).1 ≠ [] then .error .invalid_argument
  else .ok result

/-- `read_number`, for the characters before the null character; none for a null pointer. -/
def readNumber : Option Bytes → Except StdException Nat
  | none | some [] => .error .invalid_argument
  | some str => do
      let input ← trim str
      let (result, stream) ← readChecked input
      checkRead result stream

/-- The texts of numbers: decimal digits, or hexadecimal digits after `0x`. -/
inductive NumberText : Bytes → Nat → Prop
  | decimal {digits : Bytes} (some : digits ≠ []) (all : ∀ c ∈ digits, isdigit c = true) :
      NumberText digits (digitsToNat 10 digits)
  | hexadecimal {x : UInt8} {digits : Bytes} (mark : x = 120 ∨ x = 88) (some : digits ≠ [])
      (all : ∀ c ∈ digits, isHexDigit c = true) : NumberText (48 :: x :: digits) (digitsToNat 16 digits)

/-- A number with blanks around it. -/
def PaddedNumber (text : Bytes) (value : Nat) : Prop :=
  ∃ before number after, text = before ++ (number ++ after) ∧ (∀ c ∈ before, c ∈ blanks) ∧
    (∀ c ∈ after, c ∈ blanks) ∧ NumberText number value

/-! ## Trimming -/

section Trim

variable {before core after : Bytes}

/-- There is no blank at either end. -/
def Bare (core : Bytes) : Prop :=
  (∀ c ∈ core.head?, c ∉ blanks) ∧ ∀ c ∈ core.getLast?, c ∉ blanks

theorem findFirst_blank {set : Bytes} {rest : Bytes} {c : UInt8} (blank : ∀ c ∈ before, c ∈ set) (solid : c ∉ set) :
    findFirstNotOf (before ++ c :: rest) set = some before.length := by
  rw [findFirstNotOf]
  induction before with
  | nil =>
      rw [List.nil_append, List.findIdx?_cons, if_pos (by simpa using solid)]
      rfl
  | cons d before ih =>
      have dropped : ¬ (!set.contains d) = true := by simpa using blank d List.mem_cons_self
      rw [List.cons_append, List.findIdx?_cons, if_neg dropped,
        ih (fun c member => blank c (List.mem_cons_of_mem d member))]
      rfl

theorem trim_bare (blankBefore : ∀ c ∈ before, c ∈ blanks) (blankAfter : ∀ c ∈ after, c ∈ blanks)
    (some : core ≠ []) (bare : Bare core) : trim (before ++ (core ++ after)) = .ok core := by
  obtain ⟨c, rest, first⟩ := List.exists_cons_of_ne_nil some
  obtain ⟨front, d, last⟩ : ∃ front d, core = front ++ [d] :=
    ⟨core.dropLast, core.getLast some, (List.dropLast_append_getLast some).symm⟩
  have start : findFirstNotOf (before ++ (core ++ after)) blanks = Option.some before.length := by
    rw [first]
    exact findFirst_blank blankBefore (bare.1 c (by rw [first]; rfl))
  have stop : findLastNotOf (before ++ (core ++ after)) blanks = Option.some (before.length + core.length - 1) := by
    have reversed : (before ++ (core ++ after)).reverse = after.reverse ++ d :: (front.reverse ++ before.reverse) := by
      rw [last]
      simp
    have solid : d ∉ blanks := bare.2 d (by rw [last]; simp)
    have found : findFirstNotOf (after.reverse ++ d :: (front.reverse ++ before.reverse)) blanks =
        Option.some after.reverse.length :=
      findFirst_blank (fun c member => blankAfter c (List.mem_reverse.mp member)) solid
    rw [findFirstNotOf] at found
    rw [findLastNotOf, reversed, found, Option.map_some, List.length_reverse]
    congr 1
    simp only [List.length_append]
    omega
  have long : 0 < core.length := List.length_pos_iff.mpr some
  rw [trim, start, stop]
  change substr _ before.length (before.length + core.length - 1 - before.length + 1) = _
  rw [show before.length + core.length - 1 - before.length + 1 = core.length by omega, substr,
    if_neg (by simp), List.drop_left, List.take_left]

/-- Every text is blank or has something between blanks. -/
theorem blank_or_bare (text : Bytes) : (∀ c ∈ text, c ∈ blanks) ∨
    ∃ before core after, text = before ++ (core ++ after) ∧ (∀ c ∈ before, c ∈ blanks) ∧
      (∀ c ∈ after, c ∈ blanks) ∧ core ≠ [] ∧ Bare core := by
  let blank : UInt8 → Bool := fun c => decide (c ∈ blanks)
  let rest := text.dropWhile blank
  by_cases none : rest.rdropWhile blank = []
  · left
    intro c member
    rw [← List.takeWhile_append_dropWhile (p := blank) (l := text)] at member
    rcases List.mem_append.mp member with early | late
    · have kept : blank c = true := List.mem_takeWhile_imp early
      exact of_decide_eq_true kept
    · exact of_decide_eq_true (List.rdropWhile_eq_nil_iff.mp none c late)
  · right
    refine ⟨text.takeWhile blank, rest.rdropWhile blank, rest.rtakeWhile blank, ?_, ?_, ?_, none, ?_, ?_⟩
    · rw [List.rdropWhile_append_rtakeWhile]
      exact List.takeWhile_append_dropWhile.symm
    · intro c member
      have kept : blank c = true := List.mem_takeWhile_imp member
      exact of_decide_eq_true kept
    · intro c member
      have kept : blank c = true := List.mem_rtakeWhile_imp member
      exact of_decide_eq_true kept
    · intro c first blankC
      have front : rest.head? = some c := by
        obtain ⟨kept, same⟩ := List.rdropWhile_prefix blank (l := rest)
        obtain ⟨more, begins⟩ : ∃ more, rest.rdropWhile blank = c :: more := List.head?_eq_some_iff.mp first
        rw [← same, begins]
        rfl
      have dropped := List.head?_dropWhile_not blank text
      rw [show text.dropWhile blank = rest from rfl, front] at dropped
      exact Bool.false_ne_true (dropped.symm.trans (decide_eq_true blankC))
    · intro c last blankC
      obtain ⟨some', same⟩ := List.mem_getLast?_eq_getLast last
      exact List.rdropWhile_last_not blank rest none (by rw [← same]; exact decide_eq_true blankC)

theorem trim_blank {text : Bytes} (blank : ∀ c ∈ text, c ∈ blanks) : trim text = .error .invalid_argument := by
  have none : findFirstNotOf text blanks = none := by
    rw [findFirstNotOf, List.findIdx?_eq_none_iff]
    intro c member
    simpa using blank c member
  rw [trim, none]

end Trim

/-! ## What is read -/

section Digits

variable {digits number : Bytes} {c : UInt8}

theorem digitValue_of_isHexDigit (digit : isHexDigit c = true) : digitValue c < 16 := by
  simp only [isHexDigit, Bool.or_eq_true, Bool.and_eq_true, decide_eq_true_eq] at digit
  rw [digitValue]
  split
  · rename_i decimal
    have := isdigit_range decimal
    omega
  · rename_i noDecimal
    rcases digit with (decimal | ⟨low, high⟩) | ⟨low, high⟩
    · exact absurd (by simpa [isdigit] using decimal) noDecimal
    · have small : c.toNat ≤ 102 := high
      rw [if_pos (by simp only [Bool.and_eq_true, decide_eq_true_eq]; exact ⟨low, UInt8.le_trans high (by decide)⟩)]
      omega
    · have small : c.toNat ≤ 70 := high
      have noLower : ¬ (97 ≤ c && c ≤ 122) = true := fun letter => by
        simp only [Bool.and_eq_true, decide_eq_true_eq] at letter
        have : 97 ≤ c.toNat := letter.1
        omega
      rw [if_neg noLower, if_pos (by simp only [Bool.and_eq_true, decide_eq_true_eq]; exact ⟨low, UInt8.le_trans high (by decide)⟩)]
      omega

theorem not_blank_of_digitValue (small : digitValue c < 36) : c ∉ blanks := by
  intro blank
  simp only [blanks, List.mem_cons, List.not_mem_nil, or_false] at blank
  rcases blank with rfl | rfl | rfl | rfl
  all_goals exact absurd small (by decide)

theorem bare_of_ends (first : ∀ c ∈ number.head?, digitValue c < 36) (last : ∀ c ∈ number.getLast?, digitValue c < 36) :
    Bare number :=
  ⟨fun c member => not_blank_of_digitValue (first c member), fun c member => not_blank_of_digitValue (last c member)⟩

theorem NumberText.bare {value : Nat} (text : NumberText number value) : number ≠ [] ∧ Bare number := by
  cases text with
  | decimal some all =>
      have small : ∀ c ∈ number, digitValue c < 36 := fun c member =>
        Nat.lt_trans (digitValue_of_isdigit (all c member)) (by decide)
      exact ⟨some, bare_of_ends (fun c member => small c (List.mem_of_mem_head? member))
        (fun c member => small c (List.mem_of_mem_getLast? member))⟩
  | @hexadecimal x digits mark some all =>
      have small : ∀ c ∈ digits, digitValue c < 36 := fun c member =>
        Nat.lt_trans (digitValue_of_isHexDigit (all c member)) (by decide)
      refine ⟨List.cons_ne_nil _ _, bare_of_ends (fun c member => ?_) (fun c member => ?_)⟩
      · cases member
        decide
      · rw [List.getLast?_cons_of_ne_nil (List.cons_ne_nil _ _), List.getLast?_cons_of_ne_nil some] at member
        exact small c (List.mem_of_mem_getLast? member)

/-- What a stream has read when nothing is left of its text. -/
def readWhole (value : Nat) : Nat × IStream :=
  if 2 ^ 64 ≤ value then (2 ^ 64 - 1, { unread := [], eofbit := true, failbit := true })
  else (value, { unread := [], eofbit := true })

theorem extract_whole {base : Nat} {text : Bytes} (marked : Marked base digits text) (small : base ≤ 16)
    (some : digits ≠ []) (all : ∀ c ∈ digits, digitValue c < base) :
    (fresh text).extract 64 base 0 = readWhole (digitsToNat base digits) := by
  have noBlank : ∀ c ∈ ([] : Bytes), isspace c = true := fun c member => absurd member List.not_mem_nil
  have read := extract_marked marked small some all noBlank stops_nil 64 0
  rw [List.append_nil, List.nil_append] at read
  exact read

/-- The check of the characters leaves exactly the texts of numbers. -/
theorem readChecked_cases (some : number ≠ []) :
    (∃ value, NumberText number value ∧ readChecked number = .ok (readWhole value)) ∨
      (∀ value, ¬ NumberText number value) ∧ readChecked number = .error .invalid_argument := by
  by_cases marked : 2 ≤ number.length ∧ charAt number 0 = 48 ∧ (charAt number 1 = 120 ∨ charAt number 1 = 88)
  · obtain ⟨x, digits, rfl, mark⟩ : ∃ x digits, number = 48 :: x :: digits ∧ (x = 120 ∨ x = 88) := by
      rcases number with - | ⟨c, - | ⟨x, digits⟩⟩
      · exact absurd rfl some
      · exact absurd marked.1 (by simp)
      · obtain ⟨-, rfl, mark⟩ := marked
        exact ⟨x, digits, rfl, mark⟩
    by_cases empty : digits = []
    · right
      subst empty
      refine ⟨fun value text => ?_, ?_⟩
      · cases text with
        | decimal some all => exact absurd (all x (by simp)) (by rcases mark with rfl | rfl <;> decide)
        | hexadecimal mark some all => exact some rfl
      · simp only [readChecked, if_pos marked]
        exact if_pos rfl
    · have long : ¬ (48 :: x :: digits).length = 2 := fun length =>
        empty (List.length_eq_zero_iff.mp (by simpa using length))
      by_cases all : digits.all isHexDigit = true
      · left
        have hex := List.all_eq_true.mp all
        refine ⟨_, .hexadecimal mark empty hex, ?_⟩
        simp only [readChecked, if_pos marked, if_neg long, List.drop_succ_cons, List.drop_zero, if_pos all]
        rw [extract_whole (.hex x rfl mark) (Nat.le_refl 16) empty (fun c member => digitValue_of_isHexDigit (hex c member))]
      · right
        refine ⟨fun value text => ?_, ?_⟩
        · cases text with
          | decimal some digit =>
              exact absurd (digit x (List.mem_cons_of_mem _ List.mem_cons_self)) (by rcases mark with rfl | rfl <;> decide)
          | hexadecimal mark some hex => exact all (List.all_eq_true.mpr hex)
        · simp only [readChecked, if_pos marked, if_neg long, List.drop_succ_cons, List.drop_zero]
          exact if_neg all
  · have noMark : ∀ x digits, number = 48 :: x :: digits → ¬ (x = 120 ∨ x = 88) := by
      rintro x digits rfl mark
      exact marked ⟨by simp, rfl, mark⟩
    by_cases all : number.all isdigit = true
    · left
      have digit := List.all_eq_true.mp all
      refine ⟨_, .decimal some digit, ?_⟩
      simp only [readChecked, if_neg marked, if_pos all]
      rw [extract_whole .plain (by decide) some (fun c member => digitValue_of_isdigit (digit c member))]
    · right
      refine ⟨fun value text => ?_, ?_⟩
      · cases text with
        | decimal some digit => exact all (List.all_eq_true.mpr digit)
        | @hexadecimal x digits mark some hex => exact noMark x digits rfl mark
      · simp only [readChecked, if_neg marked]
        exact if_neg all

end Digits

section Read

variable {text : Bytes}

theorem readNumber_of_trim_error (failed : trim text = .error .invalid_argument) :
    readNumber (some text) = .error .invalid_argument := by
  cases text with
  | nil => rfl
  | cons c rest =>
      change (trim (c :: rest) >>= _) = _
      rw [failed]
      rfl

theorem readNumber_of_trim {number : Bytes} (trimmed : trim text = .ok number) :
    readNumber (some text) = readChecked number >>= fun read => checkRead read.1 read.2 := by
  cases text with
  | nil =>
      rw [trim_blank (fun c member => absurd member List.not_mem_nil)] at trimmed
      cases trimmed
  | cons c rest =>
      change (trim (c :: rest) >>= _) = _
      rw [trimmed]
      rfl

theorem checkRead_whole (value : Nat) : checkRead (readWhole value).1 (readWhole value).2 =
    if value < 2 ^ 64 then .ok value else .error .invalid_argument := by
  by_cases fits : value < 2 ^ 64
  · rw [readWhole, if_neg (by omega), if_pos fits]
    rfl
  · rw [readWhole, if_pos (by omega), if_neg fits]
    rfl

theorem PaddedNumber.trimmed {value : Nat} (padded : PaddedNumber text value) :
    ∃ number, trim text = .ok number ∧ NumberText number value := by
  obtain ⟨before, number, after, rfl, blankBefore, blankAfter, isNumber⟩ := padded
  exact ⟨number, trim_bare blankBefore blankAfter isNumber.bare.1 isNumber.bare.2, isNumber⟩

theorem NumberText.unique {number : Bytes} {value value' : Nat} (first : NumberText number value)
    (second : NumberText number value') : value = value' := by
  cases first with
  | decimal some all =>
      cases second with
      | decimal => rfl
      | hexadecimal mark some' all' =>
          exact absurd (all _ (List.mem_cons_of_mem _ List.mem_cons_self)) (by rcases mark with rfl | rfl <;> decide)
  | hexadecimal mark some all =>
      cases second with
      | decimal some' all' =>
          exact absurd (all' _ (List.mem_cons_of_mem _ List.mem_cons_self)) (by rcases mark with rfl | rfl <;> decide)
      | hexadecimal => rfl

/-- A text without blanks at its ends. -/
theorem readNumber_bare (some : text ≠ []) (bare : Bare text) :
    (∃ value, NumberText text value ∧ readNumber (Option.some text) =
      if value < 2 ^ 64 then .ok value else .error .invalid_argument) ∨
    (∀ value, ¬ NumberText text value) ∧ readNumber (Option.some text) = .error .invalid_argument := by
  have noBlank : ∀ c ∈ ([] : Bytes), c ∈ blanks := fun c member => absurd member List.not_mem_nil
  have trimmed := trim_bare noBlank noBlank some bare
  rw [List.append_nil, List.nil_append] at trimmed
  rw [readNumber_of_trim trimmed]
  rcases readChecked_cases some with ⟨value, isNumber, read⟩ | ⟨noNumber, failed⟩
  · refine .inl ⟨value, isNumber, ?_⟩
    rw [read]
    exact checkRead_whole value
  · refine .inr ⟨noNumber, ?_⟩
    rw [failed]
    rfl

/-- A text is read as a number exactly when it is one, with blanks around it and less than `2^64`;
`invalid_argument` is thrown for any other. -/
theorem readNumber_iff (text : Bytes) :
    (∀ value, readNumber (some text) = .ok value ↔ PaddedNumber text value ∧ value < 2 ^ 64) ∧
      ((¬ ∃ value, PaddedNumber text value ∧ value < 2 ^ 64) → readNumber (some text) = .error .invalid_argument) := by
  rcases blank_or_bare text with blank | ⟨before, core, after, rfl, blankBefore, blankAfter, some, bare⟩
  · have failed := readNumber_of_trim_error (trim_blank blank)
    refine ⟨fun value => iff_of_false ?_ ?_, fun _ => failed⟩
    · rw [failed]
      exact fun same => by cases same
    · rintro ⟨padded, -⟩
      obtain ⟨number, trimmed, -⟩ := padded.trimmed
      rw [trim_blank blank] at trimmed
      cases trimmed
  · have trimmed := trim_bare blankBefore blankAfter some bare
    have same : ∀ {value}, PaddedNumber (before ++ (core ++ after)) value → NumberText core value := by
      intro value padded
      obtain ⟨number, trimmed', isNumber⟩ := padded.trimmed
      rw [trimmed] at trimmed'
      cases trimmed'
      exact isNumber
    rw [readNumber_of_trim trimmed]
    rcases readChecked_cases some with ⟨number, isNumber, read⟩ | ⟨noNumber, failed⟩
    · have padded : PaddedNumber (before ++ (core ++ after)) number :=
        ⟨before, core, after, rfl, blankBefore, blankAfter, isNumber⟩
      rw [read]
      change (∀ value, checkRead _ _ = _ ↔ _) ∧ (_ → checkRead _ _ = _)
      rw [checkRead_whole]
      by_cases fits : number < 2 ^ 64
      · rw [if_pos fits]
        refine ⟨fun value => ⟨?_, ?_⟩, fun none => absurd ⟨number, padded, fits⟩ none⟩
        · rintro ⟨⟩
          exact ⟨padded, fits⟩
        · rintro ⟨padded', -⟩
          rw [isNumber.unique (same padded')]
      · rw [if_neg fits]
        refine ⟨fun value => iff_of_false (fun same => by cases same) ?_, fun _ => rfl⟩
        rintro ⟨padded', small⟩
        exact fits (isNumber.unique (same padded') ▸ small)
    · rw [failed]
      refine ⟨fun value => iff_of_false (fun same => by cases same) ?_, fun _ => rfl⟩
      rintro ⟨padded, -⟩
      exact noNumber value (same padded)

example : readNumber (some (ascii " 0X1f\n")) = .ok 31 := by decide +kernel

end Read

end Pcm

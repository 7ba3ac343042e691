import Pcm.Lib.Digits
import Pcm.Lib.IStream

/-!
# Formatted extraction

`operator>>` of a `std::istream` into a string and into an unsigned number. White space is skipped
first; when nothing follows it, the extraction fails and the variable keeps its value.
-/

namespace Pcm.IStream

open StdString

/-- The sentry of a formatted extraction. -/
def skipws (s : IStream) : IStream :=
  if s.good = false then { s with failbit := true }
  else match s.unread.dropWhile isspace with
    | [] => { s with unread := [], eofbit := true, failbit := true }
    | c :: rest => { s with unread := c :: rest }

/-- `s >> str` -/
def extractWord (s : IStream) (str : Bytes) : Bytes × IStream :=
  let s := s.skipws
  if s.good = false then (str, s)
  else
    let rest := s.unread.dropWhile (fun c => !isspace c)
    (s.unread.takeWhile (fun c => !isspace c), { s with unread := rest, eofbit := rest.isEmpty })

/-- The `0x` before the digits of a number with base 16. -/
def dropMark : Bytes → Bytes
  | 48 :: 120 :: rest => rest
  | 48 :: 88 :: rest => rest
  | s => s

/-- `s >> value` for an unsigned number of so many bits, and a base up to 16 in the flags of the stream. -/
def extract (bits base : Nat) (s : IStream) (value : Nat) : Nat × IStream :=
  let s := s.skipws
  if s.good = false then (value, s)
  else
    let (negative, unsigned) := splitSign s.unread
    let marked := if base = 16 then dropMark unsigned else unsigned
    let digits := digitRun base marked
    let rest := marked.drop digits.length
    let s := { s with unread := rest, eofbit := rest.isEmpty }
    let number := digitsToNat base digits
    if digits = [] then (0, { s with failbit := true })
    else if 2 ^ bits ≤ number then (2 ^ bits - 1, { s with failbit := true })
    else (if negative then (2 ^ bits - number) % 2 ^ bits else number, s)

/-! ## White space -/

/-- The end of the text, or white space, is next. -/
def Stops (rest : Bytes) : Prop := ∀ c ∈ rest.head?, isspace c = true

variable {blank rest : Bytes} {c : UInt8}

theorem stops_nil : Stops [] := fun _ member => by cases member

theorem stops_cons (space : isspace c = true) (rest : Bytes) : Stops (c :: rest) := by
  rintro _ ⟨⟩
  exact space

/-- A stream that has only white space left, after a formatted extraction. -/
def exhausted : IStream := { unread := [], eofbit := true, failbit := true }

theorem skipws_solid (all : ∀ c ∈ blank, isspace c = true) (solid : isspace c = false) (rest : Bytes) :
    (fresh (blank ++ c :: rest)).skipws = fresh (c :: rest) := by
  have dropped : (blank ++ c :: rest).dropWhile isspace = c :: rest := by
    rw [List.dropWhile_append_of_pos all, List.dropWhile_cons_of_neg (by rw [solid]; exact Bool.false_ne_true)]
  rw [skipws, if_neg (by rw [good_fresh]; exact Bool.noConfusion)]
  simp only [fresh, dropped]

theorem skipws_blank (all : ∀ c ∈ blank, isspace c = true) : (fresh blank).skipws = exhausted := by
  have dropped : blank.dropWhile isspace = [] := List.dropWhile_eq_nil_iff.mpr all
  rw [skipws, if_neg (by rw [good_fresh]; exact Bool.noConfusion)]
  simp only [fresh, dropped, exhausted]

theorem skipws_of_not_good {s : IStream} (bad : s.good = false) : s.skipws = { s with failbit := true } := if_pos bad

/-! ## Words -/

theorem takeWhile_stops {p : UInt8 → Bool} {run : Bytes} (all : ∀ c ∈ run, p c = true)
    (stop : ∀ c ∈ rest.head?, p c = false) :
    (run ++ rest).takeWhile p = run ∧ (run ++ rest).dropWhile p = rest := by
  rw [List.takeWhile_append_of_pos all, List.dropWhile_append_of_pos all]
  cases rest with
  | nil => exact ⟨List.append_nil run, rfl⟩
  | cons c rest =>
      have stops : ¬ p c = true := by
        rw [stop c rfl]
        exact Bool.false_ne_true
      rw [List.takeWhile_cons_of_neg stops, List.dropWhile_cons_of_neg stops, List.append_nil]
      exact ⟨rfl, rfl⟩

theorem extractWord_word {word : Bytes} (all : ∀ c ∈ blank, isspace c = true) (some : word ≠ [])
    (solid : ∀ c ∈ word, isspace c = false) (stops : Stops rest) (str : Bytes) :
    (fresh (blank ++ (word ++ rest))).extractWord str = (word, { unread := rest, eofbit := rest.isEmpty }) := by
  obtain ⟨c, more, rfl⟩ := List.exists_cons_of_ne_nil some
  have split : (c :: more ++ rest).takeWhile (fun c => !isspace c) = c :: more ∧
      (c :: more ++ rest).dropWhile (fun c => !isspace c) = rest :=
    takeWhile_stops (fun d member => by rw [solid d member]; rfl) (fun d member => by rw [stops d member]; rfl)
  have skipped : (fresh (blank ++ (c :: more ++ rest))).skipws = fresh (c :: more ++ rest) :=
    skipws_solid all (solid c List.mem_cons_self) (more ++ rest)
  rw [extractWord]
  simp only [skipped]
  rw [if_neg (by rw [good_fresh]; exact Bool.noConfusion)]
  simp only [fresh, split]

/-! ## Numbers -/

/-- `digits` with the mark that may come before them. -/
inductive Marked (base : Nat) (digits : Bytes) : Bytes → Prop
  | plain : Marked base digits digits
  | hex (x : UInt8) (base16 : base = 16) (mark : x = 120 ∨ x = 88) : Marked base digits (48 :: x :: digits)

section Numbers

variable {base : Nat} {digits text : Bytes}

theorem digitValue_of_isspace (space : isspace c = true) : digitValue c = 36 := by
  simp only [isspace, Bool.or_eq_true, Bool.and_eq_true, decide_eq_true_eq] at space
  rcases space with rfl | ⟨low, high⟩
  · rfl
  · have small : c.toNat ≤ 13 := high
    have noDigit : ¬ isdigit c = true := fun digit => by
      have := (isdigit_range digit).1
      omega
    have noLower : ¬ (97 ≤ c && c ≤ 122) = true := fun letter => by
      simp only [Bool.and_eq_true, decide_eq_true_eq] at letter
      have : 97 ≤ c.toNat := letter.1
      omega
    have noUpper : ¬ (65 ≤ c && c ≤ 90) = true := fun letter => by
      simp only [Bool.and_eq_true, decide_eq_true_eq] at letter
      have : 65 ≤ c.toNat := letter.1
      omega
    rw [digitValue, if_neg noDigit, if_neg noLower, if_neg noUpper]

theorem not_isspace_of_digit (small : base ≤ 16) (digit : digitValue c < base) : isspace c = false := by
  by_contra space
  have value := digitValue_of_isspace (Bool.eq_true_of_not_eq_false space)
  omega

theorem digitRun_stops (small : base ≤ 16) (all : ∀ c ∈ digits, digitValue c < base) (stops : Stops rest) :
    digitRun base (digits ++ rest) = digits := by
  refine (takeWhile_stops (fun c member => decide_eq_true (all c member)) (fun c member => ?_)).1
  rw [digitValue_of_isspace (stops c member)]
  exact decide_eq_false (by omega)

theorem splitSign_digit (small : base ≤ 16) (digit : digitValue c < base) (more : Bytes) :
    splitSign (c :: more) = (false, c :: more) := by
  unfold splitSign
  split
  · rename_i equal
    cases equal
    exact absurd digit (by rw [show digitValue 45 = 36 from rfl]; omega)
  · rename_i equal
    cases equal
    exact absurd digit (by rw [show digitValue 43 = 36 from rfl]; omega)
  · rfl

theorem dropMark_digits (some : digits ≠ []) (all : ∀ c ∈ digits, digitValue c < 16) (stops : Stops rest) :
    dropMark (digits ++ rest) = digits ++ rest := by
  -- The character after a first zero is a digit or white space, so it is no mark.
  have noMark : ∀ x more, digits ++ rest = 48 :: x :: more → x ≠ 120 ∧ x ≠ 88 := by
    intro x more equal
    have value : digitValue x < 16 ∨ isspace x = true := by
      obtain ⟨c, others, rfl⟩ := List.exists_cons_of_ne_nil some
      cases others with
      | nil =>
          obtain ⟨-, equal⟩ := List.cons.inj equal
          exact Or.inr (stops x (by rw [show rest = x :: more from equal]; rfl))
      | cons d others =>
          obtain ⟨-, equal⟩ := List.cons.inj equal
          obtain ⟨rfl, -⟩ := List.cons.inj equal
          exact Or.inl (all d (List.mem_cons_of_mem c List.mem_cons_self))
    constructor
    · rintro rfl
      revert value
      decide
    · rintro rfl
      revert value
      decide
  rw [dropMark.eq_def]
  split
  · rename_i more equal
    exact absurd rfl (noMark _ _ equal).1
  · rename_i more equal
    exact absurd rfl (noMark _ _ equal).2
  · rfl

theorem Marked.begins (marked : Marked base digits text) (some : digits ≠ [])
    (all : ∀ c ∈ digits, digitValue c < base) : ∃ c more, text = c :: more ∧ digitValue c < base := by
  cases marked with
  | plain =>
      obtain ⟨c, more, rfl⟩ := List.exists_cons_of_ne_nil some
      exact ⟨c, more, rfl, all c List.mem_cons_self⟩
  | hex x base16 mark => exact ⟨48, x :: digits, rfl, by rw [base16]; decide⟩

/-- A number is extracted, unless it has too many bits. -/
theorem extract_marked (marked : Marked base digits text) (small : base ≤ 16) (some : digits ≠ [])
    (all : ∀ c ∈ digits, digitValue c < base) (space : ∀ c ∈ blank, isspace c = true) (stops : Stops rest)
    (bits value : Nat) :
    (fresh (blank ++ (text ++ rest))).extract bits base value =
      if 2 ^ bits ≤ digitsToNat base digits then
        (2 ^ bits - 1, { unread := rest, eofbit := rest.isEmpty, failbit := true })
      else (digitsToNat base digits, { unread := rest, eofbit := rest.isEmpty }) := by
  obtain ⟨c, more, begins, digit⟩ := marked.begins some all
  have skipped : (fresh (blank ++ (text ++ rest))).skipws = fresh (text ++ rest) := by
    rw [begins]
    exact skipws_solid space (not_isspace_of_digit small digit) (more ++ rest)
  have unsigned : splitSign (text ++ rest) = (false, text ++ rest) := by
    rw [begins]
    exact splitSign_digit small digit (more ++ rest)
  have unmarked : (if base = 16 then dropMark (text ++ rest) else text ++ rest) = digits ++ rest := by
    cases marked with
    | plain =>
        split
        · rename_i base16
          exact dropMark_digits some (base16 ▸ all) stops
        · rfl
    | hex x base16 mark =>
        rw [if_pos base16]
        rcases mark with rfl | rfl
        · rfl
        · rfl
  rw [extract]
  simp only [skipped]
  rw [if_neg (by rw [good_fresh]; exact Bool.noConfusion)]
  simp only [fresh, unsigned, unmarked, digitRun_stops small all stops, List.drop_left, if_neg some]
  rfl

end Numbers

theorem extract_blank (all : ∀ c ∈ blank, isspace c = true) (bits base value : Nat) :
    (fresh blank).extract bits base value = (value, exhausted) := by
  rw [extract]
  simp only [skipws_blank all]
  exact if_pos rfl

theorem extract_of_not_good {s : IStream} (bad : s.good = false) (bits base value : Nat) :
    s.extract bits base value = (value, { s with failbit := true }) := by
  rw [extract]
  simp only [skipws_of_not_good bad]
  exact if_pos (not_good_of_failbit s)

/-! ## Progress -/

theorem length_skipws (s : IStream) : s.skipws.unread.length ≤ s.unread.length := by
  rw [skipws]
  split
  · exact Nat.le_refl _
  · have dropped := (List.dropWhile_sublist isspace (l := s.unread)).length_le
    split
    · exact Nat.zero_le _
    · rename_i c rest left
      rw [left] at dropped
      exact dropped

theorem length_splitSign (text : Bytes) : (splitSign text).2.length ≤ text.length := by
  unfold splitSign
  split
  · exact Nat.le_succ _
  · exact Nat.le_succ _
  · exact Nat.le_refl _

theorem length_dropMark (text : Bytes) : (dropMark text).length ≤ text.length := by
  unfold dropMark
  split
  · simp only [List.length_cons]
    omega
  · simp only [List.length_cons]
    omega
  · exact Nat.le_refl _

/-- A number that has been extracted is no longer there. -/
theorem extract_shortens {bits base value : Nat} {s : IStream} (read : (s.extract bits base value).2.fail = false) :
    (s.extract bits base value).2.unread.length < s.unread.length := by
  rw [extract] at read ⊢
  dsimp only at read ⊢
  by_cases bad : s.skipws.good = false
  · rw [if_pos bad] at read
    have failed : s.skipws.fail = true := by
      rw [skipws] at bad ⊢
      split
      · rfl
      · rename_i good
        rw [if_neg good] at bad
        split
        · rfl
        · rename_i c rest left
          rw [left] at bad
          exact absurd bad good
    rw [failed] at read
    cases read
  · rw [if_neg bad] at read ⊢
    generalize marked : (if base = 16 then dropMark (splitSign s.skipws.unread).2 else (splitSign s.skipws.unread).2) = text at read ⊢
    have shorter : text.length ≤ s.unread.length := by
      have unsigned := Nat.le_trans (length_splitSign s.skipws.unread) (length_skipws s)
      rw [← marked]
      split
      · exact Nat.le_trans (length_dropMark _) unsigned
      · exact unsigned
    by_cases empty : digitRun base text = []
    · rw [if_pos empty] at read
      cases read
    · have some : 0 < (digitRun base text).length := List.length_pos_iff.mpr empty
      have within : (digitRun base text).length ≤ text.length := (List.takeWhile_sublist _).length_le
      rw [if_neg empty] at read ⊢
      split
      · rename_i large
        rw [if_pos large] at read
        cases read
      · change (text.drop (digitRun base text).length).length < s.unread.length
        rw [List.length_drop]
        omega

end Pcm.IStream

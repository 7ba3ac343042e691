import Mathlib.Data.List.TakeWhile
import Pcm.Lib.Decimal

/-!
# Texts of digits

What the conversions from text do with digits, and that a number is read back from its decimal text.
-/

namespace Pcm.StdString

theorem isdigit_range {c : UInt8} (digit : isdigit c = true) : 48 ≤ c.toNat ∧ c.toNat ≤ 57 := by
  simp only [isdigit, Bool.and_eq_true, decide_eq_true_eq] at digit
  exact digit

theorem digitValue_of_isdigit {c : UInt8} (digit : isdigit c = true) : digitValue c < 10 := by
  have range := isdigit_range digit
  rw [digitValue, if_pos digit]
  omega

theorem not_isspace_of_isdigit {c : UInt8} (digit : isdigit c = true) : isspace c = false := by
  have range := isdigit_range digit
  rcases space : isspace c with - | -
  · rfl
  · simp only [isspace, Bool.or_eq_true, Bool.and_eq_true, decide_eq_true_eq] at space
    rcases space with rfl | ⟨-, small⟩
    · exact absurd range.1 (by decide)
    · have bound : c.toNat ≤ 13 := small
      omega

theorem splitSign_of_isdigit {c : UInt8} (digit : isdigit c = true) (rest : Bytes) :
    splitSign (c :: rest) = (false, c :: rest) := by
  have range := isdigit_range digit
  unfold splitSign
  split
  · rename_i equal
    cases equal
    exact absurd range.1 (by decide)
  · rename_i equal
    cases equal
    exact absurd range.1 (by decide)
  · rfl

theorem digitRun_digits {base : Nat} (decimal : 10 ≤ base) {digits : Bytes}
    (digit : ∀ c ∈ digits, isdigit c = true) : digitRun base digits = digits := by
  rw [digitRun, List.takeWhile_eq_self_iff]
  intro c member
  exact decide_eq_true (Nat.lt_of_lt_of_le (digitValue_of_isdigit (digit c member)) decimal)

theorem dropWhile_isspace_digits {digits : Bytes} (digit : ∀ c ∈ digits, isdigit c = true) :
    digits.dropWhile isspace = digits := by
  cases digits with
  | nil => rfl
  | cons c digits =>
      rw [List.dropWhile_cons_of_neg]
      rw [not_isspace_of_isdigit (digit c List.mem_cons_self)]
      exact Bool.false_ne_true

theorem splitSign_digits {digits : Bytes} (digit : ∀ c ∈ digits, isdigit c = true) :
    splitSign digits = (false, digits) := by
  cases digits with
  | nil => rfl
  | cons c digits => exact splitSign_of_isdigit (digit c List.mem_cons_self) digits

/-- `std::stoull` for a text of digits. -/
theorem stoull_digits {digits : Bytes} (some : digits ≠ []) (digit : ∀ c ∈ digits, isdigit c = true) :
    stoull digits = if 2 ^ 64 ≤ digitsToNat 10 digits then .error .out_of_range else .ok (digitsToNat 10 digits) := by
  simp only [stoull, dropWhile_isspace_digits digit, splitSign_digits digit, digitRun_digits (Nat.le_refl 10) digit]
  rw [if_neg some]
  rfl

/-- The digits from the last one on, as Mathlib has them. -/
theorem digitsToNat_reverse (base : Nat) (text : Bytes) :
    digitsToNat base text.reverse = Nat.ofDigits base (text.map digitValue) := by
  rw [digitsToNat, List.foldl_reverse]
  induction text with
  | nil => rfl
  | cons c text ih =>
      rw [List.foldr_cons, ih, List.map_cons, Nat.ofDigits_cons, Nat.mul_comm, Nat.add_comm]

/-- A number is read back from its decimal text. -/
theorem digitsToNat_decimal (n : Nat) : digitsToNat 10 (decimal n) = n := by
  rw [decimal]
  split
  · rename_i isZero
    rw [isZero]
    rfl
  · rw [digitsToNat_reverse, List.map_map]
    have back : (Nat.digits 10 n).map (digitValue ∘ (fun d => UInt8.ofNat (48 + d))) = Nat.digits 10 n := by
      refine (List.map_congr_left (fun d isDigit => ?_)).trans (List.map_id _)
      have less : d < 10 := Nat.digits_lt_base (by decide) isDigit
      interval_cases d <;> rfl
    rw [back, Nat.ofDigits_digits]

end Pcm.StdString

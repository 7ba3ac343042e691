import Mathlib.Data.Nat.Digits.Lemmas
import Mathlib.Tactic.IntervalCases
import Pcm.Lib.StdString

/-!
# Decimal numbers

A number is printed in digits only, and no two numbers are printed in the same way.
-/

namespace Pcm.StdString

theorem isdigit_ofNat {d : Nat} (less : d < 10) : isdigit (UInt8.ofNat (48 + d)) = true := by
  interval_cases d <;> rfl

theorem isdigit_of_mem_decimal {n : Nat} {c : UInt8} (member : c ∈ decimal n) : isdigit c = true := by
  rw [decimal] at member
  split at member
  · rw [List.mem_singleton.mp member]
    rfl
  · rw [List.mem_reverse, List.mem_map] at member
    obtain ⟨d, isDigit, rfl⟩ := member
    exact isdigit_ofNat (Nat.digits_lt_base (by decide) isDigit)

/-- The number that a text of digits stands for. -/
def ofDecimal (text : Bytes) : Nat := Nat.ofDigits 10 (text.reverse.map (fun c => c.toNat - 48))

theorem ofDecimal_decimal (n : Nat) : ofDecimal (decimal n) = n := by
  rw [ofDecimal, decimal]
  split
  · rename_i isZero
    rw [isZero]
    rfl
  · rw [List.reverse_reverse, List.map_map]
    have back : (Nat.digits 10 n).map ((fun c : UInt8 => c.toNat - 48) ∘
        (fun d => UInt8.ofNat (48 + d))) = Nat.digits 10 n := by
      refine (List.map_congr_left (fun d isDigit => ?_)).trans (List.map_id _)
      have less : d < 10 := Nat.digits_lt_base (by decide) isDigit
      interval_cases d <;> rfl
    rw [back, Nat.ofDigits_digits]

theorem decimal_injective : Function.Injective decimal :=
  Function.LeftInverse.injective ofDecimal_decimal

theorem decimal_of_lt {n : Nat} (less : n < 10) : decimal n = [UInt8.ofNat (48 + n)] := by
  interval_cases n <;> rfl

theorem decimal_of_le {n : Nat} (more : 10 ≤ n) :
    decimal n = decimal (n / 10) ++ [UInt8.ofNat (48 + n % 10)] := by
  rw [decimal, if_neg (by omega), Nat.digits_def' (by decide) (by omega), List.map_cons,
    List.reverse_cons, decimal, if_neg (by omega)]

/-- The text of a numeral is its decimal digits. -/
theorem ascii_toString (n : Nat) : ascii (toString n) = decimal n := by
  have digits : ∀ n, (Nat.toDigits 10 n).map (fun c => UInt8.ofNat c.toNat) = decimal n := by
    intro n
    induction n using Nat.strong_induction_on with
    | _ n ih =>
        rcases Nat.lt_or_ge n 10 with less | more
        · rw [Nat.toDigits_of_lt_base less, decimal_of_lt less]
          interval_cases n <;> rfl
        · have last : n % 10 < 10 := Nat.mod_lt n (by decide)
          rw [Nat.toDigits_of_base_le (by decide) more, List.map_append, ih (n / 10) (by omega),
            decimal_of_le more, List.map_singleton]
          interval_cases n % 10 <;> rfl
  rw [ascii, show toString n = n.repr from rfl, Nat.toList_repr, digits]

/-- Digits end where a character is no digit. -/
theorem digits_append_cancel {a b r t : Bytes} {x y : UInt8} (digitsA : ∀ c ∈ a, isdigit c = true)
    (digitsB : ∀ c ∈ b, isdigit c = true) (noX : isdigit x = false) (noY : isdigit y = false)
    (same : a ++ x :: r = b ++ y :: t) : a = b ∧ x :: r = y :: t := by
  have taken := congrArg (List.takeWhile isdigit) same
  rw [List.takeWhile_append_of_pos digitsA, List.takeWhile_append_of_pos digitsB,
    List.takeWhile_cons_of_neg (by simp [noX]), List.takeWhile_cons_of_neg (by simp [noY]),
    List.append_nil, List.append_nil] at taken
  subst taken
  exact ⟨rfl, List.append_cancel_left same⟩

/-- The number at the end of a text, after a character that is no digit. -/
theorem decimal_suffix_cancel {a b : Bytes} {x y : UInt8} {m n : Nat} (noX : isdigit x = false)
    (noY : isdigit y = false) (same : a ++ x :: decimal m = b ++ y :: decimal n) : m = n := by
  have reversed := congrArg List.reverse same
  simp only [List.reverse_append, List.reverse_cons, List.append_assoc, List.singleton_append] at reversed
  have digits : ∀ k, ∀ c ∈ (decimal k).reverse, isdigit c = true :=
    fun k c member => isdigit_of_mem_decimal (List.mem_reverse.mp member)
  have equal := (digits_append_cancel (digits m) (digits n) noX noY reversed).1
  exact decimal_injective (List.reverse_injective equal)

/-- A sign is no digit. -/
theorem minus_notMem_decimal (n : Nat) : (45 : UInt8) ∉ decimal n :=
  fun member => absurd (isdigit_of_mem_decimal member) (by decide)

theorem decimalInt_injective : Function.Injective decimalInt := by
  intro a b same
  cases a with
  | ofNat n =>
      cases b with
      | ofNat k => exact congrArg Int.ofNat (decimal_injective same)
      | negSucc k =>
          refine absurd ?_ (minus_notMem_decimal n)
          rw [show decimal n = 45 :: decimal (k + 1) from same]
          exact List.mem_cons_self ..
  | negSucc n =>
      cases b with
      | ofNat k =>
          refine absurd ?_ (minus_notMem_decimal k)
          rw [show decimal k = 45 :: decimal (n + 1) from same.symm]
          exact List.mem_cons_self ..
      | negSucc k =>
          have digits : decimal (n + 1) = decimal (k + 1) := List.tail_eq_of_cons_eq same
          rw [Nat.add_right_cancel (decimal_injective digits)]

end Pcm.StdString

import Mathlib.Algebra.Ring.Int.Defs
import Mathlib.Algebra.Ring.Nat
import Mathlib.Data.List.Basic
import Mathlib.Data.Nat.Digits.Defs

/-!
# Byte strings of the C++ standard library

`std::string` as a list of bytes, with the members and conversions that the programs here use, in the
"C" locale. Positions are `size_t`, so `npos` is the largest of them and differences wrap around.
-/

namespace Pcm

abbrev Bytes := List UInt8

/-- For membership in a list of texts. -/
@[instance] theorem lawfulBEqBytes : LawfulBEq Bytes := inferInstance

/-- A literal of ASCII characters. -/
def ascii (literal : String) : Bytes := literal.toList.map (fun c => UInt8.ofNat c.toNat)

/-- What a check of every byte says. -/
theorem forall_mem_of_all {P : UInt8 → Prop} [DecidablePred P] {text : Bytes}
    (all : text.all (fun c => decide (P c)) = true) : ∀ c ∈ text, P c := by
  intro c member
  exact of_decide_eq_true (List.all_eq_true.mp all c member)

namespace StdString

/-! ## Character classes -/

/-- `isspace`: space, `\t`, `\n`, `\v`, `\f` and `\r`. -/
def isspace (c : UInt8) : Bool := c = 32 || (9 ≤ c && c ≤ 13)

def isdigit (c : UInt8) : Bool := 48 ≤ c && c ≤ 57

/-- The value of a character as a digit of a base up to 36, any other character counting as 36. -/
def digitValue (c : UInt8) : Nat :=
  if isdigit c then c.toNat - 48
  else if 97 ≤ c && c ≤ 122 then c.toNat - 87
  else if 65 ≤ c && c ≤ 90 then c.toNat - 55
  else 36

/-! ## Exceptions -/

inductive StdException
  | runtime_error (what : Bytes)
  | invalid_argument
  | out_of_range
  | length_error
  deriving DecidableEq, Repr

/-! ## Positions -/

def npos : Nat := 2 ^ 64 - 1

/-- A difference of two positions. -/
def minus (a b : Nat) : Nat := (a + 2 ^ 64 - b) % 2 ^ 64

/-- `s.find(c, pos)` -/
def find (s : Bytes) (c : UInt8) (pos : Nat) : Nat :=
  match (s.drop pos).findIdx? (· = c) with
  | some i => pos + i
  | none => npos

/-- `s.find(c1 c2, pos)` for a text of two characters. -/
def findPair (s : Bytes) (c1 c2 : UInt8) (pos : Nat) : Nat :=
  match ((s.drop pos).zip (s.drop (pos + 1))).findIdx? (· = (c1, c2)) with
  | some i => pos + i
  | none => npos

/-- `s.rfind(c, pos)`: the last occurrence that is not after `pos`. -/
def rfind (s : Bytes) (c : UInt8) (pos : Nat) : Nat :=
  match (s.take (pos + 1)).reverse.findIdx? (· = c) with
  | some i => (s.take (pos + 1)).length - 1 - i
  | none => npos

def substr (s : Bytes) (pos count : Nat) : Except StdException Bytes :=
  if s.length < pos then .error .out_of_range else .ok ((s.drop pos).take count)

/-- `s.erase(0, count)` -/
def eraseFront (s : Bytes) (count : Nat) : Bytes := s.drop count

/-- `s[pos]`, which is a null character at the end of the string. -/
def charAt (s : Bytes) (pos : Nat) : UInt8 := s.getD pos 0

/-! ## Conversions -/

/-- The characters that are digits of the base, from the first one on. -/
def digitRun (base : Nat) (s : Bytes) : Bytes := s.takeWhile (digitValue · < base)

def digitsToNat (base : Nat) (digits : Bytes) : Nat :=
  digits.foldl (fun value c => value * base + digitValue c) 0

/-- The `0x` that may come before hexadecimal digits. -/
def dropHexMark : Bytes → Bytes
  | 48 :: x :: c :: rest =>
      if (x = 120 || x = 88) && digitValue c < 16 then c :: rest else 48 :: x :: c :: rest
  | s => s

/-- A sign, and what comes after it. -/
def splitSign : Bytes → Bool × Bytes
  | 45 :: rest => (true, rest)
  | 43 :: rest => (false, rest)
  | s => (false, s)

/-- `std::stoll(s, nullptr, base)` for base 10 and base 16. -/
def stoll (base : Nat) (s : Bytes) : Except StdException Int :=
  let (negative, unsigned) := splitSign (s.dropWhile isspace)
  let digits := digitRun base (if base = 16 then dropHexMark unsigned else unsigned)
  let value := digitsToNat base digits
  if digits = [] then .error .invalid_argument
  else if negative then
    if value ≤ 2 ^ 63 then .ok (-value) else .error .out_of_range
  else if value < 2 ^ 63 then .ok value
  else .error .out_of_range

/-- `std::stoull(s)` -/
def stoull (s : Bytes) : Except StdException Nat :=
  let (negative, unsigned) := splitSign (s.dropWhile isspace)
  let digits := digitRun 10 unsigned
  let value := digitsToNat 10 digits
  if digits = [] then .error .invalid_argument
  else if 2 ^ 64 ≤ value then .error .out_of_range
  else .ok (if negative then minus 0 value else value)

/-- `std::to_string(n)`, and what an output stream writes for `n`. -/
def decimal (n : Nat) : Bytes :=
  if n = 0 then [48] else ((Nat.digits 10 n).map (fun d => UInt8.ofNat (48 + d))).reverse

/-- The same for a number with a sign. -/
def decimalInt : Int → Bytes
  | .ofNat n => decimal n
  | .negSucc n => 45 :: decimal (n + 1)

/-- A signed number stored in a `size_t`. -/
def toSizeT (value : Int) : Nat := (value % 2 ^ 64).toNat

end StdString

end Pcm

import Pcm.Lib.Decimal

/-!
# JSON texts

The grammar of JSON as a relation between values and texts. Strings, with their escapes, and numbers are
kept as their texts.
-/

namespace Pcm.Json

open StdString

inductive Value
  | string (text : Bytes)
  | number (text : Bytes)
  | literal (word : Bytes)
  | array (elements : List Value)
  | object (members : List (Bytes × Value))

/-! ## Tokens -/

/-- White space between tokens. -/
def Blank (text : Bytes) : Prop := ∀ c ∈ text, c = 32 ∨ c = 9 ∨ c = 10 ∨ c = 13

/-- Characters that stand for themselves in a string: no quotes, backslashes or control characters. -/
def Plain (text : Bytes) : Prop := ∀ c ∈ text, 32 ≤ c ∧ c ≠ 34 ∧ c ≠ 92

/-- `\"`, `\\`, `\/`, `\b`, `\f`, `\n`, `\r`, `\t` -/
def escapes : List UInt8 := [34, 92, 47, 98, 102, 110, 114, 116]

def isHexDigit (c : UInt8) : Bool :=
  isdigit c || (65 ≤ c && c ≤ 70) || (97 ≤ c && c ≤ 102)

/-- The characters between the quotes of a string. -/
inductive Chars : Bytes → Prop
  | nil : Chars []
  | plain {c rest} (itself : 32 ≤ c ∧ c ≠ 34 ∧ c ≠ 92) (further : Chars rest) : Chars (c :: rest)
  | escape {c rest} (known : c ∈ escapes) (further : Chars rest) : Chars (92 :: c :: rest)
  | unicode {digits rest} (four : digits.length = 4) (hex : ∀ c ∈ digits, isHexDigit c = true)
      (further : Chars rest) : Chars (92 :: 117 :: (digits ++ rest))

def quoted (text : Bytes) : Bytes := 34 :: (text ++ [34])

def Digits (text : Bytes) : Prop := text ≠ [] ∧ ∀ c ∈ text, isdigit c = true

/-- An optional sign, an integer without leading zeros, an optional fraction and an optional exponent. -/
structure IsNumber (text : Bytes) : Prop where
  parts : ∃ sign int frac exp, text = sign ++ (int ++ (frac ++ exp)) ∧
    (sign = [] ∨ sign = [45]) ∧
    (Digits int ∧ (int.head? = some 48 → int = [48])) ∧
    (frac = [] ∨ ∃ digits, Digits digits ∧ frac = 46 :: digits) ∧
    (exp = [] ∨ ∃ e sign digits, (e = 101 ∨ e = 69) ∧ (sign = [] ∨ sign = [43] ∨ sign = [45]) ∧
      Digits digits ∧ exp = e :: (sign ++ digits))

/-! ## Values -/

/-- Items that are separated by commas, with white space around them. -/
inductive Separated {α : Type} (Item : α → Bytes → Prop) : List α → Bytes → Prop
  | nil {blank} (isBlank : Blank blank) : Separated Item [] blank
  | last {before item text after} (blankBefore : Blank before) (isItem : Item item text)
      (blankAfter : Blank after) : Separated Item [item] (before ++ (text ++ after))
  | cons {before item text after next rest body} (blankBefore : Blank before)
      (isItem : Item item text) (blankAfter : Blank after)
      (further : Separated Item (next :: rest) body) :
      Separated Item (item :: next :: rest) (before ++ (text ++ (after ++ 44 :: body)))

/-- A name and a value. -/
inductive Member (Item : Value → Bytes → Prop) : Bytes × Value → Bytes → Prop
  | intro {name value text before after} (chars : Chars name) (blankBefore : Blank before)
      (blankAfter : Blank after) (isItem : Item value text) :
      Member Item (name, value) (quoted name ++ (before ++ 58 :: (after ++ text)))

/-- This text stands for this value. -/
inductive Text : Value → Bytes → Prop
  | string {text} (chars : Chars text) : Text (.string text) (quoted text)
  | number {text} (isNumber : IsNumber text) : Text (.number text) text
  | literal {word} (known : word ∈ [ascii "true", ascii "false", ascii "null"]) :
      Text (.literal word) word
  | array {elements body} (separated : Separated Text elements body) :
      Text (.array elements) (91 :: (body ++ [93]))
  | object {members body} (separated : Separated (Member Text) members body) :
      Text (.object members) (123 :: (body ++ [125]))

/-- A document: one value, with white space around it. -/
def Document (value : Value) (text : Bytes) : Prop :=
  ∃ before inner after, text = before ++ (inner ++ after) ∧ Blank before ∧ Text value inner ∧ Blank after

/-! ## Lemmas about tokens -/

instance decidablePlain (text : Bytes) : Decidable (Plain text) :=
  List.decidableBAll (fun c => 32 ≤ c ∧ c ≠ 34 ∧ c ≠ 92) text

theorem blank_nil : Blank [] := nofun

theorem Blank.append {a b : Bytes} (left : Blank a) (right : Blank b) : Blank (a ++ b) := by
  intro c member
  rcases List.mem_append.mp member with first | second
  · exact left c first
  · exact right c second

theorem Plain.append {a b : Bytes} (left : Plain a) (right : Plain b) : Plain (a ++ b) := by
  intro c member
  rcases List.mem_append.mp member with first | second
  · exact left c first
  · exact right c second

theorem Plain.chars {text : Bytes} (plain : Plain text) : Chars text := by
  induction text with
  | nil => exact .nil
  | cons c rest ih =>
      exact .plain (plain c List.mem_cons_self) (ih (fun d member => plain d (List.mem_cons_of_mem c member)))

theorem digits_decimal (n : Nat) : Digits (decimal n) := by
  refine ⟨?_, fun c member => isdigit_of_mem_decimal member⟩
  rw [decimal]
  split
  · simp
  · rename_i positive
    simpa [Nat.digits_eq_nil_iff_eq_zero] using positive

/-- The first digit is 0 only in 0. -/
theorem head_decimal {n : Nat} (zero : (decimal n).head? = some 48) : decimal n = [48] := by
  rw [decimal] at zero ⊢
  split at zero
  · rename_i isZero
    rw [if_pos isZero]
  · rename_i positive
    exfalso
    rw [List.head?_reverse, List.getLast?_map] at zero
    have nonempty : Nat.digits 10 n ≠ [] := Nat.digits_ne_nil_iff_ne_zero.mpr positive
    rw [List.getLast?_eq_getLast_of_ne_nil nonempty, Option.map_some, Option.some.injEq] at zero
    have less := Nat.digits_lt_base (by decide) (List.getLast_mem nonempty)
    have leading := Nat.getLast_digit_ne_zero 10 positive
    revert zero
    generalize (Nat.digits 10 n).getLast nonempty = d at less leading
    interval_cases d
    · exact absurd rfl leading
    all_goals decide

/-- The characters of a number are digits, signs, a point and an `e`. -/
theorem IsNumber.each {P : UInt8 → Prop} {text : Bytes} (isNumber : IsNumber text)
    (digit : ∀ c, isdigit c = true → P c) (sign : ∀ c ∈ ([43, 45, 46, 101, 69] : Bytes), P c) :
    (∀ c ∈ text, P c) ∧ text ≠ [] := by
  obtain ⟨sign', int, frac, exp, rfl, isSign, ⟨⟨nonempty, digits⟩, -⟩, isFrac, isExp⟩ := isNumber.parts
  have ofSign : ∀ {s : Bytes}, (s = [] ∨ s = [43] ∨ s = [45]) → ∀ c ∈ s, P c := by
    rintro s (rfl | rfl | rfl) c member
    · cases member
    · exact sign c (by rw [List.mem_singleton.mp member]; decide)
    · exact sign c (by rw [List.mem_singleton.mp member]; decide)
  refine ⟨?_, by simp [nonempty]⟩
  intro c member
  rcases List.mem_append.mp member with inSign | member
  · exact ofSign (isSign.imp id Or.inr) c inSign
  rcases List.mem_append.mp member with inInt | member
  · exact digit c (digits c inInt)
  rcases List.mem_append.mp member with inFrac | inExp
  · rcases isFrac with rfl | ⟨fraction, ⟨-, digits⟩, rfl⟩
    · cases inFrac
    · rcases List.mem_cons.mp inFrac with rfl | later
      · exact sign _ (by decide)
      · exact digit c (digits c later)
  · rcases isExp with rfl | ⟨e, sign', exponent, isE, isSign, ⟨-, digits⟩, rfl⟩
    · cases inExp
    · rcases List.mem_cons.mp inExp with rfl | later
      · rcases isE with rfl | rfl <;> exact sign _ (by decide)
      · rcases List.mem_append.mp later with inSign | inDigits
        · exact ofSign isSign c inSign
        · exact digit c (digits c inDigits)

theorem isNumber_decimal (n : Nat) : IsNumber (decimal n) :=
  ⟨[], decimal n, [], [], by simp, Or.inl rfl, ⟨digits_decimal n, head_decimal⟩, Or.inl rfl, Or.inl rfl⟩

theorem isNumber_decimalInt (n : Int) : IsNumber (decimalInt n) := by
  cases n with
  | ofNat n => exact isNumber_decimal n
  | negSucc n =>
      exact ⟨[45], decimal (n + 1), [], [], by simp [decimalInt], Or.inr rfl,
        ⟨digits_decimal _, head_decimal⟩, Or.inl rfl, Or.inl rfl⟩

theorem plain_decimal (n : Nat) : Plain (decimal n) := by
  intro c member
  have digit := (digits_decimal n).2 c member
  simp only [isdigit, Bool.and_eq_true, decide_eq_true_eq] at digit
  have low : (32 : UInt8) ≤ 48 := by decide
  refine ⟨UInt8.le_trans low digit.1, ?_, ?_⟩
  · rintro rfl
    exact absurd digit.1 (by decide)
  · rintro rfl
    exact absurd digit.2 (by decide)

/-! ## Lemmas about items -/

section Items

variable {α : Type} {Item : α → Bytes → Prop}

/-- One more item at the end. -/
theorem Separated.snoc {items : List α} {body before text after : Bytes} {item : α}
    (separated : Separated Item items body) (nonempty : items ≠ []) (blankBefore : Blank before)
    (isItem : Item item text) (blankAfter : Blank after) :
    Separated Item (items ++ [item]) (body ++ 44 :: (before ++ (text ++ after))) := by
  induction separated with
  | nil _ => exact absurd rfl nonempty
  | @last before' item' text' after' blankBefore' isItem' blankAfter' =>
      have whole := Separated.cons blankBefore' isItem' blankAfter'
        (Separated.last blankBefore isItem blankAfter)
      simpa using whole
  | @cons before' item' text' after' next rest body blankBefore' isItem' blankAfter' further ih =>
      have whole := Separated.cons blankBefore' isItem' blankAfter' (ih (List.cons_ne_nil _ _))
      simpa using whole

/-- Items with a comma before each but the first. -/
theorem separated_of_commas {first : α × Bytes} {rest : List (α × Bytes)}
    (each : ∀ item ∈ first :: rest, Item item.1 item.2) :
    Separated Item ((first :: rest).map (·.1)) (first.2 ++ rest.flatMap (fun item => 44 :: item.2)) := by
  induction rest generalizing first with
  | nil => exact .last blank_nil (each first List.mem_cons_self) blank_nil
  | cons next rest ih =>
      have further := ih (fun item member => each item (List.mem_cons_of_mem first member))
      exact .cons blank_nil (each first List.mem_cons_self) blank_nil further

end Items

end Pcm.Json

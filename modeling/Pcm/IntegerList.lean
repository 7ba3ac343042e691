import Pcm.Lib.Digits

/-!
# Lists of integers on the command line

`extract_integer_list` (`utils.cpp:1017-1052`) reads texts such as `0,2-5`. The end of the text counts as a
comma, unless there is one before it.
-/

namespace Pcm.IntegerList

open StdString

/-! ## The scanner -/

/-- The largest `int`. -/
def intMax : Int := 2 ^ 31 - 1

/-- `atoi`; none where the number is no `int`. -/
def atoi (text : Bytes) : Option Int :=
  let (negative, unsigned) := splitSign (text.dropWhile isspace)
  let value : Int := digitsToNat 10 (digitRun 10 unsigned)
  let value := if negative then -value else value
  if -intMax - 1 ≤ value ∧ value ≤ intMax then some value else none

/-- The loop over the numbers of a range; none where `ix++` overflows. -/
def pushRange (num2 ix : Int) (corelist : List Int) : Option (List Int) :=
  if num2 < ix then some corelist
  else if ix = intMax then none
  else pushRange num2 (ix + 1) (corelist ++ [ix])
termination_by (num2 + 1 - ix).toNat
decreasing_by omega

structure Scan where
  corelist : List Int
  snum1 : Bytes := []
  snum2 : Bytes := []
  /-- `pnow == &snum2` -/
  second : Bool := false

/-- What is done at a comma. -/
def finishItem (s : Scan) : Option (List Int) :=
  if s.snum1 ≠ [] ∧ s.snum2 ≠ [] then do
    let num1 ← atoi s.snum1
    let num2 ← atoi s.snum2
    pushRange (max num1 num2) (max 0 (min num1 num2)) s.corelist
  else if s.snum1 ≠ [] then do
    let num1 ← atoi s.snum1
    some (s.corelist ++ [num1])
  else some s.corelist

/-- One turn of the loop, for the character it has got. -/
def turn (s : Scan) (nchar : UInt8) : Option Scan :=
  if nchar = 45 ∧ s.second = false ∧ s.snum1 ≠ [] then some { s with second := true }
  else if nchar = 44 then (finishItem s).map fun corelist => { corelist := corelist }
  else if nchar = 32 then some s
  else if s.second then some { s with snum2 := s.snum2 ++ [nchar] }
  else some { s with snum1 := s.snum1 ++ [nchar] }

/-- The loop, for the text that is left and the last character. -/
def scan : Bytes → UInt8 → Scan → Option Scan
  | [], nchar, s => if nchar = 44 then some s else turn s 44
  | c :: rest, _, s => do
      let s ← turn s c
      scan rest c s

def extract_integer_list (optarg : Bytes) : Option (List Int) :=
  (scan optarg 44 { corelist := [] }).map Scan.corelist

/-! ## Lists of numbers and ranges -/

/-- A decimal number that is an `int`. -/
structure Numeral where
  digits : Bytes
  some : digits ≠ []
  all : ∀ c ∈ digits, isdigit c = true
  small : digitsToNat 10 digits < 2 ^ 31

def Numeral.value (n : Numeral) : Nat := digitsToNat 10 n.digits

inductive Item
  | single (n : Numeral)
  | range (n m : Numeral)

namespace Item

def text : Item → Bytes
  | single n => n.digits
  | range n m => n.digits ++ 45 :: m.digits

/-- The numbers that an item stands for. -/
def values : Item → List Int
  | single n => [(n.value : Int)]
  | range n m =>
      (List.range' (min n.value m.value) (max n.value m.value + 1 - min n.value m.value)).map Int.ofNat

/-- No range comes to the largest `int`. -/
def Ends : Item → Prop
  | single _ => True
  | range n m => (max n.value m.value : Int) < intMax

end Item

/-- The items with commas between them. -/
def listText (items : List Item) : Bytes := List.intercalate [44] (items.map Item.text)

/-! ## What is read -/

theorem pushRange_of_lt {num2 : Nat} (small : (num2 : Int) < intMax) (lo : Nat) (ordered : lo ≤ num2 + 1)
    (corelist : List Int) : pushRange num2 lo corelist =
      some (corelist ++ (List.range' lo (num2 + 1 - lo)).map Int.ofNat) := by
  induction left : num2 + 1 - lo generalizing lo corelist with
  | zero =>
      rw [pushRange, if_pos (by omega)]
      simp
  | succ k ih =>
      rw [pushRange, if_neg (by omega), if_neg (by omega)]
      have next := ih (lo + 1) (by omega) (corelist ++ [(lo : Int)]) (by omega)
      rw [Nat.cast_add, Nat.cast_one] at next
      rw [next, List.range'_succ, List.map_cons, List.append_assoc]
      rfl

theorem pushRange_intMax (lo : Nat) (ordered : (lo : Int) ≤ intMax) (corelist : List Int) :
    pushRange intMax lo corelist = none := by
  induction left : (intMax - lo).toNat generalizing lo corelist with
  | zero =>
      rw [pushRange, if_neg (by omega), if_pos (by omega)]
  | succ k ih =>
      rw [pushRange, if_neg (by omega), if_neg (by omega)]
      have next := ih (lo + 1) (by rw [Nat.cast_add, Nat.cast_one]; omega) (corelist ++ [(lo : Int)])
        (by rw [Nat.cast_add, Nat.cast_one]; omega)
      rw [Nat.cast_add, Nat.cast_one] at next
      exact next

theorem atoi_digits (n : Numeral) : atoi n.digits = some (n.value : Int) := by
  have small := n.small
  simp only [atoi, dropWhile_isspace_digits n.all, splitSign_digits n.all,
    digitRun_digits (Nat.le_refl 10) n.all]
  have bounds : -intMax - 1 ≤ (n.value : Int) ∧ (n.value : Int) ≤ intMax := by
    unfold Numeral.value intMax
    omega
  exact if_pos bounds

theorem not_separator {c : UInt8} (digit : isdigit c = true) : c ≠ 45 ∧ c ≠ 44 ∧ c ≠ 32 := by
  refine ⟨?_, ?_, ?_⟩
  all_goals
    rintro rfl
    exact absurd digit (by decide)

theorem foldlM_first {digits : Bytes} (all : ∀ c ∈ digits, isdigit c = true) (corelist : List Int)
    (snum1 : Bytes) : digits.foldlM turn { corelist := corelist, snum1 := snum1 } =
      some { corelist := corelist, snum1 := snum1 ++ digits } := by
  induction digits generalizing snum1 with
  | nil => rw [List.append_nil]; rfl
  | cons c rest ih =>
      obtain ⟨digit, later⟩ := List.forall_mem_cons.mp all
      obtain ⟨noMinus, noComma, noSpace⟩ := not_separator digit
      rw [List.foldlM_cons, turn, if_neg (fun h => noMinus h.1), if_neg noComma, if_neg noSpace]
      refine (ih later (snum1 ++ [c])).trans ?_
      rw [List.append_assoc]
      rfl

theorem foldlM_second {digits : Bytes} (all : ∀ c ∈ digits, isdigit c = true) (corelist : List Int)
    (snum1 snum2 : Bytes) :
    digits.foldlM turn { corelist := corelist, snum1 := snum1, snum2 := snum2, second := true } =
      some { corelist := corelist, snum1 := snum1, snum2 := snum2 ++ digits, second := true } := by
  induction digits generalizing snum2 with
  | nil => rw [List.append_nil]; rfl
  | cons c rest ih =>
      obtain ⟨digit, later⟩ := List.forall_mem_cons.mp all
      obtain ⟨noMinus, noComma, noSpace⟩ := not_separator digit
      rw [List.foldlM_cons, turn, if_neg (fun h => noMinus h.1), if_neg noComma, if_neg noSpace]
      refine (ih later (snum2 ++ [c])).trans ?_
      rw [List.append_assoc]
      rfl

/-- The loop, character by character, and once more unless the text ends with a comma. -/
theorem scan_eq (text : Bytes) (nchar : UInt8) (s : Scan) : scan text nchar s =
    (text.foldlM turn s).bind fun s => if text.getLastD nchar = 44 then some s else turn s 44 := by
  induction text generalizing nchar s with
  | nil => rfl
  | cons c rest ih =>
      rw [scan, List.foldlM_cons, List.getLastD_cons]
      cases turn s c with
      | none => rfl
      | some s => exact ih c s

section Items

variable {item : Item} (corelist : List Int)

theorem foldlM_text (n m : Numeral) : (Item.range n m).text.foldlM turn { corelist := corelist } =
    some { corelist := corelist, snum1 := n.digits, snum2 := m.digits, second := true } := by
  rw [Item.text, List.foldlM_append, foldlM_first n.all]
  show (List.foldlM turn { corelist := corelist, snum1 := n.digits } (45 :: m.digits)) = _
  rw [List.foldlM_cons, turn, if_pos ⟨rfl, rfl, n.some⟩]
  exact foldlM_second m.all corelist n.digits []

theorem finishItem_range (n m : Numeral) :
    finishItem { corelist := corelist, snum1 := n.digits, snum2 := m.digits, second := true } =
      pushRange (max n.value m.value : Nat) (min n.value m.value : Nat) corelist := by
  rw [finishItem, if_pos ⟨n.some, m.some⟩, atoi_digits, atoi_digits]
  show pushRange (max (n.value : Int) m.value) (max 0 (min (n.value : Int) m.value)) corelist = _
  have nonneg : (0 : Int) ≤ min (n.value : Int) m.value := by omega
  rw [max_eq_right nonneg, Nat.cast_max, Nat.cast_min]

theorem foldlM_single (n : Numeral) : ((Item.single n).text ++ [44]).foldlM turn { corelist := corelist } =
    some { corelist := corelist ++ (Item.single n).values } := by
  rw [List.foldlM_append, Item.text, foldlM_first n.all]
  show turn { corelist := corelist, snum1 := n.digits } 44 >>= pure = _
  rw [turn, if_neg (fun minus => absurd minus.1 (by decide)), if_pos rfl, finishItem, if_neg (by simp),
    if_pos n.some, atoi_digits]
  rfl

theorem foldlM_range (n m : Numeral) : ((Item.range n m).text ++ [44]).foldlM turn { corelist := corelist } =
    (pushRange (max n.value m.value : Nat) (min n.value m.value : Nat) corelist).map
      fun corelist => { corelist := corelist } := by
  rw [List.foldlM_append, foldlM_text]
  show turn { corelist := corelist, snum1 := n.digits, snum2 := m.digits, second := true } 44 >>= pure = _
  rw [turn, if_neg (by simp), if_pos rfl, finishItem_range]
  exact bind_pure _

theorem foldlM_of_ends (ends : item.Ends) : (item.text ++ [44]).foldlM turn { corelist := corelist } =
    some { corelist := corelist ++ item.values } := by
  cases item with
  | single n => exact foldlM_single corelist n
  | range n m =>
      have small : ((max n.value m.value : Nat) : Int) < intMax := by
        rw [Nat.cast_max]
        exact ends
      rw [foldlM_range, pushRange_of_lt small _ (by omega)]
      rfl

theorem foldlM_of_not_ends (endless : ¬ item.Ends) :
    (item.text ++ [44]).foldlM turn { corelist := corelist } = none := by
  cases item with
  | single n => exact absurd trivial endless
  | range n m =>
      have largest : ((max n.value m.value : Nat) : Int) = intMax := by
        have first := n.small
        have second := m.small
        unfold Item.Ends intMax at endless
        unfold Numeral.value at endless ⊢
        unfold intMax
        omega
      have ordered : ((min n.value m.value : Nat) : Int) ≤ intMax := by omega
      rw [foldlM_range, largest, pushRange_intMax _ ordered]
      rfl

theorem foldlM_items {items : List Item} (ends : ∀ item ∈ items, item.Ends) :
    (items.flatMap fun item => item.text ++ [44]).foldlM turn { corelist := corelist } =
      some { corelist := corelist ++ items.flatMap Item.values } := by
  induction items generalizing corelist with
  | nil => simp
  | cons item rest ih =>
      obtain ⟨head, tail⟩ := List.forall_mem_cons.mp ends
      rw [List.flatMap_cons, List.foldlM_append, foldlM_of_ends corelist head, List.flatMap_cons,
        ← List.append_assoc]
      exact ih (corelist ++ item.values) tail

theorem foldlM_items_endless {items : List Item} (endless : ∃ item ∈ items, ¬ item.Ends) :
    (items.flatMap fun item => item.text ++ [44]).foldlM turn { corelist := corelist } = none := by
  induction items generalizing corelist with
  | nil =>
      obtain ⟨item, mem, _⟩ := endless
      cases mem
  | cons item rest ih =>
      rw [List.flatMap_cons, List.foldlM_append]
      by_cases ends : item.Ends
      · rw [foldlM_of_ends corelist ends]
        obtain ⟨other, mem, notEnds⟩ := endless
        rcases List.mem_cons.mp mem with rfl | later
        · exact absurd ends notEnds
        · exact ih (corelist ++ item.values) ⟨other, later, notEnds⟩
      · rw [foldlM_of_not_ends corelist ends]
        rfl

end Items

theorem Item.exists_last (item : Item) : ∃ front c, item.text = front ++ [c] ∧ isdigit c = true := by
  have last : ∀ n : Numeral, ∃ front c, n.digits = front ++ [c] ∧ isdigit c = true := by
    intro n
    refine ⟨n.digits.dropLast, n.digits.getLast n.some, (List.dropLast_append_getLast n.some).symm, ?_⟩
    exact n.all _ (List.getLast_mem n.some)
  cases item with
  | single n => exact last n
  | range n m =>
      obtain ⟨front, c, same, digit⟩ := last m
      refine ⟨n.digits ++ 45 :: front, c, ?_, digit⟩
      rw [Item.text, same, List.append_assoc]
      rfl

/-- A text of items ends with a digit, and with a comma behind it every item has one. -/
theorem listText_spec {items : List Item} (some : items ≠ []) :
    (∃ front c, listText items = front ++ [c] ∧ isdigit c = true) ∧
      listText items ++ [44] = items.flatMap fun item => item.text ++ [44] := by
  induction items with
  | nil => exact absurd rfl some
  | cons item rest ih =>
      cases rest with
      | nil =>
          have alone : listText [item] = item.text := by simp [listText, List.intercalate]
          rw [alone]
          exact ⟨item.exists_last, by simp⟩
      | cons next rest =>
          have step : listText (item :: next :: rest) = item.text ++ [44] ++ listText (next :: rest) := by
            simp [listText, List.intercalate]
          obtain ⟨⟨front, c, same, digit⟩, whole⟩ := ih (List.cons_ne_nil _ _)
          constructor
          · refine ⟨item.text ++ [44] ++ front, c, ?_, digit⟩
            rw [step, same, ← List.append_assoc]
          · rw [step, List.append_assoc, whole]
            rfl

theorem extract_eq {items : List Item} (some : items ≠ []) : extract_integer_list (listText items) =
    ((items.flatMap fun item => item.text ++ [44]).foldlM turn { corelist := [] }).map Scan.corelist := by
  obtain ⟨⟨front, c, same, digit⟩, whole⟩ := listText_spec some
  have noComma : (listText items).getLastD 44 ≠ 44 := by
    rw [same, List.getLastD_concat]
    exact (not_separator digit).2.1
  rw [extract_integer_list, scan_eq, ← whole, List.foldlM_append]
  simp only [noComma, if_false]
  cases (listText items).foldlM turn { corelist := [] } with
  | none => rfl
  | some s => exact congrArg (Option.map Scan.corelist) (bind_pure (turn s 44)).symm

/-- A list of numbers and ranges is read as it says exactly when no range comes to the largest `int`: behind
that `ix++` overflows. -/
theorem extract_iff (items : List Item) :
    extract_integer_list (listText items) = some (items.flatMap Item.values) ↔ ∀ item ∈ items, item.Ends := by
  by_cases empty : items = []
  · subst empty
    exact ⟨fun _ item mem => absurd mem List.not_mem_nil, fun _ => rfl⟩
  · rw [extract_eq empty]
    constructor
    · intro read
      by_contra endless
      push Not at endless
      rw [foldlM_items_endless [] endless] at read
      cases read
    · intro ends
      rw [foldlM_items [] ends]
      rfl

/-- The largest `int`. -/
def largest : Numeral where
  digits := ascii "2147483647"
  some := by decide
  all := forall_mem_of_all (by decide)
  small := by decide

theorem extract_largest : listText [.range largest largest] = ascii "2147483647-2147483647" ∧
    extract_integer_list (listText [.range largest largest]) ≠
      some ([.range largest largest].flatMap Item.values) := by
  refine ⟨by decide, ?_⟩
  have endless : ¬ (Item.range largest largest).Ends := by
    unfold Item.Ends
    decide
  rw [extract_eq (List.cons_ne_nil _ _), foldlM_items_endless [] ⟨_, List.mem_singleton_self _, endless⟩]
  intro same
  cases same

end Pcm.IntegerList

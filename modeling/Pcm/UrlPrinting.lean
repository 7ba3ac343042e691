import Mathlib.Data.List.Infix
import Pcm.Lib.Throwing
import Pcm.UrlBoundaries
import Pcm.UrlEncoding

/-!
# Printing a URL

`URL::printURL` (`pcm-sensor-server.cpp:2244-2294`), and what `URL::parse` finds in the part of the text that
comes after the authority.
-/

namespace Pcm.Http.URL

open StdString
open Throwing (bind_eq_ok of_map_ok)

def printArgument (argument : Bytes × Bytes) : Bytes :=
  percentEncode argument.1 ++ 61 :: percentEncode argument.2

/-- The arguments; a URL with a query has at least one. -/
def printArguments : List (Bytes × Bytes) → Bytes
  | [] => []
  | [argument] => printArgument argument
  | argument :: arguments => printArgument argument ++ 38 :: printArguments arguments

def printAuthority (u : URL) : Bytes :=
  (if u.hasUser then percentEncode u.user else []) ++
    (if u.hasPasswd then 58 :: percentEncode u.passwd else []) ++ (if u.hasUser then [64] else []) ++ u.host ++
    (if u.hasPort then 58 :: decimal u.port else [])

def printPath (u : URL) : Bytes := if u.path = [] then [47] else u.path

def printQuery (u : URL) : Bytes := if u.hasQuery then 63 :: printArguments u.arguments else []

def printFragment (u : URL) : Bytes := if u.hasFragment then 35 :: u.fragment else []

/-- What follows the authority. -/
def printTail (u : URL) : Bytes := printPath u ++ printQuery u ++ printFragment u

/-- `printURL`, without the end of the line. -/
def printURL (u : URL) : Bytes :=
  (if u.hasScheme then u.scheme ++ [58] else []) ++
    (if u.hasHost then 47 :: 47 :: printAuthority u else []) ++ printTail u

/-! ## Encoded texts -/

section Encoded

variable {s : Bytes} {c : UInt8}

theorem isUnreserved_hexDigit : ∀ n < 16, isUnreserved (hexDigit n) = true := by decide

/-- The characters of an encoded text. -/
theorem mem_percentEncode (member : c ∈ percentEncode s) : isUnreserved c = true ∨ c = 37 ∨ c = 32 := by
  obtain ⟨d, -, inside⟩ := List.mem_flatMap.mp member
  by_cases unreserved : isUnreserved d = true
  · rw [percentEncodeChar, if_pos unreserved, List.mem_singleton] at inside
    exact Or.inl (inside ▸ unreserved)
  · have bound : d.toNat < 256 := d.toNat_lt
    by_cases low : d < 16
    · have small : d.toNat < 16 := UInt8.lt_iff_toNat_lt.mp low
      rw [percentEncodeChar_of_lt low] at inside
      simp only [List.mem_cons, List.not_mem_nil, or_false] at inside
      rcases inside with rfl | rfl | rfl
      · exact Or.inr (Or.inl rfl)
      · exact Or.inr (Or.inr rfl)
      · exact Or.inl (isUnreserved_hexDigit _ small)
    · rw [percentEncodeChar_of_le (Bool.eq_false_iff.mpr unreserved) (UInt8.not_lt.mp low)] at inside
      simp only [List.mem_cons, List.not_mem_nil, or_false] at inside
      rcases inside with rfl | rfl | rfl
      · exact Or.inr (Or.inl rfl)
      · exact Or.inl (isUnreserved_hexDigit _ (by omega))
      · exact Or.inl (isUnreserved_hexDigit _ (by omega))

/-- Delimiters are not among them. -/
theorem not_mem_percentEncode (reserved : isUnreserved c = false) (percent : c ≠ 37) (blank : c ≠ 32) :
    c ∉ percentEncode s := by
  intro member
  rcases mem_percentEncode member with unreserved | same | same
  · rw [reserved] at unreserved
    cases unreserved
  · exact percent same
  · exact blank same

theorem percentEncode_ne_nil (some : s ≠ []) : percentEncode s ≠ [] := by
  cases s with
  | nil => exact absurd rfl some
  | cons c s =>
      rw [percentEncode, List.flatMap_cons]
      refine List.append_ne_nil_of_left_ne_nil ?_ _
      rw [percentEncodeChar]
      split
      · exact List.cons_ne_nil _ _
      · exact List.cons_ne_nil _ _

theorem not_mem_printArgument {argument : Bytes × Bytes} (reserved : isUnreserved c = false) (percent : c ≠ 37)
    (blank : c ≠ 32) (equals : c ≠ 61) : c ∉ printArgument argument := by
  rw [printArgument, List.mem_append, List.mem_cons]
  rintro (first | same | second)
  · exact not_mem_percentEncode reserved percent blank first
  · exact equals same
  · exact not_mem_percentEncode reserved percent blank second

theorem printArguments_cons {argument next : Bytes × Bytes} (arguments : List (Bytes × Bytes)) :
    printArguments (argument :: next :: arguments) =
      printArgument argument ++ 38 :: printArguments (next :: arguments) := rfl

theorem not_mem_printArguments {arguments : List (Bytes × Bytes)} (reserved : isUnreserved c = false)
    (percent : c ≠ 37) (blank : c ≠ 32) (equals : c ≠ 61) (amp : c ≠ 38) : c ∉ printArguments arguments := by
  induction arguments with
  | nil => exact List.not_mem_nil
  | cons argument arguments ih =>
      cases arguments with
      | nil => exact not_mem_printArgument reserved percent blank equals
      | cons next arguments =>
          rw [printArguments_cons, List.mem_append, List.mem_cons]
          rintro (first | same | later)
          · exact not_mem_printArgument reserved percent blank equals first
          · exact amp same
          · exact ih later

end Encoded

/-! ## Arguments -/

/-- No byte below 16. -/
def High (text : Bytes) : Prop := ∀ c ∈ text, 16 ≤ c

section Arguments

variable {arguments : List (Bytes × Bytes)}

theorem parseArgument_print {argument : Bytes × Bytes} (fits : (printArgument argument).length < 2 ^ 63) :
    parseArgument (printArgument argument) = (do
      let one ← percentDecode (percentEncode argument.1)
      let two ← percentDecode (percentEncode argument.2)
      return (one, two)) :=
  parseArgument_pair fits (not_mem_percentEncode (by decide) (by decide) (by decide))

theorem parseArgument_print_ok {argument : Bytes × Bytes} (fits : (printArgument argument).length < 2 ^ 63)
    (high : High argument.1 ∧ High argument.2) : parseArgument (printArgument argument) = .ok argument := by
  rw [parseArgument_print fits, percentDecode_encode high.1, percentDecode_encode high.2]
  rfl

theorem percentDecode_encode_error {s : Bytes} (low : ¬ High s) : ∃ e, percentDecode (percentEncode s) = .error e := by
  rw [High] at low
  push Not at low
  obtain ⟨c, member, small⟩ := low
  exact percentDecode_encode_low member (UInt8.not_le.mp small)

theorem parseArgument_print_error {argument : Bytes × Bytes} (fits : (printArgument argument).length < 2 ^ 63)
    (low : ¬ (High argument.1 ∧ High argument.2)) : ∃ e, parseArgument (printArgument argument) = .error e := by
  rw [parseArgument_print fits]
  by_cases first : High argument.1
  · obtain ⟨e, failed⟩ := percentDecode_encode_error (fun second => low ⟨first, second⟩)
    rw [percentDecode_encode first, failed]
    exact ⟨e, rfl⟩
  · obtain ⟨e, failed⟩ := percentDecode_encode_error first
    rw [failed]
    exact ⟨e, rfl⟩

theorem printArgument_ne_nil (argument : Bytes × Bytes) : printArgument argument ≠ [] :=
  List.append_ne_nil_of_right_ne_nil _ (List.cons_ne_nil _ _)

theorem printArguments_ne_nil (some : arguments ≠ []) : printArguments arguments ≠ [] := by
  cases arguments with
  | nil => exact absurd rfl some
  | cons argument arguments =>
      cases arguments with
      | nil => exact printArgument_ne_nil argument
      | cons next arguments => exact List.append_ne_nil_of_left_ne_nil (printArgument_ne_nil argument) _

/-- All texts of the arguments are without bytes below 16. -/
def HighArguments (arguments : List (Bytes × Bytes)) : Prop :=
  ∀ argument ∈ arguments, High argument.1 ∧ High argument.2

theorem parseArguments_print_last {argument : Bytes × Bytes} (fits : (printArgument argument).length < 2 ^ 63) :
    parseArguments (printArguments [argument]) = (parseArgument (printArgument argument)).map ([·]) :=
  parseArguments_last fits (printArgument_ne_nil argument)
    (not_mem_printArgument (by decide) (by decide) (by decide) (by decide))

theorem parseArguments_print_cons {argument next : Bytes × Bytes}
    (fits : (printArguments (argument :: next :: arguments)).length < 2 ^ 63) :
    parseArguments (printArguments (argument :: next :: arguments)) = (do
      let argument ← parseArgument (printArgument argument)
      let arguments ← parseArguments (printArguments (next :: arguments))
      return argument :: arguments) :=
  parseArguments_amp fits (not_mem_printArgument (by decide) (by decide) (by decide) (by decide))

theorem length_printArguments_cons (argument next : Bytes × Bytes) :
    (printArguments (argument :: next :: arguments)).length =
      (printArgument argument).length + ((printArguments (next :: arguments)).length + 1) := by
  rw [printArguments_cons, List.length_append, List.length_cons]

theorem parseArguments_print (some : arguments ≠ []) (fits : (printArguments arguments).length < 2 ^ 63) :
    (HighArguments arguments → parseArguments (printArguments arguments) = .ok arguments) ∧
      (¬ HighArguments arguments → ∃ e, parseArguments (printArguments arguments) = .error e) := by
  induction arguments with
  | nil => exact absurd rfl some
  | cons argument arguments ih =>
      cases arguments with
      | nil =>
          rw [parseArguments_print_last fits]
          constructor
          · intro high
            rw [parseArgument_print_ok fits (high argument List.mem_cons_self)]
            rfl
          · intro low
            have lowArgument : ¬ (High argument.1 ∧ High argument.2) :=
              fun high => low (List.forall_mem_singleton.mpr high)
            obtain ⟨e, failed⟩ := parseArgument_print_error fits lowArgument
            rw [failed]
            exact ⟨e, rfl⟩
      | cons next arguments =>
          rw [parseArguments_print_cons fits]
          rw [length_printArguments_cons] at fits
          obtain ⟨ok, error⟩ := ih (List.cons_ne_nil next arguments) (by omega)
          by_cases first : High argument.1 ∧ High argument.2
          · rw [parseArgument_print_ok (by omega) first]
            constructor
            · intro high
              rw [ok (fun other member => high other (List.mem_cons_of_mem argument member))]
              rfl
            · intro low
              obtain ⟨e, failed⟩ := error (fun later => low (List.forall_mem_cons.mpr ⟨first, later⟩))
              rw [failed]
              exact ⟨e, rfl⟩
          · obtain ⟨e, failed⟩ := parseArgument_print_error (by omega) first
            rw [failed]
            exact ⟨fun high => absurd (high argument List.mem_cons_self) first, fun _ => ⟨e, rfl⟩⟩

/-- The arguments come back exactly when all their texts do. -/
theorem parseArguments_print_iff (some : arguments ≠ []) (fits : (printArguments arguments).length < 2 ^ 63) :
    parseArguments (printArguments arguments) = .ok arguments ↔ HighArguments arguments := by
  obtain ⟨ok, error⟩ := parseArguments_print some fits
  constructor
  · intro back
    by_contra low
    obtain ⟨e, failed⟩ := error low
    rw [failed] at back
    cases back
  · exact ok

end Arguments

/-! ## Decoded texts -/

/-- A text without bytes below 16, plain or escaped. -/
structure Clear (text : Bytes) : Prop where
  plain : High text
  escapes : ¬ [37, 48] <:+: text

section Clear

variable {text decoded : Bytes}

theorem clear_nil : Clear [] := ⟨nofun, fun inside => absurd (List.infix_nil.mp inside) (List.cons_ne_nil _ _)⟩

theorem clear_cons {c : UInt8} : Clear (c :: text) ↔ 16 ≤ c ∧ ¬ (c = 37 ∧ text.head? = some 48) ∧ Clear text := by
  have inside : [37, 48] <:+: c :: text ↔ (c = 37 ∧ text.head? = some 48) ∨ [37, 48] <:+: text := by
    rw [List.infix_cons_iff, List.cons_prefix_cons]
    refine or_congr_left (and_congr eq_comm ?_)
    cases text with
    | nil => simp
    | cons d text =>
        rw [List.cons_prefix_cons, List.head?_cons, Option.some.injEq]
        exact ⟨fun both => both.1.symm, fun same => ⟨same.symm, List.nil_prefix⟩⟩
  constructor
  · rintro ⟨plain, escapes⟩
    rw [inside, not_or] at escapes
    obtain ⟨first, later⟩ := List.forall_mem_cons.mp plain
    exact ⟨first, escapes.1, later, escapes.2⟩
  · rintro ⟨first, notHere, later⟩
    refine ⟨List.forall_mem_cons.mpr ⟨first, later.plain⟩, ?_⟩
    rw [inside, not_or]
    exact ⟨notHere, later.escapes⟩

/-- A hexadecimal digit, and when it is zero. -/
theorem charToNumber_ok {c : UInt8} {n : Nat} (read : charToNumber c = .ok n) :
    48 ≤ c.toNat ∧ n < 16 ∧ (n = 0 ↔ c = 48) := by
  have zero : c = 48 ↔ c.toNat = 48 := UInt8.toNat_inj.symm
  rw [charToNumber] at read
  simp only [Bool.and_eq_true, decide_eq_true_eq, UInt8.le_iff_toNat_le, UInt8.reduceToNat] at read
  rw [zero]
  split at read
  · have value := Except.ok.inj read
    omega
  split at read
  · have value := Except.ok.inj read
    omega
  split at read
  · have value := Except.ok.inj read
    omega
  · cases read

theorem clear_cons_digit {c : UInt8} {n : Nat} (read : charToNumber c = .ok n) : Clear (c :: text) ↔ Clear text := by
  have large := (charToNumber_ok read).1
  have high : 16 ≤ c := UInt8.le_iff_toNat_le.mpr (by simp only [UInt8.reduceToNat]; omega)
  have other : c ≠ 37 := by
    rintro rfl
    exact absurd large (by decide)
  rw [clear_cons]
  exact ⟨fun both => both.2.2, fun later => ⟨high, fun both => other both.1, later⟩⟩

theorem clear_escape {c d : UInt8} {n m : Nat} (first : charToNumber c = .ok n) (second : charToNumber d = .ok m) :
    Clear (37 :: c :: d :: text) ↔ n ≠ 0 ∧ Clear text := by
  rw [clear_cons, clear_cons_digit first, clear_cons_digit second, List.head?_cons, Option.some.injEq,
    ← (charToNumber_ok first).2.2]
  exact ⟨fun all => ⟨fun zero => all.2.1 ⟨rfl, zero⟩, all.2.2⟩,
    fun both => ⟨by decide, fun zero => both.1 zero.2, both.2⟩⟩

theorem high_escape {n m : Nat} (first : n < 16) (second : m < 16) :
    16 ≤ UInt8.ofNat (n * 16 + m) ↔ n ≠ 0 := by
  rw [UInt8.le_iff_toNat_le, UInt8.toNat_ofNat', Nat.mod_eq_of_lt (by omega)]
  simp only [UInt8.reduceToNat]
  omega

theorem percentDecode_single (high : UInt8) : ∃ e, percentDecode [37, high] = .error e := by
  rw [percentDecode]
  cases charToNumber high with
  | error e => exact ⟨e, rfl⟩
  | ok n => exact ⟨_, rfl⟩

/-- An escape that has been decoded. -/
theorem escape_of_percentDecode {high low : UInt8} {rest : Bytes}
    (read : percentDecode (37 :: high :: low :: rest) = .ok decoded) :
    ∃ n m tail, charToNumber high = .ok n ∧ charToNumber low = .ok m ∧ percentDecode rest = .ok tail ∧
      decoded = UInt8.ofNat (n * 16 + m) :: tail := by
  rw [percentDecode] at read
  obtain ⟨n, first, read⟩ := bind_eq_ok read
  obtain ⟨m, second, read⟩ := bind_eq_ok read
  obtain ⟨tail, later, read⟩ := bind_eq_ok read
  exact ⟨n, m, tail, first, second, later, (Except.ok.inj read).symm⟩

/-- What has been decoded is without bytes below 16 if the text is clear of them. -/
theorem clear_iff_high (read : percentDecode text = .ok decoded) : Clear text ↔ High decoded := by
  induction text using percentDecode.induct generalizing decoded with
  | case1 =>
      obtain rfl := Except.ok.inj read
      exact iff_of_true clear_nil nofun
  | case2 => cases read
  | case3 high =>
      obtain ⟨e, failed⟩ := percentDecode_single high
      rw [failed] at read
      cases read
  | case4 high low rest ih =>
      obtain ⟨n, m, tail, first, second, later, rfl⟩ := escape_of_percentDecode read
      rw [clear_escape first second, ih later, High, High, List.forall_mem_cons,
        high_escape (charToNumber_ok first).2.1 (charToNumber_ok second).2.1]
  | case5 c rest noEnd noOne noTwo ih =>
      have other : c ≠ 37 := by
        rintro rfl
        rcases rest with _ | ⟨high, _ | ⟨low, rest⟩⟩
        · exact noEnd rfl rfl
        · exact noOne high rfl rfl
        · exact noTwo high low rest rfl rfl
      rw [percentDecode_cons other] at read
      obtain ⟨tail, later, rfl⟩ := of_map_ok read
      rw [clear_cons, ih later, High, High, List.forall_mem_cons]
      exact ⟨fun all => ⟨all.1, all.2.2⟩, fun both => ⟨both.1, fun here => other here.1, both.2⟩⟩

/-- The parts around a delimiter are clear on their own. -/
theorem clear_append {a b : Bytes} {c : UInt8} (high : 16 ≤ c) (percent : c ≠ 37) (zero : c ≠ 48) :
    Clear (a ++ c :: b) ↔ Clear a ∧ Clear b := by
  induction a with
  | nil =>
      rw [List.nil_append, clear_cons]
      exact ⟨fun all => ⟨clear_nil, all.2.2⟩, fun both => ⟨high, fun here => percent here.1, both.2⟩⟩
  | cons d a ih =>
      have head : (a ++ c :: b).head? = some 48 ↔ a.head? = some 48 := by
        cases a with
        | nil =>
            rw [List.nil_append, List.head?_cons, List.head?_nil, Option.some.injEq]
            exact iff_of_false zero nofun
        | cons e a => exact Iff.rfl
      rw [List.cons_append, clear_cons, clear_cons, ih, head, and_assoc, and_assoc]

theorem clear_argument {query : Bytes} {argument : Bytes × Bytes} (fits : query.length < 2 ^ 63)
    (read : parseArgument query = .ok argument) : Clear query ↔ High argument.1 ∧ High argument.2 := by
  by_cases equals : 61 ∈ query
  · obtain ⟨one, two, rfl, absent⟩ := List.eq_append_cons_of_mem equals
    rw [parseArgument_pair fits absent] at read
    obtain ⟨name, first, read⟩ := bind_eq_ok read
    obtain ⟨value, second, read⟩ := bind_eq_ok read
    obtain rfl := Except.ok.inj read
    rw [clear_append (by decide) (by decide) (by decide), clear_iff_high first, clear_iff_high second]
  · obtain ⟨e, failed⟩ := parseArgument_none equals
    rw [failed] at read
    cases read

/-- The arguments of a query, of which there is at least one. -/
theorem clear_arguments {query : Bytes} {arguments : List (Bytes × Bytes)} (fits : query.length < 2 ^ 63)
    (read : parseArguments query = .ok arguments) :
    (Clear query ↔ HighArguments arguments) ∧ (query ≠ [] → arguments ≠ []) := by
  induction length : query.length using Nat.strong_induction_on generalizing query arguments with
  | _ size ih =>
      by_cases empty : query = []
      · subst empty
        rw [parseArguments_nil] at read
        obtain rfl := Except.ok.inj read
        exact ⟨iff_of_true clear_nil nofun, fun some => absurd rfl some⟩
      by_cases amp : 38 ∈ query
      · obtain ⟨first, rest, rfl, absent⟩ := List.eq_append_cons_of_mem amp
        rw [parseArguments_amp fits absent] at read
        rw [List.length_append, List.length_cons] at fits length
        obtain ⟨argument, one, read⟩ := bind_eq_ok read
        obtain ⟨others, later, read⟩ := bind_eq_ok read
        obtain rfl := Except.ok.inj read
        refine ⟨?_, fun _ => List.cons_ne_nil _ _⟩
        rw [clear_append (by decide) (by decide) (by decide), clear_argument (by omega) one,
          (ih rest.length (by omega) (by omega) later rfl).1, HighArguments, HighArguments, List.forall_mem_cons]
      · rw [parseArguments_last fits empty amp] at read
        obtain ⟨argument, one, rfl⟩ := of_map_ok read
        refine ⟨?_, fun _ => List.cons_ne_nil _ _⟩
        rw [clear_argument fits one, HighArguments, List.forall_mem_singleton]

end Clear

end Pcm.Http.URL

import Mathlib.Data.List.Infix
import Pcm.HttpConnection
import Pcm.HttpRequest
import Pcm.Lib.Positions
import Pcm.WhiteSpace

/-!
# White space around the value of a header

`HTTPHeader::parse` (`pcm-sensor-server.cpp:2357-2397`) takes all that follows the colon for the value. Most of
those who read a value do not mind white space around it: numbers, lists and searches. `Connection` and `Expect`
are compared as they are.
-/

namespace Pcm.Http

open StdString Squeeze

/-! ## The header Accept -/

/-- The types that can be answered, of `enum MimeType`. -/
inductive MimeType
  | catchAll | textPlainProm_0_0_4 | applicationJSON
  deriving DecidableEq, Repr

/-- `supportedOutputMimeTypes` (`pcm-sensor-server.cpp:3797-3800`) -/
def supportedOutputMimeTypes : List (MimeType × Bytes) :=
  [(.textPlainProm_0_0_4, ascii "text/plain;version=0.0.4"), (.applicationJSON, ascii "application/json")]

def removeSpace (text : Bytes) : Bytes := text.filter (fun c => !isspace c)

/-- `item.find( "q=" )` -/
def findPreference (item : Bytes) : Option Nat := (item.zip item.tail).findIdx? (· = (113, 61))

/-- `item.rfind( ";", pos )` -/
def rfindSemicolon (item : Bytes) (pos : Nat) : Option Nat :=
  (item.take (pos + 1)).reverse.findIdx? (· = 59) |>.map ((item.take (pos + 1)).length - 1 - ·)

/-- An item of the list without its preference and without white space. -/
def acceptedType (item : Bytes) : Bytes :=
  removeSpace (match findPreference item with
    | none => item
    | some pos =>
        match rfindSemicolon item pos with
        | none => item.take pos
        | some semicolon => (item.take pos).take semicolon)

/-- `matchSupportedWithAcceptedMimeTypes` (`pcm-sensor-server.cpp:3802-3836`) -/
def matchSupportedWithAcceptedMimeTypes (h : HTTPHeader) : MimeType :=
  match h.valueAsList.findSome? (fun item =>
      supportedOutputMimeTypes.find? (fun mimetype => removeSpace mimetype.2 = acceptedType item)) with
  | some mimetype => mimetype.1
  | none => .catchAll

/-- What `my_get_callback` chooses the format by (`pcm-sensor-server.cpp:3845-3854`). -/
def acceptedMimeType (request : HTTPRequest) : MimeType :=
  match request.headers.get? "Accept" with
  | some h => matchSupportedWithAcceptedMimeTypes h
  | none => .catchAll

/-! ## Texts in white space -/

def Blank (text : Bytes) : Prop := ∀ c ∈ text, isspace c = true

section Texts

variable {l t x s : Bytes}

theorem not_mem_blank {c : UInt8} (blank : Blank t) (solid : isspace c = false) : c ∉ t := by
  intro member
  rw [blank c member] at solid
  cases solid

theorem removeSpace_blank (blank : Blank t) : removeSpace t = [] := by
  rw [removeSpace, List.filter_eq_nil_iff]
  intro c member
  rw [blank c member]
  decide

theorem removeSpace_pad (left : Blank l) (right : Blank t) : removeSpace (l ++ x ++ t) = removeSpace x := by
  have none := removeSpace_blank left
  have none' := removeSpace_blank right
  rw [removeSpace] at none none' ⊢
  rw [List.filter_append, List.filter_append, none, none', List.nil_append, List.append_nil]
  rfl

/-- A text without white space is searched for. -/
theorem infix_blank_left {p : Bytes} (some : p ≠ []) (solid : ∀ c ∈ p, isspace c = false) (left : Blank l) :
    p <:+: l ++ x ↔ p <:+: x := by
  induction l with
  | nil => exact Iff.rfl
  | cons c l ih =>
      have later : Blank l := fun d member => left d (List.mem_cons_of_mem c member)
      rw [List.cons_append, List.infix_cons_iff, ih later]
      refine or_iff_right ?_
      intro starts
      cases p with
      | nil => exact some rfl
      | cons d p =>
          have same : d = c := (List.cons_prefix_cons.mp starts).1
          have solidD := solid d List.mem_cons_self
          rw [same, left c List.mem_cons_self] at solidD
          cases solidD

theorem infix_pad {p : Bytes} (some : p ≠ []) (solid : ∀ c ∈ p, isspace c = false) (left : Blank l)
    (right : Blank t) : p <:+: l ++ x ++ t ↔ p <:+: x := by
  have reversed : Blank t.reverse := fun c member => right c (List.mem_reverse.mp member)
  have solid' : ∀ c ∈ p.reverse, isspace c = false := fun c member => solid c (List.mem_reverse.mp member)
  rw [List.append_assoc, infix_blank_left some solid left, ← List.reverse_infix, List.reverse_append,
    infix_blank_left (List.reverse_ne_nil_iff.mpr some) solid' reversed, List.reverse_infix]

/-! ### Lists -/

theorem splitOn_blank_left {β : Type} {g : Bytes → β} (insensitive : ∀ y, g (l ++ y) = g y) (left : Blank l) :
    ((l ++ s).splitOn 44).map g = (s.splitOn 44).map g := by
  have comma : 44 ∉ l := not_mem_blank left (by decide)
  by_cases more : 44 ∈ s
  · obtain ⟨y, z, rfl, absent⟩ := List.eq_append_cons_of_mem more
    have absent' : 44 ∉ l ++ y := by
      rw [List.mem_append]
      exact not_or.mpr ⟨comma, absent⟩
    rw [← List.append_assoc, List.splitOn_append_cons_self_of_not_mem absent',
      List.splitOn_append_cons_self_of_not_mem absent, List.map_cons, List.map_cons, insensitive]
  · have absent : 44 ∉ l ++ s := by
      rw [List.mem_append]
      exact not_or.mpr ⟨comma, more⟩
    rw [List.splitOn_eq_singleton absent, List.splitOn_eq_singleton more, List.map_singleton, List.map_singleton,
      insensitive]

theorem splitOn_blank_right {β : Type} {g : Bytes → β} (insensitive : ∀ y, g (y ++ t) = g y) (right : Blank t) :
    ((s ++ t).splitOn 44).map g = (s.splitOn 44).map g := by
  have comma : 44 ∉ t := not_mem_blank right (by decide)
  by_cases more : 44 ∈ s
  · obtain ⟨y, z, rfl, absent⟩ := exists_last more
    have absent' : 44 ∉ z ++ t := by
      rw [List.mem_append]
      exact not_or.mpr ⟨absent, comma⟩
    rw [List.append_assoc, List.cons_append, List.splitOn_append_cons_self, List.splitOn_append_cons_self,
      List.splitOn_eq_singleton absent', List.splitOn_eq_singleton absent, List.map_append, List.map_append,
      List.map_singleton, List.map_singleton, insensitive]
  · have absent : 44 ∉ s ++ t := by
      rw [List.mem_append]
      exact not_or.mpr ⟨more, comma⟩
    rw [List.splitOn_eq_singleton absent, List.splitOn_eq_singleton more, List.map_singleton, List.map_singleton,
      insensitive]

/-- The elements of a list differ in white space only. -/
theorem splitOn_pad {β : Type} {g : Bytes → β} (insensitive : ∀ l y t, Blank l → Blank t → g (l ++ y ++ t) = g y)
    (left : Blank l) (right : Blank t) : ((l ++ x ++ t).splitOn 44).map g = (x.splitOn 44).map g := by
  have leftOnly : ∀ y, g (l ++ y) = g y := by
    intro y
    have both := insensitive l y [] left nofun
    rwa [List.append_nil] at both
  have rightOnly : ∀ y, g (y ++ t) = g y := fun y => insensitive [] y t nofun right
  rw [List.append_assoc, splitOn_blank_left leftOnly left, splitOn_blank_right rightOnly right]

/-! ### Items of the header Accept -/

theorem findPreference_cons (c : UInt8) (s : Bytes) : findPreference (c :: s) =
    if c = 113 ∧ s.head? = some 61 then some 0 else (findPreference s).map (· + 1) := by
  cases s with
  | nil => simp [findPreference]
  | cons d s =>
      have pair : (c :: d :: s).zip (c :: d :: s).tail = (c, d) :: (d :: s).zip (d :: s).tail := rfl
      rw [findPreference, pair, List.findIdx?_cons]
      simp only [decide_eq_true_eq, Prod.mk.injEq, List.head?_cons, Option.some.injEq]
      rfl

theorem findPreference_lt {k : Nat} (found : findPreference s = some k) : k < s.length := by
  induction s generalizing k with
  | nil => cases found
  | cons c s ih =>
      rw [findPreference_cons] at found
      split at found
      · rw [← Option.some.inj found]
        exact Nat.zero_lt_succ _
      · obtain ⟨j, later, rfl⟩ := Option.map_eq_some_iff.mp found
        exact Nat.succ_lt_succ (ih later)

theorem findPreference_blank_left (left : Blank l) :
    findPreference (l ++ s) = (findPreference s).map (l.length + ·) := by
  induction l with
  | nil => simp
  | cons c l ih =>
      have other : ¬ (c = 113 ∧ (l ++ s).head? = some 61) := by
        rintro ⟨rfl, -⟩
        exact absurd (left 113 List.mem_cons_self) (by decide)
      rw [List.cons_append, findPreference_cons, if_neg other,
        ih (fun d member => left d (List.mem_cons_of_mem c member)), Option.map_map, List.length_cons]
      refine congrArg (fun f => Option.map f _) (funext fun k => ?_)
      simp only [Function.comp_apply]
      omega

theorem findPreference_blank_right (right : Blank t) : findPreference (s ++ t) = findPreference s := by
  induction s with
  | nil =>
      have none := findPreference_blank_left right (s := [])
      rw [List.append_nil] at none
      exact none
  | cons c s ih =>
      have head : (s ++ t).head? = some 61 ↔ s.head? = some 61 := by
        cases s with
        | nil =>
            refine iff_of_false ?_ nofun
            intro starts
            exact absurd (right 61 (List.mem_of_mem_head? starts)) (by decide)
        | cons d s => exact Iff.rfl
      rw [List.cons_append, findPreference_cons, findPreference_cons, ih]
      simp only [head]

theorem take_pad {k : Nat} (inside : k ≤ x.length) : (l ++ x ++ t).take (l.length + k) = l ++ x.take k := by
  rw [List.append_assoc, List.take_length_add_append, List.take_append_of_le_length inside]

theorem rfindSemicolon_pad {k : Nat} (left : Blank l) (inside : k < x.length) :
    rfindSemicolon (l ++ x ++ t) (l.length + k) = (rfindSemicolon x k).map (l.length + ·) := by
  have taken : (l ++ x ++ t).take (l.length + k + 1) = l ++ x.take (k + 1) := take_pad inside
  have none : l.reverse.findIdx? (fun c => decide (c = 59)) = none := by
    rw [List.findIdx?_eq_none_iff]
    intro c member
    refine decide_eq_false ?_
    rintro rfl
    exact absurd (left 59 (List.mem_reverse.mp member)) (by decide)
  rw [rfindSemicolon, rfindSemicolon, taken, List.reverse_append, List.findIdx?_append, none, Option.map_none,
    Option.or_none, Option.map_map]
  refine Option.map_congr ?_
  intro i found
  have bound := (List.findIdx?_eq_some_iff_getElem.mp found).1
  rw [List.length_reverse] at bound
  simp only [Function.comp_apply, List.length_append]
  omega

/-- White space around an item does not matter. -/
theorem acceptedType_pad (left : Blank l) (right : Blank t) : acceptedType (l ++ x ++ t) = acceptedType x := by
  have found : findPreference (l ++ x ++ t) = (findPreference x).map (l.length + ·) := by
    rw [findPreference_blank_right right, findPreference_blank_left left]
  rw [acceptedType, acceptedType, found]
  cases preference : findPreference x with
  | none => exact removeSpace_pad left right
  | some k =>
      have inside := findPreference_lt preference
      simp only [Option.map_some, rfindSemicolon_pad left inside]
      rw [take_pad (Nat.le_of_lt inside)]
      cases rfindSemicolon x k with
      | none =>
          have padded := removeSpace_pad (x := x.take k) (t := []) left nofun
          rwa [List.append_nil] at padded
      | some j =>
          simp only [Option.map_some]
          rw [List.take_length_add_append]
          have padded := removeSpace_pad (x := (x.take k).take j) (t := []) left nofun
          rwa [List.append_nil] at padded

/-- Taking the blanks away from the ends of an element. -/
theorem trim_parts (element : Bytes) :
    ∃ l t, Blank l ∧ Blank t ∧ element = l ++ HTTPHeader.trim element ++ t := by
  have blank : ∀ text : Bytes, Blank (text.takeWhile (· = 32)) := by
    intro text c member
    have kept := List.mem_takeWhile_imp member
    have same : c = 32 := of_decide_eq_true kept
    rw [same]
    decide
  refine ⟨element.takeWhile (· = 32), ((element.dropWhile (· = 32)).reverse.takeWhile (· = 32)).reverse, blank _,
    fun c member => blank _ c (List.mem_reverse.mp member), ?_⟩
  rw [HTTPHeader.trim, List.append_assoc, ← List.reverse_append, List.takeWhile_append_dropWhile,
    List.reverse_reverse, List.takeWhile_append_dropWhile]

theorem acceptedType_trim (element : Bytes) : acceptedType (HTTPHeader.trim element) = acceptedType element := by
  obtain ⟨l, t, left, right, split⟩ := trim_parts element
  conv_rhs => rw [split]
  exact (acceptedType_pad left right).symm

/-- The answer depends on the types in the list only. -/
theorem matchSupported_eq (h : HTTPHeader) : matchSupportedWithAcceptedMimeTypes h =
    match ((h.value.splitOn 44).map acceptedType).findSome? (fun type =>
        supportedOutputMimeTypes.find? (fun mimetype => removeSpace mimetype.2 = type)) with
    | some mimetype => mimetype.1
    | none => .catchAll := by
  rw [matchSupportedWithAcceptedMimeTypes, HTTPHeader.valueAsList, List.findSome?_map, List.findSome?_map]
  simp only [Function.comp_def, acceptedType_trim]

/-! ### Numbers -/

theorem digitValue_blank {c : UInt8} (blank : isspace c = true) : digitValue c = 36 := by
  have range : c.toNat ≤ 32 := by
    simp only [isspace, Bool.or_eq_true, Bool.and_eq_true, decide_eq_true_eq] at blank
    rcases blank with rfl | ⟨-, small⟩
    · decide
    · exact Nat.le_trans (UInt8.le_iff_toNat_le.mp small) (by decide)
  have digit : isdigit c = false := by
    rw [isdigit, Bool.and_eq_false_iff]
    refine Or.inl (decide_eq_false ?_)
    rw [UInt8.le_iff_toNat_le]
    simp only [UInt8.reduceToNat]
    omega
  have lower : ¬ 97 ≤ c := by
    rw [UInt8.le_iff_toNat_le]
    simp only [UInt8.reduceToNat]
    omega
  have upper : ¬ 65 ≤ c := by
    rw [UInt8.le_iff_toNat_le]
    simp only [UInt8.reduceToNat]
    omega
  simp [digitValue, digit, lower, upper]

theorem digitRun_blank (right : Blank t) : digitRun 10 (s ++ t) = digitRun 10 s := by
  induction s with
  | nil =>
      cases t with
      | nil => rfl
      | cons c t =>
          rw [List.nil_append, digitRun, List.takeWhile_cons_of_neg]
          · rfl
          · rw [digitValue_blank (right c List.mem_cons_self)]
            decide
  | cons c s ih =>
      rw [digitRun] at ih ⊢
      rw [List.cons_append, List.takeWhile_cons, ih, digitRun, digitRun, List.takeWhile_cons]

theorem splitSign_append (some : s ≠ []) (t : Bytes) :
    splitSign (s ++ t) = ((splitSign s).1, (splitSign s).2 ++ t) := by
  cases s with
  | nil => exact absurd rfl some
  | cons c s =>
      by_cases minus : c = 45
      · rw [minus]
        rfl
      by_cases plus : c = 43
      · rw [plus]
        rfl
      have unsigned : ∀ rest, splitSign (c :: rest) = (false, c :: rest) := by
        intro rest
        rw [splitSign.eq_3]
        · rintro rest ⟨rfl, rfl⟩
          exact minus rfl
        · rintro rest ⟨rfl, rfl⟩
          exact plus rfl
      rw [List.cons_append, unsigned, unsigned]
      rfl

theorem stoll_pad (left : Blank l) (right : Blank t) (solid : ∀ c ∈ x.head?, isspace c = false) :
    stoll 10 (l ++ x ++ t) = stoll 10 x := by
  have skipped : (l ++ x ++ t).dropWhile isspace = (x ++ t).dropWhile isspace := by
    rw [List.append_assoc]
    exact List.dropWhile_append_of_pos left
  cases x with
  | nil =>
      have none : ([] ++ t).dropWhile isspace = ([] : Bytes).dropWhile isspace := List.dropWhile_eq_nil_iff.mpr right
      rw [stoll, stoll, skipped, none]
  | cons c x =>
      have stops : ¬ isspace c = true := by
        rw [solid c rfl]
        exact Bool.false_ne_true
      have first : (c :: x ++ t).dropWhile isspace = c :: x ++ t := List.dropWhile_cons_of_neg stops
      have second : (c :: x).dropWhile isspace = c :: x := List.dropWhile_cons_of_neg stops
      rw [stoll, stoll, skipped, first, second, splitSign_append (List.cons_ne_nil c x)]
      simp only [if_neg (show ¬ (10 : Nat) = 16 by decide), digitRun_blank right]

end Texts

/-! ## Values -/

/-- A text that neither begins nor ends with white space. -/
structure Trimmed (text : Bytes) : Prop where
  first : ∀ c ∈ text.head?, isspace c = false
  last : ∀ c ∈ text.getLast?, isspace c = false

/-- A header with white space around its value. -/
structure PaddedHeader (hh hh' : HTTPHeader) : Prop where
  same : hh' = { hh with value := hh'.value }
  trimmed : Trimmed hh.value
  padded : ∃ l t, Blank l ∧ Blank t ∧ hh'.value = l ++ hh.value ++ t

namespace PaddedHeader

variable {hh hh' : HTTPHeader}

theorem valueAsNumber (pad : PaddedHeader hh hh') : hh'.valueAsNumber = hh.valueAsNumber := by
  obtain ⟨l, t, left, right, split⟩ := pad.padded
  rw [HTTPHeader.valueAsNumber, HTTPHeader.valueAsNumber, split, stoll_pad left right pad.trimmed.first]

theorem infix_iff (pad : PaddedHeader hh hh') {p : Bytes} (some : p ≠ []) (solid : ∀ c ∈ p, isspace c = false) :
    p <:+: hh'.value ↔ p <:+: hh.value := by
  obtain ⟨l, t, left, right, split⟩ := pad.padded
  rw [split, infix_pad some solid left right]

theorem length_valueAsList (pad : PaddedHeader hh hh') : hh'.valueAsList.length = hh.valueAsList.length := by
  obtain ⟨l, t, left, right, split⟩ := pad.padded
  have same := splitOn_pad (x := hh.value) (fun _ _ _ _ _ => rfl) left right (g := fun _ => ())
  have lengths := congrArg List.length same
  rw [List.length_map, List.length_map] at lengths
  rw [HTTPHeader.valueAsList, HTTPHeader.valueAsList, List.length_map, List.length_map, split, lengths]

theorem matchSupported (pad : PaddedHeader hh hh') :
    matchSupportedWithAcceptedMimeTypes hh' = matchSupportedWithAcceptedMimeTypes hh := by
  obtain ⟨l, t, left, right, split⟩ := pad.padded
  rw [matchSupported_eq, matchSupported_eq, split,
    splitOn_pad (fun l y t left right => acceptedType_pad left right) left right]

end PaddedHeader

/-! ## The line of a header -/

/-- A carriage return at the end is removed. -/
def popReturn (text : Bytes) : Bytes := if text.getLast? = some 13 then text.dropLast else text

theorem compress_popReturn (line : Bytes) :
    compressLWSAndRemoveCR line = popReturn (compressFrom line 0 line.length) := rfl

theorem popReturn_append {s u : Bytes} (solid : s.getLast? ≠ some 13) : popReturn (s ++ u) = s ++ popReturn u := by
  by_cases empty : u = []
  · subst empty
    rw [List.append_nil, popReturn, if_neg solid]
    exact (List.append_nil s).symm
  · have last : (s ++ u).getLast? = u.getLast? := List.getLast?_append_of_ne_nil s empty
    rw [popReturn, popReturn, last]
    split
    · exact List.dropLast_append_of_ne_nil empty
    · rfl

theorem blank_popReturn {t : Bytes} (blank : Blank t) : Blank (popReturn t) := by
  rw [popReturn]
  split
  · exact fun c member => blank c (List.mem_of_mem_dropLast member)
  · exact blank

theorem blank_ends {t : Bytes} (blank : Blank t) : Blank (ends t) := by
  cases t with
  | nil => exact blank
  | cons c t =>
      intro d member
      rcases List.mem_cons.mp member with rfl | last
      · exact blank d List.mem_cons_self
      · exact blank d (List.mem_cons_of_mem c (List.mem_of_getLast? (Option.mem_toList.mp last)))

/-- A header: a name without white space and colon, and a value without white space around it. -/
structure HeaderField (name value : Bytes) : Prop where
  solid : ∀ c ∈ name, isspace c = false ∧ c ≠ 58
  trimmed : Trimmed value
  line : 10 ∉ value
  fits : name.length < 2 ^ 63

/-- The end of a line, before the line feed. -/
def LineEnd (text : Bytes) : Prop := text = [13] ∨ text = []

/-- The value in a number of blanks. -/
def inBlanks (before : Nat) (value : Bytes) (after : Nat) : Bytes :=
  List.replicate before 32 ++ value ++ List.replicate after 32

section Line

variable {name value lineEnd : Bytes} {a b : Nat}

theorem blank_replicate (n : Nat) : Blank (List.replicate n 32) := by
  intro c member
  rw [List.eq_of_mem_replicate member]
  decide

theorem LineEnd.blank (ending : LineEnd lineEnd) : Blank lineEnd := by
  rcases ending with rfl | rfl
  · exact List.forall_mem_singleton.mpr (by decide)
  · exact nofun

theorem blank_append {l t : Bytes} (left : Blank l) (right : Blank t) : Blank (l ++ t) :=
  List.forall_mem_append.mpr ⟨left, right⟩

/-- The compression of a text and the white space after it. -/
theorem compress_parts {body run : Bytes} (closed : Closed isspace body) (blank : Blank run) :
    compressLWSAndRemoveCR (body ++ run) = squeeze isspace body ++ popReturn (ends run) := by
  have loop : compressFrom (body ++ run) 0 (body ++ run).length = squeeze isspace body ++ ends run :=
    compressFrom_whole closed blank
  rw [compress_popReturn, loop, popReturn_append]
  intro last
  rw [squeeze, getLast?_squeezeFrom closed] at last
  exact absurd (closed 13 last) (by decide)

/-- White space in front of the first character. -/
theorem squeeze_blanks (trimmed : Trimmed value) (some : value ≠ []) (a : Nat) :
    squeeze isspace (List.replicate a 32 ++ value) = (if a = 0 then [] else [32]) ++ squeeze isspace value := by
  cases a with
  | zero => rfl
  | succ a =>
      cases value with
      | nil => exact absurd rfl some
      | cons c rest =>
          have solid : isspace c = false := trimmed.first c rfl
          have blank : isspace 32 = true := by decide
          rw [List.replicate_succ, List.cons_append, squeeze_cons, blank, squeezeFrom_run (blank_replicate a),
            squeezeFrom_keep (by rw [solid]; rfl), ← squeeze_cons, if_neg (Nat.succ_ne_zero a)]
          rfl

theorem popReturn_ends (ending : LineEnd lineEnd) (b : Nat) :
    popReturn (ends (List.replicate b 32 ++ lineEnd)) = [] ↔ b = 0 := by
  cases b with
  | zero =>
      refine iff_of_true ?_ rfl
      rcases ending with rfl | rfl
      · rfl
      · rfl
  | succ b =>
      refine iff_of_false ?_ (Nat.succ_ne_zero b)
      rw [List.replicate_succ, List.cons_append, ends, ← List.singleton_append, popReturn_append (by decide)]
      exact List.append_ne_nil_of_left_ne_nil (List.cons_ne_nil 32 []) _

/-- The value of the line: what is kept of the value is in white space exactly if there were blanks. -/
theorem compress_inBlanks (trimmed : Trimmed value) (ending : LineEnd lineEnd) (a b : Nat) :
    ∃ l t, Blank l ∧ Blank t ∧ (l = [] ∧ t = [] ↔ a = 0 ∧ b = 0) ∧
      compressLWSAndRemoveCR (inBlanks a value b ++ lineEnd) = l ++ squeeze isspace value ++ t := by
  by_cases empty : value = []
  · -- nothing but white space
    subst empty
    have text : inBlanks a [] b ++ lineEnd = [] ++ (List.replicate (a + b) 32 ++ lineEnd) := by
      rw [inBlanks, List.append_nil, List.replicate_append_replicate, List.nil_append]
    have blank : Blank (List.replicate (a + b) 32 ++ lineEnd) := blank_append (blank_replicate _) ending.blank
    refine ⟨popReturn (ends (List.replicate (a + b) 32 ++ lineEnd)), [], blank_popReturn (blank_ends blank), nofun, ?_, ?_⟩
    · rw [popReturn_ends ending, Nat.add_eq_zero_iff]
      exact ⟨fun both => both.1, fun both => ⟨both, rfl⟩⟩
    · have nothing : Closed isspace [] := fun c last => absurd last nofun
      have none : squeeze isspace [] = [] := rfl
      rw [text, compress_parts nothing blank, none, List.nil_append, List.append_nil, List.append_nil]
  · have text : inBlanks a value b ++ lineEnd =
        (List.replicate a 32 ++ value) ++ (List.replicate b 32 ++ lineEnd) := by
      rw [inBlanks, List.append_assoc _ _ lineEnd]
    have closed : Closed isspace (List.replicate a 32 ++ value) := by
      intro c last
      rw [List.getLast?_append_of_ne_nil _ empty] at last
      exact trimmed.last c last
    have blank : Blank (List.replicate b 32 ++ lineEnd) := blank_append (blank_replicate b) ending.blank
    refine ⟨if a = 0 then [] else [32], popReturn (ends (List.replicate b 32 ++ lineEnd)), ?_,
      blank_popReturn (blank_ends blank), ?_, ?_⟩
    · split
      · exact nofun
      · exact blank_replicate 1
    · rw [popReturn_ends ending]
      refine and_congr_left' ?_
      split
      · rename_i zero
        exact iff_of_true rfl zero
      · rename_i positive
        exact iff_of_false (List.cons_ne_nil 32 []) positive
    · rw [text, compress_parts closed blank, squeeze_blanks trimmed empty]

/-- The name and the colon stay. -/
theorem compress_name (solid : ∀ c ∈ name, isspace c = false) (text : Bytes) :
    compressLWSAndRemoveCR (name ++ 58 :: text) = name ++ 58 :: compressLWSAndRemoveCR text := by
  have whole : text.rdropWhile isspace ++ trailing text = text := List.rdropWhile_append_rtakeWhile
  have blank : Blank (trailing text) := fun c member => List.mem_rtakeWhile_imp member
  have colon : ∀ c ∈ name ++ [58], isspace c = false :=
    List.forall_mem_append.mpr ⟨solid, List.forall_mem_singleton.mpr (by decide)⟩
  have closed : Closed isspace ((name ++ [58]) ++ text.rdropWhile isspace) := by
    intro c last
    by_cases empty : text.rdropWhile isspace = []
    · rw [empty, List.append_nil] at last
      exact colon c (List.mem_of_getLast? last)
    · rw [List.getLast?_append_of_ne_nil _ empty] at last
      exact closed_rdropWhile text c last
  have split : name ++ 58 :: text = ((name ++ [58]) ++ text.rdropWhile isspace) ++ trailing text := by
    rw [List.append_assoc, whole]
    simp
  rw [split, compress_parts closed blank, squeeze_solid colon]
  conv_rhs => rw [← whole, compress_parts (closed_rdropWhile text) blank]
  simp

end Line

end Pcm.Http

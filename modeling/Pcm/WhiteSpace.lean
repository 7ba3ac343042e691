import Pcm.HttpMessage
import Pcm.Lib.Squeeze

/-!
# White space in a header line

`compressLWSAndRemoveCR` (`pcm-sensor-server.cpp:2828-2851`) keeps the first character of every run of white
space. A run at the end of the line is different: the inner loop stops at its last character, so that this one
is kept too.
-/

namespace Pcm.Http

open StdString Squeeze

/-! ## Indices -/

/-- The outer loop with all its accesses checked: the character it reads, what it erases, and the difference it
subtracts from `end`. -/
def compressFrom? (line : Bytes) (pos stop : Nat) : Option Bytes :=
  if pos < stop then
    if line.length ≤ pos then none
    else if isspace (charAt line pos) then
      let next := skipLWS line pos
      if 1 < next - pos then
        if line.length < pos + 1 + (next - pos - 1) ∨ stop < next - pos - 1 then none
        else compressFrom? (line.take (pos + 1) ++ line.drop next) (pos + 2) (stop - (next - pos - 1))
      else compressFrom? line (next + 1) stop
    else compressFrom? line (pos + 1) stop
  else some line
termination_by stop - pos
decreasing_by
  · omega
  · have := le_skipLWS line pos
    omega
  · omega

def compressLWSAndRemoveCR? (line : Bytes) : Option Bytes :=
  (compressFrom? line 0 line.length).map fun compressed =>
    if compressed.getLast? = some 13 then compressed.dropLast else compressed

theorem compressFrom?_eq (line : Bytes) (pos : Nat) :
    compressFrom? line pos line.length = some (compressFrom line pos line.length) := by
  generalize whole : line.length = stop
  fun_induction compressFrom line pos stop with
  | case1 line pos stop more space next run ih =>
      have bound : next < line.length := skipLWS_lt (by omega)
      rw [compressFrom?, if_pos more, if_neg (by omega), if_pos space]
      change (if 1 < next - pos then _ else _) = _
      rw [if_pos run, if_neg (by omega), ih ?_]
      rw [List.length_append, List.length_take, List.length_drop]
      omega
  | case2 line pos stop more space next single ih =>
      rw [compressFrom?, if_pos more, if_neg (by omega), if_pos space]
      change (if 1 < next - pos then _ else _) = _
      rw [if_neg single, ih whole]
  | case3 line pos stop more other ih =>
      rw [compressFrom?, if_pos more, if_neg (by omega), if_neg other, ih whole]
  | case4 line pos stop finished => rw [compressFrom?, if_neg finished]

/-- All accesses are in range. -/
theorem compressLWSAndRemoveCR?_eq (line : Bytes) :
    compressLWSAndRemoveCR? line = some (compressLWSAndRemoveCR line) := by
  rw [compressLWSAndRemoveCR?, compressFrom?_eq]
  rfl

/-! ## What is kept -/

/-- The first and the last character. -/
def ends : Bytes → Bytes
  | [] => []
  | c :: rest => c :: rest.getLast?.toList

section Loop

variable {front body run rest : Bytes} {c d : UInt8}

theorem charAt_append (front rest : Bytes) (c : UInt8) : charAt (front ++ c :: rest) front.length = c := by
  simp [charAt]

theorem skipLWS_cons (front rest : Bytes) (c x : UInt8) :
    skipLWS (front ++ c :: x :: rest) front.length =
      if isspace x then skipLWS ((front ++ [c]) ++ x :: rest) (front ++ [c]).length else front.length + 1 := by
  have text : (front ++ [c]) ++ x :: rest = front ++ c :: x :: rest := by simp
  have length : (front ++ [c]).length = front.length + 1 := List.length_append
  have next : charAt (front ++ c :: x :: rest) (front.length + 1) = x := by
    rw [← text, ← length]
    exact charAt_append _ _ _
  rw [skipLWS, if_pos, next, text, length]
  rw [List.length_append, List.length_cons, List.length_cons]
  omega

/-- The inner loop stops after a run. -/
theorem skipLWS_run (blank : ∀ x ∈ run, isspace x = true) (solid : isspace d = false) :
    skipLWS (front ++ c :: (run ++ d :: rest)) front.length = front.length + run.length + 1 := by
  induction run generalizing front c with
  | nil => rw [List.nil_append, skipLWS_cons, if_neg (by rw [solid]; exact Bool.false_ne_true), List.length_nil]
  | cons x run ih =>
      rw [List.cons_append, skipLWS_cons, if_pos (blank x List.mem_cons_self),
        ih (fun y member => blank y (List.mem_cons_of_mem x member)), List.length_append, List.length_singleton,
        List.length_cons]
      omega

/-- It stops at the last character of a run at the end. -/
theorem skipLWS_end (blank : ∀ x ∈ run, isspace x = true) :
    skipLWS (front ++ c :: run) front.length = front.length + run.length := by
  induction run generalizing front c with
  | nil =>
      rw [skipLWS, if_neg]
      · rfl
      · rw [List.length_append, List.length_singleton]
        omega
  | cons x run ih =>
      rw [skipLWS_cons, if_pos (blank x List.mem_cons_self),
        ih (fun y member => blank y (List.mem_cons_of_mem x member)), List.length_append, List.length_singleton,
        List.length_cons]
      omega

theorem compressFrom_finished {line : Bytes} {pos stop : Nat} (finished : stop ≤ pos) :
    compressFrom line pos stop = line := by
  rw [compressFrom, if_neg (Nat.not_lt.mpr finished)]

/-- The loop at a character that is no white space. -/
theorem compressFrom_solid (solid : isspace c = false) :
    compressFrom (front ++ c :: rest) front.length (front ++ c :: rest).length =
      compressFrom ((front ++ [c]) ++ rest) (front ++ [c]).length ((front ++ [c]) ++ rest).length := by
  have text : (front ++ [c]) ++ rest = front ++ c :: rest := by simp
  have length : (front ++ [c]).length = front.length + 1 := List.length_append
  rw [compressFrom, if_pos, charAt_append, if_neg (by rw [solid]; exact Bool.false_ne_true), text, length]
  rw [List.length_append, List.length_cons]
  omega

/-- The loop at a run that is followed by another character. -/
theorem compressFrom_run (space : isspace c = true) (blank : ∀ x ∈ run, isspace x = true) (solid : isspace d = false) :
    compressFrom (front ++ c :: (run ++ d :: rest)) front.length (front ++ c :: (run ++ d :: rest)).length =
      compressFrom ((front ++ [c, d]) ++ rest) (front ++ [c, d]).length ((front ++ [c, d]) ++ rest).length := by
  have length : (front ++ [c, d]).length = front.length + 2 := List.length_append
  have more : front.length < (front ++ c :: (run ++ d :: rest)).length := by
    rw [List.length_append, List.length_cons]
    omega
  rw [compressFrom, if_pos more, charAt_append, if_pos space]
  simp only [skipLWS_run blank solid]
  cases run with
  | nil =>
      rw [if_neg (by rw [List.length_nil]; omega), length]
      simp
  | cons x run =>
      have first : (front ++ c :: (x :: run ++ d :: rest)).take (front.length + 1) = front ++ [c] := by
        rw [List.take_length_add_append]
        rfl
      have second : (front ++ c :: (x :: run ++ d :: rest)).drop (front.length + (x :: run).length + 1) = d :: rest := by
        rw [Nat.add_assoc, List.drop_length_add_append, List.drop_succ_cons, List.drop_left]
      rw [if_pos (by rw [List.length_cons]; omega), first, second, length]
      have text : front ++ [c] ++ d :: rest = front ++ [c, d] ++ rest := by simp
      have count : (front ++ c :: (x :: run ++ d :: rest)).length -
          (front.length + (x :: run).length + 1 - front.length - 1) = (front ++ [c, d] ++ rest).length := by
        simp only [List.length_append, List.length_cons, List.length_nil]
        omega
      rw [text, count]

theorem drop_last (some : run ≠ []) :
    (front ++ c :: run).drop (front.length + run.length) = run.getLast?.toList := by
  obtain ⟨before, last, rfl⟩ := (List.eq_nil_or_concat' run).resolve_left some
  rw [List.drop_length_add_append, List.length_append, List.length_singleton, List.drop_succ_cons, List.drop_left,
    List.getLast?_concat]
  rfl

/-- The loop at a run that reaches the end. -/
theorem compressFrom_end (space : isspace c = true) (blank : ∀ x ∈ run, isspace x = true) :
    compressFrom (front ++ c :: run) front.length (front ++ c :: run).length = front ++ ends (c :: run) := by
  have more : front.length < (front ++ c :: run).length := by
    rw [List.length_append, List.length_cons]
    omega
  rw [compressFrom, if_pos more, charAt_append, if_pos space]
  simp only [skipLWS_end blank]
  rcases run with _ | ⟨x, _ | ⟨y, run⟩⟩
  · rw [if_neg (by rw [List.length_nil]; omega), compressFrom_finished]
    · rfl
    · rw [List.length_append, List.length_singleton, List.length_nil]
  · rw [if_neg (by rw [List.length_singleton]; omega), compressFrom_finished]
    · rfl
    · rw [List.length_append, List.length_cons, List.length_singleton]
  · -- the characters between the first and the last one are erased
    have first : (front ++ c :: x :: y :: run).take (front.length + 1) = front ++ [c] := by
      rw [List.take_length_add_append]
      rfl
    rw [if_pos (by rw [List.length_cons, List.length_cons]; omega), first, drop_last (List.cons_ne_nil _ _), compressFrom_finished]
    · rw [ends, List.append_assoc]
      rfl
    · simp only [List.length_append, List.length_cons]
      omega

/-- The whole loop: of the runs inside the line the first character is kept, of the one at the end the first and
the last. -/
theorem compressFrom_eq (closed : Closed isspace body) (blank : ∀ x ∈ run, isspace x = true) :
    compressFrom (front ++ (body ++ run)) front.length (front ++ (body ++ run)).length =
      front ++ (squeeze isspace body ++ ends run) := by
  induction size : body.length using Nat.strong_induction_on generalizing front body with
  | _ size ih =>
      cases body with
      | nil =>
          cases run with
          | nil => exact compressFrom_finished (by simp)
          | cons c run =>
              exact compressFrom_end (blank c List.mem_cons_self)
                (fun x member => blank x (List.mem_cons_of_mem c member))
      | cons c body =>
          rw [List.length_cons] at size
          cases space : isspace c with
          | false =>
              have closedRest : Closed isspace body := Closed.right (a := [c]) closed
              rw [List.cons_append, compressFrom_solid space, ih body.length (by omega) closedRest rfl, squeeze_cons,
                space, List.append_assoc]
              rfl
          | true =>
              obtain ⟨spaces, d, rest, rfl, all, solid⟩ := closed.split space
              have closedRest : Closed isspace rest := Closed.right (a := [c] ++ spaces ++ [d]) (by simpa using closed)
              have kept : squeezeFrom isspace true (d :: rest) = d :: squeeze isspace rest := by
                rw [squeezeFrom_keep (by rw [solid]; rfl), solid]
                rfl
              rw [List.length_append, List.length_cons] at size
              rw [List.cons_append, List.append_assoc, List.cons_append, compressFrom_run space all solid,
                ih rest.length (by omega) closedRest rfl, squeeze_cons, space, squeezeFrom_run all, kept,
                List.append_assoc]
              rfl

theorem compressFrom_whole (closed : Closed isspace body) (blank : ∀ x ∈ run, isspace x = true) :
    compressFrom (body ++ run) 0 (body ++ run).length = squeeze isspace body ++ ends run := by
  have loop : compressFrom ([] ++ (body ++ run)) 0 ([] ++ (body ++ run)).length = [] ++ (squeeze isspace body ++ ends run) :=
    compressFrom_eq closed blank
  exact loop

end Loop

/-! ## Lines that are compressed -/

/-- The white space at the end of a line. -/
def trailing (line : Bytes) : Bytes := line.rtakeWhile isspace

/-- A line without runs of white space and without a carriage return at its end, which has the same other
characters and is left alone when it is compressed again. -/
structure Compressed (line result : Bytes) : Prop where
  apart : Apart isspace result
  noReturn : result.getLast? ≠ some 13
  solid : result.filter (fun c => !isspace c) = line.filter (fun c => !isspace c)
  again : compressLWSAndRemoveCR? result = some result

/-- The compression of a line stays in range and gives a compressed line. -/
def Compresses (line : Bytes) : Prop := ∃ result, compressLWSAndRemoveCR? line = some result ∧ Compressed line result

section Lines

variable {line body : Bytes}

theorem closed_rdropWhile (line : Bytes) : Closed isspace (line.rdropWhile isspace) := by
  intro c here
  have some : line.rdropWhile isspace ≠ [] := by
    intro empty
    rw [empty] at here
    cases here
  have last : (line.rdropWhile isspace).getLast some = c :=
    Option.some.inj ((List.getLast?_eq_some_getLast some).symm.trans here)
  have solid := List.rdropWhile_last_not isspace line some
  rw [last] at solid
  exact Bool.eq_false_iff.mpr solid

theorem compress_eq (line : Bytes) : compressFrom line 0 line.length =
    squeeze isspace (line.rdropWhile isspace) ++ ends (trailing line) := by
  have whole : line.rdropWhile isspace ++ trailing line = line := List.rdropWhile_append_rtakeWhile
  have loop : compressFrom (line.rdropWhile isspace ++ trailing line) 0
      (line.rdropWhile isspace ++ trailing line).length =
        squeeze isspace (line.rdropWhile isspace) ++ ends (trailing line) :=
    compressFrom_whole (closed_rdropWhile line) (fun _ member => List.mem_rtakeWhile_imp member)
  rw [whole] at loop
  exact loop

/-- A line without runs is left alone, up to a carriage return. -/
theorem compress_apart {text : Bytes} (apart : Apart isspace text) (noReturn : text.getLast? ≠ some 13) :
    compressLWSAndRemoveCR? text = some text := by
  rw [compressLWSAndRemoveCR?_eq, compress_single, if_neg noReturn]
  intro i inside
  have next : i + 1 < text.length := by omega
  have pair := List.isChain_iff_getElem.mp apart i next
  have first : charAt text i = text[i] := by simp [charAt, show i < text.length by omega]
  have second : charAt text (i + 1) = text[i + 1] := by simp [charAt, next]
  rw [first, second, Bool.and_eq_false_iff]
  cases space : isspace text[i] with
  | false => exact Or.inl rfl
  | true => exact Or.inr (Bool.eq_false_iff.mpr (fun other => pair ⟨space, other⟩))

/-- The line without the white space at its end. -/
def squeezed (line : Bytes) : Bytes := squeeze isspace (line.rdropWhile isspace)

theorem closed_squeezed (line : Bytes) : Closed isspace (squeezed line) := by
  have closed := closed_rdropWhile line
  intro c here
  rw [squeezed, squeeze, getLast?_squeezeFrom closed] at here
  exact closed c here

theorem filter_squeezed (line : Bytes) :
    (squeezed line).filter (fun c => !isspace c) = line.filter (fun c => !isspace c) := by
  have whole : line.rdropWhile isspace ++ trailing line = line := List.rdropWhile_append_rtakeWhile
  have none : (trailing line).filter (fun c => !isspace c) = [] := by
    rw [List.filter_eq_nil_iff]
    intro c member
    rw [List.mem_rtakeWhile_imp member]
    decide
  conv_rhs => rw [← whole, List.filter_append, none, List.append_nil]
  exact filter_squeezeFrom false _

theorem compressed_squeezed (line : Bytes) : Compressed line (squeezed line) := by
  have apart : Apart isspace (squeezed line) := apart_squeezeFrom false _
  have noReturn : (squeezed line).getLast? ≠ some 13 := by
    intro last
    exact absurd (closed_squeezed line 13 last) (by decide)
  exact ⟨apart, noReturn, filter_squeezed line, compress_apart apart noReturn⟩

/-- The same with one white space character at the end. -/
theorem compressed_concat (line : Bytes) {c : UInt8} (space : isspace c = true) (noReturn : c ≠ 13) :
    Compressed line (squeezed line ++ [c]) := by
  have apart : Apart isspace (squeezed line ++ [c]) := by
    refine List.IsChain.append (apart_squeezeFrom false _) (.singleton c) ?_
    rintro d last e here ⟨first, -⟩
    rw [closed_squeezed line d last] at first
    cases first
  have last : (squeezed line ++ [c]).getLast? ≠ some 13 := by
    rw [List.getLast?_concat]
    exact fun same => noReturn (Option.some.inj same)
  refine ⟨apart, last, ?_, compress_apart apart last⟩
  rw [List.filter_append, filter_squeezed, List.filter_cons_of_neg (by rw [space]; decide), List.filter_nil,
    List.append_nil]

theorem compress_trailing (line : Bytes) : compressLWSAndRemoveCR? line =
    some (if (squeezed line ++ ends (trailing line)).getLast? = some 13
      then (squeezed line ++ ends (trailing line)).dropLast else squeezed line ++ ends (trailing line)) := by
  rw [compressLWSAndRemoveCR?_eq, compressLWSAndRemoveCR, compress_eq]
  rfl

/-- A line is compressed exactly when there is at most one white space character at its end, or when they end in
a carriage return and do not begin with one. -/
theorem compresses_iff (line : Bytes) :
    Compresses line ↔ (trailing line).length ≤ 1 ∨
      ((trailing line).getLast? = some 13 ∧ (trailing line).head? ≠ some 13) := by
  have blank : ∀ c ∈ trailing line, isspace c = true := fun c member => List.mem_rtakeWhile_imp member
  rw [Compresses, compress_trailing]
  simp only [Option.some.injEq, exists_eq_left']
  generalize trailing line = run at blank ⊢
  rcases run with _ | ⟨c, _ | ⟨d, run⟩⟩
  · -- no white space at the end
    have noReturn : ¬ (squeezed line).getLast? = some 13 := (compressed_squeezed line).noReturn
    rw [ends, List.append_nil, if_neg noReturn]
    exact iff_of_true (compressed_squeezed line) (Or.inl (Nat.zero_le 1))
  · -- one character; a carriage return is removed
    refine iff_of_true ?_ (Or.inl (Nat.le_refl 1))
    have one : ends [c] = [c] := rfl
    rw [one, List.getLast?_concat]
    split
    · rw [List.dropLast_concat]
      exact compressed_squeezed line
    · rename_i other
      exact compressed_concat line (blank c List.mem_cons_self) (fun same => other (congrArg some same))
  · -- the first and the last character of a longer run
    obtain ⟨before, last, split⟩ := (List.eq_nil_or_concat' (d :: run)).resolve_left (List.cons_ne_nil d run)
    have both : squeezed line ++ ends (c :: d :: run) = (squeezed line ++ [c]) ++ [last] := by
      rw [ends, split, List.getLast?_concat, List.append_assoc]
      rfl
    have whole : (c :: d :: run).getLast? = some last := by
      rw [split, ← List.cons_append, List.getLast?_concat]
    have spaceFirst : isspace c = true := blank c List.mem_cons_self
    have spaceLast : isspace last = true := blank last (List.mem_of_getLast? whole)
    have long : ¬ (c :: d :: run).length ≤ 1 := by
      rw [List.length_cons, List.length_cons]
      omega
    rw [both, List.getLast?_concat, List.dropLast_concat, whole, List.head?_cons]
    by_cases endsReturn : last = 13
    · rw [if_pos (congrArg some endsReturn)]
      by_cases startsReturn : c = 13
      · refine iff_of_false (fun compressed => compressed.noReturn ?_) ?_
        · rw [List.getLast?_concat, startsReturn]
        · rintro (short | ⟨-, other⟩)
          · exact long short
          · exact other (congrArg some startsReturn)
      · exact iff_of_true (compressed_concat line spaceFirst startsReturn)
          (Or.inr ⟨congrArg some endsReturn, fun same => startsReturn (Option.some.inj same)⟩)
    · rw [if_neg (fun same => endsReturn (Option.some.inj same))]
      refine iff_of_false (fun compressed => ?_) ?_
      · have apart := compressed.apart
        rw [List.append_assoc] at apart
        have pair := (List.isChain_append_cons_cons.mp apart).2.1
        exact pair ⟨spaceFirst, spaceLast⟩
      · rintro (short | ⟨same, -⟩)
        · exact long short
        · exact endsReturn (Option.some.inj same)

/-- Two blanks at the end of a line stay. -/
theorem compresses_twoBlanks : ¬ Compresses (ascii "a  ") := by
  intro compresses
  obtain ⟨result, read, compressed⟩ := compresses
  have kept : compressLWSAndRemoveCR? (ascii "a  ") = some (ascii "a  ") := by
    rw [compress_trailing]
    decide
  rw [kept] at read
  obtain rfl := Option.some.inj read
  have pair := (List.isChain_cons.mp (List.isChain_cons.mp compressed.apart).2).1 32 rfl
  exact pair ⟨by decide, by decide⟩

end Lines

end Pcm.Http

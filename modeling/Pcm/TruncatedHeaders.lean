import Pcm.RequestBody

/-!
# Requests that are cut off before the end of their headers

The header loop (`pcm-sensor-server.cpp:2912-2942`) does not look at the state of the stream. After the
end of the file it works on the line that it has read last: a header line is then refused, because it is
already there or has no colon, but an empty string, or the carriage return of the closing line, ends the
headers.
-/

namespace Pcm.Http

open StdString IStream Bounded

/-! ## What is left of a line -/

theorem isspace_skipLWS {line : Bytes} {pos i : Nat} (after : pos < i) (before : i < skipLWS line pos) :
    isspace (charAt line i) = true := by
  fun_induction skipLWS line pos with
  | case1 pos more space ih =>
      rcases Nat.lt_or_eq_of_le (Nat.succ_le_of_lt after) with further | same
      · exact ih further before
      · rw [← same]
        exact space
  | case2 pos more other => omega
  | case3 pos finished => omega

/-- Two characters are left of a line that has more. -/
theorem length_compressFrom (line : Bytes) (pos stop : Nat) :
    min 2 line.length ≤ (compressFrom line pos stop).length := by
  fun_induction compressFrom line pos stop with
  | case1 line pos stop more space next run ih =>
      have bound : next < line.length := skipLWS_lt (by omega)
      rw [List.length_append, List.length_take, List.length_drop] at ih
      omega
  | case2 line pos stop more space next single ih => exact ih
  | case3 line pos stop more other ih => exact ih
  | case4 line pos stop finished => exact Nat.min_le_right _ _

/-- Only the empty line is compressed to nothing. -/
theorem compress_eq_nil {line : Bytes} (empty : compressLWSAndRemoveCR line = []) :
    line = [] ∨ line = [13] := by
  have long := length_compressFrom line 0 line.length
  have short : (compressFrom line 0 line.length).length ≤ 1 := by
    simp only [compressLWSAndRemoveCR] at empty
    split at empty
    · have dropped := congrArg List.length empty
      rw [List.length_dropLast] at dropped
      exact Nat.sub_eq_zero_iff_le.mp dropped
    · rw [empty]
      exact Nat.zero_le _
  have size : line.length ≤ 1 := by omega
  rw [compress_single (by omega)] at empty
  rcases line with - | ⟨c, - | ⟨d, more⟩⟩
  · exact Or.inl rfl
  · right
    split at empty
    · rename_i last
      cases last
      rfl
    · cases empty
  · exact absurd size (by simp)

theorem head_compressFrom (line : Bytes) (pos stop : Nat) :
    (compressFrom line pos stop).head? = line.head? := by
  fun_induction compressFrom line pos stop with
  | case1 line pos stop more space next run ih =>
      rw [ih]
      have bound : next < line.length := skipLWS_lt (by omega)
      cases line with
      | nil => exact absurd bound (Nat.not_lt_zero _)
      | cons c line => rfl
  | case2 line pos stop more space next single ih => exact ih
  | case3 line pos stop more other ih => exact ih
  | case4 line pos stop finished => rfl

theorem mem_compressFrom {c : UInt8} (solid : isspace c = false) (line : Bytes) (pos stop : Nat)
    (member : c ∈ line) : c ∈ compressFrom line pos stop := by
  fun_induction compressFrom line pos stop with
  | case1 line pos stop more space next run ih =>
      refine ih ?_
      obtain ⟨i, inside, rfl⟩ := List.getElem_of_mem member
      rcases Nat.lt_or_ge i (pos + 1) with early | late
      · exact List.mem_append_left _ (List.mem_take_iff_getElem.mpr ⟨i, by omega, rfl⟩)
      · rcases Nat.lt_or_ge i next with between | later
        · exfalso
          have blank : isspace (charAt line i) = true := isspace_skipLWS late between
          have same : charAt line i = (line)[i] := by simp [charAt, inside]
          rw [same, solid] at blank
          cases blank
        · refine List.mem_append_right _ (List.mem_drop_iff_getElem.mpr ⟨i - next, by omega, ?_⟩)
          congr 1
          omega
  | case2 line pos stop more space next single ih => exact ih member
  | case3 line pos stop more other ih => exact ih member
  | case4 line pos stop finished => exact member

/-- A line that is not compressed away, however often: it has a character that is no white space, or
begins with white space other than a carriage return. -/
def Solid (line : Bytes) : Prop :=
  (∃ c ∈ line, isspace c = false) ∨ line.head? = some 32 ∨ line.head? = some 9

theorem Solid.ne_nil {line : Bytes} (solid : Solid line) : line ≠ [] := by
  rintro rfl
  rcases solid with ⟨c, member, -⟩ | blank | tab
  · cases member
  · cases blank
  · cases tab

theorem head_dropLast {line : Bytes} {c : UInt8} (first : line.head? = some c) (other : c ≠ 13)
    (last : line.getLast? = some 13) : line.dropLast.head? = some c := by
  match line with
  | [] => cases first
  | [d] =>
      cases first
      cases last
      exact absurd rfl other
  | d :: e :: line => exact first

theorem mem_dropLast {line : Bytes} {c : UInt8} (member : c ∈ line) (other : c ≠ 13)
    (last : line.getLast? = some 13) : c ∈ line.dropLast := by
  rcases List.eq_nil_or_concat line with rfl | ⟨front, d, rfl⟩
  · cases member
  · rw [List.concat_eq_append] at member last ⊢
    rw [List.getLast?_concat] at last
    cases last
    rw [List.dropLast_concat]
    rcases List.mem_append.mp member with inside | same
    · exact inside
    · exact absurd (List.mem_singleton.mp same) other

theorem Solid.compress {line : Bytes} (solid : Solid line) : Solid (compressLWSAndRemoveCR line) := by
  have head := head_compressFrom line 0 line.length
  simp only [compressLWSAndRemoveCR]
  rcases solid with ⟨c, member, other⟩ | blank | tab
  · have kept := mem_compressFrom other line 0 line.length member
    left
    split
    · rename_i last
      refine ⟨c, mem_dropLast kept ?_ last, other⟩
      rintro rfl
      cases other
    · exact ⟨c, kept, other⟩
  · rw [blank] at head
    right; left
    split
    · rename_i last
      exact head_dropLast head (by decide) last
    · exact head
  · rw [tab] at head
    right; right
    split
    · rename_i last
      exact head_dropLast head (by decide) last
    · exact head

/-! ## After the end of the file -/

/-- A header has a colon. -/
theorem colon_of_addParsed {headers next : Headers} {text : Bytes}
    (added : addParsed headers text = .ok next) : 58 ∈ text := by
  by_contra absent
  have none : text.findIdx? (· = 58) = none := by
    rw [List.findIdx?_eq_none_iff]
    intro c member
    exact decide_eq_false (fun same => absent (same ▸ member))
  have invalid : (HTTPHeader.parse text).type = .invalid := by
    simp only [HTTPHeader.parse, find, List.drop_zero, none, if_true]
  simp only [addParsed, if_pos invalid] at added
  cases added

/-- On a stream that is not good, a line that is not compressed away makes the loop throw. -/
theorem returns_stale {s : HeaderState} (bad : s.rs.good = false) (fold : s.concatLine = [])
    (solid : Solid s.line) : ∃ e, (loop headerLine s).Returns (.error e) := by
  refine error_of_invariant
    (P := fun t => t.rs.good = false ∧ t.concatLine = [] ∧ Solid t.line) ?_ ?_ ⟨bad, fold, solid⟩
    (ends_headerLoop (fun _ => fold))
  · rintro t a ⟨bad', fold', solid'⟩ done
    have text : compressLWSAndRemoveCR t.line ≠ [] := solid'.compress.ne_nil
    simp only [headerLine, getline_of_not_good bad', fold', List.nil_append, if_neg text,
      peek_of_not_good (not_good_of_failbit _)] at done
    rcases added : addParsed t.headers (compressLWSAndRemoveCR t.line) with e | headers
    · simp only [added] at done
      cases done
    · simp only [added] at done
      cases done
  · rintro t next ⟨bad', fold', solid'⟩ again
    obtain ⟨line, rs, read, compressed, -, later⟩ := headerLine_again again
    rw [getline_of_not_good bad'] at read
    cases read
    have still := not_good_of_failbit t.rs
    rcases later with ⟨c, rest, same, -⟩ | ⟨unchanged, -, -, concat, -⟩
    · rw [same, good_fresh] at still
      cases still
    · refine ⟨?_, concat, ?_⟩
      · rw [unchanged]
        exact not_good_peek (not_good_peek still)
      · rw [compressed]
        exact solid'.compress

/-! ## Header blocks that are cut off -/

/-- The lines of a header block that came in whole, none of them empty, and the beginning of the next. -/
structure CutBlock (lines : List Bytes) (last : Bytes) : Prop where
  within : ∀ line ∈ lines, 10 ∉ line
  content : ∀ line ∈ lines, line ≠ [] ∧ line ≠ [13]
  rest : 10 ∉ last

def cutText (lines : List Bytes) (last : Bytes) : Bytes :=
  lines.flatMap (fun line => line ++ [10]) ++ last

theorem cutText_cons (line : Bytes) (lines : List Bytes) (last : Bytes) :
    cutText (line :: lines) last = line ++ 10 :: cutText lines last := by
  simp [cutText]

theorem CutBlock.tail {line last : Bytes} {lines : List Bytes} (cut : CutBlock (line :: lines) last) :
    CutBlock lines last where
  within l member := cut.within l (List.mem_cons_of_mem _ member)
  content l member := cut.content l (List.mem_cons_of_mem _ member)
  rest := cut.rest

/-- The block is taken for a complete one: nothing came, or only the line feed of the empty line is
missing. -/
def Completed (concatLine : Bytes) (headers : Headers) (lines : List Bytes) (last : Bytes)
    (after : Headers) : Prop :=
  (concatLine = [] ∧ lines = [] ∧ last = [] ∧ after = headers) ∨
    (last = [13] ∧ HeaderLines concatLine headers (cutText lines last ++ [10]) after)

section Cut

variable {concatLine line last old : Bytes} {headers after : Headers} {lines : List Bytes}

/-- The line that was read last stays in its string. -/
theorem solid_of_parsed (folds : concatLine ≠ [] → line.head? = some 32 ∨ line.head? = some 9)
    (parsed : addParsed headers (concatLine ++ compressLWSAndRemoveCR line) = .ok after) :
    Solid (compressLWSAndRemoveCR line) := by
  by_cases fold : concatLine = []
  · rw [fold, List.nil_append] at parsed
    exact Or.inl ⟨58, colon_of_addParsed parsed, rfl⟩
  · exact Solid.compress (Or.inr (folds fold))

/-- A line after which the stream is at its end is parsed, and then parsed again. -/
theorem returns_last {s : HeaderState} {rs : IStream}
    (read : s.rs.getline s.line 10 = (line, rs)) (nothing : rs.peek.1 = none)
    (worse : rs.peek.2.good = false) (text : s.concatLine ++ compressLWSAndRemoveCR line ≠ [])
    (folds : s.concatLine ≠ [] → line.head? = some 32 ∨ line.head? = some 9) :
    ∃ e, (loop headerLine s).Returns (.error e) := by
  have second : rs.peek.2.peek = (none, { rs.peek.2 with failbit := true }) := peek_of_not_good worse
  rcases first : rs.peek with ⟨c, left⟩
  rw [first] at nothing worse second
  dsimp only at nothing worse second
  subst nothing
  rcases parsed : addParsed s.headers (s.concatLine ++ compressLWSAndRemoveCR line) with e | after
  · refine ⟨e, 1, ?_⟩
    simp only [loop, iterate, headerLine, read, if_neg text, first, second, reduceCtorEq, if_false,
      parsed]
    rfl
  · have again : headerLine s = .ok (.again ⟨compressLWSAndRemoveCR line, [], after,
        { left with failbit := true }⟩) := by
      simp only [headerLine, read, if_neg text, first, second, reduceCtorEq, if_false, parsed]
      rfl
    obtain ⟨e, failed⟩ := returns_stale (s := ⟨compressLWSAndRemoveCR line, [], after,
        { left with failbit := true }⟩) (not_good_of_failbit left) rfl (solid_of_parsed folds parsed)
    exact ⟨e, (returns_again again).mpr failed⟩

/-- The part of a line that came in before the end of the file. -/
theorem returns_partial (within : 10 ∉ last)
    (folds : concatLine ≠ [] → last.head? = some 32 ∨ last.head? = some 9) :
    (∃ e, (loop headerLine ⟨old, concatLine, headers, fresh last⟩).Returns (.error e)) ∨
      ∃ after rs, rs.good = false ∧ Completed concatLine headers [] last after ∧
        (loop headerLine ⟨old, concatLine, headers, fresh last⟩).Returns (.ok (after, rs)) := by
  have read : (fresh last).getline old 10 = _ := getline_last within
  by_cases text : concatLine ++ compressLWSAndRemoveCR last = []
  · right
    obtain ⟨fold, empty⟩ := List.append_eq_nil_iff.mp text
    subst fold
    refine ⟨headers, ⟨[], true, last.isEmpty, false⟩, rfl, ?_, 1, ?_⟩
    · rcases compress_eq_nil empty with rfl | rfl
      · exact Or.inl ⟨rfl, rfl, rfl, rfl⟩
      · exact Or.inr ⟨rfl, .stop headers⟩
    · simp only [loop, iterate, headerLine, read, if_pos text]
  · left
    exact returns_last (s := ⟨old, concatLine, headers, fresh last⟩) read rfl rfl text folds

/-- The loop on a block that is cut off throws, or takes the block for a complete one. -/
theorem returns_cut (cut : CutBlock lines last)
    (folds : concatLine ≠ [] → (cutText lines last).head? = some 32 ∨
      (cutText lines last).head? = some 9) (old : Bytes) (headers : Headers) :
    (∃ e, (loop headerLine ⟨old, concatLine, headers, fresh (cutText lines last)⟩).Returns
        (.error e)) ∨
      ∃ after rs, rs.good = false ∧ Completed concatLine headers lines last after ∧
        (loop headerLine ⟨old, concatLine, headers, fresh (cutText lines last)⟩).Returns
          (.ok (after, rs)) := by
  induction lines generalizing old concatLine headers with
  | nil => exact returns_partial cut.rest folds
  | cons line lines ih =>
      have within := cut.within line List.mem_cons_self
      obtain ⟨some, other⟩ := cut.content line List.mem_cons_self
      have text : concatLine ++ compressLWSAndRemoveCR line ≠ [] := by
        intro empty
        rcases compress_eq_nil (List.append_eq_nil_iff.mp empty).2 with none | return_
        · exact some none
        · exact other return_
      have folds' : concatLine ≠ [] → line.head? = .some 32 ∨ line.head? = .some 9 := by
        intro fold
        have first := folds fold
        rw [cutText_cons, List.head?_append_of_ne_nil _ some] at first
        exact first
      rw [cutText_cons]
      rcases left : cutText lines last with - | ⟨c, rest⟩
      · left
        exact returns_last (s := ⟨old, concatLine, headers, fresh (line ++ [10])⟩)
          (getline_line within) rfl rfl text folds'
      rw [left] at ih
      -- the text that is left is not empty, so the first case of `Completed` does not come up
      have later : ∀ {concatLine headers after}, Completed concatLine headers lines last after →
          last = [13] ∧ HeaderLines concatLine headers (c :: (rest ++ [10])) after := by
        rintro concatLine headers after (⟨-, rfl, rfl, -⟩ | ⟨closing, accepted⟩)
        · cases left
        · rw [left, List.cons_append] at accepted
          exact ⟨closing, accepted⟩
      have whole : ∀ {after}, HeaderLines concatLine headers (line ++ 10 :: c :: (rest ++ [10])) after →
          HeaderLines concatLine headers (cutText (line :: lines) last ++ [10]) after := by
        intro after accepted
        rw [cutText_cons, left, List.append_assoc]
        exact accepted
      by_cases blank : c = 32 ∨ c = 9
      · simp only [returns_again (headerLine_folded within text blank old)]
        have first : (c :: rest).head? = .some 32 ∨ (c :: rest).head? = .some 9 := by
          simpa using blank
        rcases ih cut.tail (fun _ => first) _ _ with failed | ⟨after, rs, bad, completed, returned⟩
        · exact Or.inl failed
        · obtain ⟨closing, accepted⟩ := later completed
          exact Or.inr ⟨after, rs, bad, Or.inr ⟨closing, whole (.folded within text blank accepted)⟩,
            returned⟩
      · have first := not_or.mp blank
        rcases parsed : addParsed headers (concatLine ++ compressLWSAndRemoveCR line) with e | added
        · left
          refine ⟨e, 1, ?_⟩
          simp only [loop, iterate, headerLine, getline_line within, if_neg text, peek_cons,
            Option.some.injEq, if_neg first.1, if_neg first.2, parsed]
          rfl
        · simp only [returns_again (headerLine_header within text first parsed old)]
          rcases ih cut.tail (fun other => absurd rfl other) _ _ with
            failed | ⟨after, rs, bad, completed, returned⟩
          · exact Or.inl failed
          · obtain ⟨closing, accepted⟩ := later completed
            exact Or.inr ⟨after, rs, bad,
              Or.inr ⟨closing, whole (.header within text first parsed accepted)⟩, returned⟩

/-- A block that lacks only its last line feed is taken for a complete one. -/
theorem returns_closing {text cut : Bytes} (accepted : HeaderLines concatLine headers text after)
    (missing : text = cut ++ [10]) (closing : cut.getLast? = some 13) :
    ∃ rs, rs.good = false ∧
      (loop headerLine ⟨old, concatLine, headers, fresh cut⟩).Returns (.ok (after, rs)) := by
  -- the text after a line of the block, without the line feed that is missing
  have rest_of {line rest cut : Bytes} {c : UInt8} (missing : line ++ 10 :: c :: rest = cut ++ [10])
      (closing : cut.getLast? = some 13) : ∃ shorter, c :: rest = c :: shorter ++ [10] ∧
        cut = line ++ 10 :: c :: shorter ∧ (c :: shorter).getLast? = some 13 := by
    rcases List.eq_nil_or_concat (c :: rest) with none | ⟨front, d, whole⟩
    · cases none
    rw [List.concat_eq_append] at whole
    have split : line ++ 10 :: front ++ [d] = cut ++ [10] := by
      rw [← missing, whole]
      simp
    obtain ⟨rfl, last⟩ := List.append_inj' split rfl
    cases last
    cases front with
    | nil =>
        rw [List.getLast?_concat] at closing
        cases closing
    | cons d shorter =>
        rw [List.cons_append, List.cons.injEq] at whole
        obtain ⟨rfl, rfl⟩ := whole
        refine ⟨shorter, rfl, rfl, ?_⟩
        rw [List.getLast?_append_cons, List.getLast?_cons_cons] at closing
        exact closing
  induction accepted generalizing old cut with
  | @blank line headers within empty =>
      obtain ⟨rfl, -⟩ := List.append_inj' missing rfl
      refine ⟨⟨[], true, line.isEmpty, false⟩, rfl, 1, ?_⟩
      simp only [loop, iterate, headerLine, getline_last within, empty, List.nil_append, if_true]
  | @folded concatLine headers line c rest after within text blank further ih =>
      obtain ⟨shorter, same, rfl, closing'⟩ := rest_of missing closing
      simp only [returns_again (headerLine_folded within text blank old)]
      exact ih same closing'
  | @header concatLine headers line c rest added after within text first parsed further ih =>
      obtain ⟨shorter, same, rfl, closing'⟩ := rest_of missing closing
      simp only [returns_again (headerLine_header within text first parsed old)]
      exact ih same closing'

theorem returns_of_completed (completed : Completed concatLine headers lines last after)
    (old : Bytes) :
    ∃ rs, rs.good = false ∧
      (loop headerLine ⟨old, concatLine, headers, fresh (cutText lines last)⟩).Returns
        (.ok (after, rs)) := by
  rcases completed with ⟨rfl, rfl, rfl, rfl⟩ | ⟨rfl, accepted⟩
  · have empty : compressLWSAndRemoveCR [] = [] := by
      rw [compress_single (by decide)]
      rfl
    have read : (fresh (cutText [] [])).getline old 10 = ([], ⟨[], true, true, false⟩) := rfl
    refine ⟨⟨[], true, true, false⟩, rfl, 1, ?_⟩
    simp only [loop, iterate, headerLine, read, empty, List.append_nil, if_true]
  · exact returns_closing accepted rfl (by rw [cutText, List.getLast?_append]; rfl)

end Cut

/-! ## Requests that are cut off -/

/-- The headers do not announce a body that has to come in chunks or is too large for a string. -/
def Bodiless (env : Surroundings) (m : HTTPRequest) : Prop :=
  bodyPlan m = .ok .none ∨
    ∃ length expect, bodyPlan m = .ok (.contentLength length expect) ∧ length ≤ env.maxSize

theorem not_good_sendContinue {env : Surroundings} {expect : Bool} {rs : IStream}
    (bad : rs.good = false) : (sendContinue env expect rs).good = false := by
  rw [sendContinue]
  split
  · simp [good]
  · exact bad

/-- On a stream that is not good a counted body is padded, and a chunked one is refused. -/
theorem throws_readAnnounced_iff {env : Surroundings} {m : HTTPRequest} {rs : IStream}
    (bad : rs.good = false) :
    (∃ e, (readAnnounced env m rs).Returns (.error e)) ↔ ¬ Bodiless env m := by
  rcases planned : bodyPlan m with e | plan
  · refine iff_of_true ⟨e, ?_⟩ ?_
    · exact returns_bind_of_error (stable_lift _) (stable_readBody env m rs)
        (returns_lift.mpr planned)
    · rintro (none | ⟨length, expect, counted, -⟩)
      · rw [planned] at none
        cases none
      · rw [planned] at counted
        cases counted
  simp only [returns_readAnnounced planned]
  have bad' : ∀ expect, (sendContinue env expect rs).good = false :=
    fun expect => not_good_sendContinue bad
  cases plan with
  | none =>
      refine iff_of_false ?_ (fun other => other (Or.inl planned))
      rintro ⟨e, failed⟩
      cases returns_lift.mp failed
  | chunked trailerLength expect =>
      refine iff_of_true ⟨.invalid_argument, ?_⟩ ?_
      · exact returns_bind_of_error (stable_loop _ _)
          (fun _ => stable_readRemainder m trailerLength _ _)
          (returns_readChunkedData_of_not_good (bad' expect))
      · rintro (none | ⟨length, expect', counted, -⟩)
        · rw [planned] at none
          cases none
        · rw [planned] at counted
          cases counted
  | contentLength length expect =>
      by_cases fits : length ≤ env.maxSize
      · refine iff_of_false ?_ (fun other => other (Or.inr ⟨length, expect, planned, fits⟩))
        rintro ⟨e, failed⟩
        have read : readData env.maxSize length (sendContinue env expect rs) =
            .ok ((sendContinue env expect rs).read length) := by
          rw [readData, if_neg (Nat.not_lt.mpr fits)]
        have later := (returns_bind_of_ok (stable_lift _) (fun _ => stable_pure _)
          (returns_lift.mpr read)).mp failed
        cases returns_lift.mp later
      · refine iff_of_true ⟨.length_error, ?_⟩ ?_
        · refine returns_bind_of_error (stable_lift _) (fun _ => stable_pure _)
            (returns_lift.mpr ?_)
          rw [readData, if_pos (Nat.not_le.mp fits)]
        · rintro (none | ⟨length', expect', counted, small⟩)
          · rw [planned] at none
            cases none
          · rw [planned] at counted
            cases counted
            exact fits small

/-- A stream that ends right after its request line, or in the header block that comes after it. -/
inductive CutRequest (requestLine : Bytes) : Bytes → List Bytes → Bytes → Prop
  | requestLine : CutRequest requestLine requestLine [] []
  | block {lines last} (cut : CutBlock lines last) :
      CutRequest requestLine (requestLine ++ 10 :: cutText lines last) lines last

/-- The request is returned nevertheless. -/
def Overlooked (env : Surroundings) (m : HTTPRequest) (lines : List Bytes) (last : Bytes) : Prop :=
  ∃ headers, Completed [] [] lines last headers ∧ Bodiless env { m with headers := headers }

/-- The headers of a block that is taken for a complete one are determined. -/
theorem completed_unique {lines : List Bytes} {last : Bytes} {one two : Headers}
    (first : Completed [] [] lines last one) (second : Completed [] [] lines last two) :
    one = two := by
  obtain ⟨rs, -, returned⟩ := returns_of_completed first []
  obtain ⟨rs', -, returned'⟩ := returns_of_completed second []
  have same := returned.unique (stable_loop _ _) returned'
  cases same
  rfl

/-- A block that is cut off is refused, or what it announces decides. -/
theorem throws_cut_iff {env : Surroundings} {m : HTTPRequest} {lines : List Bytes} {last : Bytes}
    (cut : CutBlock lines last) :
    (∃ e, (readMessage env m (fresh (cutText lines last))).Returns (.error e)) ↔
      ¬ Overlooked env m lines last := by
  have stable : ∀ a : Headers × IStream,
      (readAnnounced env { m with headers := a.1 } a.2).Stable :=
    fun _ => stable_readAnnounced env _ _
  rcases returns_cut cut (fun other => absurd rfl other) [] [] with
    ⟨e, failed⟩ | ⟨headers, rs, bad, completed, returned⟩
  · refine iff_of_true ⟨e, returns_bind_of_error (stable_loop _ _) stable failed⟩ ?_
    rintro ⟨headers, completed, -⟩
    obtain ⟨rs, -, returned⟩ := returns_of_completed completed []
    cases failed.unique (stable_loop _ _) returned
  · have decides : (∃ e, (readMessage env m (fresh (cutText lines last))).Returns (.error e)) ↔
        ∃ e, (readAnnounced env { m with headers := headers } rs).Returns (.error e) :=
      exists_congr (fun e => returns_bind_of_ok (stable_loop _ _) stable returned)
    rw [decides, throws_readAnnounced_iff bad, not_iff_not]
    constructor
    · intro bodiless
      exact ⟨headers, completed, bodiless⟩
    · rintro ⟨headers', completed', bodiless⟩
      rw [completed_unique completed completed']
      exact bodiless

/-- A request line that is not ended by a line feed. -/
theorem readRequestLine_last {requestLine : Bytes} {m : HTTPRequest} (within : 10 ∉ requestLine)
    (parsed : parseRequestLine requestLine = .ok m) :
    readRequestLine (fresh requestLine) = .ok (m, ⟨[], true, false, false⟩) := by
  have nonempty : requestLine.isEmpty = false := by
    cases requestLine with
    | nil => cases parsed
    | cons c requestLine => rfl
  simp only [readRequestLine, getline_last within, nonempty, parsed]
  rfl

theorem throws_message_iff {env : Surroundings} {m : HTTPRequest} :
    (∃ e, (readMessage env m ⟨[], true, false, false⟩).Returns (.error e)) ↔
      ¬ Overlooked env m [] [] := by
  have empty : compressLWSAndRemoveCR [] = [] := by
    rw [compress_single (by decide)]
    rfl
  have read : IStream.getline ⟨[], true, false, false⟩ [] 10 = ([], ⟨[], true, true, false⟩) := rfl
  have returned : (readHeaders ⟨[], true, false, false⟩).Returns
      (.ok ([], ⟨[], true, true, false⟩)) := by
    refine ⟨1, ?_⟩
    simp only [readHeaders, loop, iterate, headerLine, read, empty, List.append_nil, if_true]
  have decides : (∃ e, (readMessage env m ⟨[], true, false, false⟩).Returns (.error e)) ↔
      ∃ e, (readAnnounced env { m with headers := [] } ⟨[], true, true, false⟩).Returns (.error e) :=
    exists_congr (fun e => returns_bind_of_ok (stable_loop _ _)
      (fun _ => stable_readAnnounced env _ _) returned)
  have completed : Completed [] [] [] [] [] := Or.inl ⟨rfl, rfl, rfl, rfl⟩
  rw [decides, throws_readAnnounced_iff rfl, not_iff_not]
  constructor
  · intro bodiless
    exact ⟨[], completed, bodiless⟩
  · rintro ⟨headers, completed', bodiless⟩
    rw [completed_unique completed completed']
    exact bodiless

/-- A request that is cut off before the end of its headers is refused, unless the headers are taken for
complete and announce no body that has to be read. -/
theorem readRequest_truncated_iff (env : Surroundings) (requestLine input : Bytes)
    (lines : List Bytes) (last : Bytes) (m : HTTPRequest) (within : 10 ∉ requestLine)
    (parsed : parseRequestLine requestLine = .ok m) (cut : CutRequest requestLine input lines last) :
    (∃ e, (readRequest env (fresh input)).Returns (.error e)) ↔ ¬ Overlooked env m lines last := by
  have message : ∀ left, readRequestLine (fresh input) = .ok (m, left) →
      ((∃ e, (readRequest env (fresh input)).Returns (.error e)) ↔
        ∃ e, (readMessage env m left).Returns (.error e)) := by
    intro left line
    exact exists_congr (fun e => returns_bind_of_ok (stable_lift _)
      (fun _ => stable_readMessage env _ _) (returns_lift.mpr line))
  cases cut with
  | requestLine => rw [message _ (readRequestLine_last within parsed), throws_message_iff]
  | block cut =>
      have line : readRequestLine (fresh (requestLine ++ 10 :: cutText lines last)) =
          .ok (m, fresh (cutText lines last)) := by
        rw [readRequestLine_line within, parsed]
        rfl
      rw [message _ line, throws_cut_iff cut]

def getLine : Bytes := ascii "GET / HTTP/1.1\r"

def getRequest : HTTPRequest := { protocol := .http_1_1, method := .get, url := { path := ascii "/" } }

/-- The client closes the connection after a header line. -/
theorem readRequest_truncated_host :
    ∃ e, (readRequest ⟨2 ^ 62 - 1, true⟩ (fresh (getLine ++ 10 ::
      cutText [ascii "Host: a\r"] []))).Returns (.error e) := by
  refine (readRequest_truncated_iff ⟨2 ^ 62 - 1, true⟩ getLine _ [ascii "Host: a\r"] [] getRequest
    (by decide) (by decide) (.block ⟨by decide, by decide, by decide⟩)).mpr ?_
  rintro ⟨headers, ⟨-, none, -⟩ | ⟨closing, -⟩, -⟩
  · cases none
  · cases closing

/-- The client closes the connection after the request line, and the request is taken for complete. -/
theorem readRequest_only_line :
    CutRequest getLine (ascii "GET / HTTP/1.1\r\n") [] [] ∧
      ¬ ∃ e, (readRequest ⟨2 ^ 62 - 1, true⟩ (fresh (ascii "GET / HTTP/1.1\r\n"))).Returns
        (.error e) := by
  have nothing : CutBlock [] [] := ⟨nofun, nofun, nofun⟩
  have within : 10 ∉ getLine := by decide
  have parsed : parseRequestLine getLine = .ok getRequest := by decide
  have line : readRequestLine (fresh (getLine ++ 10 :: cutText [] [])) =
      .ok (getRequest, fresh (cutText [] [])) := by
    rw [readRequestLine_line within, parsed]
    rfl
  refine ⟨.block nothing, ?_⟩
  rintro ⟨e, failed⟩
  have message := (returns_bind_of_ok (stable_lift _) (fun _ => stable_readMessage _ _ _)
    (returns_lift.mpr line)).mp failed
  exact throws_cut_iff nothing |>.mp ⟨e, message⟩
    ⟨[], Or.inl ⟨rfl, rfl, rfl, rfl⟩, Or.inl (by decide)⟩

end Pcm.Http

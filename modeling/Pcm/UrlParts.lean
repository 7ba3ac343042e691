import Pcm.HttpUrl
import Pcm.Lib.Positions

/-!
# The parts of a URL

What `URL::parse` takes for the path, the query and the fragment, as parts of the text that follows the
authority. The positions of `/`, `?` and `#` are searched independently of each other: a difference of two of
them that are in the wrong order wraps around, and the part then goes on to the end of the text.
-/

namespace Pcm.Http.URL

open StdString

/-! ## After the authority -/

/-- The path, which begins with the first `/` wherever that is. -/
def tailPath (tail : Bytes) : Bytes :=
  if tail.head? = some 47 then tail.takeWhile (fun c => c ≠ 63 ∧ c ≠ 35) else tail.dropWhile (· ≠ 47)

/-- The query; a `#` before the `?` does not end it. -/
def tailQuery (tail : Bytes) : Bytes :=
  let after := (tail.dropWhile (· ≠ 63)).tail
  if 35 ∈ tail.takeWhile (· ≠ 63) then after else after.takeWhile (· ≠ 35)

def tailFragment (tail : Bytes) : Bytes := (tail.dropWhile (· ≠ 35)).tail

/-- The query and its arguments are added. -/
def addQuery (url : URL) (tail : Bytes) : Except StdException URL :=
  if 63 ∈ tail then
    if tailQuery tail = [] then throwing "Invalid URL: query not found after question mark"
    else (parseArguments (tailQuery tail)).map (fun arguments =>
      { url with hasQuery := true, arguments := arguments })
  else .ok url

def addFragment (url : URL) (tail : Bytes) : URL :=
  if 35 ∈ tail then { url with hasFragment := true, fragment := tailFragment tail } else url

def checkPath (url : URL) : Except StdException URL :=
  if url.path.contains 37 then
    .error (.runtime_error (ascii
      "DEV: Some URL component still contains percent encoded values, please report the URL: " ++
      url.path))
  else .ok url

/-- What follows the authority. -/
def parseTail (url : URL) (tail : Bytes) : Except StdException URL := do
  let url ← addQuery { url with path := tailPath tail } tail
  checkPath (addFragment url tail)

/-- The end of `URL::parse`, from the path on (`pcm-sensor-server.cpp:2184-2241`). -/
def finish (fullURL : Bytes) (questionMarkPos numberPos : Nat) (url : URL) (pathBeginPos : Nat) :
    Except StdException URL := do
  let pathEndPos := min questionMarkPos numberPos
  let path ← if pathBeginPos = npos then pure []
    else substr fullURL pathBeginPos (minus pathEndPos pathBeginPos)
  let mut url := { url with path := path }
  if questionMarkPos ≠ npos then
    let queryString ← substr fullURL (questionMarkPos + 1) (minus numberPos (questionMarkPos + 1))
    if queryString = [] then throwing "Invalid URL: query not found after question mark"
    let arguments ← parseArguments queryString
    url := { url with hasQuery := true, arguments := arguments }
  if numberPos ≠ npos then
    let fragment ← substr fullURL (numberPos + 1) npos
    url := { url with hasFragment := true, fragment := fragment }
  if url.path.contains 37 then
    .error (.runtime_error (ascii
      "DEV: Some URL component still contains percent encoded values, please report the URL: " ++
      url.path))
  else return url

theorem parse_eq_finish {s : Bytes} (some : s ≠ []) (noStar : s ≠ [42]) :
    parse s = (if charAt s 0 = 47 then pure ({}, 0) else parseAuthority s (find s 63 0) (find s 35 0)) >>=
      fun result => finish s (find s 63 0) (find s 35 0) result.1 result.2 := by
  rw [parse, if_neg some, if_neg noStar]
  by_cases root : charAt s 0 = 47
  · rw [if_pos root, if_pos root]
    rfl
  · rw [if_neg root, if_neg root]
    rfl

section Tail

variable {front tail : Bytes} {c : UInt8}

/-- Where a character is found that is not in front of the tail. -/
def placeOf (front tail : Bytes) (c : UInt8) : Nat :=
  if c ∈ tail then front.length + (tail.takeWhile (· ≠ c)).length else npos

theorem takeWhile_append_cons {a : Bytes} (absent : c ∉ a) (b : Bytes) :
    (a ++ c :: b).takeWhile (· ≠ c) = a := by
  rw [List.takeWhile_append_of_pos]
  · simp
  · intro x member
    exact decide_eq_true (fun same => absent (same ▸ member))

theorem dropWhile_append_cons {a : Bytes} (absent : c ∉ a) (b : Bytes) :
    (a ++ c :: b).dropWhile (· ≠ c) = c :: b := by
  rw [List.dropWhile_append_of_pos]
  · simp
  · intro x member
    exact decide_eq_true (fun same => absent (same ▸ member))

theorem find_place_after : find (front ++ tail) c front.length = placeOf front tail c := by
  rw [placeOf]
  split
  · rename_i member
    obtain ⟨a, b, rfl, absent⟩ := List.eq_append_cons_of_mem member
    rw [find_after front absent, takeWhile_append_cons absent]
  · rename_i missing
    exact find_absent_after front missing

theorem find_place (absent : c ∉ front) : find (front ++ tail) c 0 = placeOf front tail c := by
  rw [placeOf]
  split
  · rename_i member
    obtain ⟨a, b, rfl, notIn⟩ := List.eq_append_cons_of_mem member
    have both : c ∉ front ++ a := by
      rw [List.mem_append]
      exact not_or.mpr ⟨absent, notIn⟩
    rw [takeWhile_append_cons notIn, ← List.append_assoc, find_first both, List.length_append]
  · rename_i missing
    refine find_absent ?_
    rw [List.mem_append]
    exact not_or.mpr ⟨absent, missing⟩

theorem placeOf_split {a : Bytes} (absent : c ∉ a) (b : Bytes) :
    placeOf front (a ++ c :: b) c = front.length + a.length := by
  rw [placeOf, if_pos (List.mem_append_right a List.mem_cons_self), takeWhile_append_cons absent]

theorem placeOf_append {a : Bytes} (absent : c ∉ a) : placeOf front (a ++ tail) c = placeOf (front ++ a) tail c := by
  by_cases member : c ∈ tail
  · obtain ⟨b, d, rfl, notIn⟩ := List.eq_append_cons_of_mem member
    have both : c ∉ a ++ b := by
      rw [List.mem_append]
      exact not_or.mpr ⟨absent, notIn⟩
    rw [← List.append_assoc, placeOf_split both, placeOf_split notIn, List.length_append, List.length_append]
    omega
  · have neither : c ∉ a ++ tail := by
      rw [List.mem_append]
      exact not_or.mpr ⟨absent, member⟩
    rw [placeOf, placeOf, if_neg member, if_neg neither]

theorem placeOf_absent (absent : c ∉ tail) : placeOf front tail c = npos := if_neg absent

/-- The tail begins with what ends an authority. -/
def Ends (tail : Bytes) : Prop := ∀ c ∈ tail.head?, c = 47 ∨ c = 63 ∨ c = 35

/-- The first of two characters. -/
theorem min_placeOf {x y : UInt8} {a b : Bytes} {d : UInt8} (notX : x ∉ a) (notY : y ∉ a) (either : d = x ∨ d = y)
    (small : front.length + a.length < npos) :
    min (placeOf front (a ++ d :: b) x) (placeOf front (a ++ d :: b) y) = front.length + a.length := by
  have atLeast : ∀ {z : UInt8}, z ∉ a → front.length + a.length ≤ placeOf front (a ++ d :: b) z := by
    intro z absent
    by_cases here : z = d
    · rw [here] at absent ⊢
      exact Nat.le_of_eq (placeOf_split absent b).symm
    · rw [placeOf]
      split
      · rw [List.takeWhile_append_of_pos (fun c member => decide_eq_true (by rintro rfl; exact absent member)),
          List.length_append]
        omega
      · exact Nat.le_of_lt small
  rcases either with rfl | rfl
  · rw [placeOf_split notX b]
    exact Nat.min_eq_left (atLeast notY)
  · rw [placeOf_split notY b]
    exact Nat.min_eq_right (atLeast notX)

/-- A text has no `?` and no `#`, or there is a first one of them. -/
theorem marks_cases (text : Bytes) :
    (63 ∉ text ∧ 35 ∉ text ∧ text.takeWhile (fun c => c ≠ 63 ∧ c ≠ 35) = text) ∨
      ∃ a d b, text = a ++ d :: b ∧ 63 ∉ a ∧ 35 ∉ a ∧ (d = 63 ∨ d = 35) ∧
        text.takeWhile (fun c => c ≠ 63 ∧ c ≠ 35) = a := by
  induction text with
  | nil => exact Or.inl ⟨List.not_mem_nil, List.not_mem_nil, rfl⟩
  | cons c text ih =>
      by_cases mark : c = 63 ∨ c = 35
      · refine Or.inr ⟨[], c, text, rfl, List.not_mem_nil, List.not_mem_nil, mark, ?_⟩
        rw [List.takeWhile_cons_of_neg]
        rcases mark with rfl | rfl
        · decide
        · decide
      · have plain : c ≠ 63 ∧ c ≠ 35 := not_or.mp mark
        have kept : (c :: text).takeWhile (fun c => c ≠ 63 ∧ c ≠ 35) =
            c :: text.takeWhile (fun c => c ≠ 63 ∧ c ≠ 35) :=
          List.takeWhile_cons_of_pos (decide_eq_true plain)
        rw [kept]
        rcases ih with ⟨noQuery, noHash, same⟩ | ⟨a, d, b, split, noQuery, noHash, isMark, same⟩
        · refine Or.inl ⟨?_, ?_, by rw [same]⟩
          · exact List.not_mem_cons_of_ne_of_not_mem plain.1.symm noQuery
          · exact List.not_mem_cons_of_ne_of_not_mem plain.2.symm noHash
        · refine Or.inr ⟨c :: a, d, b, by rw [split]; rfl, ?_, ?_, isMark, by rw [same]⟩
          · exact List.not_mem_cons_of_ne_of_not_mem plain.1.symm noQuery
          · exact List.not_mem_cons_of_ne_of_not_mem plain.2.symm noHash

/-- The path that is cut out. -/
theorem substr_path (fits : (front ++ tail).length < 2 ^ 63) (ends : Ends tail) :
    (if placeOf front tail 47 = npos then pure []
      else substr (front ++ tail) (placeOf front tail 47)
        (minus (min (placeOf front tail 63) (placeOf front tail 35)) (placeOf front tail 47))) =
      (.ok (tailPath tail) : Except StdException Bytes) := by
  have bound : (npos : Nat) = 2 ^ 64 - 1 := rfl
  by_cases slash : 47 ∈ tail
  · obtain ⟨a, b, rfl, absent⟩ := List.eq_append_cons_of_mem slash
    have lengths : front.length + (a.length + (b.length + 1)) < 2 ^ 63 := by
      simpa only [List.length_append, List.length_cons] using fits
    rw [placeOf_split absent b, if_neg (by omega)]
    cases a with
    | nil =>
        -- the tail begins with the path
        rw [List.nil_append, List.length_nil, Nat.add_zero]
        rcases marks_cases (47 :: b) with ⟨noQuery, noHash, same⟩ | ⟨a, d, r, split, noQuery, noHash, mark, same⟩
        · have begins : tailPath (47 :: b) = 47 :: b := same
          rw [placeOf_absent noQuery, placeOf_absent noHash, Nat.min_self, begins]
          refine substr_rest front ?_
          rw [minus_of_le (by omega) (by omega), List.length_cons]
          omega
        · have begins : tailPath (47 :: b) = a := same
          have shorter : a.length ≤ b.length + 1 := by
            rw [← List.length_cons (a := (47 : UInt8)), split, List.length_append]
            exact Nat.le_add_right _ _
          rw [begins, split, min_placeOf noQuery noHash mark (by omega), minus_of_le (by omega) (by omega),
            Nat.add_sub_cancel_left]
          exact substr_part front
    | cons d a =>
        -- the tail begins with a mark, so that the difference wraps around
        have mark : d = 63 ∨ d = 35 := by
          rcases ends d rfl with rfl | mark
          · exact absurd List.mem_cons_self absent
          · exact mark
        have first : min (placeOf front (d :: a ++ 47 :: b) 63) (placeOf front (d :: a ++ 47 :: b) 35) =
            front.length := min_placeOf (a := []) List.not_mem_nil List.not_mem_nil mark (by
              rw [List.length_nil]
              omega)
        have begins : tailPath (d :: a ++ 47 :: b) = 47 :: b := by
          rw [tailPath, if_neg, dropWhile_append_cons absent]
          intro same
          obtain rfl := Option.some.inj same
          exact absent List.mem_cons_self
        rw [first, begins, ← List.append_assoc, ← List.length_append]
        refine substr_rest _ (le_minus_of_lt ?_ ?_)
        · rw [List.length_append, List.length_cons]
          omega
        · rw [List.length_append, List.length_cons]
          rw [List.length_cons] at lengths ⊢
          omega
  · rw [placeOf_absent slash, if_pos rfl, tailPath, if_neg]
    · refine congrArg Except.ok (List.dropWhile_eq_nil_iff.mpr ?_).symm
      intro c member
      exact decide_eq_true (fun same => slash (same ▸ member))
    · intro head
      exact slash (List.mem_of_mem_head? head)

/-- The query that is cut out. -/
theorem substr_query (fits : (front ++ tail).length < 2 ^ 63) (query : 63 ∈ tail) :
    substr (front ++ tail) (placeOf front tail 63 + 1)
      (minus (placeOf front tail 35) (placeOf front tail 63 + 1)) = .ok (tailQuery tail) := by
  have bound : (npos : Nat) = 2 ^ 64 - 1 := rfl
  obtain ⟨a, b, rfl, absent⟩ := List.eq_append_cons_of_mem query
  have lengths : front.length + (a.length + (b.length + 1)) < 2 ^ 63 := by
    simpa only [List.length_append, List.length_cons] using fits
  have parts : front ++ (a ++ 63 :: b) = (front ++ (a ++ [63])) ++ b := by simp
  have begins : placeOf front (a ++ 63 :: b) 63 + 1 = (front ++ (a ++ [63])).length := by
    rw [placeOf_split absent]
    simp only [List.length_append, List.length_singleton]
    omega
  have length : (front ++ (a ++ [63])).length = front.length + a.length + 1 := by
    simp only [List.length_append, List.length_singleton]
    omega
  have after : ((a ++ 63 :: b).dropWhile (· ≠ 63)).tail = b := by rw [dropWhile_append_cons absent, List.tail_cons]
  rw [begins, parts, tailQuery, takeWhile_append_cons absent, after]
  by_cases early : 35 ∈ a
  · -- the `#` comes first, and the difference wraps around
    obtain ⟨x, y, rfl, noHash⟩ := List.eq_append_cons_of_mem early
    rw [if_pos early]
    refine substr_rest _ (le_minus_of_lt ?_ ?_)
    · rw [List.append_assoc, List.cons_append, placeOf_split noHash, length, List.length_append, List.length_cons]
      omega
    · rw [length]
      omega
  · rw [if_neg early]
    by_cases later : 35 ∈ b
    · obtain ⟨x, y, rfl, noHash⟩ := List.eq_append_cons_of_mem later
      have place : placeOf front (a ++ 63 :: (x ++ 35 :: y)) 35 = (front ++ (a ++ [63])).length + x.length := by
        have none : (35 : UInt8) ∉ a ++ 63 :: x := by
          rw [List.mem_append, List.mem_cons]
          rintro (inA | same | inX)
          · exact early inA
          · exact absurd same (by decide)
          · exact noHash inX
        have split : a ++ 63 :: (x ++ 35 :: y) = (a ++ 63 :: x) ++ 35 :: y := by simp
        rw [split, placeOf_split none, length, List.length_append, List.length_cons]
        omega
      rw [List.length_append] at lengths
      rw [place, minus_of_le (by omega) (by omega), Nat.add_sub_cancel_left, takeWhile_append_cons noHash]
      exact substr_part _
    · have absentAll : (35 : UInt8) ∉ a ++ 63 :: b := by
        rw [List.mem_append, List.mem_cons]
        rintro (inA | same | inB)
        · exact early inA
        · exact absurd same (by decide)
        · exact later inB
      have whole : b.takeWhile (· ≠ 35) = b := by
        rw [List.takeWhile_eq_self_iff]
        intro c member
        exact decide_eq_true (fun same => later (same ▸ member))
      rw [placeOf_absent absentAll, whole]
      refine substr_rest _ ?_
      rw [minus_of_le (by omega) (by omega)]
      omega

/-- The fragment that is cut out. -/
theorem substr_fragment (fits : (front ++ tail).length < 2 ^ 63) (hash : 35 ∈ tail) :
    substr (front ++ tail) (placeOf front tail 35 + 1) npos = .ok (tailFragment tail) := by
  have bound : (npos : Nat) = 2 ^ 64 - 1 := rfl
  obtain ⟨a, b, rfl, absent⟩ := List.eq_append_cons_of_mem hash
  have lengths : front.length + (a.length + (b.length + 1)) < 2 ^ 63 := by
    simpa only [List.length_append, List.length_cons] using fits
  have parts : front ++ (a ++ 35 :: b) = (front ++ (a ++ [35])) ++ b := by simp
  have begins : placeOf front (a ++ 35 :: b) 35 + 1 = (front ++ (a ++ [35])).length := by
    rw [placeOf_split absent]
    simp only [List.length_append, List.length_singleton]
    omega
  rw [begins, parts, tailFragment, dropWhile_append_cons absent, List.tail_cons]
  exact substr_rest _ (by omega)

theorem placeOf_ne_npos (fits : (front ++ tail).length < 2 ^ 63) : placeOf front tail c ≠ npos ↔ c ∈ tail := by
  have bound : (npos : Nat) = 2 ^ 64 - 1 := rfl
  rw [List.length_append] at fits
  rw [placeOf]
  split
  · rename_i member
    have shorter := (List.takeWhile_prefix (fun x => decide (x ≠ c)) (l := tail)).length_le
    exact iff_of_true (by omega) member
  · rename_i missing
    exact iff_of_false (fun other => other rfl) missing

/-- The fragment and the check at the end of `URL::parse`. -/
def finishFragment (fullURL : Bytes) (numberPos : Nat) (url : URL) : Except StdException URL :=
  (if numberPos ≠ npos then
      (substr fullURL (numberPos + 1) npos).map (fun fragment =>
        { url with hasFragment := true, fragment := fragment })
    else .ok url) >>= checkPath

/-- The same, from the query on. -/
def finishQuery (fullURL : Bytes) (questionMarkPos numberPos : Nat) (url : URL) : Except StdException URL :=
  (if questionMarkPos ≠ npos then
      substr fullURL (questionMarkPos + 1) (minus numberPos (questionMarkPos + 1)) >>= fun queryString =>
        if queryString = [] then throwing "Invalid URL: query not found after question mark"
        else (parseArguments queryString).map (fun arguments =>
          { url with hasQuery := true, arguments := arguments })
    else .ok url) >>= finishFragment fullURL numberPos

theorem finish_bind (s : Bytes) (q n : Nat) (url : URL) (p : Nat) :
    finish s q n url p = (if p = npos then pure [] else substr s p (minus (min q n) p)) >>= fun path =>
      finishQuery s q n { url with path := path } := by
  have fragment : ∀ url : URL, finishFragment s n url =
      if n ≠ npos then substr s (n + 1) npos >>= fun fragment =>
        checkPath { url with hasFragment := true, fragment := fragment } else checkPath url := by
    intro url
    rw [finishFragment]
    split
    · cases substr s (n + 1) npos <;> rfl
    · rfl
  have query : ∀ url : URL, finishQuery s q n url =
      if q ≠ npos then substr s (q + 1) (minus n (q + 1)) >>= fun queryString =>
        if queryString = [] then throwing "Invalid URL: query not found after question mark"
        else parseArguments queryString >>= fun arguments =>
          finishFragment s n { url with hasQuery := true, arguments := arguments }
      else finishFragment s n url := by
    intro url
    rw [finishQuery]
    split
    · rcases substr s (q + 1) (minus n (q + 1)) with e | queryString
      · rfl
      · change (if queryString = [] then _ else _) >>= _ = if queryString = [] then _ else _
        split
        · rfl
        · cases parseArguments queryString <;> rfl
    · rfl
  simp only [query, fragment]
  rw [finish]
  by_cases none : p = npos
  · rw [if_pos none, if_pos none]
    rfl
  · rw [if_neg none, if_neg none]
    rfl

/-- The end of `URL::parse` depends on what follows the authority only. -/
theorem finish_eq (fits : (front ++ tail).length < 2 ^ 63) (ends : Ends tail) (url : URL) :
    finish (front ++ tail) (placeOf front tail 63) (placeOf front tail 35) url (placeOf front tail 47) =
      parseTail url tail := by
  rw [finish_bind, substr_path fits ends]
  change finishQuery _ _ _ _ = _
  have fragment : ∀ url : URL, finishFragment (front ++ tail) (placeOf front tail 35) url =
      checkPath (addFragment url tail) := by
    intro url
    by_cases hash : 35 ∈ tail
    · rw [finishFragment, if_pos ((placeOf_ne_npos fits).mpr hash), substr_fragment fits hash, addFragment,
        if_pos hash]
      rfl
    · rw [finishFragment, if_neg (fun other => hash ((placeOf_ne_npos fits).mp other)), addFragment, if_neg hash]
      rfl
  have rest : finishFragment (front ++ tail) (placeOf front tail 35) = fun url => checkPath (addFragment url tail) :=
    funext fragment
  rw [finishQuery, rest, parseTail]
  by_cases query : 63 ∈ tail
  · rw [if_pos ((placeOf_ne_npos fits).mpr query), substr_query fits query, addQuery, if_pos query]
    rfl
  · rw [if_neg (fun other => query ((placeOf_ne_npos fits).mp other)), addQuery, if_neg query]

end Tail

/-! ## Scheme and authority -/

/-- A text that begins with a scheme and an authority. -/
structure Split (s scheme authority tail : Bytes) : Prop where
  text : s = scheme ++ 58 :: 47 :: 47 :: (authority ++ tail)
  nonempty : scheme ≠ []
  valid : scheme.all (validSchemeChars.contains ·) = true
  plain : ∀ c ∈ authority, c ≠ 47 ∧ c ≠ 63 ∧ c ≠ 35
  ends : Ends tail

section Authority

variable {s scheme authority tail : Bytes}

/-- `URL::parse` for a text that begins with `/`. -/
theorem parse_root (root : s.head? = some 47) (fits : s.length < 2 ^ 63) : parse s = parseTail {} s := by
  have ends : Ends s := by
    intro c here
    rw [root] at here
    exact Or.inl (Option.some.inj here).symm
  obtain ⟨rest, rfl⟩ : ∃ rest, s = 47 :: rest := by
    cases s with
    | nil => cases root
    | cons c rest => exact ⟨rest, by rw [Option.some.inj root]⟩
  have begins : placeOf [] (47 :: rest) 47 = 0 := placeOf_split (a := []) List.not_mem_nil rest
  have noStar : 47 :: rest ≠ [(42 : UInt8)] := by
    intro same
    cases (List.cons.inj same).1
  have query : find ([] ++ 47 :: rest) 63 0 = placeOf [] (47 :: rest) 63 := find_place List.not_mem_nil
  have hash : find ([] ++ 47 :: rest) 35 0 = placeOf [] (47 :: rest) 35 := find_place List.not_mem_nil
  have whole : finish ([] ++ 47 :: rest) (placeOf [] (47 :: rest) 63) (placeOf [] (47 :: rest) 35) {}
      (placeOf [] (47 :: rest) 47) = parseTail {} (47 :: rest) := finish_eq fits ends {}
  rw [begins, ← query, ← hash] at whole
  have first : charAt (47 :: rest) 0 = 47 := rfl
  rw [List.nil_append] at whole
  rw [parse_eq_finish (List.cons_ne_nil 47 rest) noStar, if_pos first, pure_bind, whole]

theorem not_mem_scheme (valid : scheme.all (validSchemeChars.contains ·) = true) {c : UInt8}
    (other : validSchemeChars.contains c = false) : c ∉ scheme := by
  intro member
  rw [List.all_eq_true.mp valid c member] at other
  cases other

/-- The first of the characters that end an authority. -/
theorem min_ends {front : Bytes} (ends : Ends tail) (small : front.length < npos) :
    min (placeOf front tail 47) (min (placeOf front tail 63) (placeOf front tail 35)) =
      if tail = [] then npos else front.length := by
  cases tail with
  | nil => rfl
  | cons d rest =>
      have here : placeOf front (d :: rest) d = front.length := placeOf_split (a := []) List.not_mem_nil rest
      have atLeast : ∀ c, front.length ≤ placeOf front (d :: rest) c := by
        intro c
        rw [placeOf]
        split
        · exact Nat.le_add_right _ _
        · exact Nat.le_of_lt small
      rw [if_neg (List.cons_ne_nil d rest)]
      have slash := atLeast 47
      have query := atLeast 63
      have hash := atLeast 35
      rcases ends d rfl with rfl | rfl | rfl
      · omega
      · omega
      · omega

theorem Split.ne_nil (split : Split s scheme authority tail) : s ≠ [] := by
  rw [split.text]
  exact List.append_ne_nil_of_right_ne_nil _ (List.cons_ne_nil _ _)

theorem Split.ne_star (split : Split s scheme authority tail) : s ≠ [42] := by
  intro same
  have length := congrArg List.length same
  rw [split.text, List.length_append] at length
  simp only [List.length_cons, List.length_nil] at length
  omega

theorem Split.head (split : Split s scheme authority tail) : charAt s 0 ≠ 47 := by
  obtain ⟨rfl, nonempty, valid, -, -⟩ := split
  cases scheme with
  | nil => exact absurd rfl nonempty
  | cons c scheme =>
      intro slash
      refine not_mem_scheme (c := 47) valid (by decide) ?_
      rw [← slash]
      exact List.mem_cons_self

/-- The front part has no `?` and no `#`. -/
theorem Split.not_mem_front (split : Split s scheme authority tail) {c : UInt8} (mark : c = 63 ∨ c = 35) :
    c ∉ scheme ++ [58, 47, 47] ++ authority := by
  rw [List.mem_append, List.mem_append]
  rintro ((inScheme | inMark) | inAuthority)
  · refine not_mem_scheme split.valid ?_ inScheme
    rcases mark with rfl | rfl
    · decide
    · decide
  · rcases mark with rfl | rfl
    · exact absurd inMark (by decide)
    · exact absurd inMark (by decide)
  · have plain := split.plain c inAuthority
    rcases mark with rfl | rfl
    · exact plain.2.1 rfl
    · exact plain.2.2 rfl

theorem Split.front (split : Split s scheme authority tail) :
    s = (scheme ++ [58, 47, 47] ++ authority) ++ tail := by
  rw [split.text]
  simp

/-- `parseAuthority` for a text with an authority. -/
theorem parseAuthority_split (split : Split s scheme authority tail) (fits : s.length < 2 ^ 63) :
    parseAuthority s (find s 63 0) (find s 35 0) = (do
      let (url, rest) ← parseUser { scheme := scheme, hasScheme := true } authority
      let url ← parseHostPort url rest
      return (url, placeOf (scheme ++ [58, 47, 47] ++ authority) tail 47)) := by
  have query : find s 63 0 = placeOf (scheme ++ [58, 47, 47] ++ authority) tail 63 := by
    rw [split.front]
    exact find_place (split.not_mem_front (Or.inl rfl))
  have hash : find s 35 0 = placeOf (scheme ++ [58, 47, 47] ++ authority) tail 35 := by
    rw [split.front]
    exact find_place (split.not_mem_front (Or.inr rfl))
  rw [query, hash]
  obtain ⟨rfl, nonempty, valid, plain, ends⟩ := split
  have bound : (npos : Nat) = 2 ^ 64 - 1 := rfl
  have positive : 0 < scheme.length := List.length_pos_iff.mpr nonempty
  have lengths : scheme.length + (authority.length + tail.length + 3) < 2 ^ 63 := by
    simpa only [List.length_append, List.length_cons] using fits
  have colon : find (scheme ++ 58 :: 47 :: 47 :: (authority ++ tail)) 58 0 = scheme.length :=
    find_first (not_mem_scheme valid (by decide)) _
  have name : substr (scheme ++ 58 :: 47 :: 47 :: (authority ++ tail)) 0 scheme.length = .ok scheme := substr_front
  have frontLength : (scheme ++ [58, 47, 47] ++ authority).length = scheme.length + 1 + 2 + authority.length := by
    simp only [List.length_append, List.length_cons, List.length_nil]
  have before : scheme ++ 58 :: 47 :: 47 :: (authority ++ tail) = (scheme ++ [58, 47, 47]) ++ (authority ++ tail) := by
    simp
  have beforeLength : (scheme ++ [58, 47, 47]).length = scheme.length + 1 + 2 := by
    simp only [List.length_append, List.length_cons, List.length_nil]
  have pair : findPair (scheme ++ 58 :: 47 :: 47 :: (authority ++ tail)) 47 47 (scheme.length + 1) =
      scheme.length + 1 := by
    have here := findPair_here 47 47 (scheme ++ [58]) (authority ++ tail)
    rwa [List.length_append, List.length_singleton, List.append_assoc, List.singleton_append] at here
  have slash : find (scheme ++ 58 :: 47 :: 47 :: (authority ++ tail)) 47 (scheme.length + 1 + 2) =
      placeOf (scheme ++ [58, 47, 47] ++ authority) tail 47 := by
    rw [before, ← beforeLength, find_place_after, placeOf_append (fun member => (plain 47 member).1 rfl)]
  have cut : substr (scheme ++ 58 :: 47 :: 47 :: (authority ++ tail)) (scheme.length + 1 + 2)
      (minus (if tail = [] then npos else (scheme ++ [58, 47, 47] ++ authority).length) (scheme.length + 1 + 2)) =
      .ok authority := by
    rw [before, ← beforeLength]
    split
    · rename_i empty
      rw [empty, List.append_nil, beforeLength, minus_of_le (by omega) (by omega), ← beforeLength]
      exact substr_rest _ (by omega)
    · rw [frontLength, beforeLength, minus_of_le (by omega) (by omega), Nat.add_sub_cancel_left, ← beforeLength]
      exact substr_part _
  simp only [parseAuthority, colon, name, pair, slash]
  rw [min_ends ends (by omega), cut]
  have found : (decide (scheme.length = npos) || decide (scheme.length = 0)) = false := by
    rw [Bool.or_eq_false_iff, decide_eq_false_iff_not, decide_eq_false_iff_not]
    omega
  have checked : (!scheme.all (validSchemeChars.contains ·)) = false := by rw [valid]; rfl
  have there : ¬ scheme.length + 1 = npos := by omega
  rw [if_neg (by rw [found]; exact Bool.false_ne_true)]
  change (if (!scheme.all (validSchemeChars.contains ·)) = true then _ else _) = _
  rw [if_neg (by rw [checked]; exact Bool.false_ne_true), if_neg there, if_neg (fun other => other rfl)]
  rfl

/-- `URL::parse` for a text with an authority. -/
theorem parse_split (split : Split s scheme authority tail) (fits : s.length < 2 ^ 63) :
    parse s = (do
      let (url, rest) ← parseUser { scheme := scheme, hasScheme := true } authority
      let url ← parseHostPort url rest
      parseTail url tail) := by
  have query : find s 63 0 = placeOf (scheme ++ [58, 47, 47] ++ authority) tail 63 := by
    rw [split.front]
    exact find_place (split.not_mem_front (Or.inl rfl))
  have hash : find s 35 0 = placeOf (scheme ++ [58, 47, 47] ++ authority) tail 35 := by
    rw [split.front]
    exact find_place (split.not_mem_front (Or.inr rfl))
  have whole : ∀ url, finish s (find s 63 0) (find s 35 0) url
      (placeOf (scheme ++ [58, 47, 47] ++ authority) tail 47) = parseTail url tail := by
    intro url
    rw [query, hash, split.front]
    rw [split.front] at fits
    exact finish_eq fits split.ends url
  rw [parse_eq_finish split.ne_nil split.ne_star, if_neg split.head, parseAuthority_split split fits]
  rcases parseUser { scheme := scheme, hasScheme := true } authority with e | ⟨url, rest⟩
  · rfl
  · change (parseHostPort url rest >>= _) >>= _ = parseHostPort url rest >>= _
    rcases parseHostPort url rest with e | url
    · rfl
    · exact whole url

/-- A text whose scheme and authority are read has both. -/
theorem scheme_of_parseAuthority {q n : Nat} {result : URL × Nat} (fits : s.length < 2 ^ 63)
    (read : parseAuthority s q n = .ok result) :
    ∃ scheme rest, s = scheme ++ 58 :: 47 :: 47 :: rest ∧ scheme ≠ [] ∧
      scheme.all (validSchemeChars.contains ·) = true := by
  have bound : (npos : Nat) = 2 ^ 64 - 1 := rfl
  by_cases colon : 58 ∈ s
  · obtain ⟨scheme, rest, rfl, absent⟩ := List.eq_append_cons_of_mem colon
    have lengths : scheme.length + (rest.length + 1) < 2 ^ 63 := by
      simpa only [List.length_append, List.length_cons] using fits
    simp only [parseAuthority, find_first absent, substr_front] at read
    split at read
    · cases read
    rename_i found
    change (if (!scheme.all (validSchemeChars.contains ·)) = true then _ else _) = _ at read
    split at read
    · cases read
    rename_i valid
    split at read
    · cases read
    split at read
    · cases read
    rename_i here
    have tail : (scheme ++ 58 :: rest).drop (scheme.length + 1) = rest := by
      rw [← List.drop_drop, List.drop_left]
      rfl
    obtain ⟨later, pair⟩ := pair_of_findPair (by omega) (not_not.mp here).symm
    rw [tail] at pair
    refine ⟨scheme, later, by rw [pair], ?_, ?_⟩
    · rintro rfl
      exact found rfl
    · simpa using valid
  · simp only [parseAuthority, find_absent colon] at read
    cases read

theorem split_of_scheme {rest : Bytes} (text : s = scheme ++ 58 :: 47 :: 47 :: rest) (nonempty : scheme ≠ [])
    (valid : scheme.all (validSchemeChars.contains ·) = true) :
    Split s scheme (rest.takeWhile (fun c => c ≠ 47 ∧ c ≠ 63 ∧ c ≠ 35))
      (rest.dropWhile (fun c => c ≠ 47 ∧ c ≠ 63 ∧ c ≠ 35)) where
  text := by rw [text, List.takeWhile_append_dropWhile]
  nonempty := nonempty
  valid := valid
  plain := by
    intro c member
    have kept := List.mem_takeWhile_imp member
    exact of_decide_eq_true kept
  ends := by
    intro c here
    have stops := List.head?_dropWhile_not (fun c => decide (c ≠ 47 ∧ c ≠ 63 ∧ c ≠ 35)) rest
    rw [Option.mem_def.mp here] at stops
    have mark := of_decide_eq_false stops
    by_contra other
    exact mark ⟨fun same => other (Or.inl same), fun same => other (Or.inr (Or.inl same)),
      fun same => other (Or.inr (Or.inr same))⟩

/-- What is accepted is empty, `*`, begins with `/`, or has a scheme and an authority. -/
theorem parse_cases {u : URL} (fits : s.length < 2 ^ 63) (accepted : parse s = .ok u) :
    s = [] ∨ s = [42] ∨ s.head? = some 47 ∨ ∃ scheme authority tail, Split s scheme authority tail := by
  by_cases empty : s = []
  · exact Or.inl empty
  by_cases star : s = [42]
  · exact Or.inr (Or.inl star)
  refine Or.inr (Or.inr ?_)
  by_cases root : s.head? = some 47
  · exact Or.inl root
  have first : charAt s 0 ≠ 47 := by
    cases s with
    | nil => exact absurd rfl empty
    | cons c s => exact fun slash => root (congrArg some slash)
  rw [parse_eq_finish empty star, if_neg first] at accepted
  rcases result : parseAuthority s (find s 63 0) (find s 35 0) with e | result
  · rw [result] at accepted
    cases accepted
  · obtain ⟨scheme, rest, text, nonempty, valid⟩ := scheme_of_parseAuthority fits result
    exact Or.inr ⟨scheme, _, _, split_of_scheme text nonempty valid⟩

end Authority

/-! ## Arguments -/

section Arguments

variable {query rest one two : Bytes}

theorem parseArgument_none (absent : 61 ∉ query) : ∃ e, parseArgument query = .error e := by
  simp only [parseArgument, find_absent absent]
  exact ⟨_, rfl⟩

theorem parseArgument_pair (fits : (one ++ 61 :: two).length < 2 ^ 63) (absent : 61 ∉ one) :
    parseArgument (one ++ 61 :: two) = (do
      let one ← percentDecode one
      let two ← percentDecode two
      return (one, two)) := by
  have bound : (npos : Nat) = 2 ^ 64 - 1 := rfl
  rw [List.length_append] at fits
  have after : (one ++ 61 :: two).drop (one.length + 1) = two := by
    rw [List.drop_length_add_append]
    rfl
  simp only [parseArgument, find_first absent, List.take_left, after]
  rw [if_neg (by omega)]

theorem parseArguments_nil : parseArguments [] = .ok [] := by
  rw [parseArguments, if_pos rfl]

/-- The last argument. -/
theorem parseArguments_last (fits : query.length < 2 ^ 63) (some : query ≠ []) (absent : 38 ∉ query) :
    parseArguments query = (parseArgument query).map ([·]) := by
  have bound : (npos : Nat) = 2 ^ 64 - 1 := rfl
  rw [parseArguments, if_neg some]
  simp only [find_absent absent]
  rw [List.take_of_length_le (by omega)]
  cases parseArgument query <;> rfl

/-- An argument that is followed by others, or by nothing. -/
theorem parseArguments_amp (fits : (query ++ 38 :: rest).length < 2 ^ 63) (absent : 38 ∉ query) :
    parseArguments (query ++ 38 :: rest) = (do
      let argument ← parseArgument query
      let arguments ← parseArguments rest
      return argument :: arguments) := by
  have bound : (npos : Nat) = 2 ^ 64 - 1 := rfl
  rw [List.length_append] at fits
  have after : eraseFront (query ++ 38 :: rest) (query.length + 1) = rest := by
    rw [eraseFront, List.drop_length_add_append]
    rfl
  rw [parseArguments, if_neg (List.append_ne_nil_of_right_ne_nil _ (List.cons_ne_nil _ _))]
  simp only [find_first absent, List.take_left, after]
  cases parseArgument query with
  | error e => rfl
  | ok argument => exact if_neg (by omega)

end Arguments

end Pcm.Http.URL

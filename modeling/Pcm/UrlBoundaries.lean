import Pcm.Lib.Throwing
import Pcm.UrlAuthority

/-!
# Boundaries of the components of a URL

A fragment begins after the first `#`, a query lies between the first `?` before that and the `#`, and a path
ends before both. `URL::parse` searches the `?` and the `/` in the whole text, so that it also finds those that
belong to the fragment or to the query.
-/

namespace Pcm.Http.URL

open StdString
open Throwing (of_map_ok)

/-! ## The components -/

/-- The text before the first `#`. -/
def beforeHash (s : Bytes) : Bytes := s.takeWhile (· ≠ 35)

/-- The text before the first `?` and the first `#`. -/
def beforeMarks (s : Bytes) : Bytes := s.takeWhile (fun c => c ≠ 63 ∧ c ≠ 35)

/-- The text after `://`, where the authority begins. -/
def afterScheme (s : Bytes) : Bytes := (s.dropWhile (· ≠ 58)).drop 3

/-- The path of a text: all of it, or after an authority what begins with the first `/`, if there is one before
the marks. -/
def pathBetween (s : Bytes) : Bytes :=
  if s.head? = some 47 then beforeMarks s else (afterScheme (beforeMarks s)).dropWhile (· ≠ 47)

/-- A URL has the components of a text. -/
structure Boundaries (s : Bytes) (u : URL) : Prop where
  fragment : u.fragment = (s.dropWhile (· ≠ 35)).tail
  hasQuery : u.hasQuery = true ↔ 63 ∈ beforeHash s
  arguments : 63 ∈ beforeHash s →
    parseArguments ((beforeHash s).dropWhile (· ≠ 63)).tail = .ok u.arguments
  path : u.path = pathBetween s

/-- A `?` that is there comes before any `#`. -/
def QueryFirst (s : Bytes) : Prop := 63 ∈ s → 63 ∈ beforeHash s

/-- A `/` after `://` comes before any `?` and `#`, if there is one. -/
def SlashFirst (s : Bytes) : Prop := 47 ∈ afterScheme s → 47 ∈ afterScheme (beforeMarks s)

/-! ## After the authority -/

section Tail

variable {url u : URL} {front tail : Bytes}

theorem addQuery_ok (read : addQuery url tail = .ok u) :
    u.path = url.path ∧ u.fragment = url.fragment ∧ u.hasQuery = (if 63 ∈ tail then true else url.hasQuery) ∧
      (63 ∈ tail → parseArguments (tailQuery tail) = .ok u.arguments) := by
  rw [addQuery] at read
  split at read
  · rename_i query
    split at read
    · cases read
    · obtain ⟨arguments, parsed, rfl⟩ := of_map_ok read
      exact ⟨rfl, rfl, (if_pos query).symm, fun _ => parsed⟩
  · rename_i none
    rw [← Except.ok.inj read]
    exact ⟨rfl, rfl, (if_neg none).symm, fun query => absurd query none⟩

/-- The fields that the text after the authority fills. -/
theorem parseTail_ok (read : parseTail url tail = .ok u) :
    u.path = tailPath tail ∧ u.fragment = (if 35 ∈ tail then tailFragment tail else url.fragment) ∧
      u.hasQuery = (if 63 ∈ tail then true else url.hasQuery) ∧
      (63 ∈ tail → parseArguments (tailQuery tail) = .ok u.arguments) := by
  rcases queried : addQuery { url with path := tailPath tail } tail with e | url'
  · rw [parseTail, queried] at read
    cases read
  · rw [parseTail, queried] at read
    change checkPath (addFragment url' tail) = .ok u at read
    obtain ⟨path, fragment, hasQuery, arguments⟩ := addQuery_ok queried
    have same : u = addFragment url' tail := by
      rw [checkPath] at read
      split at read
      · cases read
      · exact (Except.ok.inj read).symm
    rw [same, addFragment]
    split
    · exact ⟨path, rfl, hasQuery, arguments⟩
    · exact ⟨path, fragment, hasQuery, arguments⟩

theorem beforeHash_append (absent : 35 ∉ front) : beforeHash (front ++ tail) = front ++ beforeHash tail :=
  List.takeWhile_append_of_pos (fun _ member => decide_eq_true (by rintro rfl; exact absent member))

theorem beforeMarks_append (noQuery : 63 ∉ front) (noHash : 35 ∉ front) :
    beforeMarks (front ++ tail) = front ++ beforeMarks tail :=
  List.takeWhile_append_of_pos (fun _ member => decide_eq_true
    ⟨by rintro rfl; exact noQuery member, by rintro rfl; exact noHash member⟩)

theorem dropWhile_ne_append {c : UInt8} (absent : c ∉ front) :
    (front ++ tail).dropWhile (· ≠ c) = tail.dropWhile (· ≠ c) :=
  List.dropWhile_append_of_pos (fun _ member => decide_eq_true (by rintro rfl; exact absent member))

theorem beforeHash_split {a : Bytes} (absent : 35 ∉ a) (b : Bytes) : beforeHash (a ++ 35 :: b) = a :=
  takeWhile_append_cons absent b

theorem takeWhile_of_absent {c : UInt8} (absent : c ∉ tail) : tail.takeWhile (· ≠ c) = tail := by
  rw [List.takeWhile_eq_self_iff]
  intro d member
  exact decide_eq_true (fun same => absent (same ▸ member))

/-- The query is the one before the fragment, if that has one. -/
theorem tailQuery_eq (first : 63 ∈ beforeHash tail) :
    tailQuery tail = ((beforeHash tail).dropWhile (· ≠ 63)).tail := by
  by_cases hash : 35 ∈ tail
  · obtain ⟨x, y, rfl, absent⟩ := List.eq_append_cons_of_mem hash
    rw [beforeHash_split absent] at first ⊢
    obtain ⟨a, b, rfl, noQuery⟩ := List.eq_append_cons_of_mem first
    rw [List.mem_append, List.mem_cons, not_or, not_or] at absent
    rw [List.append_assoc, List.cons_append, tailQuery, takeWhile_append_cons noQuery, if_neg absent.1,
      dropWhile_append_cons noQuery, dropWhile_append_cons noQuery, List.tail_cons, List.tail_cons,
      takeWhile_append_cons absent.2.2]
  · have whole : beforeHash tail = tail := takeWhile_of_absent hash
    rw [whole] at first ⊢
    obtain ⟨a, b, rfl, noQuery⟩ := List.eq_append_cons_of_mem first
    rw [List.mem_append, List.mem_cons, not_or, not_or] at hash
    rw [tailQuery, takeWhile_append_cons noQuery, if_neg hash.1, dropWhile_append_cons noQuery, List.tail_cons,
      takeWhile_of_absent hash.2.2]

/-- The path is the right one if and only if no `/` is searched behind a mark. -/
theorem tailPath_eq_iff (ends : Ends tail) :
    tailPath tail = (beforeMarks tail).dropWhile (· ≠ 47) ↔ (47 ∈ tail → 47 ∈ beforeMarks tail) := by
  cases tail with
  | nil => exact iff_of_true rfl (fun member => absurd member List.not_mem_nil)
  | cons d rest =>
      by_cases slash : d = 47
      · subst slash
        have begins : beforeMarks (47 :: rest) = 47 :: beforeMarks rest := List.takeWhile_cons_of_pos (by decide)
        have path : tailPath (47 :: rest) = beforeMarks (47 :: rest) := rfl
        refine iff_of_true ?_ (fun _ => by rw [begins]; exact List.mem_cons_self)
        rw [path, begins, List.dropWhile_cons_of_neg (by decide)]
      · have mark : d = 63 ∨ d = 35 := (ends d rfl).resolve_left slash
        have none : beforeMarks (d :: rest) = [] := by
          refine List.takeWhile_cons_of_neg ?_
          rcases mark with rfl | rfl
          · decide
          · decide
        have path : tailPath (d :: rest) = (d :: rest).dropWhile (· ≠ 47) :=
          if_neg (fun same => slash (Option.some.inj same))
        rw [none, path, List.dropWhile_nil, List.dropWhile_eq_nil_iff]
        constructor
        · intro all member
          exact absurd rfl (of_decide_eq_true (all 47 member))
        · intro never c member
          exact decide_eq_true (by rintro rfl; exact absurd (never member) List.not_mem_nil)

end Tail

/-! ## Whole texts -/

section Whole

variable {s scheme authority tail : Bytes} {u : URL}

theorem afterScheme_split (split : Split s scheme authority tail) (x : Bytes) :
    afterScheme (scheme ++ [58, 47, 47] ++ authority ++ x) = authority ++ x := by
  have colon : (58 : UInt8) ∉ scheme := not_mem_scheme split.valid (by decide)
  have text : scheme ++ [58, 47, 47] ++ authority ++ x = scheme ++ 58 :: 47 :: 47 :: (authority ++ x) := by simp
  rw [text, afterScheme, dropWhile_append_cons colon]
  rfl

theorem Split.head_ne (split : Split s scheme authority tail) : s.head? ≠ some 47 := by
  intro root
  refine split.head ?_
  cases s with
  | nil => cases root
  | cons c s => exact Option.some.inj root

/-- The components of a URL whose text after the authority has been read. -/
theorem boundaries_tail {url : URL} {front : Bytes} (noQuery : 63 ∉ front) (noHash : 35 ∉ front)
    (fragment : url.fragment = []) (hasQuery : url.hasQuery = false) (read : parseTail url tail = .ok u)
    {right : Prop} (path : tailPath tail = pathBetween (front ++ tail) ↔ right) :
    Boundaries (front ++ tail) u ↔ QueryFirst (front ++ tail) ∧ right := by
  obtain ⟨pathIs, fragmentIs, hasQueryIs, argumentsAre⟩ := parseTail_ok read
  have hash : beforeHash (front ++ tail) = front ++ beforeHash tail := beforeHash_append noHash
  have inside : 63 ∈ beforeHash (front ++ tail) ↔ 63 ∈ beforeHash tail := by
    rw [hash, List.mem_append]
    exact or_iff_right noQuery
  have anywhere : 63 ∈ front ++ tail ↔ 63 ∈ tail := by
    rw [List.mem_append]
    exact or_iff_right noQuery
  have later : 63 ∈ beforeHash tail → 63 ∈ tail := fun member =>
    (List.takeWhile_prefix (fun c => decide (c ≠ 35))).subset member
  have queried : u.hasQuery = true ↔ 63 ∈ tail := by
    rw [hasQueryIs, hasQuery]
    split
    · rename_i query
      exact iff_of_true rfl query
    · rename_i none
      exact iff_of_false Bool.false_ne_true none
  constructor
  · intro boundaries
    refine ⟨fun query => ?_, path.mp (pathIs.symm.trans boundaries.path)⟩
    exact boundaries.hasQuery.mp (queried.mpr (anywhere.mp query))
  · rintro ⟨queryFirst, holds⟩
    refine ⟨?_, ?_, ?_, pathIs.trans (path.mpr holds)⟩
    · rw [fragmentIs, dropWhile_ne_append noHash]
      split
      · rfl
      · rename_i none
        rw [fragment, List.dropWhile_eq_nil_iff.mpr]
        · rfl
        · intro c member
          exact decide_eq_true (by rintro rfl; exact none member)
    · rw [queried, inside]
      exact ⟨fun query => inside.mp (queryFirst (anywhere.mpr query)), later⟩
    · intro first
      have query := inside.mp first
      rw [hash, dropWhile_ne_append noQuery, ← tailQuery_eq query]
      exact argumentsAre (later query)

/-- The components are those of the text if and only if a `?` comes before the `#`, and after an authority a
`/` before both. -/
theorem boundaries_iff (fits : s.length < 2 ^ 63) (some : s ≠ []) (noStar : s ≠ [42]) (accepted : parse s = .ok u) :
    Boundaries s u ↔ QueryFirst s ∧ (s.head? ≠ Option.some 47 → SlashFirst s) := by
  rcases parse_cases fits accepted with empty | star | root | ⟨scheme, authority, tail, split⟩
  · exact absurd empty some
  · exact absurd star noStar
  · rw [parse_root root fits] at accepted
    have path : tailPath s = pathBetween ([] ++ s) ↔ (s.head? ≠ Option.some 47 → SlashFirst s) := by
      refine iff_of_true ?_ (fun other => absurd root other)
      rw [List.nil_append, pathBetween, if_pos root, tailPath, if_pos root]
      rfl
    exact boundaries_tail List.not_mem_nil List.not_mem_nil rfl rfl accepted path
  · obtain ⟨url, rest, url', userPart, hostPart, read⟩ := parts_of_parse split fits accepted
    have fresh : url'.laterFields = ([], [], [], false, false, false) :=
      hostPart.laterFields.trans userPart.laterFields
    have noQuery := split.not_mem_front (c := 63) (Or.inl rfl)
    have noHash := split.not_mem_front (c := 35) (Or.inr rfl)
    have noSlash : (47 : UInt8) ∉ authority := fun member => (split.plain 47 member).1 rfl
    have path : tailPath tail = pathBetween (scheme ++ [58, 47, 47] ++ authority ++ tail) ↔
        (s.head? ≠ Option.some 47 → SlashFirst s) := by
      have marks : afterScheme (beforeMarks (scheme ++ [58, 47, 47] ++ authority ++ tail)) =
          authority ++ beforeMarks tail := by
        rw [beforeMarks_append noQuery noHash, afterScheme_split split]
      have slash : SlashFirst s ↔ (47 ∈ tail → 47 ∈ beforeMarks tail) := by
        rw [SlashFirst, split.front, marks, afterScheme_split split, List.mem_append, List.mem_append,
          or_iff_right noSlash, or_iff_right noSlash]
      have head : (scheme ++ [58, 47, 47] ++ authority ++ tail).head? ≠ Option.some 47 := by
        rw [← split.front]
        exact split.head_ne
      rw [pathBetween, if_neg head, marks, dropWhile_ne_append noSlash, tailPath_eq_iff split.ends, ← slash]
      exact ⟨fun first _ => first, fun first => first split.head_ne⟩
    rw [split.front] at path ⊢
    exact boundaries_tail noQuery noHash (congrArg (fun fields => fields.2.1) fresh)
      (congrArg (fun fields => fields.2.2.2.1) fresh) read path

theorem parse_fragment : parse (ascii "http://host/p#f") = .ok
    { scheme := ascii "http", hasScheme := true, host := ascii "host", hasHost := true, path := ascii "/p",
      fragment := ascii "f", hasFragment := true } := by
  decide

theorem boundaries_fragment :
    ∃ u, parse (ascii "http://host/p#f") = .ok u ∧ Boundaries (ascii "http://host/p#f") u :=
  ⟨_, parse_fragment, (boundaries_iff (by decide) (by decide) (by decide) parse_fragment).mpr
    ⟨fun query => absurd query (by decide), fun _ _ => by decide⟩⟩

/-- The path of this URL is the part of its query from the `/` on. -/
def slashInQuery : Bytes := ascii "http://host?a=/b"

theorem split_slashInQuery : Split slashInQuery (ascii "http") (ascii "host") (ascii "?a=/b") where
  text := by decide
  nonempty := by decide
  valid := by decide
  plain := forall_mem_of_all (by decide)
  ends := by
    intro c here
    exact Or.inr (Or.inl (Option.some.inj here).symm)

theorem parse_slashInQuery : parse slashInQuery = .ok
    { scheme := ascii "http", hasScheme := true, host := ascii "host", hasHost := true, path := ascii "/b",
      hasQuery := true, arguments := [(ascii "a", ascii "/b")] } := by
  have arguments : parseArguments (ascii "a=/b") = .ok [(ascii "a", ascii "/b")] := by
    rw [parseArguments_last (by decide) (by decide) (by decide)]
    decide
  have query : tailQuery (ascii "?a=/b") = ascii "a=/b" := by decide
  have user : parseUser { scheme := ascii "http", hasScheme := true } (ascii "host") =
      .ok ({ scheme := ascii "http", hasScheme := true }, ascii "host") := by decide
  have host : parseHostPort { scheme := ascii "http", hasScheme := true } (ascii "host") =
      .ok { scheme := ascii "http", hasScheme := true, host := ascii "host", hasHost := true } := by decide
  rw [parse_split split_slashInQuery (by decide), user]
  change parseHostPort { scheme := ascii "http", hasScheme := true } (ascii "host") >>=
    (fun url => parseTail url (ascii "?a=/b")) = _
  rw [host]
  change parseTail _ (ascii "?a=/b") = _
  rw [parseTail, addQuery, if_pos (by decide), query, if_neg (by decide), arguments]
  decide

theorem boundaries_slashInQuery : ∃ u, parse slashInQuery = .ok u ∧ ¬ Boundaries slashInQuery u := by
  refine ⟨_, parse_slashInQuery, ?_⟩
  intro boundaries
  exact absurd boundaries.path (by decide)

end Whole

end Pcm.Http.URL

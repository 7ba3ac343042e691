import Mathlib.Data.List.DropRight
import Pcm.UrlRoundTrip

/-!
# Which URLs are read back

The texts whose URL is read back from what `URL::printURL` writes for it.
-/

namespace Pcm.Http.URL

open StdString

/-- A text that `URL::parse` reads as one with an authority. -/
def HasAuthority (s : Bytes) : Prop := s ≠ [] ∧ s ≠ [42] ∧ s.head? ≠ some 47

/-- The part of the authority before the first `@`. -/
def userInfo (s : Bytes) : Bytes := if 64 ∈ authorityOf s then (authorityOf s).takeWhile (· ≠ 64) else []

def beforeLastColon (text : Bytes) : Bytes :=
  if 58 ∈ text then (text.rdropWhile (· ≠ 58)).dropLast else text

/-- The host, without an address in brackets. -/
def hostText (s : Bytes) : Bytes := beforeLastColon (withoutBrackets (withoutUser (authorityOf s)))

/-- The text of a URL that is read back. -/
structure PrintableText (s : Bytes) : Prop where
  query : Clear (tailQuery s)
  userInfo : HasAuthority s → Clear (userInfo s)
  host : HasAuthority s → hostText s ≠ [] ∧ (hostText s).head? ≠ some 91
  path : HasAuthority s → 47 ∈ afterScheme (beforeMarks s) ∨ NoMarks ((afterScheme s).dropWhile (· ≠ 47))

section Parts

variable {u url url' : URL} {s scheme authority tail rest : Bytes}

theorem beforeLastColon_split {a b : Bytes} (absent : 58 ∉ b) : beforeLastColon (a ++ 58 :: b) = a := by
  have kept : (a ++ 58 :: b).rdropWhile (· ≠ 58) = a ++ [58] := by
    rw [List.rdropWhile, List.reverse_append, List.reverse_cons, List.append_assoc, List.singleton_append,
      dropWhile_append_cons (by rwa [List.mem_reverse]), List.reverse_cons, List.reverse_reverse]
  rw [beforeLastColon, if_pos (List.mem_append_right a List.mem_cons_self), kept, List.dropLast_concat]

/-- The bytes of user and password, where the URL had neither. -/
theorem clear_userInfo (part : UserPart url authority url' rest) (noUser : NoUser url) :
    Clear (if 64 ∈ authority then authority.takeWhile (· ≠ 64) else []) ↔ High url'.user ∧ High url'.passwd := by
  obtain ⟨noName, -, noSecret, -⟩ := noUser
  cases part with
  | none absent =>
      rw [if_neg absent, noName, noSecret]
      exact iff_of_true clear_nil ⟨nofun, nofun⟩
  | user absent some noColon decoded =>
      rw [if_pos (List.mem_append_right _ List.mem_cons_self), takeWhile_append_cons absent, clear_iff_high decoded]
      change _ ↔ _ ∧ High url.passwd
      rw [noSecret]
      exact ⟨fun high => ⟨high, nofun⟩, fun both => both.1⟩
  | passwd absent some noColon decoded decodedPasswd =>
      rw [if_pos (List.mem_append_right _ List.mem_cons_self), takeWhile_append_cons absent,
        clear_append (by decide) (by decide) (by decide), clear_iff_high decoded, clear_iff_high decodedPasswd]

/-- The host is the one before the last colon, or there is none and it was known. -/
theorem HostPart.host_cases (part : HostPart url authority u) :
    (beforeLastColon authority = [] ∧ url.hasHost = true ∧ u.host = url.host) ∨
      (beforeLastColon authority = u.host ∧ u.host ≠ []) := by
  cases part with
  | kept known => exact Or.inl ⟨rfl, known, rfl⟩
  | host some absent => exact Or.inr ⟨if_neg absent, some⟩
  | port known absent read => exact Or.inl ⟨beforeLastColon_split (a := []) absent, known, rfl⟩
  | hostPort some absent read => exact Or.inr ⟨beforeLastColon_split absent, some⟩

theorem withoutBrackets_bracket {address : Bytes} (bracket : address.head? = some 91) (absent : 93 ∉ address) :
    withoutBrackets (address ++ 93 :: rest) = rest := by
  have first : (address ++ 93 :: rest).head? = some 91 := by
    rw [List.head?_append, bracket]
    rfl
  rw [withoutBrackets, if_pos ⟨first, List.mem_append_right _ List.mem_cons_self⟩, dropWhile_append_cons absent,
    List.tail_cons]

theorem HostPortPart.host_iff (part : HostPortPart url authority u) (noHost : url.hasHost = false) :
    u.host.head? ≠ some 91 ↔ beforeLastColon (withoutBrackets authority) ≠ [] ∧
      (beforeLastColon (withoutBrackets authority)).head? ≠ some 91 := by
  cases part with
  | plain noBracket part =>
      have same : withoutBrackets authority = authority := if_neg (fun both => noBracket both.1)
      rw [same]
      rcases part.host_cases with ⟨-, known, -⟩ | ⟨host, some⟩
      · rw [noHost] at known
        cases known
      · rw [host]
        exact ⟨fun head => ⟨some, head⟩, fun both => both.2⟩
  | @bracket address later u bracket absent part =>
      rw [withoutBrackets_bracket bracket absent]
      rcases part.host_cases with ⟨empty, -, kept⟩ | ⟨host, some⟩
      · rw [empty, kept]
        exact iff_of_false (fun head => head bracket) (fun both => both.1 rfl)
      · rw [host]
        exact ⟨fun head => ⟨some, head⟩, fun both => both.2⟩

/-- There are marks in the path only if it begins behind a mark. -/
theorem noMarks_tailPath_iff (ends : Ends tail) :
    NoMarks (tailPath tail) ↔ 47 ∈ beforeMarks tail ∨ NoMarks (tail.dropWhile (· ≠ 47)) := by
  cases tail with
  | nil => exact iff_of_true nofun (Or.inr nofun)
  | cons d rest =>
      by_cases slash : d = 47
      · subst slash
        have begins : beforeMarks (47 :: rest) = 47 :: beforeMarks rest := List.takeWhile_cons_of_pos (by decide)
        refine iff_of_true (noMarks_tailPath rfl) (Or.inl ?_)
        rw [begins]
        exact List.mem_cons_self
      · have mark : d = 63 ∨ d = 35 := (ends d rfl).resolve_left slash
        have none : beforeMarks (d :: rest) = [] := by
          refine List.takeWhile_cons_of_neg ?_
          rcases mark with rfl | rfl
          · decide
          · decide
        have path : tailPath (d :: rest) = (d :: rest).dropWhile (· ≠ 47) :=
          if_neg (fun same => slash (Option.some.inj same))
        rw [path, none]
        exact (or_iff_right List.not_mem_nil).symm

theorem clear_tailQuery {arguments : List (Bytes × Bytes)} (fits : tail.length < 2 ^ 63)
    (reads : ReadsArguments tail arguments) : Clear (tailQuery tail) ↔ HighArguments arguments := by
  by_cases query : 63 ∈ tail
  · obtain ⟨-, read⟩ := (readsArguments_query query arguments).mp reads
    exact (clear_arguments (Nat.lt_of_le_of_lt (length_tailQuery tail) fits) read).1
  · have none : tailQuery tail = [] := by
      have nothing : tail.dropWhile (· ≠ 63) = [] := by
        rw [List.dropWhile_eq_nil_iff]
        intro c member
        exact decide_eq_true (by rintro rfl; exact query member)
      rw [tailQuery, nothing]
      exact ite_self _
    rw [none, (readsArguments_none query arguments).mp reads]
    exact iff_of_true clear_nil (fun entry member => absurd member List.not_mem_nil)

theorem tailQuery_append {front : Bytes} (noQuery : 63 ∉ front) (noHash : 35 ∉ front) :
    tailQuery (front ++ tail) = tailQuery tail := by
  have before : (front ++ tail).takeWhile (· ≠ 63) = front ++ tail.takeWhile (· ≠ 63) :=
    List.takeWhile_append_of_pos (fun _ member => decide_eq_true (by rintro rfl; exact noQuery member))
  rw [tailQuery, tailQuery, before, dropWhile_ne_append noQuery]
  simp only [List.mem_append, noHash, false_or]

end Parts

section Whole

variable {s scheme authority tail : Bytes} {u : URL}

theorem Split.hasAuthority (split : Split s scheme authority tail) : HasAuthority s :=
  ⟨split.ne_nil, split.ne_star, split.head_ne⟩

theorem printableText_split (split : Split s scheme authority tail) {right : Prop}
    (parts : (Clear (tailQuery tail) ∧ Clear (userInfo s) ∧ (hostText s ≠ [] ∧ (hostText s).head? ≠ some 91) ∧
      (47 ∈ beforeMarks tail ∨ NoMarks (tail.dropWhile (· ≠ 47)))) ↔ right) : PrintableText s ↔ right := by
  have noQuery := split.not_mem_front (c := 63) (Or.inl rfl)
  have noHash := split.not_mem_front (c := 35) (Or.inr rfl)
  have noSlash : (47 : UInt8) ∉ authority := fun member => (split.plain 47 member).1 rfl
  have query : tailQuery s = tailQuery tail := by
    rw [split.front]
    exact tailQuery_append noQuery noHash
  have slash : 47 ∈ afterScheme (beforeMarks s) ↔ 47 ∈ beforeMarks tail := by
    rw [split.front, beforeMarks_append noQuery noHash, afterScheme_split split, List.mem_append, or_iff_right noSlash]
  have path : (afterScheme s).dropWhile (· ≠ 47) = tail.dropWhile (· ≠ 47) := by
    rw [split.front, afterScheme_split split, dropWhile_ne_append noSlash]
  have has := split.hasAuthority
  rw [← parts]
  constructor
  · rintro ⟨clear, info, host, first⟩
    have marks := first has
    rw [slash, path] at marks
    exact ⟨query ▸ clear, info has, host has, marks⟩
  · rintro ⟨clear, info, host, first⟩
    rw [← slash, ← path] at first
    exact ⟨query.symm ▸ clear, fun _ => info, fun _ => host, fun _ => first⟩

theorem printableText_root (noAuthority : ¬ HasAuthority s) : PrintableText s ↔ Clear (tailQuery s) :=
  ⟨fun text => text.query, fun clear => ⟨clear, fun has => absurd has noAuthority,
    fun has => absurd has noAuthority, fun has => absurd has noAuthority⟩⟩

theorem roundTrip_split (split : Split s scheme authority tail) (fits : s.length < 2 ^ 63)
    (fitsPrinted : (printURL u).length < 2 ^ 63) (accepted : parse s = .ok u) : RoundTrip u ↔ PrintableText s := by
  obtain ⟨url, rest, url', userPart, hostPart, read⟩ := parts_of_parse split fits accepted
  have fresh : url'.laterFields = ([], [], [], false, false, false) := hostPart.laterFields.trans userPart.laterFields
  obtain ⟨arguments, reads, noPercent, rfl⟩ := (parseTail_iff fresh).mp read
  have shorter : tail.length < 2 ^ 63 := by
    rw [split.text] at fits
    simp only [List.length_append, List.length_cons] at fits
    omega
  obtain ⟨user, name, noHost, port, hasPort, inside⟩ := userPart.userFields
  have fields := authorityFields split.plain user noHost ⟨port, hasPort⟩ inside hostPart
  obtain ⟨⟨sameScheme, -⟩, ⟨sameUser, -⟩, samePasswd, -⟩ := by
    simpa only [userTuple, Prod.mk.injEq] using hostPart.userTuple
  have valid : (withTail url' tail arguments).scheme ≠ [] ∧
      (withTail url' tail arguments).scheme.all (validSchemeChars.contains ·) = true := by
    change url'.scheme ≠ [] ∧ url'.scheme.all _ = true
    rw [sameScheme, name]
    exact ⟨split.nonempty, split.valid⟩
  have allFields : AuthorityFields (withTail url' tail arguments) :=
    ⟨fields.hasScheme, fields.hasHost, fields.host, fields.plain, fields.noUser, fields.user, fields.noPasswd,
      fields.port, fields.noPort⟩
  rw [roundTrip_authority valid allFields (tailFields_withTail split.ends shorter reads noPercent) fitsPrinted]
  refine (printableText_split split ?_).symm
  have info : Clear (userInfo s) ↔ High url'.user ∧ High url'.passwd := by
    rw [userInfo, authorityOf_split split, sameUser, samePasswd]
    exact clear_userInfo userPart ⟨rfl, rfl, rfl, rfl⟩
  have host : hostText s ≠ [] ∧ (hostText s).head? ≠ some 91 ↔ url'.host.head? ≠ some 91 := by
    rw [hostText, authorityOf_split split, withoutUser_part userPart]
    exact (hostPart.host_iff noHost).symm
  rw [info, host, clear_tailQuery shorter reads, ← noMarks_tailPath_iff split.ends]
  constructor
  · rintro ⟨high, ⟨highUser, highPasswd⟩, noBracket, noMarks⟩
    exact ⟨highUser, highPasswd, noBracket, noMarks, high⟩
  · rintro ⟨highUser, highPasswd, noBracket, noMarks, high⟩
    exact ⟨high, ⟨highUser, highPasswd⟩, noBracket, noMarks⟩

/-- An accepted URL is read back from what is printed exactly when its text is printable. -/
theorem roundTrip_iff (fits : s.length < 2 ^ 63) (fitsPrinted : (printURL u).length < 2 ^ 63)
    (accepted : parse s = .ok u) : RoundTrip u ↔ PrintableText s := by
  rcases parse_cases fits accepted with rfl | rfl | root | ⟨scheme, authority, tail, split⟩
  · obtain rfl := Except.ok.inj accepted
    have back : parse (printURL { path := ascii "/" }) = .ok { path := ascii "/" } := by decide
    rw [printableText_root (fun has => has.1 rfl)]
    exact iff_of_true ⟨_, back, rfl, rfl, rfl, rfl, rfl, rfl, rfl, rfl⟩ clear_nil
  · obtain rfl := Except.ok.inj accepted
    rw [printableText_root (fun has => has.2.1 rfl)]
    exact iff_of_true ⟨_, rfl, rfl, rfl, rfl, rfl, rfl, rfl, rfl, rfl⟩ clear_nil
  · rw [parse_root root fits] at accepted
    obtain ⟨arguments, reads, noPercent, rfl⟩ := (parseTail_iff rfl).mp accepted
    have ends : Ends s := by
      intro c here
      rw [root] at here
      exact Or.inl (Option.some.inj here).symm
    have front : (withTail {} s arguments).frontFields = (({} : URL)).frontFields := rfl
    rw [printableText_root (fun has => has.2.2 root), clear_tailQuery fits reads,
      roundTrip_root front (tailFields_withTail ends fits reads noPercent) fitsPrinted]
    exact ⟨fun printable => printable.arguments, fun high => ⟨nofun, nofun, nofun, noMarks_tailPath root, high⟩⟩
  · exact roundTrip_split split fits fitsPrinted accepted

/-- A URL with a user, a password and a port. -/
def userURLText : Bytes := ascii "a://me:%40@host:80/p#f"

theorem parse_userURLText : parse userURLText = .ok
    { scheme := ascii "a", hasScheme := true, user := ascii "me", hasUser := true, passwd := ascii "@",
      hasPasswd := true, host := ascii "host", hasHost := true, port := 80, hasPort := true, path := ascii "/p",
      fragment := ascii "f", hasFragment := true } := by
  decide +kernel

theorem clear_me : Clear (ascii "me:%40") := by
  have user : percentDecode (ascii "me") = .ok (ascii "me") := by decide
  have passwd : percentDecode (ascii "%40") = .ok (ascii "@") := by decide
  have text : ascii "me:%40" = ascii "me" ++ 58 :: ascii "%40" := by decide
  rw [text, clear_append (by decide) (by decide) (by decide), clear_iff_high user, clear_iff_high passwd]
  exact ⟨forall_mem_of_all (by decide), forall_mem_of_all (by decide)⟩

theorem printableText_userURLText : PrintableText userURLText where
  query := by
    have none : tailQuery userURLText = [] := by decide
    rw [none]
    exact clear_nil
  userInfo := by
    intro _
    have info : userInfo userURLText = ascii "me:%40" := by decide
    rw [info]
    exact clear_me
  host := by
    intro _
    have host : hostText userURLText = ascii "host" := by decide
    rw [host]
    decide
  path := fun _ => Or.inl (by decide)

theorem roundTrip_userURLText : ∃ u, parse userURLText = .ok u ∧ RoundTrip u :=
  ⟨_, parse_userURLText, (roundTrip_iff (by decide) (by decide) parse_userURLText).mpr printableText_userURLText⟩

/-- An address in brackets is printed without the closing one. -/
def bracketURL : Bytes := ascii "http://[::1]/"

def bracketRead : URL :=
  { scheme := ascii "http", hasScheme := true, host := ascii "[::1", hasHost := true, path := ascii "/" }

theorem roundTrip_bracketURL : ∃ u, parse bracketURL = .ok u ∧ ¬ RoundTrip u := by
  have refused : parse (printURL bracketRead) = throwing "No matching IPv6 ']' found." := by decide
  refine ⟨bracketRead, by decide, ?_⟩
  rintro ⟨u', read, -⟩
  rw [refused] at read
  cases read

end Whole

end Pcm.Http.URL

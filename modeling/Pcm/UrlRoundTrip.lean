import Pcm.Lib.Throwing
import Pcm.UrlPort
import Pcm.UrlPrinting

/-!
# Reading a printed URL

The text that `URL::printURL` writes for an accepted URL is read again by `URL::parse`. A host in brackets is
printed without the closing one, bytes below 16 are printed as escapes that are refused, and a path that was
found behind a `?` or `#` is printed in front of it.
-/

namespace Pcm.Http.URL

open StdString
open Throwing (bind_eq_ok of_map_ok)

/-- The components of two URLs are the same, the empty path being `/`. -/
structure SameComponents (u u' : URL) : Prop where
  scheme : u'.scheme = u.scheme
  user : u'.user = u.user
  passwd : u'.passwd = u.passwd
  host : u'.host = u.host
  port : u'.port = u.port
  arguments : u'.arguments = u.arguments
  fragment : u'.fragment = u.fragment
  path : u'.path = printPath u

/-- What is printed is accepted, with the same components. -/
def RoundTrip (u : URL) : Prop := ∃ u', parse (printURL u) = .ok u' ∧ SameComponents u u'

/-- No `?` and no `#`. -/
def NoMarks (text : Bytes) : Prop := ∀ c ∈ text, c ≠ 63 ∧ c ≠ 35

/-! ## After the authority -/

/-- What is known of the path, the query and the fragment of an accepted URL. -/
structure TailFields (u : URL) : Prop where
  path : u.path = [] ∨ u.path.head? = some 47
  noPercent : 37 ∉ u.path
  noQuery : u.hasQuery = false → u.arguments = [] ∧ 63 ∉ u.fragment
  query : u.hasQuery = true → u.arguments ≠ []
  noFragment : u.hasFragment = false → u.fragment = []

section Tail

variable {u url : URL} {tail : Bytes}

theorem tailPath_cases (ends : Ends tail) : tailPath tail = [] ∨ (tailPath tail).head? = some 47 := by
  cases tail with
  | nil => exact Or.inl rfl
  | cons d rest =>
      rw [tailPath]
      split
      · rename_i slash
        right
        rw [Option.some.inj slash, List.takeWhile_cons_of_pos (by decide)]
        rfl
      · by_cases slash : 47 ∈ d :: rest
        · obtain ⟨a, b, split, absent⟩ := List.eq_append_cons_of_mem slash
          right
          rw [split, dropWhile_append_cons absent]
          rfl
        · left
          rw [List.dropWhile_eq_nil_iff]
          intro c member
          exact decide_eq_true (fun same => slash (same ▸ member))

/-- The URL that the text after the authority completes. -/
def withTail (url : URL) (tail : Bytes) (arguments : List (Bytes × Bytes)) : URL :=
  { url with path := tailPath tail, hasQuery := decide (63 ∈ tail), arguments := arguments,
             hasFragment := decide (35 ∈ tail), fragment := tailFragment tail }

/-- The arguments of the text after the authority. -/
def ReadsArguments (tail : Bytes) (arguments : List (Bytes × Bytes)) : Prop :=
  if 63 ∈ tail then tailQuery tail ≠ [] ∧ parseArguments (tailQuery tail) = .ok arguments else arguments = []

theorem readsArguments_query (query : 63 ∈ tail) (arguments : List (Bytes × Bytes)) :
    ReadsArguments tail arguments ↔ tailQuery tail ≠ [] ∧ parseArguments (tailQuery tail) = .ok arguments := by
  rw [ReadsArguments, if_pos query]

theorem readsArguments_none (none : 63 ∉ tail) (arguments : List (Bytes × Bytes)) :
    ReadsArguments tail arguments ↔ arguments = [] := by
  rw [ReadsArguments, if_neg none]

theorem tailFragment_absent (absent : 35 ∉ tail) : tailFragment tail = [] := by
  rw [tailFragment, List.dropWhile_eq_nil_iff.mpr]
  · rfl
  · intro c member
    exact decide_eq_true (fun same => absent (same ▸ member))

theorem addQuery_iff (fresh : url.laterFields = ([], [], [], false, false, false)) {queried : URL} :
    addQuery { url with path := tailPath tail } tail = .ok queried ↔
      ∃ arguments, ReadsArguments tail arguments ∧
        queried = { url with path := tailPath tail, hasQuery := decide (63 ∈ tail), arguments := arguments } := by
  rw [addQuery]
  by_cases query : 63 ∈ tail
  · simp only [readsArguments_query query, decide_eq_true query]
    rw [if_pos query]
    by_cases empty : tailQuery tail = []
    · rw [if_pos empty]
      refine iff_of_false (fun same => by cases same) ?_
      rintro ⟨arguments, ⟨some, -⟩, -⟩
      exact some empty
    · rw [if_neg empty]
      rcases parseArguments (tailQuery tail) with e | arguments
      · refine iff_of_false (fun same => by cases same) ?_
        rintro ⟨arguments, ⟨-, read⟩, -⟩
        cases read
      · constructor
        · intro same
          exact ⟨arguments, ⟨empty, rfl⟩, (Except.ok.inj same).symm⟩
        · rintro ⟨others, ⟨-, same⟩, rfl⟩
          rw [← Except.ok.inj same]
          rfl
  · simp only [readsArguments_none query, decide_eq_false query]
    rw [if_neg query]
    have unchanged : { url with path := tailPath tail } =
        ({ url with path := tailPath tail, hasQuery := false, arguments := [] } : URL) := by
      obtain ⟨-, -, arguments, hasQuery, -, -⟩ := by simpa only [laterFields, Prod.mk.injEq] using fresh
      rw [← arguments, ← hasQuery]
    rw [unchanged]
    constructor
    · intro same
      exact ⟨[], rfl, (Except.ok.inj same).symm⟩
    · rintro ⟨arguments, rfl, rfl⟩
      rfl

theorem addFragment_withTail (fresh : url.laterFields = ([], [], [], false, false, false))
    (arguments : List (Bytes × Bytes)) :
    addFragment { url with path := tailPath tail, hasQuery := decide (63 ∈ tail), arguments := arguments } tail =
      withTail url tail arguments := by
  rw [addFragment, withTail]
  by_cases hash : 35 ∈ tail
  · rw [if_pos hash, decide_eq_true hash]
  · obtain ⟨-, fragment, -, -, hasFragment, -⟩ := by simpa only [laterFields, Prod.mk.injEq] using fresh
    rw [if_neg hash, decide_eq_false hash, tailFragment_absent hash, ← fragment, ← hasFragment]

/-- What is accepted after the authority, when nothing of it has been filled before. -/
theorem parseTail_iff (fresh : url.laterFields = ([], [], [], false, false, false)) :
    parseTail url tail = .ok u ↔
      ∃ arguments, ReadsArguments tail arguments ∧ 37 ∉ tailPath tail ∧ u = withTail url tail arguments := by
  have checked : ∀ whole : URL, checkPath whole = .ok u ↔ 37 ∉ whole.path ∧ u = whole := by
    intro whole
    rw [checkPath]
    split
    · rename_i inside
      exact iff_of_false (fun same => by cases same) (fun both => both.1 (List.contains_iff_mem.mp inside))
    · rename_i outside
      rw [Except.ok.injEq]
      exact ⟨fun same => ⟨fun member => outside (List.contains_iff_mem.mpr member), same.symm⟩,
        fun both => both.2.symm⟩
  rw [parseTail]
  rcases queried : addQuery { url with path := tailPath tail } tail with e | whole
  · refine iff_of_false (fun same => by cases same) ?_
    rintro ⟨arguments, reads, -, -⟩
    rw [(addQuery_iff fresh).mpr ⟨arguments, reads, rfl⟩] at queried
    cases queried
  · obtain ⟨arguments, reads, rfl⟩ := (addQuery_iff fresh).mp queried
    change checkPath (addFragment _ tail) = .ok u ↔ _
    rw [addFragment_withTail fresh, checked]
    constructor
    · rintro ⟨absent, same⟩
      exact ⟨arguments, reads, absent, same⟩
    · rintro ⟨others, readsOthers, absent, rfl⟩
      have same := (addQuery_iff fresh).mpr ⟨others, readsOthers, rfl⟩
      rw [queried] at same
      have equal : arguments = others := congrArg URL.arguments (Except.ok.inj same)
      rw [equal]
      exact ⟨absent, rfl⟩

theorem length_tailQuery (tail : Bytes) : (tailQuery tail).length ≤ tail.length := by
  have after : ((tail.dropWhile (· ≠ 63)).tail).length ≤ tail.length :=
    Nat.le_trans (List.tail_sublist _).length_le (List.dropWhile_sublist _).length_le
  rw [tailQuery]
  split
  · exact after
  · exact Nat.le_trans (List.takeWhile_sublist _).length_le after

theorem tailFields_withTail {arguments : List (Bytes × Bytes)} (ends : Ends tail) (fits : tail.length < 2 ^ 63)
    (reads : ReadsArguments tail arguments) (noPercent : 37 ∉ tailPath tail) :
    TailFields (withTail url tail arguments) where
  path := tailPath_cases ends
  noPercent := noPercent
  noQuery := by
    intro absent
    have none : 63 ∉ tail := of_decide_eq_false absent
    refine ⟨(readsArguments_none none arguments).mp reads, fun member => none ?_⟩
    exact (List.dropWhile_sublist _).subset (List.mem_of_mem_tail member)
  query := by
    intro present
    obtain ⟨some, read⟩ := (readsArguments_query (of_decide_eq_true present) arguments).mp reads
    exact (clear_arguments (Nat.lt_of_le_of_lt (length_tailQuery tail) fits) read).2 some
  noFragment := fun absent => tailFragment_absent (of_decide_eq_false absent)

/-! ### What is printed after the authority -/

theorem printPath_head (fields : TailFields u) : (printPath u).head? = some 47 := by
  rw [printPath]
  split
  · rfl
  · rename_i some
    exact fields.path.resolve_left some

theorem noMarks_printPath : NoMarks (printPath u) ↔ NoMarks u.path := by
  rw [printPath]
  split
  · rename_i empty
    rw [empty]
    exact iff_of_true (List.forall_mem_singleton.mpr (by decide)) nofun
  · exact Iff.rfl

theorem printTail_head (fields : TailFields u) : (printTail u).head? = some 47 := by
  have path := printPath_head fields
  rw [printTail, List.append_assoc]
  cases printed : printPath u with
  | nil =>
      rw [printed] at path
      cases path
  | cons c rest =>
      rw [printed] at path
      exact path

theorem noMarks_tailPath (root : tail.head? = some 47) : NoMarks (tailPath tail) := by
  rw [tailPath, if_pos root]
  intro c member
  have kept := List.mem_takeWhile_imp member
  exact of_decide_eq_true kept

/-- The parts of a printed text after the authority. -/
structure Printed (u : URL) : Prop where
  path : tailPath (printTail u) = printPath u
  query : 63 ∈ printTail u ↔ u.hasQuery = true
  arguments : u.hasQuery = true → tailQuery (printTail u) = printArguments u.arguments
  hash : 35 ∈ printTail u ↔ u.hasFragment = true
  fragment : tailFragment (printTail u) = u.fragment

theorem not_mem_printQuery : 35 ∉ printQuery u := by
  rw [printQuery]
  split
  · rw [List.mem_cons]
    rintro (same | inside)
    · cases same
    · exact not_mem_printArguments (by decide) (by decide) (by decide) (by decide) (by decide) inside
  · exact List.not_mem_nil

/-- A printed fragment begins with its mark. -/
theorem printFragment_parts (fields : TailFields u) :
    (35 ∈ printFragment u ↔ u.hasFragment = true) ∧ (printFragment u).takeWhile (· ≠ 35) = [] ∧
      ((printFragment u).dropWhile (· ≠ 35)).tail = u.fragment := by
  rw [printFragment]
  split
  · rename_i present
    refine ⟨iff_of_true List.mem_cons_self present, List.takeWhile_cons_of_neg (by decide), ?_⟩
    rw [List.dropWhile_cons_of_neg (by decide), List.tail_cons]
  · rename_i absent
    refine ⟨iff_of_false List.not_mem_nil absent, rfl, ?_⟩
    rw [fields.noFragment (Bool.eq_false_iff.mpr absent)]
    rfl

theorem beforeMarks_printed : beforeMarks (printQuery u ++ printFragment u) = [] := by
  rw [printQuery, printFragment]
  split
  · exact List.takeWhile_cons_of_neg (by decide)
  · rw [List.nil_append]
    split
    · exact List.takeWhile_cons_of_neg (by decide)
    · rfl

theorem printed (fields : TailFields u) (noMarks : NoMarks u.path) : Printed u := by
  have noQuery : 63 ∉ printPath u := fun member => (noMarks_printPath.mpr noMarks 63 member).1 rfl
  have noHash : 35 ∉ printPath u := fun member => (noMarks_printPath.mpr noMarks 35 member).2 rfl
  have front : 35 ∉ printPath u ++ printQuery u := by
    rw [List.mem_append]
    exact not_or.mpr ⟨noHash, not_mem_printQuery⟩
  obtain ⟨marked, cut, fragment⟩ := printFragment_parts fields
  refine ⟨?_, ?_, ?_, ?_, ?_⟩
  · have begins : tailPath (printTail u) = beforeMarks (printTail u) := if_pos (printTail_head fields)
    rw [begins, printTail, List.append_assoc, beforeMarks_append noQuery noHash, beforeMarks_printed, List.append_nil]
  · rw [printTail, List.append_assoc, List.mem_append, or_iff_right noQuery, List.mem_append, printQuery]
    split
    · rename_i present
      exact iff_of_true (Or.inl List.mem_cons_self) present
    · rename_i absent
      refine iff_of_false ?_ absent
      rw [printFragment]
      split
      · rw [List.mem_cons]
        rintro (none | same | inside)
        · cases none
        · cases same
        · exact (fields.noQuery (Bool.eq_false_iff.mpr absent)).2 inside
      · simp
  · intro present
    have query : printQuery u = 63 :: printArguments u.arguments := if_pos present
    have arguments : 35 ∉ printArguments u.arguments :=
      not_mem_printArguments (by decide) (by decide) (by decide) (by decide) (by decide)
    rw [printTail, query, List.append_assoc, List.cons_append, tailQuery, takeWhile_append_cons noQuery, if_neg noHash,
      dropWhile_append_cons noQuery, List.tail_cons, List.takeWhile_append_of_pos, cut, List.append_nil]
    intro c member
    exact decide_eq_true (by rintro rfl; exact arguments member)
  · rw [printTail, List.mem_append, or_iff_right front, marked]
  · rw [printTail, tailFragment, dropWhile_ne_append front, fragment]

/-- The text after the authority is read back exactly when there is no mark in the path, and no byte below 16 in
the arguments. -/
theorem roundTrip_tail (fresh : url.laterFields = ([], [], [], false, false, false)) (fields : TailFields u)
    (fits : (printTail u).length < 2 ^ 63) :
    (∃ u', parseTail url (printTail u) = .ok u' ∧ u'.path = printPath u ∧ u'.arguments = u.arguments ∧
        u'.fragment = u.fragment) ↔ NoMarks u.path ∧ HighArguments u.arguments := by
  have root := printTail_head fields
  have short : (printArguments u.arguments).length < 2 ^ 63 ∨ u.hasQuery = false := by
    cases query : u.hasQuery with
    | false => exact Or.inr rfl
    | true =>
        left
        rw [printTail, printQuery, query, if_pos rfl] at fits
        simp only [List.length_append, List.length_cons] at fits
        omega
  constructor
  · rintro ⟨u', read, path, arguments, -⟩
    obtain ⟨others, reads, -, rfl⟩ := (parseTail_iff fresh).mp read
    have noMarks : NoMarks u.path := by
      rw [← noMarks_printPath, ← path]
      exact noMarks_tailPath root
    refine ⟨noMarks, ?_⟩
    have parts := printed fields noMarks
    cases query : u.hasQuery with
    | false =>
        rw [(fields.noQuery query).1]
        exact nofun
    | true =>
        have same : others = u.arguments := arguments
        obtain ⟨-, parsed⟩ := (readsArguments_query (parts.query.mpr query) others).mp reads
        rw [same, parts.arguments query] at parsed
        refine (parseArguments_print_iff (fields.query query) ?_).mp parsed
        exact short.resolve_right (by rw [query]; exact Bool.true_eq_false.mp)
  · rintro ⟨noMarks, high⟩
    have parts := printed fields noMarks
    refine ⟨withTail url (printTail u) u.arguments, (parseTail_iff fresh).mpr ⟨u.arguments, ?_, ?_, rfl⟩, parts.path, rfl,
      parts.fragment⟩
    · cases query : u.hasQuery with
      | false =>
          rw [readsArguments_none (fun member => by rw [parts.query, query] at member; cases member)]
          exact (fields.noQuery query).1
      | true =>
          have some := fields.query query
          have fitsArguments := short.resolve_right (by rw [query]; exact Bool.true_eq_false.mp)
          rw [readsArguments_query (parts.query.mpr query), parts.arguments query]
          exact ⟨printArguments_ne_nil some, (parseArguments_print_iff some fitsArguments).mpr high⟩
    · rw [parts.path, printPath]
      split
      · decide
      · exact fields.noPercent

end Tail

/-! ## The authority -/

/-- What is known of the front of an accepted URL with an authority. -/
structure AuthorityFields (u : URL) : Prop where
  hasScheme : u.hasScheme = true
  hasHost : u.hasHost = true
  host : u.host ≠ []
  plain : ∀ c ∈ u.host, c ≠ 47 ∧ c ≠ 63 ∧ c ≠ 35
  noUser : u.hasUser = false → u.user = [] ∧ u.hasPasswd = false ∧ 64 ∉ u.host
  user : u.hasUser = true → u.user ≠ []
  noPasswd : u.hasPasswd = false → u.passwd = []
  port : u.port < 65536
  noPort : u.hasPort = false → u.port = 0 ∧ (u.host.head? = some 91 ∨ 58 ∉ u.host)

/-- Host and port as they are printed. -/
def printHost (u : URL) : Bytes := u.host ++ (if u.hasPort then 58 :: decimal u.port else [])

section Authority

variable {u url : URL}

theorem printAuthority_eq (u : URL) : printAuthority u =
    (if u.hasUser then percentEncode u.user else []) ++ (if u.hasPasswd then 58 :: percentEncode u.passwd else []) ++
      (if u.hasUser then [64] else []) ++ printHost u := by
  rw [printAuthority, printHost, List.append_assoc _ u.host]

theorem not_mem_encodedUser (user passwd : Bytes) : 64 ∉ percentEncode user ++ 58 :: percentEncode passwd := by
  rw [List.mem_append, List.mem_cons]
  rintro (inUser | same | inPasswd)
  · exact not_mem_percentEncode (by decide) (by decide) (by decide) inUser
  · cases same
  · exact not_mem_percentEncode (by decide) (by decide) (by decide) inPasswd

theorem digit_of_printHost {c : UInt8} (member : c ∈ printHost u) : c ∈ u.host ∨ c = 58 ∨ isdigit c = true := by
  rw [printHost, List.mem_append] at member
  rcases member with inHost | inPort
  · exact Or.inl inHost
  · split at inPort
    · rcases List.mem_cons.mp inPort with same | digit
      · exact Or.inr (Or.inl same)
      · exact Or.inr (Or.inr (isdigit_of_mem_decimal digit))
    · cases inPort

/-- The URL with the user of another one. -/
def withUser (url u : URL) : URL :=
  { url with user := u.user, hasUser := u.hasUser, passwd := u.passwd, hasPasswd := u.hasPasswd }

/-- A URL that has no user yet. -/
def NoUser (url : URL) : Prop :=
  url.user = [] ∧ url.hasUser = false ∧ url.passwd = [] ∧ url.hasPasswd = false

theorem parseUser_print (fields : AuthorityFields u) (noUser : NoUser url)
    (fits : (printAuthority u).length < 2 ^ 63) :
    (High u.user ∧ High u.passwd → parseUser url (printAuthority u) = .ok (withUser url u, printHost u)) ∧
      (¬ (High u.user ∧ High u.passwd) → ∃ e, parseUser url (printAuthority u) = .error e) := by
  obtain ⟨noName, noFlag, noSecret, noSecretFlag⟩ := noUser
  rw [printAuthority_eq] at fits ⊢
  cases hasUser : u.hasUser with
  | false =>
      obtain ⟨user, hasPasswd, noSign⟩ := fields.noUser hasUser
      have passwd := fields.noPasswd hasPasswd
      have absent : 64 ∉ printHost u := by
        intro member
        rcases digit_of_printHost member with inHost | same | digit
        · exact noSign inHost
        · cases same
        · cases digit
      have same : withUser url u = url := by
        rw [withUser, user.trans noName.symm, hasUser.trans noFlag.symm, passwd.trans noSecret.symm,
          hasPasswd.trans noSecretFlag.symm]
      have text : (if false = true then percentEncode u.user else []) ++
          (if u.hasPasswd = true then 58 :: percentEncode u.passwd else []) ++ (if false = true then [64] else []) ++
            printHost u = printHost u := by
        rw [hasPasswd]
        rfl
      rw [text, parseUser_none absent, same, user, passwd]
      exact ⟨fun _ => rfl, fun low => absurd ⟨nofun, nofun⟩ low⟩
  | true =>
      have some : percentEncode u.user ≠ [] := percentEncode_ne_nil (fields.user hasUser)
      rw [hasUser] at fits
      simp only [if_true] at fits ⊢
      cases hasPasswd : u.hasPasswd with
      | false =>
          have passwd := fields.noPasswd hasPasswd
          rw [hasPasswd] at fits
          simp only [Bool.false_eq_true, if_false, List.append_nil] at fits ⊢
          rw [List.append_assoc, List.singleton_append] at fits ⊢
          rw [parseUser_user fits (not_mem_percentEncode (by decide) (by decide) (by decide)) some
            (not_mem_percentEncode (by decide) (by decide) (by decide)), passwd]
          constructor
          · rintro ⟨high, -⟩
            rw [percentDecode_encode high, withUser, hasUser, hasPasswd, passwd, ← noSecret, ← noSecretFlag]
            rfl
          · intro low
            obtain ⟨e, failed⟩ := percentDecode_encode_error (fun high => low ⟨high, nofun⟩)
            rw [failed]
            exact ⟨e, rfl⟩
      | true =>
          rw [hasPasswd] at fits
          simp only [if_true] at fits ⊢
          rw [List.append_assoc, List.singleton_append] at fits ⊢
          rw [parseUser_passwd fits (not_mem_encodedUser u.user u.passwd)
            (not_mem_percentEncode (by decide) (by decide) (by decide))]
          constructor
          · rintro ⟨high, highPasswd⟩
            rw [percentDecode_encode highPasswd]
            change (if percentEncode u.user = [] then _ else _) = _
            rw [if_neg some, percentDecode_encode high, withUser, hasUser, hasPasswd]
            rfl
          · intro low
            by_cases highPasswd : High u.passwd
            · obtain ⟨e, failed⟩ := percentDecode_encode_error (fun high => low ⟨high, highPasswd⟩)
              rw [percentDecode_encode highPasswd]
              change ∃ e, (if percentEncode u.user = [] then _ else _) = _
              rw [if_neg some, failed]
              exact ⟨e, rfl⟩
            · obtain ⟨e, failed⟩ := percentDecode_encode_error highPasswd
              rw [failed]
              exact ⟨e, rfl⟩

theorem isPort_decimal {n : Nat} (small : n < 65536) : parsePort (decimal n) = .ok n := by
  have value := digitsToNat_decimal n
  rw [parsePort_isPort ⟨fun c => isdigit_of_mem_decimal, by omega⟩, value]

theorem colon_not_mem_decimal (n : Nat) : 58 ∉ decimal n :=
  fun member => absurd (isdigit_of_mem_decimal member) (by decide)

/-- The URL with the host and the port of another one. -/
def withHost (url u : URL) : URL := { url with host := u.host, hasHost := true, port := u.port, hasPort := u.hasPort }

theorem parseHostPort_print (fields : AuthorityFields u) (noPort : url.port = 0 ∧ url.hasPort = false)
    (noBracket : u.host.head? ≠ some 91) (fits : (printHost u).length < 2 ^ 63) :
    parseHostPort url (printHost u) = .ok (withHost url u) := by
  have plain : (printHost u).head? ≠ some 91 := by
    rw [printHost, List.head?_append_of_ne_nil _ fields.host]
    exact noBracket
  rw [parseHostPort_plain plain]
  cases hasPort : u.hasPort with
  | false =>
      obtain ⟨port, colon⟩ := fields.noPort hasPort
      have text : printHost u = u.host := by
        rw [printHost, hasPort]
        exact List.append_nil _
      rw [text, hostPort_host fields.host (colon.resolve_left noBracket), withHost, port.trans noPort.1.symm,
        hasPort.trans noPort.2.symm]
  | true =>
      have text : printHost u = u.host ++ 58 :: decimal u.port := by
        rw [printHost, hasPort]
        rfl
      rw [text] at fits ⊢
      rw [hostPort_port fits (colon_not_mem_decimal u.port), if_neg fields.host, isPort_decimal fields.port, withHost,
        hasPort]
      rfl

/-- A host that begins with a bracket is not read back. -/
theorem parseHostPort_shorter {u' : URL} (bracket : u.host.head? = some 91) (fits : (printHost u).length < 2 ^ 63)
    (read : parseHostPort url (printHost u) = .ok u') : u'.host.length < u.host.length := by
  have first : (printHost u).head? = some 91 := by
    rw [printHost, List.head?_append, bracket]
    rfl
  by_cases closed : 93 ∈ u.host
  · obtain ⟨address, rest, split, absent⟩ := List.eq_append_cons_of_mem closed
    have text : printHost u = address ++ 93 :: (rest ++ if u.hasPort then 58 :: decimal u.port else []) := by
      rw [printHost, split, List.append_assoc, List.cons_append]
    have opened : address.head? = some 91 := by
      cases address with
      | nil =>
          rw [text] at first
          cases first
      | cons c address =>
          rw [text] at first
          exact first
    have longer : address.length < u.host.length ∧ rest.length < u.host.length := by
      rw [split, List.length_append, List.length_cons]
      omega
    rw [text] at read fits
    rw [parseHostPort_bracket opened absent fits] at read
    rw [List.length_append, List.length_cons] at fits
    cases hasPort : u.hasPort with
    | false =>
        have plain : (rest ++ if u.hasPort = true then 58 :: decimal u.port else []) = rest := by
          rw [hasPort]
          exact List.append_nil _
        rw [plain] at read fits
        cases hostPort_part (by omega) read with
        | kept known => exact longer.1
        | host some noColon => exact longer.2
        | port known noColon parsed => exact longer.1
        | hostPort some noColon parsed =>
            have before := longer.2
            rw [List.length_append] at before
            exact Nat.lt_of_le_of_lt (Nat.le_add_right _ _) before
    | true =>
        have plain : (rest ++ if u.hasPort = true then 58 :: decimal u.port else []) = rest ++ 58 :: decimal u.port := by
          rw [hasPort]
          rfl
        rw [plain] at read fits
        rw [hostPort_port (by omega) (colon_not_mem_decimal u.port)] at read
        split at read
        · obtain ⟨port, -, rfl⟩ := of_map_ok read
          exact longer.1
        · obtain ⟨port, -, rfl⟩ := of_map_ok read
          exact longer.2
  · have absent : 93 ∉ printHost u := by
      intro member
      rcases digit_of_printHost member with inHost | same | digit
      · exact closed inHost
      · cases same
      · cases digit
    obtain ⟨e, failed⟩ : ∃ e, parseHostPort url (printHost u) = .error e := parseHostPort_open first absent
    rw [failed] at read
    cases read

/-! ### What has been accepted -/

theorem percentDecode_ne_nil {text decoded : Bytes} (some : text ≠ []) (read : percentDecode text = .ok decoded) :
    decoded ≠ [] := by
  cases text with
  | nil => exact absurd rfl some
  | cons c rest =>
      by_cases percent : c = 37
      · subst percent
        rcases rest with _ | ⟨high, _ | ⟨low, rest⟩⟩
        · cases read
        · obtain ⟨e, failed⟩ := percentDecode_single high
          rw [failed] at read
          cases read
        · obtain ⟨n, m, tail, -, -, -, rfl⟩ := escape_of_percentDecode read
          exact List.cons_ne_nil _ _
      · rw [percentDecode_cons percent] at read
        obtain ⟨tail, -, rfl⟩ := of_map_ok read
        exact List.cons_ne_nil _ _

theorem lt_of_checked {value port : Nat} {e : StdException}
    (read : (if 65536 ≤ value then .error e else .ok value : Except StdException Nat) = .ok port) : port < 65536 := by
  split at read
  · cases read
  · rename_i small
    rw [← Except.ok.inj read]
    exact Nat.not_le.mp small

theorem parsePort_lt {p : Bytes} {port : Nat} (read : parsePort p = .ok port) : port < 65536 :=
  lt_of_checked read

/-- What the user information fills. -/
structure UserFields (u : URL) (rest : Bytes) : Prop where
  hasScheme : u.hasScheme = true
  noUser : u.hasUser = false → u.user = [] ∧ u.hasPasswd = false ∧ 64 ∉ rest
  user : u.hasUser = true → u.user ≠ []
  noPasswd : u.hasPasswd = false → u.passwd = []

theorem UserPart.userFields {scheme authority rest : Bytes}
    (part : UserPart { scheme := scheme, hasScheme := true } authority url rest) :
    UserFields url rest ∧ url.scheme = scheme ∧ url.hasHost = false ∧ url.port = 0 ∧ url.hasPort = false ∧
      rest ⊆ authority := by
  cases part with
  | none absent => exact ⟨⟨rfl, fun _ => ⟨rfl, rfl, absent⟩, nofun, fun _ => rfl⟩, rfl, rfl, rfl, rfl, fun _ => id⟩
  | user absent some noColon decoded =>
      refine ⟨⟨rfl, nofun, fun _ => percentDecode_ne_nil some decoded, fun _ => rfl⟩, rfl, rfl, rfl, rfl, ?_⟩
      exact fun c member => List.mem_append_right _ (List.mem_cons_of_mem _ member)
  | passwd absent some noColon decoded decodedPasswd =>
      refine ⟨⟨rfl, nofun, fun _ => percentDecode_ne_nil some decoded, nofun⟩, rfl, rfl, rfl, rfl, ?_⟩
      exact fun c member => List.mem_append_right _ (List.mem_cons_of_mem _ member)

/-- The fields before the host. -/
def userTuple (u : URL) : (Bytes × Bool) × (Bytes × Bool) × Bytes × Bool :=
  ((u.scheme, u.hasScheme), (u.user, u.hasUser), u.passwd, u.hasPasswd)

theorem HostPart.userTuple {text : Bytes} (part : HostPart url text u) : u.userTuple = url.userTuple := by
  cases part with
  | kept known => rfl
  | host some absent => rfl
  | port known absent read => rfl
  | hostPort some absent read => rfl

theorem HostPortPart.userTuple {text : Bytes} (part : HostPortPart url text u) : u.userTuple = url.userTuple := by
  cases part with
  | plain noBracket part => exact part.userTuple
  | bracket bracket absent part => exact part.userTuple

/-- What the host and the port fill. -/
theorem HostPart.hostFields {text : Bytes} (part : HostPart url text u) (port : url.port = 0 ∧ url.hasPort = false) :
    u.hasHost = true ∧
      (url.hasHost = true ∧ u.host = url.host ∨
        u.host ≠ [] ∧ u.host ⊆ text ∧ (u.hasPort = false → 58 ∉ u.host)) ∧
      u.port < 65536 ∧ (u.hasPort = false → u.port = 0) := by
  have zero : url.port < 65536 := by
    rw [port.1]
    decide
  cases part with
  | kept known => exact ⟨known, Or.inl ⟨known, rfl⟩, zero, fun _ => port.1⟩
  | host some absent => exact ⟨rfl, Or.inr ⟨some, fun _ => id, fun _ => absent⟩, zero, fun _ => port.1⟩
  | port known absent read => exact ⟨known, Or.inl ⟨known, rfl⟩, parsePort_lt read, nofun⟩
  | hostPort some absent read =>
      exact ⟨rfl, Or.inr ⟨some, fun _ => List.mem_append_left _, nofun⟩, parsePort_lt read, nofun⟩

theorem authorityFields {authority rest : Bytes} {url' : URL} (plain : ∀ c ∈ authority, c ≠ 47 ∧ c ≠ 63 ∧ c ≠ 35)
    (user : UserFields url rest) (noHost : url.hasHost = false) (port : url.port = 0 ∧ url.hasPort = false)
    (inside : rest ⊆ authority) (part : HostPortPart url rest url') : AuthorityFields url' := by
  -- all that is asked of the host, when it is a part of the text
  have assemble : url'.hasHost = true → url'.host ≠ [] → url'.host ⊆ rest →
      url'.port < 65536 → (url'.hasPort = false → url'.port = 0 ∧ (url'.host.head? = some 91 ∨ 58 ∉ url'.host)) →
      AuthorityFields url' := by
    intro hasHost host sub small noPort
    obtain ⟨⟨-, scheme⟩, ⟨name, hasUser⟩, passwd, hasPasswd⟩ := by
      simpa only [userTuple, Prod.mk.injEq] using part.userTuple
    refine ⟨scheme.trans user.hasScheme, hasHost, host, fun c member => plain c (inside (sub member)), ?_, ?_, ?_,
      small, noPort⟩
    · intro absent
      obtain ⟨empty, noPasswd, noSign⟩ := user.noUser (hasUser.symm.trans absent)
      exact ⟨name.trans empty, hasPasswd.trans noPasswd, fun member => noSign (sub member)⟩
    · intro present
      rw [name]
      exact user.user (hasUser.symm.trans present)
    · intro absent
      rw [passwd]
      exact user.noPasswd (hasPasswd.symm.trans absent)
  cases part with
  | plain noBracket part =>
      obtain ⟨hasHost, (⟨known, -⟩ | ⟨host, sub, noColon⟩), small, noPort⟩ := part.hostFields port
      · rw [noHost] at known
        cases known
      · exact assemble hasHost host sub small (fun absent => ⟨noPort absent, Or.inr (noColon absent)⟩)
  | @bracket address later u bracket absent part =>
      have front : address ⊆ address ++ 93 :: later := fun _ => List.mem_append_left _
      have back : later ⊆ address ++ 93 :: later :=
        fun _ member => List.mem_append_right _ (List.mem_cons_of_mem _ member)
      obtain ⟨hasHost, (⟨-, kept⟩ | ⟨host, sub, noColon⟩), small, noPort⟩ := part.hostFields port
      · have host : url'.host = address := kept
        refine assemble hasHost ?_ ?_ small (fun absent => ⟨noPort absent, Or.inl ?_⟩)
        · rintro empty
          rw [host] at empty
          rw [empty] at bracket
          cases bracket
        · rw [host]
          exact front
        · rw [host]
          exact bracket
      · exact assemble hasHost host (fun _ member => back (sub member)) small
          (fun absent => ⟨noPort absent, Or.inr (noColon absent)⟩)

end Authority

/-! ## Whole texts -/

/-- A URL that can be read from what is printed. -/
structure Printable (u : URL) : Prop where
  user : High u.user
  passwd : High u.passwd
  host : u.host.head? ≠ some 91
  path : NoMarks u.path
  arguments : HighArguments u.arguments

section Whole

variable {u : URL} {s scheme authority tail : Bytes}

theorem plain_of_isUnreserved {c : UInt8} (unreserved : isUnreserved c = true) : c ≠ 47 ∧ c ≠ 63 ∧ c ≠ 35 := by
  refine ⟨?_, ?_, ?_⟩
  · rintro rfl
    cases unreserved
  · rintro rfl
    cases unreserved
  · rintro rfl
    cases unreserved

theorem plain_percentEncode {text : Bytes} : ∀ c ∈ percentEncode text, c ≠ 47 ∧ c ≠ 63 ∧ c ≠ 35 := by
  intro c member
  rcases mem_percentEncode member with unreserved | rfl | rfl
  · exact plain_of_isUnreserved unreserved
  · decide
  · decide

theorem isUnreserved_of_isdigit {c : UInt8} (digit : isdigit c = true) : isUnreserved c = true := by
  rw [isUnreserved, isalnum, digit]
  rfl

theorem plain_printAuthority (fields : AuthorityFields u) : ∀ c ∈ printAuthority u, c ≠ 47 ∧ c ≠ 63 ∧ c ≠ 35 := by
  intro c member
  rw [printAuthority_eq, List.mem_append, List.mem_append, List.mem_append] at member
  rcases member with ((inUser | inPasswd) | sign) | inHost
  · split at inUser
    · exact plain_percentEncode c inUser
    · cases inUser
  · split at inPasswd
    · rcases List.mem_cons.mp inPasswd with rfl | inside
      · decide
      · exact plain_percentEncode c inside
    · cases inPasswd
  · split at sign
    · rw [List.mem_singleton.mp sign]
      decide
    · cases sign
  · rcases digit_of_printHost inHost with inside | rfl | digit
    · exact fields.plain c inside
    · decide
    · exact plain_of_isUnreserved (isUnreserved_of_isdigit digit)

theorem split_printURL (valid : u.scheme ≠ [] ∧ u.scheme.all (validSchemeChars.contains ·) = true)
    (fields : AuthorityFields u) (tailFields : TailFields u) :
    Split (printURL u) u.scheme (printAuthority u) (printTail u) where
  text := by
    rw [printURL, fields.hasScheme, fields.hasHost]
    simp
  nonempty := valid.1
  valid := valid.2
  plain := plain_printAuthority fields
  ends := by
    intro c here
    rw [printTail_head tailFields] at here
    exact Or.inl (Option.some.inj here).symm

/-- A URL with an authority is read back exactly when it is printable. -/
theorem roundTrip_authority (valid : u.scheme ≠ [] ∧ u.scheme.all (validSchemeChars.contains ·) = true)
    (fields : AuthorityFields u) (tailFields : TailFields u) (fits : (printURL u).length < 2 ^ 63) :
    RoundTrip u ↔ Printable u := by
  have split := split_printURL valid fields tailFields
  have lengths : (printAuthority u).length < 2 ^ 63 ∧ (printTail u).length < 2 ^ 63 ∧
      (printHost u).length < 2 ^ 63 := by
    rw [split.text, printAuthority_eq] at fits
    simp only [List.length_append, List.length_cons] at fits
    rw [printAuthority_eq]
    simp only [List.length_append]
    omega
  have fresh : NoUser { scheme := u.scheme, hasScheme := true } := ⟨rfl, rfl, rfl, rfl⟩
  obtain ⟨userOk, userError⟩ := parseUser_print fields fresh lengths.1
  rw [RoundTrip, parse_split split fits]
  by_cases high : High u.user ∧ High u.passwd
  · rw [userOk high]
    change (∃ u', (parseHostPort (withUser _ u) (printHost u) >>= fun url => parseTail url (printTail u)) = .ok u' ∧ _)
      ↔ _
    by_cases bracket : u.host.head? = some 91
    · refine iff_of_false ?_ (fun printable => printable.host bracket)
      rintro ⟨u', read, same⟩
      obtain ⟨url, hostRead, read⟩ := bind_eq_ok read
      have shorter := parseHostPort_shorter bracket lengths.2.2 hostRead
      have host : u'.host = url.host := congrArg (fun fields => fields.1.2.2.2.1) (parseTail_frontFields read)
      rw [← host, same.host] at shorter
      exact absurd shorter (Nat.lt_irrefl _)
    · rw [parseHostPort_print fields ⟨rfl, rfl⟩ bracket lengths.2.2]
      change (∃ u', parseTail (withHost (withUser _ u) u) (printTail u) = .ok u' ∧ _) ↔ _
      have untouched : (withHost (withUser { scheme := u.scheme, hasScheme := true } u) u).laterFields =
          ([], [], [], false, false, false) := rfl
      have later := roundTrip_tail untouched tailFields lengths.2.1
      constructor
      · rintro ⟨u', read, same⟩
        obtain ⟨noMarks, arguments⟩ := later.mp ⟨u', read, same.path, same.arguments, same.fragment⟩
        exact ⟨high.1, high.2, bracket, noMarks, arguments⟩
      · intro printable
        obtain ⟨u', read, path, arguments, fragment⟩ := later.mpr ⟨printable.path, printable.arguments⟩
        have front := parseTail_frontFields read
        simp only [frontFields, Prod.mk.injEq] at front
        obtain ⟨⟨scheme, user, passwd, host, port⟩, -⟩ := front
        exact ⟨u', read, scheme, user, passwd, host, port, arguments, fragment, path⟩
  · obtain ⟨e, failed⟩ := userError high
    rw [failed]
    refine iff_of_false ?_ (fun printable => high ⟨printable.user, printable.passwd⟩)
    rintro ⟨u', read, -⟩
    cases read

/-- The same for a URL without an authority, which has only path, query and fragment. -/
theorem roundTrip_root (front : u.frontFields = (({} : URL)).frontFields) (tailFields : TailFields u)
    (fits : (printURL u).length < 2 ^ 63) : RoundTrip u ↔ Printable u := by
  simp only [frontFields, Prod.mk.injEq] at front
  obtain ⟨⟨scheme, user, passwd, host, port⟩, ⟨hasScheme, -, -, hasHost, -⟩, -⟩ := front
  have text : printURL u = printTail u := by
    rw [printURL, hasScheme, hasHost]
    rfl
  rw [text] at fits
  have untouched : (({} : URL)).laterFields = ([], [], [], false, false, false) := rfl
  have later := roundTrip_tail untouched tailFields fits
  rw [RoundTrip, text, parse_root (printTail_head tailFields) fits]
  constructor
  · rintro ⟨u', read, same⟩
    obtain ⟨noMarks, arguments⟩ := later.mp ⟨u', read, same.path, same.arguments, same.fragment⟩
    refine ⟨?_, ?_, ?_, noMarks, arguments⟩
    · rw [user]
      exact nofun
    · rw [passwd]
      exact nofun
    · rw [host]
      exact nofun
  · intro printable
    obtain ⟨u', read, path, arguments, fragment⟩ := later.mpr ⟨printable.path, printable.arguments⟩
    have front := parseTail_frontFields read
    simp only [frontFields, Prod.mk.injEq] at front
    obtain ⟨⟨scheme', user', passwd', host', port'⟩, -⟩ := front
    exact ⟨u', read, scheme'.trans scheme.symm, user'.trans user.symm, passwd'.trans passwd.symm,
      host'.trans host.symm, port'.trans port.symm, arguments, fragment, path⟩

end Whole

end Pcm.Http.URL

import Pcm.HeaderPadding
import Pcm.RequestTermination

/-!
# Requests with white space around a value

Two requests that differ in the blanks around the value of one header are read side by side. The decisions that
are made about them are the same, except those that compare the value of `Connection` and `Expect`
(`pcm-sensor-server.cpp:2992-3007`, `pcm-sensor-server.cpp:3224-3241`).
-/

namespace Pcm.Http

open StdString Squeeze Bounded IStream

/-! ## Decisions -/

/-- What is decided by the headers of a request: how the body arrives, the connection, whether the `Host` is there
and the format of the answer; and where the body is read from. -/
structure Decisions where
  plan : Except StdException BodyPlan
  keepAlive : Bool
  hasHost : Bool
  mimeType : MimeType
  rs : IStream

def decisions (request : HTTPRequest) (rs : IStream) : Decisions where
  plan := bodyPlan request
  keepAlive := asksKeepAlive request
  hasHost := conforms request
  mimeType := acceptedMimeType request
  rs := rs

/-- The headers of the request that follow its first line, and the decisions. -/
def decideHeaders (m : HTTPRequest) (rs : IStream) : Bounded StdException Decisions := do
  let result ← readHeaders rs
  return decisions { m with headers := result.1 } result.2

/-- The decisions about the request that begins a text, or the exception that refuses it. -/
def decideRequest (text : Bytes) : Bounded StdException Decisions := do
  let first ← Bounded.lift (readRequestLine (fresh text))
  decideHeaders first.1 first.2

/-- The rest of a request around the line of a header: the lines before it, and what follows, which is not a
continuation. -/
structure Context where
  requestLine : Bytes
  before : List Bytes
  lineEnd : Bytes
  next : UInt8
  rest : Bytes
  within : 10 ∉ requestLine
  lines : ∀ line ∈ before, 10 ∉ line ∧ compressLWSAndRemoveCR line ≠ []
  ending : LineEnd lineEnd
  first : next ≠ 32 ∧ next ≠ 9

/-- The header line and what follows it. -/
def Context.tail (context : Context) (header : Bytes) : Bytes :=
  (header ++ context.lineEnd) ++ 10 :: context.next :: context.rest

def Context.request (context : Context) (header : Bytes) : Bytes :=
  context.requestLine ++ 10 :: (context.before.flatMap (· ++ [10]) ++ context.tail header)

/-- The blanks around a value make no difference in any request. -/
def Insignificant (name value : Bytes) (a b : Nat) : Prop :=
  ∀ (context : Context) (d : Except StdException Decisions),
    (decideRequest (context.request (name ++ 58 :: inBlanks a value b))).Returns d ↔
      (decideRequest (context.request (name ++ 58 :: value))).Returns d

/-! ## Headers that differ in one value -/

def repad (name value : Bytes) (entry : Bytes × HTTPHeader) : Bytes × HTTPHeader :=
  if entry.1 = name then (entry.1, { entry.2 with value := value }) else entry

/-- The header of this name has one value in the first list and another one in the second. -/
structure Alike (name x w : Bytes) (h h' : Headers) : Prop where
  map : h' = h.map (repad name w)
  present : ∃ entry ∈ h, entry.1 = name
  value : ∀ entry ∈ h, entry.1 = name → entry.2.value = x

section Alike

variable {name x w : Bytes} {h h' : Headers}

theorem repad_fst (name w : Bytes) (entry : Bytes × HTTPHeader) : (repad name w entry).1 = entry.1 := by
  rw [repad]
  split
  · rfl
  · rfl

theorem Alike.any (alike : Alike name x w h h') (other : Bytes) :
    h'.any (·.1 = other) = h.any (·.1 = other) := by
  rw [alike.map, List.any_map]
  simp only [Function.comp_def, repad_fst]

/-- Another header is added to both. -/
theorem Alike.add (alike : Alike name x w h h') (hh : HTTPHeader) :
    (∃ e, h.add hh = .error e ∧ h'.add hh = .error e) ∨
      ∃ g g', h.add hh = .ok g ∧ h'.add hh = .ok g' ∧ Alike name x w g g' := by
  rw [Headers.add, Headers.add, alike.any]
  by_cases known : h.any (·.1 = hh.name) = true
  · rw [if_pos known, if_pos known]
    exact Or.inl ⟨_, rfl, rfl⟩
  · rw [if_neg known, if_neg known]
    have other : hh.name ≠ name := by
      intro same
      obtain ⟨entry, member, named⟩ := alike.present
      exact known (List.any_eq_true.mpr ⟨entry, member, decide_eq_true (named.trans same.symm)⟩)
    refine Or.inr ⟨_, _, rfl, rfl, ?_, ?_, ?_⟩
    · rw [List.map_cons, repad, if_neg other, ← alike.map]
    · obtain ⟨entry, member, named⟩ := alike.present
      exact ⟨entry, List.mem_cons_of_mem _ member, named⟩
    · intro entry member named
      rcases List.mem_cons.mp member with rfl | later
      · exact absurd named other
      · exact alike.value entry later named

theorem Alike.addParsed (alike : Alike name x w h h') (text : Bytes) :
    (∃ e, addParsed h text = .error e ∧ addParsed h' text = .error e) ∨
      ∃ g g', addParsed h text = .ok g ∧ addParsed h' text = .ok g' ∧ Alike name x w g g' := by
  rw [Http.addParsed, Http.addParsed]
  by_cases invalid : (HTTPHeader.parse text).type = .invalid
  · simp only [if_pos invalid]
    exact Or.inl ⟨_, rfl, rfl⟩
  · simp only [if_neg invalid]
    exact alike.add _

/-- What is looked up. -/
theorem Alike.get? (alike : Alike name x w h h') (key : String) :
    (h.get? key = none ∧ h'.get? key = none) ∨
      ∃ hh hh', h.get? key = some hh ∧ h'.get? key = some hh' ∧
        ((ascii key ≠ name ∧ hh' = hh) ∨ (ascii key = name ∧ hh.value = x ∧ hh' = { hh with value := w })) := by
  have found : h'.find? (·.1 = ascii key) = (h.find? (·.1 = ascii key)).map (repad name w) := by
    rw [alike.map, List.find?_map]
    simp only [Function.comp_def, repad_fst]
  rw [Headers.get?, Headers.get?, found]
  rcases first : h.find? (·.1 = ascii key) with _ | entry
  · rw [first]
    exact Or.inl ⟨rfl, rfl⟩
  · have chosen := List.find?_some first
    have named : entry.1 = ascii key := of_decide_eq_true chosen
    rw [first]
    refine Or.inr ⟨entry.2, (repad name w entry).2, rfl, rfl, ?_⟩
    by_cases same : entry.1 = name
    · right
      refine ⟨named.symm.trans same, alike.value entry (List.mem_of_find?_eq_some first) same, ?_⟩
      rw [repad, if_pos same]
    · left
      refine ⟨fun key => same (named.trans key), ?_⟩
      rw [repad, if_neg same]

/-- What is made of a header is the same, if the values are as good as each other for it. -/
theorem Alike.attribute {β : Type} (alike : Alike name x w h h') (key : String) {g : HTTPHeader → β}
    (keeps : ascii key = name → ∀ hh, hh.value = x → g { hh with value := w } = g hh) :
    (h'.get? key).map g = (h.get? key).map g := by
  rcases alike.get? key with ⟨none, none'⟩ | ⟨hh, hh', first, second, (⟨-, rfl⟩ | ⟨same, value, rfl⟩)⟩
  · rw [none, none']
  · rw [first, second]
  · rw [first, second, Option.map_some, Option.map_some, keeps same hh value]

end Alike

/-! ## Decisions about alike headers -/

/-- The value of `Expect`. -/
def expectOf (expect : Bytes) : Except StdException Bool :=
  if expect = ascii "100-continue" then .ok true
  else if expect ≠ [] then invalidRequest "Not a valid Expect header"
  else .ok false

/-- `bodyPlan`, from what it makes of the headers. -/
def planOf (hasBody : HTTPRequestHasBody) (number : Option (Except StdException Nat)) (chunked : Option Bool)
    (trailers : Option Nat) (expect : Except StdException Bool) : Except StdException BodyPlan := do
  if hasBody = .no then return .none
  let contentLength ← match number with
    | some number => some <$> number
    | none => pure none
  match chunked.getD false, contentLength with
  | true, none => return .chunked (trailers.getD 0) (← expect)
  | false, some length => return .contentLength length (← expect)
  | false, none =>
      if hasBody = .optional then return .none else invalidRequest "Bad Request received"
  | true, some _ => invalidRequest "Bad Request received"

theorem bodyPlan_eq (m : HTTPRequest) : bodyPlan m = planOf (requestHasBody m.method)
    ((m.headers.get? "Content-Length").map HTTPHeader.valueAsNumber)
    ((m.headers.get? "Transfer-Encoding").map (fun h => decide (ascii "chunked" <:+: h.value)))
    ((m.headers.get? "Trailer").map (fun h => h.valueAsList.length))
    (expectOf (((m.headers.get? "Expect").map HTTPHeader.value).getD [])) := by
  have expect : expectContinue m.headers = expectOf (((m.headers.get? "Expect").map HTTPHeader.value).getD []) := by
    rw [expectContinue]
    cases m.headers.get? "Expect" <;> rfl
  rw [bodyPlan, planOf, expect]
  cases m.headers.get? "Content-Length" <;> cases m.headers.get? "Transfer-Encoding" <;>
    cases m.headers.get? "Trailer" <;> rfl

/-- The two values are as good as each other: one has white space around it, and the comparisons of `Connection`
and `Expect` do not notice. -/
structure AsGood (name x w : Bytes) : Prop where
  trimmed : Trimmed x
  padded : ∃ l t, Blank l ∧ Blank t ∧ w = l ++ x ++ t
  connection : name = ascii "Connection" → (w = ascii "keep-alive" ↔ x = ascii "keep-alive")
  expect : name = ascii "Expect" → expectOf w = expectOf x

section AsGood

variable {name x w : Bytes} {h h' : Headers}

theorem AsGood.header (good : AsGood name x w) {hh : HTTPHeader} (value : hh.value = x) :
    PaddedHeader hh { hh with value := w } :=
  ⟨rfl, value.symm ▸ good.trimmed, value.symm ▸ good.padded⟩

theorem asksKeepAlive_eq (m : HTTPRequest) : asksKeepAlive m =
    (((m.headers.get? "Connection").map (fun h => decide (h.value = ascii "keep-alive"))).getD false) := by
  rw [asksKeepAlive, connection]
  cases m.headers.get? "Connection" with
  | none => decide
  | some h => rfl

theorem conforms_eq (m : HTTPRequest) : conforms m =
    !(m.protocol = .http_1_1 && !((m.headers.get? "Host").map (fun _ => true)).getD false) := by
  rw [conforms, Headers.has]
  cases m.headers.get? "Host" <;> rfl

theorem acceptedMimeType_eq (m : HTTPRequest) : acceptedMimeType m =
    ((m.headers.get? "Accept").map matchSupportedWithAcceptedMimeTypes).getD .catchAll := by
  rw [acceptedMimeType]
  cases m.headers.get? "Accept" <;> rfl

/-- The decisions are the same. -/
theorem decisions_alike (good : AsGood name x w) (alike : Alike name x w h h') (m : HTTPRequest) (rs : IStream) :
    decisions { m with headers := h' } rs = decisions { m with headers := h } rs := by
  have number := alike.attribute "Content-Length" (fun _ hh value => (good.header value).valueAsNumber)
  have chunked := alike.attribute "Transfer-Encoding" (g := fun h => decide (ascii "chunked" <:+: h.value))
    (fun _ hh value => decide_eq_decide.mpr
      ((good.header value).infix_iff (by decide) (forall_mem_of_all (by decide))))
  have trailers := alike.attribute "Trailer" (g := fun h => h.valueAsList.length)
    (fun _ hh value => (good.header value).length_valueAsList)
  have host := alike.attribute "Host" (g := fun _ => true) (fun _ _ _ => rfl)
  have accept := alike.attribute "Accept" (fun _ hh value => (good.header value).matchSupported)
  have keep := alike.attribute "Connection" (g := fun h => decide (h.value = ascii "keep-alive"))
    (fun named hh value => by
      refine decide_eq_decide.mpr ?_
      rw [value]
      exact good.connection named.symm)
  have expect : expectOf (((h'.get? "Expect").map HTTPHeader.value).getD []) =
      expectOf (((h.get? "Expect").map HTTPHeader.value).getD []) := by
    rcases alike.get? "Expect" with ⟨none, none'⟩ | ⟨hh, hh', first, second, (⟨-, rfl⟩ | ⟨named, value, rfl⟩)⟩
    · rw [none, none']
    · rw [first, second]
    · rw [first, second]
      change expectOf w = expectOf hh.value
      rw [value]
      exact good.expect named.symm
  rw [decisions, decisions, bodyPlan_eq, bodyPlan_eq, asksKeepAlive_eq, asksKeepAlive_eq, conforms_eq, conforms_eq,
    acceptedMimeType_eq, acceptedMimeType_eq]
  simp only [number, chunked, trailers, host, accept, keep, expect]

end AsGood

/-! ## Side by side -/

section Run

variable {name x w : Bytes} {s s' : HeaderState} {m : HTTPRequest} {context : Context}

/-- After the line of the header. -/
structure After (name x w : Bytes) (s s' : HeaderState) : Prop where
  line : s.rs.good = false → s'.line = s.line
  concatLine : s'.concatLine = s.concatLine
  rs : s'.rs = s.rs
  headers : Alike name x w s.headers s'.headers

/-- What a loop that is done is used for. -/
def decided (m : HTTPRequest) (result : Headers × IStream) : Decisions :=
  decisions { m with headers := result.1 } result.2

theorem getline_after (after : After name x w s s') : s'.rs.getline s'.line 10 = s.rs.getline s.line 10 := by
  rw [after.rs]
  cases state : s.rs.good with
  | false => rw [after.line state]
  | true => rw [eq_fresh_of_good state]; rfl

/-- The lines after the header are read in the same way. -/
theorem headerLine_after (good : AsGood name x w) (after : After name x w s s') :
    Steps (After name x w) (fun a b => decided m a = decided m b) (headerLine s) (headerLine s') := by
  rcases read : s.rs.getline s.line 10 with ⟨line, rs⟩
  have read' : s'.rs.getline s'.line 10 = (line, rs) := (getline_after after).trans read
  simp only [headerLine, read, read', after.concatLine]
  by_cases empty : s.concatLine ++ compressLWSAndRemoveCR line = []
  · rw [if_pos empty, if_pos empty]
    exact (decisions_alike good after.headers m rs).symm
  rw [if_neg empty, if_neg empty]
  by_cases blank : rs.peek.1 = some 32
  · rw [if_pos blank, if_pos blank]
    exact ⟨fun _ => rfl, rfl, rfl, after.headers⟩
  rw [if_neg blank, if_neg blank]
  by_cases tab : rs.peek.2.peek.1 = some 9
  · rw [if_pos tab, if_pos tab]
    exact ⟨fun _ => rfl, rfl, rfl, after.headers⟩
  rw [if_neg tab, if_neg tab]
  rcases after.headers.addParsed (s.concatLine ++ compressLWSAndRemoveCR line) with
    ⟨e, first, second⟩ | ⟨g, g', first, second, alike⟩
  · rw [first, second]
    exact rfl
  · rw [first, second]
    exact ⟨fun _ => rfl, rfl, rfl, alike⟩

/-- Before the line of the header, with the header lines that are left before it. -/
structure Before (context : Context) (header header' : Bytes) (s s' : HeaderState) : Prop where
  lines : ∃ lines : List Bytes, (∀ line ∈ lines, 10 ∉ line ∧ compressLWSAndRemoveCR line ≠ []) ∧
    (lines = [] → s.concatLine = []) ∧ s.rs = fresh (lines.flatMap (· ++ [10]) ++ context.tail header) ∧
    s' = { s with rs := fresh (lines.flatMap (· ++ [10]) ++ context.tail header') }

theorem addParsed_field (solid : ∀ c ∈ name, isspace c = false ∧ c ≠ 58) (fits : name.length < 2 ^ 63)
    (headers : Headers) (value : Bytes) : addParsed headers (name ++ 58 :: value) =
      if headerType name = .invalid then
        .error (.runtime_error (ascii "Bad Request received: " ++ ascii "parse header: found an Invalid HeaderType"))
      else if value.count 34 % 2 ≠ 0 then
        .error (.runtime_error (ascii "Bad Request received: " ++ ascii "parse header: header improperly quoted"))
      else headers.add { name := name, value := value, type := headerType name } := by
  have colon : 58 ∉ name := fun member => (solid 58 member).2 rfl
  have bound : (npos : Nat) = 2 ^ 64 - 1 := rfl
  have noBlanks : name.filter (fun c => decide (c ≠ 32)) = name := by
    rw [List.filter_eq_self]
    intro c member
    refine decide_eq_true ?_
    rintro rfl
    exact absurd (solid 32 member).1 (by decide)
  have rest : (name ++ 58 :: value).drop (name.length + 1) = value := by
    rw [List.drop_length_add_append]
    rfl
  have parsed : HTTPHeader.parse (name ++ 58 :: value) =
      if headerType name = .invalid then
        { name := name, value := value, type := headerType name,
          invalidReason := ascii "parse header: found an Invalid HeaderType" }
      else if value.count 34 % 2 ≠ 0 then
        { name := name, value := value, type := .invalid,
          invalidReason := ascii "parse header: header improperly quoted" }
      else { name := name, value := value, type := headerType name } := by
    simp only [HTTPHeader.parse, find_first colon, List.take_left, noBlanks, rest]
    rw [if_neg (by omega)]
  rw [Http.addParsed, parsed]
  by_cases invalid : headerType name = .invalid
  · simp only [if_pos invalid]
  · by_cases odd : value.count 34 % 2 ≠ 0
    · simp only [if_neg invalid, if_pos odd, if_true]
    · simp only [if_neg invalid, if_neg odd]

theorem count_pad {l t : Bytes} (left : Blank l) (right : Blank t) : (l ++ x ++ t).count 34 = x.count 34 := by
  have none : ∀ {text : Bytes}, Blank text → text.count 34 = 0 :=
    fun blank => List.count_eq_zero.mpr (not_mem_blank blank (by decide))
  rw [List.count_append, List.count_append, none left, none right, Nat.zero_add, Nat.add_zero]

/-- The line of the header, in two forms that are compressed to the two values. -/
theorem headerLine_target {header header' : Bytes} (good : AsGood name x w)
    (solid : ∀ c ∈ name, isspace c = false ∧ c ≠ 58) (fits : name.length < 2 ^ 63)
    (within : 10 ∉ header ++ context.lineEnd) (within' : 10 ∉ header' ++ context.lineEnd)
    (compressed : compressLWSAndRemoveCR (header ++ context.lineEnd) = name ++ 58 :: x)
    (compressed' : compressLWSAndRemoveCR (header' ++ context.lineEnd) = name ++ 58 :: w)
    (old : Bytes) (headers : Headers) :
    Steps (After name x w) (fun a b => decided m a = decided m b)
      (headerLine ⟨old, [], headers, fresh (context.tail header)⟩)
      (headerLine ⟨old, [], headers, fresh (context.tail header')⟩) := by
  have some : ∀ value : Bytes, name ++ 58 :: value ≠ [] :=
    fun value => List.append_ne_nil_of_right_ne_nil _ (List.cons_ne_nil 58 value)
  have count : w.count 34 = x.count 34 := by
    obtain ⟨l, t, left, right, rfl⟩ := good.padded
    exact count_pad left right
  simp only [headerLine, Context.tail, getline_line within, getline_line within', compressed, compressed',
    List.nil_append, if_neg (some x), if_neg (some w), peek_cons, Option.some.injEq, if_neg context.first.1, if_neg context.first.2,
    addParsed_field solid fits, count]
  by_cases invalid : headerType name = .invalid
  · simp only [if_pos invalid]
    exact rfl
  by_cases odd : x.count 34 % 2 ≠ 0
  · simp only [if_neg invalid, if_pos odd]
    exact rfl
  simp only [if_neg invalid, if_neg odd, Headers.add]
  by_cases known : headers.any (·.1 = name) = true
  · simp only [if_pos known]
    exact rfl
  · simp only [if_neg known]
    have other : ∀ entry ∈ headers, entry.1 ≠ name :=
      fun entry member same => known (List.any_eq_true.mpr ⟨entry, member, decide_eq_true same⟩)
    refine ⟨(fun absent => by cases absent), rfl, rfl, ?_, ⟨_, List.mem_cons_self, rfl⟩, ?_⟩
    · rw [List.map_cons, repad, if_pos rfl]
      refine congrArg (List.cons _) ?_
      refine ((List.map_congr_left ?_).trans (List.map_id _)).symm
      intro entry member
      rw [repad, if_neg (other entry member)]
      rfl
    · intro entry member named
      rcases List.mem_cons.mp member with rfl | later
      · rfl
      · exact absurd named (other entry later)

/-- A header line before the one that differs. -/
theorem headerLine_before {header header' : Bytes} {c : UInt8} {more more' : Bytes}
    (begins : header = c :: more ∧ header' = c :: more' ∧ c ≠ 32 ∧ c ≠ 9)
    (target : ∀ old headers, Steps (After name x w) (fun a b => decided m a = decided m b)
      (headerLine ⟨old, [], headers, fresh (context.tail header)⟩)
      (headerLine ⟨old, [], headers, fresh (context.tail header')⟩))
    (before : Before context header header' s s') :
    Steps (fun s s' => Before context header header' s s' ∨ After name x w s s')
      (fun a b => decided m a = decided m b) (headerLine s) (headerLine s') := by
  obtain ⟨lines, plain, unfolded, stream, rfl⟩ := before.lines
  obtain ⟨old, concatLine, headers, rs⟩ := s
  obtain rfl : rs = _ := stream
  cases lines with
  | nil =>
      obtain rfl : concatLine = [] := unfolded rfl
      exact (target old headers).mono Or.inr
  | cons line lines =>
      obtain ⟨within, text⟩ := plain line List.mem_cons_self
      have later : ∀ other ∈ lines, 10 ∉ other ∧ compressLWSAndRemoveCR other ≠ [] :=
        fun other member => plain other (List.mem_cons_of_mem line member)
      -- both go on with the same character
      obtain ⟨d, rest, rest', first, second, solid⟩ : ∃ d rest rest',
          lines.flatMap (· ++ [10]) ++ context.tail header = d :: rest ∧
          lines.flatMap (· ++ [10]) ++ context.tail header' = d :: rest' ∧ (lines = [] → d ≠ 32 ∧ d ≠ 9) := by
        cases lines with
        | nil =>
            obtain ⟨rfl, rfl, notBlank⟩ := begins
            exact ⟨c, _, _, rfl, rfl, fun _ => notBlank⟩
        | cons next lines =>
            cases next with
            | nil => exact ⟨10, _, _, rfl, rfl, nofun⟩
            | cons d next => exact ⟨d, _, _, rfl, rfl, nofun⟩
      have more : ∀ header, (line :: lines).flatMap (· ++ [10]) ++ context.tail header =
          line ++ 10 :: (lines.flatMap (· ++ [10]) ++ context.tail header) := by
        intro header
        rw [List.flatMap_cons, List.append_assoc, List.append_assoc]
        rfl
      have some : concatLine ++ compressLWSAndRemoveCR line ≠ [] := List.append_ne_nil_of_right_ne_nil _ text
      simp only [headerLine, more, first, second, getline_line within, if_neg some, peek_cons, Option.some.injEq]
      have nonempty : d = 32 ∨ d = 9 → lines ≠ [] := by
        intro blank empty
        rcases blank with rfl | rfl
        · exact (solid empty).1 rfl
        · exact (solid empty).2 rfl
      by_cases blank : d = 32
      · rw [if_pos blank, if_pos blank]
        exact Or.inl ⟨lines, later, fun empty => absurd empty (nonempty (Or.inl blank)), by rw [first], by rw [second]⟩
      rw [if_neg blank, if_neg blank]
      by_cases tab : d = 9
      · rw [if_pos tab, if_pos tab]
        exact Or.inl ⟨lines, later, fun empty => absurd empty (nonempty (Or.inr tab)), by rw [first], by rw [second]⟩
      rw [if_neg tab, if_neg tab]
      rcases addParsed headers (concatLine ++ compressLWSAndRemoveCR line) with e | added
      · exact rfl
      · exact Or.inl ⟨lines, later, fun _ => rfl, by rw [first], by rw [second]⟩

/-- The two requests lead to the same decisions. -/
theorem decideRequest_eq {header header' : Bytes} {c : UInt8} {more more' : Bytes}
    (begins : header = c :: more ∧ header' = c :: more' ∧ c ≠ 32 ∧ c ≠ 9) (good : AsGood name x w)
    (target : ∀ m old headers, Steps (After name x w) (fun a b => decided m a = decided m b)
      (headerLine ⟨old, [], headers, fresh (context.tail header)⟩)
      (headerLine ⟨old, [], headers, fresh (context.tail header')⟩)) :
    decideRequest (context.request header) = decideRequest (context.request header') := by
  rw [decideRequest, decideRequest, Context.request, Context.request, readRequestLine_line context.within,
    readRequestLine_line context.within]
  rcases parseRequestLine context.requestLine with e | m
  · rfl
  · have start : Before context header header'
        { rs := fresh (context.before.flatMap (· ++ [10]) ++ context.tail header) }
        { rs := fresh (context.before.flatMap (· ++ [10]) ++ context.tail header') } :=
      ⟨context.before, context.lines, fun _ => rfl, rfl, rfl⟩
    exact loop_alongside
      (R := fun s s' => Before context header header' s s' ∨ After name x w s s')
      (fun {_ _} related => by
        rcases related with before | after
        · exact headerLine_before begins (target m) before
        · exact (headerLine_after good after).mono Or.inr) (Or.inl start)

end Run

/-! ## Which blanks are insignificant -/

/-- The headers whose blanks are compared. -/
def ComparedWithBlanks (name value : Bytes) : Prop :=
  name = ascii "Connection" ∧ value = ascii "keep-alive" ∨
    name = ascii "Expect" ∧ (value = ascii "100-continue" ∨ value = [])

section Blanks

variable {name value : Bytes} {a b : Nat}

theorem trimmed_squeeze (trimmed : Trimmed value) : Trimmed (squeeze isspace value) where
  first := by
    cases value with
    | nil => exact nofun
    | cons c value =>
        rw [squeeze_cons]
        exact trimmed.first
  last := by
    have closed : Closed isspace value := trimmed.last
    rw [squeeze, getLast?_squeezeFrom closed]
    exact trimmed.last

/-- A value that is compressed to a text without white space is this text. -/
theorem eq_of_squeeze_eq {text : Bytes} (solid : text.all (fun c => !isspace c) = true)
    (same : squeeze isspace value = text) : value = text := by
  rw [← same]
  refine (eq_of_squeeze ?_).symm
  rw [same]
  intro c member
  have kept := List.all_eq_true.mp solid c member
  rwa [Bool.not_eq_true'] at kept

/-- A text in white space is not one without. -/
theorem ne_of_blank {l t x text : Bytes} (left : Blank l) (right : Blank t) (some : ¬ (l = [] ∧ t = []))
    (solid : text.all (fun c => !isspace c) = true) : l ++ x ++ t ≠ text := by
  have none : ∀ c ∈ text, isspace c = false := by
    intro c member
    have kept := List.all_eq_true.mp solid c member
    rwa [Bool.not_eq_true'] at kept
  rintro rfl
  refine some ⟨List.eq_nil_iff_forall_not_mem.mpr ?_, List.eq_nil_iff_forall_not_mem.mpr ?_⟩
  · intro c member
    have blank := left c member
    rw [none c (List.mem_append_left _ (List.mem_append_left _ member))] at blank
    cases blank
  · intro c member
    have blank := right c member
    rw [none c (List.mem_append_right _ member)] at blank
    cases blank

theorem asGood {l t : Bytes} (trimmed : Trimmed value) (left : Blank l) (right : Blank t)
    (other : ¬ ComparedWithBlanks name value) :
    AsGood name (squeeze isspace value) (l ++ squeeze isspace value ++ t) := by
  refine ⟨trimmed_squeeze trimmed, ⟨l, t, left, right, rfl⟩, ?_, ?_⟩
  · intro named
    have plain : squeeze isspace value ≠ ascii "keep-alive" :=
      fun same => other (Or.inl ⟨named, eq_of_squeeze_eq (by decide) same⟩)
    by_cases none : l = [] ∧ t = []
    · rw [none.1, none.2, List.nil_append, List.append_nil]
    · exact iff_of_false (ne_of_blank left right none (by decide)) plain
  · intro named
    by_cases none : l = [] ∧ t = []
    · rw [none.1, none.2, List.nil_append, List.append_nil]
    · have plain : squeeze isspace value ≠ ascii "100-continue" :=
        fun same => other (Or.inr ⟨named, Or.inl (eq_of_squeeze_eq (by decide) same)⟩)
      have some : squeeze isspace value ≠ [] :=
        fun same => other (Or.inr ⟨named, Or.inr (eq_of_squeeze_eq (by decide) same)⟩)
      rw [expectOf, expectOf, if_neg plain, if_pos some, if_neg (ne_of_blank left right none (by decide)),
        if_pos (ne_of_blank left right none (by decide))]

theorem not_mem_line (field : HeaderField name value) {lineEnd : Bytes} (ending : LineEnd lineEnd) :
    10 ∉ (name ++ 58 :: inBlanks a value b) ++ lineEnd := by
  have blanks : ∀ n, (10 : UInt8) ∉ List.replicate n 32 := by
    intro n member
    exact absurd (List.eq_of_mem_replicate member) (by decide)
  have noEnd : (10 : UInt8) ∉ lineEnd := by
    rcases ending with rfl | rfl
    · decide
    · exact List.not_mem_nil
  have noName : (10 : UInt8) ∉ name := fun member => absurd (field.solid 10 member).1 (by decide)
  rw [inBlanks, List.mem_append, List.mem_append, List.mem_cons, List.mem_append, List.mem_append]
  rintro ((inName | same | (inFront | inValue) | inBack) | inEnd)
  · exact noName inName
  · cases same
  · exact blanks a inFront
  · exact field.line inValue
  · exact blanks b inBack
  · exact noEnd inEnd

theorem compress_header (field : HeaderField name value) {lineEnd : Bytes} (ending : LineEnd lineEnd) (a b : Nat) :
    ∃ l t, Blank l ∧ Blank t ∧ (l = [] ∧ t = [] ↔ a = 0 ∧ b = 0) ∧
      compressLWSAndRemoveCR ((name ++ 58 :: inBlanks a value b) ++ lineEnd) =
        name ++ 58 :: (l ++ squeeze isspace value ++ t) := by
  obtain ⟨l, t, left, right, none, compressed⟩ := compress_inBlanks field.trimmed ending a b
  refine ⟨l, t, left, right, none, ?_⟩
  rw [List.append_assoc, List.cons_append, compress_name (fun c member => (field.solid c member).1), compressed]

theorem compress_plain (field : HeaderField name value) {lineEnd : Bytes} (ending : LineEnd lineEnd) :
    compressLWSAndRemoveCR ((name ++ 58 :: value) ++ lineEnd) = name ++ 58 :: squeeze isspace value := by
  obtain ⟨l, t, -, -, none, compressed⟩ := compress_header field ending 0 0
  obtain ⟨rfl, rfl⟩ := none.mpr ⟨rfl, rfl⟩
  have text : inBlanks 0 value 0 = value := List.append_nil value
  rwa [text, List.nil_append, List.append_nil] at compressed

theorem insignificant_of_not_compared (field : HeaderField name value) (other : ¬ ComparedWithBlanks name value)
    (a b : Nat) : Insignificant name value a b := by
  intro context d
  obtain ⟨l, t, left, right, -, compressed⟩ := compress_header field context.ending a b
  have plain := compress_plain field context.ending
  have good := asGood (l := l) (t := t) field.trimmed left right other
  have begins : ∃ c more more', name ++ 58 :: value = c :: more ∧
      name ++ 58 :: inBlanks a value b = c :: more' ∧ c ≠ 32 ∧ c ≠ 9 := by
    cases name with
    | nil => exact ⟨58, value, inBlanks a value b, rfl, rfl, by decide, by decide⟩
    | cons c name =>
        have solid := (field.solid c List.mem_cons_self).1
        refine ⟨c, _, _, rfl, rfl, ?_, ?_⟩
        · rintro rfl
          cases solid
        · rintro rfl
          cases solid
  have text : inBlanks 0 value 0 = value := List.append_nil value
  have within : 10 ∉ (name ++ 58 :: value) ++ context.lineEnd := by
    have none := not_mem_line (a := 0) (b := 0) field context.ending
    rwa [text] at none
  obtain ⟨c, more, more', begins⟩ := begins
  rw [decideRequest_eq begins good (fun m old headers => headerLine_target good field.solid field.fits within
    (not_mem_line field context.ending) plain compressed old headers)]

/-! ### A request for each header that is compared -/

/-- A request with an empty body and one more header. -/
def postContext : Context where
  requestLine := ascii "POST / HTTP/1.1"
  before := [ascii "Content-Length:0"]
  lineEnd := []
  next := 10
  rest := []
  within := by decide
  lines := by
    refine List.forall_mem_singleton.mpr ⟨by decide, ?_⟩
    have kept : compressLWSAndRemoveCR (ascii "Content-Length:0") = ascii "Content-Length:0" := by
      rw [compress_single (by decide)]
      decide
    rw [kept]
    decide
  ending := Or.inr rfl
  first := by decide

def postedRequest : HTTPRequest := { protocol := .http_1_1, method := .post, url := { path := ascii "/" } }

def contentLengthHeader : Bytes × HTTPHeader :=
  (ascii "Content-Length", ⟨ascii "Content-Length", ascii "0", .integer, []⟩)

/-- The headers of this request. -/
def postHeaders (name value : Bytes) : Headers := [(name, ⟨name, value, .string, []⟩), contentLengthHeader]

theorem returns_postContext {header name v : Bytes} (begins : ∃ c more, header = c :: more ∧ c ≠ 32 ∧ c ≠ 9)
    (within : 10 ∉ header) (compressed : compressLWSAndRemoveCR header = name ++ 58 :: v)
    (added : addParsed [contentLengthHeader] (name ++ 58 :: v) = .ok (postHeaders name v)) :
    (decideRequest (postContext.request header)).Returns
      (.ok (decided postedRequest (postHeaders name v, fresh []))) := by
  obtain ⟨c, more, rfl, notBlank⟩ := begins
  have nothing : compressLWSAndRemoveCR [] = [] := by
    rw [compress_single (by decide)]
    decide
  have kept : compressLWSAndRemoveCR (ascii "Content-Length:0") = ascii "Content-Length:0" := by
    rw [compress_single (by decide)]
    decide
  have last : HeaderLines [] (postHeaders name v) [10] (postHeaders name v) := .blank (by decide) nothing
  have second : HeaderLines [] [contentLengthHeader] ((c :: more) ++ 10 :: [10]) (postHeaders name v) := by
    refine .header within ?_ (by decide) ?_ last
    · rw [compressed]
      exact List.append_ne_nil_of_right_ne_nil _ (List.append_ne_nil_of_right_ne_nil _ (List.cons_ne_nil 58 v))
    · rw [compressed]
      exact added
  have whole : HeaderLines [] [] (ascii "Content-Length:0" ++ 10 :: ((c :: more) ++ 10 :: [10])) (postHeaders name v) := by
    refine .header (by decide) ?_ notBlank ?_ second
    · rw [kept]
      decide
    · rw [kept]
      decide
  have read : readRequestLine (fresh (postContext.request (c :: more))) =
      .ok (postedRequest, fresh (ascii "Content-Length:0" ++ 10 :: ((c :: more) ++ 10 :: [10]))) := by
    have parsed : parseRequestLine (ascii "POST / HTTP/1.1") = .ok postedRequest := by decide
    have text : postContext.request (c :: more) =
        ascii "POST / HTTP/1.1" ++ 10 :: (ascii "Content-Length:0" ++ 10 :: ((c :: more) ++ 10 :: [10])) := by
      simp [Context.request, Context.tail, postContext]
    rw [text, readRequestLine_line (by decide), parsed]
    rfl
  have headers : (loop headerLine ⟨[], [], [], fresh
      ((ascii "Content-Length:0" ++ 10 :: ((c :: more) ++ 10 :: [10])) ++ [])⟩).Returns
        (.ok (postHeaders name v, fresh [])) := returns_of_headerLines whole []
  rw [List.append_nil] at headers
  rw [decideRequest, read]
  obtain ⟨fuel, result⟩ := headers
  refine ⟨fuel, ?_⟩
  change Bounded.bind (loop headerLine _) (fun a => pure (decided postedRequest a)) fuel = _
  rw [Bounded.bind, result]
  rfl

theorem stable_decideRequest (text : Bytes) : (decideRequest text).Stable :=
  (stable_lift _).bind (fun _ => (stable_loop _ _).bind (fun _ => stable_pure _))

theorem addParsed_post {name v : Bytes} (solid : ∀ c ∈ name, isspace c = false ∧ c ≠ 58) (fits : name.length < 2 ^ 63)
    (type : headerType name = .string) (other : ascii "Content-Length" ≠ name) (quotes : v.count 34 = 0) :
    addParsed [contentLengthHeader] (name ++ 58 :: v) = .ok (postHeaders name v) := by
  have notString : ¬ HeaderType.string = HeaderType.invalid := by decide
  have new : ¬ ([contentLengthHeader].any (fun entry => decide (entry.1 = name))) = true := by
    rw [List.any_cons, List.any_nil, Bool.or_false]
    exact fun same => other (of_decide_eq_true same)
  rw [addParsed_field solid fits, type, if_neg notString, quotes, if_neg (by decide), Headers.add, if_neg new]
  rfl

/-- The decisions about the request with this header do not depend on the blanks. -/
theorem decided_of_insignificant (field : HeaderField name value) (type : headerType name = .string)
    (other : ascii "Content-Length" ≠ name) (quotes : value.count 34 = 0)
    (insignificant : Insignificant name value a b) :
    ∃ l t, Blank l ∧ Blank t ∧ (l = [] ∧ t = [] ↔ a = 0 ∧ b = 0) ∧
      decided postedRequest (postHeaders name (l ++ squeeze isspace value ++ t), fresh []) =
        decided postedRequest (postHeaders name (squeeze isspace value), fresh []) := by
  have noEnd : LineEnd [] := Or.inr rfl
  obtain ⟨l, t, left, right, none, compressed⟩ := compress_header field noEnd a b
  have plain := compress_plain field noEnd
  have text : inBlanks 0 value 0 = value := List.append_nil value
  have within := not_mem_line (a := a) (b := b) field noEnd
  have within' := not_mem_line (a := 0) (b := 0) field noEnd
  rw [text] at within'
  rw [List.append_nil] at compressed plain within within'
  have begins : ∀ rest, ∃ c more, name ++ 58 :: rest = c :: more ∧ c ≠ 32 ∧ c ≠ 9 := by
    intro rest
    cases name with
    | nil => exact ⟨58, rest, rfl, by decide, by decide⟩
    | cons c name =>
        have solid := (field.solid c List.mem_cons_self).1
        refine ⟨c, _, rfl, ?_, ?_⟩
        · rintro rfl
          cases solid
        · rintro rfl
          cases solid
  have count : (squeeze isspace value).count 34 = 0 := by
    rw [List.count_eq_zero] at quotes ⊢
    intro member
    have kept : (34 : UInt8) ∈ (squeeze isspace value).filter (fun c => !isspace c) :=
      List.mem_filter.mpr ⟨member, rfl⟩
    rw [squeeze, filter_squeezeFrom] at kept
    exact quotes (List.mem_filter.mp kept).1
  have first := returns_postContext (begins _) within compressed
    (addParsed_post field.solid field.fits type other (by rw [count_pad left right, count]))
  have second := returns_postContext (begins _) within' plain (addParsed_post field.solid field.fits type other count)
  have same := (insignificant postContext _).mp first
  exact ⟨l, t, left, right, none, Except.ok.inj (same.unique (stable_decideRequest _) second)⟩

theorem plan_post (v : Bytes) : (decided postedRequest (postHeaders (ascii "Expect") v, fresh [])).plan =
    (expectOf v).map (BodyPlan.contentLength 0) := by
  have number : (postHeaders (ascii "Expect") v).get? "Content-Length" = some contentLengthHeader.2 := rfl
  have expect : (postHeaders (ascii "Expect") v).get? "Expect" = some ⟨ascii "Expect", v, .string, []⟩ := rfl
  have chunked : (postHeaders (ascii "Expect") v).get? "Transfer-Encoding" = none := rfl
  have trailer : (postHeaders (ascii "Expect") v).get? "Trailer" = none := rfl
  have length : contentLengthHeader.2.valueAsNumber = .ok 0 := by decide
  change bodyPlan { postedRequest with headers := postHeaders (ascii "Expect") v } = _
  rw [bodyPlan_eq]
  simp only [number, expect, chunked, trailer, Option.map_some, Option.map_none, length]
  change planOf .required (some (.ok 0)) none none (expectOf v) = _
  cases expectOf v <;> rfl

theorem keepAlive_post (v : Bytes) : (decided postedRequest (postHeaders (ascii "Connection") v, fresh [])).keepAlive =
    decide (v = ascii "keep-alive") := rfl

/-- The blanks around a value are insignificant unless they are compared with it. -/
theorem insignificant_iff (field : HeaderField name value) :
    Insignificant name value a b ↔ (a = 0 ∧ b = 0) ∨ ¬ ComparedWithBlanks name value := by
  constructor
  · intro insignificant
    by_contra neither
    rw [not_or, not_not] at neither
    obtain ⟨padded, compared⟩ := neither
    rcases compared with ⟨rfl, rfl⟩ | ⟨rfl, values⟩
    · obtain ⟨l, t, left, right, none, same⟩ := decided_of_insignificant field (by decide) (by decide) (by decide) insignificant
      have keep := congrArg Decisions.keepAlive same
      rw [keepAlive_post, keepAlive_post] at keep
      have squeezed : squeeze isspace (ascii "keep-alive") = ascii "keep-alive" := by decide
      rw [squeezed, decide_eq_true rfl] at keep
      exact ne_of_blank left right (fun nothing => padded (none.mp nothing)) (by decide) (of_decide_eq_true keep)
    · have quotes : value.count 34 = 0 := by
        rcases values with rfl | rfl
        · decide
        · rfl
      obtain ⟨l, t, left, right, none, same⟩ := decided_of_insignificant field (by decide) (by decide) quotes insignificant
      have plan := congrArg Decisions.plan same
      have some : ¬ (l = [] ∧ t = []) := fun nothing => padded (none.mp nothing)
      have refused : expectOf (l ++ squeeze isspace value ++ t) = invalidRequest "Not a valid Expect header" := by
        rw [expectOf, if_neg (ne_of_blank left right some (by decide)), if_pos (ne_of_blank left right some (by decide))]
      have accepted : ∃ continues, expectOf (squeeze isspace value) = .ok continues := by
        rcases values with rfl | rfl
        · exact ⟨true, by decide⟩
        · exact ⟨false, by decide⟩
      obtain ⟨continues, accepted⟩ := accepted
      rw [plan_post, plan_post, refused, accepted] at plan
      cases plan
  · rintro (⟨rfl, rfl⟩ | other)
    · have text : inBlanks 0 value 0 = value := List.append_nil value
      intro context d
      rw [text]
    · exact insignificant_of_not_compared field other a b

theorem headerField_host : HeaderField (ascii "Host") (ascii "localhost") where
  solid := forall_mem_of_all (by decide)
  trimmed := by
    refine ⟨?_, ?_⟩
    · intro c first
      rw [← Option.some.inj first]
      decide
    · intro c last
      rw [← Option.some.inj last]
      decide
  line := by decide
  fits := by decide

/-- One blank before the name of the host. -/
theorem insignificant_host : Insignificant (ascii "Host") (ascii "localhost") 1 0 :=
  (insignificant_iff headerField_host).mpr (Or.inr (by rw [ComparedWithBlanks]; decide))

theorem headerField_keepAlive : HeaderField (ascii "Connection") (ascii "keep-alive") where
  solid := forall_mem_of_all (by decide)
  trimmed := by
    refine ⟨?_, ?_⟩
    · intro c first
      rw [← Option.some.inj first]
      decide
    · intro c last
      rw [← Option.some.inj last]
      decide
  line := by decide
  fits := by decide

/-- One blank after the colon of `Connection`, as every client sends it. -/
theorem significant_keepAlive : ¬ Insignificant (ascii "Connection") (ascii "keep-alive") 1 0 := by
  intro insignificant
  obtain ⟨l, t, left, right, none, same⟩ := decided_of_insignificant headerField_keepAlive (by decide) (by decide)
    (by decide) insignificant
  have keep := congrArg Decisions.keepAlive same
  have squeezed : squeeze isspace (ascii "keep-alive") = ascii "keep-alive" := by decide
  rw [keepAlive_post, keepAlive_post, squeezed, decide_eq_true rfl] at keep
  exact ne_of_blank left right (fun nothing => absurd (none.mp nothing) (by decide)) (by decide) (of_decide_eq_true keep)

end Blanks

end Pcm.Http

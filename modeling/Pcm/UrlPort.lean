import Pcm.Lib.Digits
import Pcm.UrlBoundaries

/-!
# The port of a URL

The text after the last colon of an authority should be empty or a decimal number up to 65535. `URL::parse`
catches what `std::stoull` throws, and does not ask how much of the text it has read: a text that it cannot
read is port 0, and one that only begins like a number has that number.
-/

namespace Pcm.Http.URL

open StdString

/-! ## Texts of ports -/

/-- The authority of a text. -/
def authorityOf (s : Bytes) : Bytes := (afterScheme (beforeMarks s)).takeWhile (· ≠ 47)

/-- An authority without user and password. -/
def withoutUser (authority : Bytes) : Bytes :=
  if 64 ∈ authority then (authority.dropWhile (· ≠ 64)).tail else authority

/-- A host with a port without an address in brackets. -/
def withoutBrackets (host : Bytes) : Bytes :=
  if host.head? = some 91 ∧ 93 ∈ host then (host.dropWhile (· ≠ 93)).tail else host

/-- The authority of a text ends in a colon and this text. -/
def HasPortText (s p : Bytes) : Prop :=
  s.head? ≠ some 47 ∧ 58 ∉ p ∧ ∃ host, withoutBrackets (withoutUser (authorityOf s)) = host ++ 58 :: p

/-- An empty text or a decimal number up to 65535. -/
def IsPort (p : Bytes) : Prop := (∀ c ∈ p, isdigit c = true) ∧ digitsToNat 10 p ≤ 65535

/-- The texts with this one for the port are accepted only with its value. -/
def PortChecked (p : Bytes) : Prop :=
  ∀ s u, s.length < 2 ^ 63 → HasPortText s p → parse s = .ok u → IsPort p ∧ u.port = digitsToNat 10 p

/-! ## Numbers -/

section Numbers

variable {p : Bytes} {port : Nat}

theorem parsePort_isPort (isPort : IsPort p) : parsePort p = .ok (digitsToNat 10 p) := by
  have bound := isPort.2
  by_cases empty : p = []
  · rw [empty]
    rfl
  · have value : stoull p = .ok (digitsToNat 10 p) := by
      rw [stoull_digits empty isPort.1, if_neg (by omega)]
    rw [parsePort, if_neg empty, value]
    change (if 65536 ≤ digitsToNat 10 p then _ else _) = _
    rw [if_neg (by omega)]

/-- A port is refused exactly when a large number is read. -/
theorem parsePort_error_iff (p : Bytes) :
    (∃ e, parsePort p = .error e) ↔ ∃ value, stoull p = .ok value ∧ 65536 ≤ value := by
  by_cases empty : p = []
  · subst empty
    refine iff_of_false ?_ ?_
    · rintro ⟨e, failed⟩
      cases failed
    · rintro ⟨value, read, -⟩
      cases read
  · rw [parsePort, if_neg empty]
    rcases stoull p with e | value
    · refine iff_of_false ?_ ?_
      · rintro ⟨e, failed⟩
        cases failed
      · rintro ⟨value, read, -⟩
        cases read
    · change (∃ e, (if 65536 ≤ value then _ else _) = _) ↔ _
      split
      · rename_i large
        exact iff_of_true ⟨_, rfl⟩ ⟨value, rfl, large⟩
      · rename_i small
        refine iff_of_false ?_ ?_
        · rintro ⟨e, failed⟩
          cases failed
        · rintro ⟨other, same, large⟩
          obtain rfl := Except.ok.inj same
          exact small large

end Numbers

/-! ## The port that is read -/

section Port

variable {s scheme authority tail p rest : Bytes} {url url' u : URL}

theorem authorityOf_split (split : Split s scheme authority tail) : authorityOf s = authority := by
  have noSlash : (47 : UInt8) ∉ authority := fun member => (split.plain 47 member).1 rfl
  have marks : beforeMarks s = scheme ++ [58, 47, 47] ++ authority ++ beforeMarks tail := by
    conv_lhs => rw [split.front]
    exact beforeMarks_append (split.not_mem_front (Or.inl rfl)) (split.not_mem_front (Or.inr rfl))
  have next : (beforeMarks tail).takeWhile (· ≠ 47) = [] := by
    cases tail with
    | nil => rfl
    | cons d tail =>
        rcases split.ends d rfl with rfl | rfl | rfl
        · rw [beforeMarks, List.takeWhile_cons_of_pos (by decide), List.takeWhile_cons_of_neg (by decide)]
        · rw [beforeMarks, List.takeWhile_cons_of_neg (by decide), List.takeWhile_nil]
        · rw [beforeMarks, List.takeWhile_cons_of_neg (by decide), List.takeWhile_nil]
  rw [authorityOf, marks, afterScheme_split split,
    List.takeWhile_append_of_pos (fun _ member => decide_eq_true (by rintro rfl; exact noSlash member)), next,
    List.append_nil]

theorem withoutUser_part (part : UserPart url authority url' rest) : withoutUser authority = rest := by
  rw [withoutUser]
  cases part with
  | none absent => exact if_neg absent
  | user absent some noColon decoded =>
      rw [if_pos (List.mem_append_right _ List.mem_cons_self), dropWhile_append_cons absent, List.tail_cons]
  | passwd absent some noColon decoded decodedPasswd =>
      rw [if_pos (List.mem_append_right _ List.mem_cons_self), dropWhile_append_cons absent, List.tail_cons]

/-- The port of a host part is the one after its last colon. -/
theorem HostPart.port_read (part : HostPart url authority u) (absent : 58 ∉ p) {host : Bytes}
    (text : authority = host ++ 58 :: p) : parsePort p = .ok u.port := by
  cases part with
  | kept known => exact absurd text.symm (List.append_ne_nil_of_right_ne_nil _ (List.cons_ne_nil _ _))
  | host some noColon =>
      rw [text] at noColon
      exact absurd (List.mem_append_right _ List.mem_cons_self) noColon
  | @port p' port known noColon read =>
      obtain ⟨-, rfl⟩ := last_unique (a := []) text noColon absent
      exact read
  | hostPort some noColon read =>
      obtain ⟨-, rfl⟩ := last_unique text noColon absent
      exact read

theorem HostPortPart.port_read (part : HostPortPart url authority u) (absent : 58 ∉ p) {host : Bytes}
    (text : withoutBrackets authority = host ++ 58 :: p) : parsePort p = .ok u.port := by
  rw [withoutBrackets] at text
  cases part with
  | plain plain part =>
      rw [if_neg (fun both => plain both.1)] at text
      exact part.port_read absent text
  | @bracket address rest u bracket notIn part =>
      have first : (address ++ 93 :: rest).head? = some 91 := by
        cases address with
        | nil => cases bracket
        | cons c address => exact bracket
      rw [if_pos ⟨first, List.mem_append_right _ List.mem_cons_self⟩, dropWhile_append_cons notIn,
        List.tail_cons] at text
      exact part.port_read absent text

/-- The port that `URL::parse` reads. -/
theorem port_read (fits : s.length < 2 ^ 63) (has : HasPortText s p) (accepted : parse s = .ok u) :
    parsePort p = .ok u.port := by
  obtain ⟨noRoot, absent, host, text⟩ := has
  rcases parse_cases fits accepted with rfl | rfl | root | ⟨scheme, authority, tail, split⟩
  · exact absurd text.symm (List.append_ne_nil_of_right_ne_nil _ (List.cons_ne_nil _ _))
  · exact absurd text.symm (List.append_ne_nil_of_right_ne_nil _ (List.cons_ne_nil _ _))
  · exact absurd root noRoot
  · obtain ⟨url, rest, url', userPart, hostPart, read⟩ := parts_of_parse split fits accepted
    rw [authorityOf_split split, withoutUser_part userPart] at text
    have same : u.port = url'.port := congrArg (fun fields => fields.1.2.2.2.2) (parseTail_frontFields read)
    rw [same]
    exact hostPart.port_read absent text

/-- A URL with a text for the port. -/
def withPort (p : Bytes) : Bytes := ascii "a://u@h:" ++ p

/-- A text that can follow the last colon of an authority, and is not too long for a URL. -/
structure PortText (p : Bytes) : Prop where
  plain : ∀ c ∈ p, c ≠ 47 ∧ c ≠ 63 ∧ c ≠ 35
  noColon : 58 ∉ p
  fits : (withPort p).length < 2 ^ 63

theorem split_withPort (text : PortText p) : Split (withPort p) (ascii "a") (ascii "u@h:" ++ p) [] where
  text := by rw [withPort, List.append_nil]; rfl
  nonempty := by decide
  valid := by decide
  plain := List.forall_mem_append.mpr ⟨forall_mem_of_all (by decide), text.plain⟩
  ends := nofun

theorem hasPortText_withPort (text : PortText p) : HasPortText (withPort p) p := by
  refine ⟨(split_withPort text).head_ne, text.noColon, ascii "h", ?_⟩
  rw [authorityOf_split (split_withPort text)]
  have info : ascii "u@h:" ++ p = [117] ++ 64 :: ([104] ++ 58 :: p) := rfl
  have user : withoutUser ([117] ++ 64 :: ([104] ++ 58 :: p)) = [104] ++ 58 :: p := by
    rw [withoutUser, if_pos (List.mem_append_right _ List.mem_cons_self), dropWhile_append_cons (by decide),
      List.tail_cons]
  rw [info, user, withoutBrackets, if_neg (fun both => absurd both.1 (by simp))]
  rfl

/-- What is read before the host. -/
def userURL : URL := { scheme := ascii "a", hasScheme := true, user := [117], hasUser := true }

/-- A port that is not refused is accepted there. -/
theorem parse_withPort {port : Nat} (text : PortText p) (read : parsePort p = .ok port) :
    ∃ u, parse (withPort p) = .ok u := by
  have lengths : p.length + 8 < 2 ^ 63 := by
    have fits := text.fits
    rw [withPort, List.length_append, Nat.add_comm] at fits
    exact fits
  have info : ascii "u@h:" ++ p = [117] ++ 64 :: ([104] ++ 58 :: p) := rfl
  have user : parseUser { scheme := ascii "a", hasScheme := true } ([117] ++ 64 :: ([104] ++ 58 :: p)) =
      .ok (userURL, [104] ++ 58 :: p) := by
    rw [parseUser_user ?_ (by decide) (by decide) (by decide)]
    · rfl
    · simp only [List.length_append, List.length_cons, List.length_nil]
      omega
  have host : parseHostPort userURL ([104] ++ 58 :: p) =
      .ok { userURL with host := [104], hasHost := true, port := port, hasPort := true } := by
    rw [parseHostPort_plain (by simp), hostPort_port ?_ text.noColon, if_neg (by decide), read]
    · rfl
    · simp only [List.length_append, List.length_cons, List.length_nil]
      omega
  rw [parse_split (split_withPort text) text.fits, info, user]
  change ∃ u, (parseHostPort userURL ([104] ++ 58 :: p) >>= fun url => parseTail url []) = .ok u
  rw [host]
  exact ⟨_, rfl⟩

/-- The port is checked exactly for texts that are a port, and for those from which a large number is read. -/
theorem portChecked_iff (text : PortText p) :
    PortChecked p ↔ IsPort p ∨ ∃ value, stoull p = .ok value ∧ 65536 ≤ value := by
  constructor
  · intro checked
    by_cases large : ∃ value, stoull p = .ok value ∧ 65536 ≤ value
    · exact Or.inr large
    · left
      have notRefused : ¬ ∃ e, parsePort p = .error e := fun refused => large ((parsePort_error_iff p).mp refused)
      rcases read : parsePort p with e | port
      · exact absurd ⟨e, read⟩ notRefused
      · obtain ⟨u, accepted⟩ := parse_withPort text read
        exact (checked _ u text.fits (hasPortText_withPort text) accepted).1
  · rintro (isPort | large) s u fits has accepted
    · have read := port_read fits has accepted
      rw [parsePort_isPort isPort] at read
      exact ⟨isPort, (Except.ok.inj read).symm⟩
    · obtain ⟨e, refused⟩ := (parsePort_error_iff p).mpr large
      have read := port_read fits has accepted
      rw [refused] at read
      cases read

theorem portText_ofAll (plain : p.all (fun c => decide (c ≠ 47 ∧ c ≠ 63 ∧ c ≠ 35)) = true) (noColon : 58 ∉ p)
    (fits : (withPort p).length < 2 ^ 63) : PortText p :=
  ⟨forall_mem_of_all plain, noColon, fits⟩

theorem portChecked_8080 : PortChecked (ascii "8080") :=
  (portChecked_iff (portText_ofAll (by decide) (by decide) (by decide))).mpr
    (Or.inl ⟨forall_mem_of_all (by decide), by decide⟩)

/-- A port that is not a number is taken for 0. -/
theorem port_letters : ¬ PortChecked (ascii "http") := by
  intro checked
  have text : PortText (ascii "http") := portText_ofAll (by decide) (by decide) (by decide)
  have read : parsePort (ascii "http") = .ok 0 := rfl
  obtain ⟨u, accepted⟩ := parse_withPort text read
  obtain ⟨⟨digits, -⟩, -⟩ := checked _ u text.fits (hasPortText_withPort text) accepted
  exact absurd (digits 104 (by decide)) (by decide)

end Port

end Pcm.Http.URL

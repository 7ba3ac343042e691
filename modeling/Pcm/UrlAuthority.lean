import Pcm.Lib.Throwing
import Pcm.UrlParts

/-!
# The authority of a URL

User, password, host and port as parts of the text of the authority: the user information ends at the first
`@`, its password begins after the last colon, and so does the port. A host in brackets is taken without the
closing one, and is lost where a text follows.
-/

namespace Pcm.Http.URL

open StdString
open Throwing (bind_eq_ok of_map_ok)

/-! ## User and password -/

section User

variable {url : URL} {authority info host user passwd : Bytes}

theorem parseUser_none (absent : 64 ∉ authority) : parseUser url authority = .ok (url, authority) := by
  simp only [parseUser, find_absent absent]
  rfl

theorem parseUser_empty (url : URL) (host : Bytes) : ∃ e, parseUser url (64 :: host) = .error e := by
  have here : find (64 :: host) 64 0 = 0 := find_first (a := []) List.not_mem_nil host
  simp only [parseUser, here]
  exact ⟨_, rfl⟩

/-- A user without a password. -/
theorem parseUser_user (fits : (info ++ 64 :: host).length < 2 ^ 63) (absent : 64 ∉ info) (some : info ≠ [])
    (noColon : 58 ∉ info) : parseUser url (info ++ 64 :: host) =
      (percentDecode info).map (fun user => ({ url with user := user, hasUser := true }, host)) := by
  have bound : (npos : Nat) = 2 ^ 64 - 1 := rfl
  have lengths : info.length + (host.length + 1) < 2 ^ 63 := by
    simpa only [List.length_append, List.length_cons] using fits
  have positive : 0 < info.length := List.length_pos_iff.mpr some
  have colon : rfind (info ++ 64 :: host) 58 info.length = npos := by
    refine rfind_absent ?_
    rw [List.take_length_add_append, List.mem_append]
    rintro (inInfo | mark)
    · exact noColon inInfo
    · exact absurd mark (by simp)
  have after : eraseFront (info ++ 64 :: host) (info.length + 1) = host := by
    rw [eraseFront, List.drop_length_add_append]
    rfl
  simp only [parseUser, find_first absent, colon, substr_front, after]
  rw [if_neg (by omega), if_neg (by omega), if_neg (fun other => other rfl)]
  change (if info = [] then _ else _) = _
  rw [if_neg some]
  cases percentDecode info <;> rfl

/-- A user with a password. -/
theorem parseUser_passwd (fits : (user ++ 58 :: passwd ++ 64 :: host).length < 2 ^ 63)
    (absent : 64 ∉ user ++ 58 :: passwd) (noColon : 58 ∉ passwd) :
    parseUser url (user ++ 58 :: passwd ++ 64 :: host) = (do
      let passwd ← percentDecode passwd
      if user = [] then throwing "User not found before @ sign"
      else (percentDecode user).map (fun user =>
        ({ url with user := user, hasUser := true, passwd := passwd, hasPasswd := true }, host))) := by
  have bound : (npos : Nat) = 2 ^ 64 - 1 := rfl
  have lengths : user.length + (passwd.length + 1) + (host.length + 1) < 2 ^ 63 := by
    simpa only [List.length_append, List.length_cons] using fits
  have place : find (user ++ 58 :: passwd ++ 64 :: host) 64 0 = user.length + (passwd.length + 1) := by
    rw [find_first absent, List.length_append, List.length_cons]
  have colon : rfind (user ++ 58 :: passwd ++ 64 :: host) 58 (user.length + (passwd.length + 1)) = user.length := by
    have taken : (user ++ 58 :: passwd ++ 64 :: host).take (user.length + (passwd.length + 1) + 1) =
        user ++ 58 :: (passwd ++ [64]) := by
      have length : user.length + (passwd.length + 1) = (user ++ 58 :: passwd).length := by
        rw [List.length_append, List.length_cons]
      rw [length, List.take_length_add_append]
      simp
    refine rfind_last taken ?_
    rw [List.mem_append]
    rintro (inPasswd | mark)
    · exact noColon inPasswd
    · exact absurd mark (by decide)
  have secret : substr (user ++ 58 :: passwd ++ 64 :: host) (user.length + 1)
      (minus (user.length + (passwd.length + 1)) (user.length + 1)) = .ok passwd := by
    have parts : user ++ 58 :: passwd ++ 64 :: host = (user ++ [58]) ++ (passwd ++ 64 :: host) := by simp
    have length : (user ++ [58]).length = user.length + 1 := by rw [List.length_append, List.length_singleton]
    have count : user.length + (passwd.length + 1) - (user.length + 1) = passwd.length := by omega
    rw [minus_of_le (by omega) (by omega), count, parts, ← length]
    exact substr_part _
  have name : substr (user ++ 58 :: passwd ++ 64 :: host) 0 user.length = .ok user := by
    rw [List.append_assoc]
    exact substr_front
  have after : eraseFront (user ++ 58 :: passwd ++ 64 :: host) (user.length + (passwd.length + 1) + 1) = host := by
    have length : user.length + (passwd.length + 1) = (user ++ 58 :: passwd).length := by
      rw [List.length_append, List.length_cons]
    rw [eraseFront, length, List.drop_length_add_append]
    rfl
  simp only [parseUser, place, colon, secret, name, after]
  rw [if_neg (by omega), if_neg (by omega), if_pos (by omega)]
  change percentDecode passwd >>= _ = percentDecode passwd >>= _
  rcases percentDecode passwd with e | secret
  · rfl
  · change (if user = [] then _ else _) = if user = [] then _ else _
    split
    · rfl
    · cases percentDecode user <;> rfl

end User

/-! ## Host and port -/

/-- The rest of `parseHostPort`, after the brackets. -/
def hostPort (url : URL) (authority : Bytes) : Except StdException URL := do
  let mut url := url
  if authority = [] then
    if url.hasHost then return url else throwing "No hostname found"
  let portColonPos := rfind authority 58 npos
  if portColonPos = npos then return { url with host := authority, hasHost := true }
  if portColonPos = 0 && !url.hasHost then throwing "No hostname found"
  if portColonPos ≠ 0 then
    let host ← substr authority 0 portColonPos
    url := { url with host := host, hasHost := true }
  let portString ← substr authority (portColonPos + 1) npos
  let port ← parsePort portString
  return { url with port := port, hasPort := true }

section Host

variable {url : URL} {authority address rest host p : Bytes}

theorem parseHostPort_plain (plain : authority.head? ≠ some 91) :
    parseHostPort url authority = hostPort url authority := by
  have first : charAt authority 0 ≠ 91 := by
    cases authority with
    | nil => decide
    | cons c authority => exact fun same => plain (congrArg some same)
  rw [parseHostPort, if_neg first]
  rfl

theorem parseHostPort_open (bracket : authority.head? = some 91) (absent : 93 ∉ authority) :
    ∃ e, parseHostPort url authority = .error e := by
  have first : charAt authority 0 = 91 := by
    cases authority with
    | nil => cases bracket
    | cons c authority => exact Option.some.inj bracket
  rw [parseHostPort, if_pos first, find_absent absent, if_pos rfl]
  exact ⟨_, rfl⟩

theorem parseHostPort_bracket (bracket : address.head? = some 91) (absent : 93 ∉ address)
    (fits : (address ++ 93 :: rest).length < 2 ^ 63) :
    parseHostPort url (address ++ 93 :: rest) = hostPort { url with host := address, hasHost := true } rest := by
  have bound : (npos : Nat) = 2 ^ 64 - 1 := rfl
  rw [List.length_append] at fits
  have first : charAt (address ++ 93 :: rest) 0 = 91 := by
    cases address with
    | nil => cases bracket
    | cons c address => exact Option.some.inj bracket
  have after : eraseFront (address ++ 93 :: rest) (address.length + 1) = rest := by
    rw [eraseFront, List.drop_length_add_append]
    rfl
  rw [parseHostPort, if_pos first, find_first absent, if_neg (by omega), substr_front, after]
  rfl

theorem hostPort_empty : hostPort url [] = if url.hasHost then .ok url else throwing "No hostname found" := rfl

theorem hostPort_host (some : host ≠ []) (absent : 58 ∉ host) :
    hostPort url host = .ok { url with host := host, hasHost := true } := by
  have none : rfind host 58 npos = npos := rfind_absent (fun member => absent (List.mem_of_mem_take member))
  rw [hostPort, if_neg some, none, if_pos rfl]
  rfl

/-- A text with a colon: what is before the last one is the host, if there is anything. -/
theorem hostPort_port (fits : (host ++ 58 :: p).length < 2 ^ 63) (absent : 58 ∉ p) :
    hostPort url (host ++ 58 :: p) =
      if host = [] then
        if url.hasHost then (parsePort p).map (fun port => { url with port := port, hasPort := true })
        else throwing "No hostname found"
      else (parsePort p).map (fun port =>
        { url with host := host, hasHost := true, port := port, hasPort := true }) := by
  have bound : (npos : Nat) = 2 ^ 64 - 1 := rfl
  have lengths : host.length + (p.length + 1) < 2 ^ 63 := by
    simpa only [List.length_append, List.length_cons] using fits
  have some : host ++ 58 :: p ≠ [] := List.append_ne_nil_of_right_ne_nil _ (List.cons_ne_nil _ _)
  have colon : rfind (host ++ 58 :: p) 58 npos = host.length :=
    rfind_last (List.take_of_length_le (by rw [List.length_append, List.length_cons]; omega)) absent
  have name : substr (host ++ 58 :: p) 0 host.length = .ok host := substr_front
  have port : substr (host ++ 58 :: p) (host.length + 1) npos = .ok p := by
    have parts : host ++ 58 :: p = (host ++ [58]) ++ p := by simp
    have length : (host ++ [58]).length = host.length + 1 := by rw [List.length_append, List.length_singleton]
    rw [parts, ← length]
    exact substr_rest _ (by omega)
  simp only [hostPort, colon, name, port]
  rw [if_neg some, if_neg (by omega)]
  cases host with
  | nil =>
      rw [if_pos rfl]
      cases url.hasHost with
      | true =>
          change parsePort p >>= _ = (parsePort p).map _
          cases parsePort p <;> rfl
      | false => rfl
  | cons c host =>
      rw [if_neg (List.cons_ne_nil c host)]
      change parsePort p >>= _ = (parsePort p).map _
      cases parsePort p <;> rfl

end Host

/-! ## What an accepted authority is -/

/-- User and password are taken from the front of an authority. -/
inductive UserPart (url : URL) : Bytes → URL → Bytes → Prop
  | none {authority} (absent : 64 ∉ authority) : UserPart url authority url authority
  | user {info host name} (absent : 64 ∉ info) (some : info ≠ []) (noColon : 58 ∉ info)
      (decoded : percentDecode info = .ok name) :
      UserPart url (info ++ 64 :: host) { url with user := name, hasUser := true } host
  | passwd {user passwd host name secret} (absent : 64 ∉ user ++ 58 :: passwd) (some : user ≠ [])
      (noColon : 58 ∉ passwd) (decoded : percentDecode user = .ok name)
      (decodedPasswd : percentDecode passwd = .ok secret) :
      UserPart url (user ++ 58 :: passwd ++ 64 :: host)
        { url with user := name, hasUser := true, passwd := secret, hasPasswd := true } host

/-- Host and port, without brackets. -/
inductive HostPart (url : URL) : Bytes → URL → Prop
  | kept (known : url.hasHost = true) : HostPart url [] url
  | host {host} (some : host ≠ []) (absent : 58 ∉ host) :
      HostPart url host { url with host := host, hasHost := true }
  | port {p port} (known : url.hasHost = true) (absent : 58 ∉ p) (read : parsePort p = .ok port) :
      HostPart url (58 :: p) { url with port := port, hasPort := true }
  | hostPort {host p port} (some : host ≠ []) (absent : 58 ∉ p) (read : parsePort p = .ok port) :
      HostPart url (host ++ 58 :: p) { url with host := host, hasHost := true, port := port, hasPort := true }

/-- Host and port, maybe after brackets. -/
inductive HostPortPart (url : URL) : Bytes → URL → Prop
  | plain {authority u} (plain : authority.head? ≠ some 91) (part : HostPart url authority u) :
      HostPortPart url authority u
  | bracket {address rest u} (bracket : address.head? = some 91) (absent : 93 ∉ address)
      (part : HostPart { url with host := address, hasHost := true } rest u) :
      HostPortPart url (address ++ 93 :: rest) u

section Inversion

variable {url url' u : URL} {authority rest : Bytes}

theorem parseUser_part (fits : authority.length < 2 ^ 63) (read : parseUser url authority = .ok (url', rest)) :
    UserPart url authority url' rest := by
  by_cases sign : 64 ∈ authority
  · obtain ⟨info, host, rfl, absent⟩ := List.eq_append_cons_of_mem sign
    by_cases colon : 58 ∈ info
    · obtain ⟨user, passwd, rfl, noColon⟩ := exists_last colon
      rw [parseUser_passwd fits absent noColon] at read
      obtain ⟨password, secret, read⟩ := bind_eq_ok read
      split at read
      · cases read
      · rename_i some
        obtain ⟨name, decoded, same⟩ := of_map_ok read
        obtain ⟨rfl, rfl⟩ := Prod.mk.inj same
        exact .passwd absent some noColon decoded secret
    · have some : info ≠ [] := by
        rintro rfl
        obtain ⟨e, failed⟩ := parseUser_empty url host
        rw [List.nil_append, failed] at read
        cases read
      rw [parseUser_user fits absent some colon] at read
      obtain ⟨name, decoded, same⟩ := of_map_ok read
      obtain ⟨rfl, rfl⟩ := Prod.mk.inj same
      exact .user absent some colon decoded
  · rw [parseUser_none sign] at read
    obtain ⟨rfl, rfl⟩ := Prod.mk.inj (Except.ok.inj read)
    exact .none sign

theorem hostPort_part (fits : authority.length < 2 ^ 63) (read : hostPort url authority = .ok u) :
    HostPart url authority u := by
  by_cases colon : 58 ∈ authority
  · obtain ⟨host, p, rfl, absent⟩ := exists_last colon
    rw [hostPort_port fits absent] at read
    split at read
    · rename_i empty
      subst empty
      split at read
      · rename_i known
        obtain ⟨port, parsed, rfl⟩ := of_map_ok read
        exact .port known absent parsed
      · cases read
    · rename_i some
      obtain ⟨port, parsed, rfl⟩ := of_map_ok read
      exact .hostPort some absent parsed
  · by_cases empty : authority = []
    · subst empty
      rw [hostPort_empty] at read
      split at read
      · rename_i known
        rw [← Except.ok.inj read]
        exact .kept known
      · cases read
    · rw [hostPort_host empty colon] at read
      rw [← Except.ok.inj read]
      exact .host empty colon

theorem parseHostPort_part (fits : authority.length < 2 ^ 63) (read : parseHostPort url authority = .ok u) :
    HostPortPart url authority u := by
  by_cases bracket : authority.head? = some 91
  · by_cases closed : 93 ∈ authority
    · obtain ⟨address, rest, rfl, absent⟩ := List.eq_append_cons_of_mem closed
      have first : address.head? = some 91 := by
        cases address with
        | nil => cases bracket
        | cons c address => exact bracket
      rw [parseHostPort_bracket first absent fits] at read
      refine .bracket first absent (hostPort_part ?_ read)
      rw [List.length_append, List.length_cons] at fits
      omega
    · obtain ⟨e, failed⟩ : ∃ e, parseHostPort url authority = .error e := parseHostPort_open bracket closed
      rw [failed] at read
      cases read
  · rw [parseHostPort_plain bracket] at read
    exact .plain bracket (hostPort_part fits read)

/-- What the path, the query and the fragment are later written to. -/
def laterFields (u : URL) : Bytes × Bytes × List (Bytes × Bytes) × Bool × Bool × Bool :=
  (u.path, u.fragment, u.arguments, u.hasQuery, u.hasFragment, u.pathIsStar)

theorem UserPart.laterFields (part : UserPart url authority url' rest) : url'.laterFields = url.laterFields := by
  cases part with
  | none absent => rfl
  | user absent some noColon decoded => rfl
  | passwd absent some noColon decoded decodedPasswd => rfl

theorem HostPart.laterFields (part : HostPart url authority u) : u.laterFields = url.laterFields := by
  cases part with
  | kept known => rfl
  | host some absent => rfl
  | port known absent read => rfl
  | hostPort some absent read => rfl

theorem HostPortPart.laterFields (part : HostPortPart url authority u) : u.laterFields = url.laterFields := by
  cases part with
  | plain plain part => exact part.laterFields
  | bracket bracket absent part => exact part.laterFields

/-- What has been written by then. -/
def frontFields (u : URL) : (Bytes × Bytes × Bytes × Bytes × Nat) × (Bool × Bool × Bool × Bool × Bool) × Bool :=
  ((u.scheme, u.user, u.passwd, u.host, u.port), (u.hasScheme, u.hasUser, u.hasPasswd, u.hasHost, u.hasPort),
    u.pathIsStar)

theorem parseTail_frontFields {tail : Bytes} (read : parseTail url tail = .ok u) :
    u.frontFields = url.frontFields := by
  have added : ∀ {queried : URL}, addQuery { url with path := tailPath tail } tail = .ok queried →
      queried.frontFields = url.frontFields := by
    intro queried ok
    rw [addQuery] at ok
    split at ok
    · split at ok
      · cases ok
      · obtain ⟨arguments, -, rfl⟩ := of_map_ok ok
        rfl
    · rw [← Except.ok.inj ok]
      rfl
  rcases queried : addQuery { url with path := tailPath tail } tail with e | queried'
  · rw [parseTail, queried] at read
    cases read
  · rw [parseTail, queried] at read
    change checkPath (addFragment queried' tail) = .ok u at read
    rw [checkPath] at read
    split at read
    · cases read
    · rw [← Except.ok.inj read, ← added queried, addFragment]
      split
      · rfl
      · rfl

/-- The parts of an accepted text with an authority. -/
theorem parts_of_parse {s scheme tail : Bytes} (split : Split s scheme authority tail) (fits : s.length < 2 ^ 63)
    (accepted : parse s = .ok u) :
    ∃ url rest url', UserPart { scheme := scheme, hasScheme := true } authority url rest ∧
      HostPortPart url rest url' ∧ parseTail url' tail = .ok u := by
  have length : authority.length < 2 ^ 63 := by
    rw [split.text] at fits
    simp only [List.length_append, List.length_cons] at fits
    omega
  rw [parse_split split fits] at accepted
  obtain ⟨⟨url, rest⟩, userRead, accepted⟩ := bind_eq_ok accepted
  obtain ⟨url', hostRead, accepted⟩ := bind_eq_ok accepted
  have userPart := parseUser_part length userRead
  have shorter : rest.length ≤ authority.length := by
    cases userPart with
    | none absent => exact Nat.le_refl _
    | user absent some noColon decoded =>
        rw [List.length_append, List.length_cons]
        omega
    | passwd absent some noColon decoded decodedPasswd =>
        rw [List.length_append, List.length_cons]
        omega
  exact ⟨url, rest, url', userPart, parseHostPort_part (Nat.lt_of_le_of_lt shorter length) hostRead, accepted⟩

end Inversion

end Pcm.Http.URL

import Pcm.Lib.StdString

/-!
# URLs

`struct URL` (`pcm-sensor-server.cpp:1948-2313`): parsing, with the positions of the source, which are
`npos` where nothing is found and wrap around in differences.
-/

namespace Pcm.Http

open StdString

structure URL where
  scheme : Bytes := []
  user : Bytes := []
  passwd : Bytes := []
  host : Bytes := []
  path : Bytes := []
  fragment : Bytes := []
  port : Nat := 0
  arguments : List (Bytes × Bytes) := []
  hasScheme : Bool := false
  hasUser : Bool := false
  hasPasswd : Bool := false
  hasHost : Bool := false
  hasPort : Bool := false
  hasQuery : Bool := false
  hasFragment : Bool := false
  pathIsStar : Bool := false
  deriving DecidableEq, Repr

namespace URL

def throwing {α : Type} (what : String) : Except StdException α := .error (.runtime_error (ascii what))

/-- `charToNumber` (`pcm-sensor-server.cpp:1976-1986`) -/
def charToNumber (c : UInt8) : Except StdException Nat :=
  if 65 ≤ c && c ≤ 70 then .ok (c.toNat - 65 + 10)
  else if 97 ≤ c && c ≤ 102 then .ok (c.toNat - 97 + 10)
  else if 48 ≤ c && c ≤ 57 then .ok (c.toNat - 48)
  else .error (.runtime_error (39 :: c :: ascii "' is not a hexadecimal digit!"))

/-- `percentDecode` (`pcm-sensor-server.cpp:2002-2022`) -/
def percentDecode : Bytes → Except StdException Bytes
  | [] => .ok []
  | 37 :: [] => throwing "Malformed URL, percent found but no next char"
  | 37 :: high :: [] => do
      let _ ← charToNumber high
      throwing "Malformed URL, percent found but no next next char"
  | 37 :: high :: low :: rest => do
      let n ← charToNumber high
      let m ← charToNumber low
      let decoded ← percentDecode rest
      return UInt8.ofNat (n * 16 + m) :: decoded
  | c :: rest => do
      let decoded ← percentDecode rest
      return c :: decoded

def validSchemeChars : Bytes :=
  ascii "ABCDEFGHIJKLMNOPQRSTUVWXYZabcdefghijklmnopqrstuvwxyz0123456789+-."

/-- User and password before the `@` of an authority, and what comes after it
(`pcm-sensor-server.cpp:2080-2114`). -/
def parseUser (url : URL) (authority : Bytes) : Except StdException (URL × Bytes) := do
  let atPos := find authority 64 0
  if atPos = npos then return (url, authority)
  if atPos = 0 then throwing "'@' found in the first column, username would be empty"
  let passwdColonPos := rfind authority 58 atPos
  let mut url := url
  let mut userEndPos := atPos
  if passwdColonPos ≠ npos then
    let passwd ← substr authority (passwdColonPos + 1) (minus atPos (passwdColonPos + 1))
    userEndPos := passwdColonPos
    let decoded ← percentDecode passwd
    url := { url with passwd := decoded, hasPasswd := true }
  let user ← substr authority 0 userEndPos
  if user = [] then throwing "User not found before @ sign"
  let decoded ← percentDecode user
  return ({ url with user := decoded, hasUser := true }, eraseFront authority (atPos + 1))

/-- The port after the last colon; what `stoull` throws is caught and leaves 0
(`pcm-sensor-server.cpp:2142-2171`). -/
def parsePort (portString : Bytes) : Except StdException Nat :=
  let port := if portString = [] then 0
    else match stoull portString with
      | .ok port => port
      | .error _ => 0
  if 65536 ≤ port then throwing "URL::parse: port too large" else .ok port

/-- Host and port (`pcm-sensor-server.cpp:2116-2178`). -/
def parseHostPort (url : URL) (authority : Bytes) : Except StdException URL := do
  let mut url := url
  let mut authority := authority
  if charAt authority 0 = 91 then
    let angleBracketClosePos := find authority 93 0
    if angleBracketClosePos = npos then throwing "No matching IPv6 ']' found."
    let host ← substr authority 0 angleBracketClosePos
    url := { url with host := host, hasHost := true }
    authority := eraseFront authority (angleBracketClosePos + 1)
  if authority = [] then
    if url.hasHost then return url else throwing "No hostname found"
  let portColonPos := rfind authority 58 npos
  if portColonPos = npos then return { url with host := authority, hasHost := true }
  if portColonPos = 0 && !url.hasHost then throwing "No hostname found"
  if portColonPos ≠ 0 then
    let host ← substr authority 0 portColonPos
    url := { url with host := host, hasHost := true }
  let portString ← substr authority (portColonPos + 1) npos
  let port ← parsePort portString
  return { url with port := port, hasPort := true }

/-- Scheme and authority of a URL that does not begin with `/`, and where its path begins
(`pcm-sensor-server.cpp:2046-2182`). -/
def parseAuthority (fullURL : Bytes) (questionMarkPos numberPos : Nat) :
    Except StdException (URL × Nat) := do
  let schemeColonPos := find fullURL 58 0
  if schemeColonPos = npos || schemeColonPos = 0 then
    throwing "URL does not start with / and has no scheme"
  let scheme ← substr fullURL 0 schemeColonPos
  if !scheme.all (validSchemeChars.contains ·) then throwing "Scheme contains invalid characters"
  let authorityPos := findPair fullURL 47 47 (schemeColonPos + 1)
  if authorityPos = npos then throwing "// not found"
  if schemeColonPos + 1 ≠ authorityPos then throwing "Something between : and //"
  let pathBeginPos := find fullURL 47 (authorityPos + 2)
  let authorityEndPos := min pathBeginPos (min questionMarkPos numberPos)
  let authority ← substr fullURL (authorityPos + 2) (minus authorityEndPos (authorityPos + 2))
  let (url, authority) ← parseUser { scheme := scheme, hasScheme := true } authority
  let url ← parseHostPort url authority
  return (url, pathBeginPos)

/-- One argument `one=two` of a query. -/
def parseArgument (query : Bytes) : Except StdException (Bytes × Bytes) := do
  let equalsPos := find query 61 0
  if equalsPos = npos then throwing "Did not find a '=' in the query"
  let one ← percentDecode (query.take equalsPos)
  let two ← percentDecode (query.drop (equalsPos + 1))
  return (one, two)

/-- The loop over the arguments of a query (`pcm-sensor-server.cpp:2204-2223`). -/
def parseArguments (queryString : Bytes) : Except StdException (List (Bytes × Bytes)) :=
  if queryString = [] then .ok []
  else do
    let ampPos := find queryString 38 0
    let argument ← parseArgument (queryString.take ampPos)
    let rest ← if ampPos = npos then pure [] else parseArguments (eraseFront queryString (ampPos + 1))
    return argument :: rest
termination_by queryString.length
decreasing_by
  simp only [eraseFront, List.length_drop]
  have := List.length_pos_iff.mpr ‹_›
  omega

/-- `URL::parse` (`pcm-sensor-server.cpp:2024-2242`) -/
def parse (fullURL : Bytes) : Except StdException URL := do
  if fullURL = [] then return { path := ascii "/" }
  if fullURL = [42] then return { path := fullURL, pathIsStar := true }
  let questionMarkPos := find fullURL 63 0
  let numberPos := find fullURL 35 0
  let (url, pathBeginPos) ←
    if charAt fullURL 0 = 47 then pure ({}, 0) else parseAuthority fullURL questionMarkPos numberPos
  let pathEndPos := min questionMarkPos numberPos
  let path ← if pathBeginPos = npos then pure []
    else substr fullURL pathBeginPos (minus pathEndPos pathBeginPos)
  let mut url := { url with path := path }
  if questionMarkPos ≠ npos then
    let queryString ← substr fullURL (questionMarkPos + 1) (minus numberPos (questionMarkPos + 1))
    if queryString = [] then throwing "Invalid URL: query not found after question mark"
    let arguments ← parseArguments queryString
    url := { url with hasQuery := true, arguments := arguments }
  if numberPos ≠ npos then
    let fragment ← substr fullURL (numberPos + 1) npos
    url := { url with hasFragment := true, fragment := fragment }
  if url.path.contains 37 then
    .error (.runtime_error (ascii
      "DEV: Some URL component still contains percent encoded values, please report the URL: " ++
      url.path))
  else return url

end URL

end Pcm.Http

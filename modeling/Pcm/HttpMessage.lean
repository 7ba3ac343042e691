import Mathlib.Data.List.Basic
import Pcm.HttpUrl

/-!
# HTTP messages

Methods, protocols, headers and messages of the server (`pcm-sensor-server.cpp:1633-1965`,
`pcm-sensor-server.cpp:2340-2760`), and the compression of white space in a header line
(`pcm-sensor-server.cpp:2828-2851`).
-/

namespace Pcm.Http

open StdString

/-! ## Methods and protocols -/

/-- `enum HTTPRequestMethod` -/
inductive HTTPRequestMethod
  | get | head | post | put | delete | connect | options | trace | patch
  deriving DecidableEq, Repr

inductive HTTPRequestHasBody
  | no
  | optional
  | required
  deriving DecidableEq, Repr

/-- `httpMethodProperties` (`pcm-sensor-server.cpp:1774-1784`) -/
def httpMethodProperties : List (HTTPRequestMethod × String × HTTPRequestHasBody) :=
  [(.get, "GET", .no), (.head, "HEAD", .no), (.post, "POST", .required), (.put, "PUT", .required),
    (.delete, "DELETE", .no), (.connect, "CONNECT", .required), (.options, "OPTIONS", .optional),
    (.trace, "TRACE", .no), (.patch, "PATCH", .required)]

def getMethodAsEnum (rms : Bytes) : Except StdException HTTPRequestMethod :=
  match httpMethodProperties.find? (fun prop => ascii prop.2.1 = rms) with
  | some prop => .ok prop.1
  | none => .error (.runtime_error
      (ascii "HTTPMethodProperties::findProperty: HTTPRequestMethod as string not found."))

/-- `HTTPMethodProperties::requestHasBody`, every method being in the table. -/
def requestHasBody (rme : HTTPRequestMethod) : HTTPRequestHasBody :=
  match httpMethodProperties.find? (·.1 = rme) with
  | some prop => prop.2.2
  | none => .no

inductive HTTPProtocol
  | http_0_9 | http_1_0 | http_1_1 | http_2_0
  deriving DecidableEq, Repr

/-- `protocol_map_` (`pcm-sensor-server.cpp:2651-2656`) -/
def protocolMap : List (HTTPProtocol × String) :=
  [(.http_0_9, "HTTP/0.9"), (.http_1_0, "HTTP/1.0"), (.http_1_1, "HTTP/1.1"),
    (.http_2_0, "HTTP/2.0")]

/-- `setProtocol( std::string const& )` -/
def protocolOf (protocolString : Bytes) : Except StdException HTTPProtocol :=
  match protocolMap.find? (fun entry => ascii entry.2 = protocolString) with
  | some entry => .ok entry.1
  | none => .error (.runtime_error (ascii "Protocol is not supported: " ++ protocolString))

/-! ## Headers -/

/-- `enum HeaderType` -/
inductive HeaderType
  | serverSet | invalid | unspecified | string | integer | float | date | range | trueOnly
  | email | eTag | dateOrETag | parameters | url | hostPort | protoHostPort | dateOrSeconds
  | noCache | ip | character | onOff | containsOtherHeaders | starOrFQURL | customHeader
  deriving DecidableEq, Repr

/-- `httpHeaderProperties` (`pcm-sensor-server.cpp:1881-1961`), names and types. -/
def httpHeaderProperties : List (String × HeaderType) :=
  [("Accept", .string), ("Accept-Charset", .string), ("Accept-Encoding", .string),
    ("Accept-Language", .string), ("Accept-Ranges", .string),
    ("Access-Control-Allow-Credentials", .trueOnly), ("Access-Control-Allow-Headers", .string),
    ("Access-Control-Allow-Methods", .string), ("Access-Control-Allow-Origin", .starOrFQURL),
    ("Access-Control-Expose-Headers", .string), ("Access-Control-Max-Age", .integer),
    ("Access-Control-Request-Headers", .string), ("Access-Control-Request-Method", .string),
    ("Age", .integer), ("Allow", .string), ("Authorization", .string), ("Cache-Control", .string),
    ("Connection", .string), ("Content-Disposition", .string), ("Content-Encoding", .string),
    ("Content-Language", .string), ("Content-Length", .integer), ("Content-Location", .url),
    ("Content-Range", .range), ("Content-Security-Policy", .string),
    ("Content-Security-Policy-Report-Only", .string), ("Content-Type", .string),
    ("Cookie", .parameters), ("Cookie2", .string), ("DNT", .integer), ("Date", .date),
    ("ETag", .eTag), ("Expect", .string), ("Expires", .date), ("Forwarded", .string),
    ("From", .email), ("Host", .hostPort), ("If-Match", .eTag), ("If-Modified-Since", .date),
    ("If-None-Match", .eTag), ("If-Range", .dateOrETag), ("If-Unmodified-Since", .date),
    ("Keep-Alive", .parameters), ("Large-Allocation", .integer), ("Last-Modified", .date),
    ("Location", .url), ("Origin", .protoHostPort), ("Pragma", .noCache),
    ("Proxy-Authenticate", .string), ("Proxy-Authorization", .string),
    ("Public-Key-Pins", .parameters), ("Public-Key-Pins-Report-Only", .parameters),
    ("Range", .range), ("Referer", .url), ("Referrer-Policy", .string),
    ("Retry-After", .dateOrSeconds), ("Server", .string), ("Set-Cookie", .parameters),
    ("Set-Cookie2", .parameters), ("SourceMap", .url), ("Strict-Transport-Security", .parameters),
    ("TE", .string), ("Tk", .character), ("Trailer", .containsOtherHeaders),
    ("Transfer-Encoding", .string), ("Upgrade-Insecure-Requests", .integer),
    ("User-Agent", .string), ("Vary", .string), ("Via", .string), ("WWW-Authenticate", .string),
    ("Warning", .string), ("X-Content-Type-Options", .string), ("X-DNS-Prefetch-Control", .onOff),
    ("X-Forwarded-For", .ip), ("X-Forwarded-Host", .string), ("X-Forwarded-Proto", .string),
    ("X-Frame-Options", .string), ("X-XSS-Protection", .string)]

/-- `HTTPHeaderProperties::headerType` -/
def headerType (name : Bytes) : HeaderType :=
  match httpHeaderProperties.find? (fun prop => ascii prop.1 = name) with
  | some prop => prop.2
  | none => .customHeader

structure HTTPHeader where
  name : Bytes
  value : Bytes
  type : HeaderType
  invalidReason : Bytes := []
  deriving DecidableEq, Repr

namespace HTTPHeader

/-- `HTTPHeader( std::string n, std::string v )` -/
def serverSet (name value : Bytes) : HTTPHeader := { name := name, value := value, type := .serverSet }

/-- `HTTPHeader::parse` (`pcm-sensor-server.cpp:2357-2397`) -/
def parse (header : Bytes) : HTTPHeader :=
  let colonPos := find header 58 0
  if colonPos = npos then
    { name := [], value := [], type := .invalid,
      invalidReason := ascii "Not a valid header, no : found" }
  else
    let headerName := (header.take colonPos).filter (· ≠ 32)
    let headerValue := header.drop (colonPos + 1)
    let hh : HTTPHeader :=
      { name := headerName, value := headerValue, type := headerType headerName }
    if hh.type = .invalid then
      { hh with invalidReason := ascii "parse header: found an Invalid HeaderType" }
    else if headerValue.count 34 % 2 ≠ 0 then
      { hh with type := .invalid, invalidReason := ascii "parse header: header improperly quoted" }
    else hh

/-- `headerValueAsNumber` -/
def valueAsNumber (hh : HTTPHeader) : Except StdException Nat := (stoll 10 hh.value).map toSizeT

/-- The blanks at both ends of an element of a list go away. -/
def trim (element : Bytes) : Bytes :=
  ((element.dropWhile (· = 32)).reverse.dropWhile (· = 32)).reverse

/-- `headerValueAsList`, the separator of every header in the table being a comma. -/
def valueAsList (hh : HTTPHeader) : List Bytes := (hh.value.splitOn 44).map trim

end HTTPHeader

/-! ## Messages -/

/-- `headers_`, by name. -/
abbrev Headers := List (Bytes × HTTPHeader)

/-- `addHeader`: a name that is already there is an error. -/
def Headers.add (headers : Headers) (hh : HTTPHeader) : Except StdException Headers :=
  if headers.any (·.1 = hh.name) then
    .error (.runtime_error (ascii "Header already exists in the headerlist"))
  else .ok ((hh.name, hh) :: headers)

def Headers.get? (headers : Headers) (name : String) : Option HTTPHeader :=
  (headers.find? (·.1 = ascii name)).map (·.2)

def Headers.has (headers : Headers) (name : String) : Bool := (headers.get? name).isSome

structure HTTPRequest where
  protocol : HTTPProtocol
  method : HTTPRequestMethod
  url : URL
  headers : Headers := []
  body : Bytes := []
  deriving DecidableEq, Repr

/-! ## White space in a header line -/

/-- The inner loop of `compressLWSAndRemoveCR`: the position at which it stops. -/
def skipLWS (line : Bytes) (pos : Nat) : Nat :=
  if pos + 1 < line.length then
    if isspace (charAt line (pos + 1)) then skipLWS line (pos + 1) else pos + 1
  else pos
termination_by line.length - pos

theorem le_skipLWS (line : Bytes) (pos : Nat) : pos ≤ skipLWS line pos := by
  fun_induction skipLWS line pos with
  | case1 pos more space ih => omega
  | case2 pos more other => omega
  | case3 pos finished => omega

/-- The outer loop, with `pos` and `end`. -/
def compressFrom (line : Bytes) (pos stop : Nat) : Bytes :=
  if pos < stop then
    if isspace (charAt line pos) then
      let next := skipLWS line pos
      if 1 < next - pos then
        compressFrom (line.take (pos + 1) ++ line.drop next) (pos + 2) (stop - (next - pos - 1))
      else compressFrom line (next + 1) stop
    else compressFrom line (pos + 1) stop
  else line
termination_by stop - pos
decreasing_by
  · omega
  · have := le_skipLWS line pos
    omega
  · omega

/-- `compressLWSAndRemoveCR` (`pcm-sensor-server.cpp:2828-2851`) -/
def compressLWSAndRemoveCR (line : Bytes) : Bytes :=
  let compressed := compressFrom line 0 line.length
  if compressed.getLast? = some 13 then compressed.dropLast else compressed

theorem skipLWS_lt {line : Bytes} {pos : Nat} (moved : pos < skipLWS line pos) :
    skipLWS line pos < line.length := by
  fun_induction skipLWS line pos with
  | case1 pos more space ih =>
      by_cases further : pos + 1 < skipLWS line (pos + 1)
      · exact ih further
      · have := le_skipLWS line (pos + 1)
        omega
  | case2 pos more other => exact more
  | case3 pos finished => omega

theorem compressFrom_shorter (line : Bytes) (pos stop : Nat) :
    compressFrom line pos stop = line ∨ (compressFrom line pos stop).length < line.length := by
  fun_induction compressFrom line pos stop with
  | case1 line pos stop more space next run ih =>
      have bound : next < line.length := skipLWS_lt (by omega)
      have shorter : (line.take (pos + 1) ++ line.drop next).length < line.length := by
        rw [List.length_append, List.length_take, List.length_drop]
        omega
      right
      rcases ih with same | less
      · rw [same]
        exact shorter
      · exact Nat.lt_trans less shorter
  | case2 line pos stop more space next single ih => exact ih
  | case3 line pos stop more other ih => exact ih
  | case4 line pos stop finished => exact Or.inl rfl

/-- The compression leaves a line alone or makes it shorter. -/
theorem compress_shorter (line : Bytes) :
    compressLWSAndRemoveCR line = line ∨ (compressLWSAndRemoveCR line).length < line.length := by
  have loop := compressFrom_shorter line 0 line.length
  simp only [compressLWSAndRemoveCR]
  split
  · rename_i cr
    right
    have nonempty : compressFrom line 0 line.length ≠ [] := by
      intro empty
      rw [empty] at cr
      cases cr
    have positive := List.length_pos_iff.mpr nonempty
    rw [List.length_dropLast]
    rcases loop with same | shorter
    · rw [same] at positive ⊢
      omega
    · omega
  · exact loop

/-- Single white space characters are left alone. -/
theorem compressFrom_single {line : Bytes} {pos stop : Nat}
    (single : ∀ i < line.length - 1,
      (isspace (charAt line i) && isspace (charAt line (i + 1))) = false) :
    compressFrom line pos stop = line := by
  fun_induction compressFrom line pos stop with
  | case1 line pos stop more space next run ih =>
      exfalso
      have bound : next < line.length := skipLWS_lt (by omega)
      have other := single pos (by omega)
      simp only [space, Bool.true_and] at other
      have stopped : next = pos + 1 := by
        simp only [next]
        rw [skipLWS, if_pos (by omega), if_neg (by simp [other])]
      omega
  | case2 line pos stop more space next one ih => exact ih single
  | case3 line pos stop more other ih => exact ih single
  | case4 line pos stop finished => rfl

theorem compress_single {line : Bytes} (single : ∀ i < line.length - 1,
      (isspace (charAt line i) && isspace (charAt line (i + 1))) = false) :
    compressLWSAndRemoveCR line = if line.getLast? = some 13 then line.dropLast else line := by
  rw [compressLWSAndRemoveCR, compressFrom_single single]

end Pcm.Http

import Pcm.Lib.Extraction
import Pcm.PaddedRequest
import Pcm.RequestBody

/-!
# Responses on the wire

`operator<<( socketstream&, HTTPResponse& )` (`pcm-sensor-server.cpp:3119-3145`) with which the server
writes a response, and `operator>>( socketstream&, HTTPResponse& )` (`pcm-sensor-server.cpp:3043-3116`)
with which a client reads it. The headers are written in the order of an unordered map.
-/

namespace Pcm.Http

open StdString IStream Bounded Squeeze

/-! ## Writing -/

/-- `response_map_` (`pcm-sensor-server.cpp:2761-2825`) -/
def responseMap : List (Nat × String) :=
  [(100, "Continue"), (101, "Switching Protocols"), (102, "Processing"), (200, "OK"),
    (201, "Created"), (202, "Accepted"), (203, "Non-authorative Information"), (204, "No Content"),
    (205, "Reset Content"), (206, "Partial Content"), (207, "Multi-Status"),
    (208, "Already Reported"), (226, "IM Used"), (300, "Multiple Choices"),
    (301, "Moved Permanently"), (302, "Found"), (303, "See Other"), (304, "Not Modified"),
    (305, "Use Proxy"), (307, "Temporary Redirect"), (308, "Permanent Redirect"),
    (400, "Bad Request"), (401, "Unauthorized"), (402, "Payment Required"), (403, "Forbidden"),
    (404, "Not Found"), (405, "Method Not Allowed"), (406, "Not Acceptable"),
    (407, "Proxy Authentication Required"), (408, "Request Timeout"), (409, "Conflict"),
    (410, "Gone"), (411, "Length Required"), (412, "Precondition Failed"),
    (413, "Payload Too Large"), (414, "Request-URI Too Long"), (415, "Unsupported Media Type"),
    (416, "Request Range Not Satisfiable"), (417, "Expectation Failed"), (418, "I'm a teapot"),
    (421, "Misdirected Request"), (422, "Unprocessable Entity"), (423, "Locked"),
    (424, "Failed Dependency"), (426, "Upgrade Required"), (428, "Precondition Required"),
    (429, "Too Many Requests"), (431, "Request Header Fields Too Large"),
    (444, "Connection Closed Without Response"), (451, "Unavailable For Legal Reasons"),
    (499, "Client Closed Request"), (500, "Internal Server Error"), (501, "Not Implemented"),
    (502, "Bad Gateway"), (503, "Service Unavailable"), (504, "Gateway Timeout"),
    (505, "HTTP Version Not Supported"), (506, "Variant Also Negotiates"),
    (507, "Insufficient Storage"), (508, "Loop Detected"), (510, "Not Extended"),
    (511, "Network Authentication Required"), (599, "Network Connect Timeout Error")]

/-- `responseCodeAsString` -/
def responseCodeAsString (rc : Nat) : Except StdException Bytes :=
  match responseMap.find? (·.1 = rc) with
  | some entry => .ok (ascii entry.2)
  | none => .error .out_of_range

/-- `protocolAsString`, every protocol being in the map. -/
def protocolAsString (protocol : HTTPProtocol) : Bytes :=
  match protocolMap.find? (·.1 = protocol) with
  | some entry => ascii entry.2
  | none => []

/-- What is written for the value of a header. -/
def sentValue (name value : Bytes) : Bytes :=
  if name = ascii "Content-Type" then value ++ ascii "; charset=UTF-8" else value

/-- `HTTP_EOL` -/
def httpEol : Bytes := [13, 10]

def headerText (entry : Bytes × HTTPHeader) : Bytes :=
  entry.1 ++ ascii ": " ++ sentValue entry.1 entry.2.value ++ httpEol

/-- `operator<<`, where `order` are the headers as the loop meets them. -/
def HTTPResponse.write (response : HTTPResponse) (order : Headers) : Except StdException Bytes := do
  let reason ← responseCodeAsString response.responseCode
  return protocolAsString response.protocol ++ ascii " " ++ decimal response.responseCode ++ ascii " " ++
    reason ++ httpEol ++ (order.flatMap headerText ++ (httpEol ++ response.body))

/-! ## Reading -/

/-- What a client knows about a response. -/
structure ReceivedResponse where
  protocol : HTTPProtocol
  responseCode : Nat
  reasonPhrase : Bytes
  headers : Headers := []
  body : Bytes := []
  deriving DecidableEq, Repr

/-- A response that can be written, whose headers are lines of their own. -/
structure Sendable (response : HTTPResponse) : Prop where
  code : ∃ reason, (response.responseCode, reason) ∈ responseMap
  field : ∀ entry ∈ response.headers, HeaderField entry.1 (sentValue entry.1 entry.2.value)
  quoted : ∀ entry ∈ response.headers, (sentValue entry.1 entry.2.value).count 34 % 2 = 0
  unique : (response.headers.map Prod.fst).Nodup

/-- The blank behind the colon belongs to the value. -/
def receivedHeader (entry : Bytes × HTTPHeader) : Bytes × HTTPHeader :=
  (entry.1, {
    name := entry.1
    value := 32 :: squeeze isspace (sentValue entry.1 entry.2.value)
    type := headerType entry.1 })

/-- What the client gets of a response but for its body. -/
def HTTPResponse.receivedHead (response : HTTPResponse) (order : Headers) : ReceivedResponse where
  protocol := response.protocol
  responseCode := response.responseCode
  reasonPhrase := match responseMap.find? (·.1 = response.responseCode) with
    | some entry => 32 :: ascii entry.2 ++ [13]
    | none => []
  headers := (order.map receivedHeader).reverse

def HTTPResponse.received (response : HTTPResponse) (order : Headers) : ReceivedResponse :=
  { response.receivedHead order with body := response.body }

/-! ### The status line -/

variable {response : HTTPResponse} {order : Headers} {text : Bytes}

/-- Whether there is a body is what the client expects, and the length of a body is announced. -/
inductive Framed (maxSize : Nat) (response : HTTPResponse) : Bool → Prop
  | bodiless (none : response.body = []) : Framed maxSize response false
  | announced {h} (some : response.body ≠ []) (fits : response.body.length ≤ maxSize)
      (small : response.body.length < 2 ^ 63)
      (member : (ascii "Content-Length", h) ∈ response.headers)
      (length : h.value = decimal response.body.length) : Framed maxSize response true

/-- A response with the order of its headers, for a client that expects a body or does not. -/
structure Exchange where
  response : HTTPResponse
  order : Headers
  bodyExpected : Bool

structure Exchange.Readable (maxSize : Nat) (e : Exchange) : Prop where
  sendable : Sendable e.response
  perm : e.order.Perm e.response.headers
  framed : Framed maxSize e.response e.bodyExpected

end Pcm.Http

import Mathlib.Data.List.Infix
import Pcm.HttpMessage
import Pcm.Lib.IStream
import Pcm.Lib.Loop

/-!
# Reading a request

`operator>>( socketstream&, HTTPRequest& )` (`pcm-sensor-server.cpp:2854-3041`) with
`readChunkedData` (`pcm-sensor-server.cpp:2619-2645`). None of its three loops looks at the state of the
stream: once the stream is no longer good, a loop goes on with what its strings hold.
-/

namespace Pcm.Http

open StdString

/-- What decides about a request besides its bytes: the largest size of a string, and whether the
interim response that a client may ask for can be written to the socket. -/
structure Surroundings where
  maxSize : Nat
  continueSent : Bool
  deriving DecidableEq, Repr

/-! ## The request line -/

def invalidRequest {α : Type} (what : String) : Except StdException α :=
  .error (.runtime_error (ascii what))

/-- Method, URL and protocol, separated by exactly two blanks. -/
def requestTokens (requestLine : Bytes) : Except StdException (Bytes × Bytes × Bytes) := do
  let requestLine := (requestLine.erase 10).erase 13
  if requestLine.count 32 = 2 then
    let firstSpace := find requestLine 32 0
    if firstSpace = npos then invalidRequest "No first space found in request line"
    let method ← substr requestLine 0 firstSpace
    if method = [] then invalidRequest "Not a valid request string: Method is empty"
    let secondSpace := find requestLine 32 (firstSpace + 1)
    if secondSpace = npos then invalidRequest "No second space found in request line"
    let url ← substr requestLine (firstSpace + 1) (minus secondSpace (firstSpace + 1))
    if url = [] then invalidRequest "Not a valid request string: URL is empty"
    let protocol ← substr requestLine (secondSpace + 1) npos
    if protocol = [] then invalidRequest "Not a valid request string: Protocol is empty"
    return (method, url, protocol)
  else
    .error (.runtime_error (ascii
      "Not a valid request string: Not exactly 3 space separated tokens: " ++ requestLine))

def parseRequestLine (requestLine : Bytes) : Except StdException HTTPRequest := do
  let (method, url, protocol) ← requestTokens requestLine
  let protocol ← protocolOf protocol
  let method ← getMethodAsEnum method
  let url ← URL.parse url
  return { protocol := protocol, method := method, url := url }

def readRequestLine (rs : IStream) : Except StdException (HTTPRequest × IStream) :=
  let (requestLine, rs) := rs.getline [] 10
  if rs.fail then
    invalidRequest "Could not read from socket, might have been closed due to e.g. timeout"
  else (parseRequestLine requestLine).map (·, rs)

/-! ## The headers -/

/-- A header is parsed and added to those that are there. -/
def addParsed (headers : Headers) (text : Bytes) : Except StdException Headers :=
  let hh := HTTPHeader.parse text
  if hh.type = .invalid then
    .error (.runtime_error (ascii "Bad Request received: " ++ hh.invalidReason))
  else headers.add hh

/-- The strings `line` and `concatLine`, the headers of the message, and the stream. -/
structure HeaderState where
  line : Bytes := []
  concatLine : Bytes := []
  headers : Headers := []
  rs : IStream
  deriving DecidableEq, Repr

/-- The loop over the header lines (`pcm-sensor-server.cpp:2912-2942`), one iteration. -/
def headerLine (s : HeaderState) : Except StdException (Next HeaderState (Headers × IStream)) :=
  let (line, rs) := s.rs.getline s.line 10
  let line := compressLWSAndRemoveCR line
  let concatLine := s.concatLine ++ line
  if concatLine = [] then .ok (.done (s.headers, rs))
  else
    let (first, rs) := rs.peek
    if first = some 32 then
      .ok (.again { s with line := line, concatLine := concatLine, rs := rs })
    else
      let (second, rs) := rs.peek
      if second = some 9 then
        .ok (.again { s with line := line, concatLine := concatLine, rs := rs })
      else do
        let headers ← addParsed s.headers concatLine
        return .again { line := line, concatLine := [], headers := headers, rs := rs }

def readHeaders (rs : IStream) : Bounded StdException (Headers × IStream) :=
  .loop headerLine { rs := rs }

/-! ## The body -/

/-- How the body arrives. -/
inductive BodyPlan
  | none
  | chunked (trailerLength : Nat) (expect : Bool)
  | contentLength (length : Nat) (expect : Bool)
  deriving DecidableEq, Repr

/-- The value of `Expect`, whether it is there and is `100-continue`. -/
def expectContinue (headers : Headers) : Except StdException Bool :=
  let expect := match headers.get? "Expect" with
    | some h => h.value
    | none => []
  if expect = ascii "100-continue" then .ok true
  else if expect ≠ [] then invalidRequest "Not a valid Expect header"
  else .ok false

/-- The checks before the body is read (`pcm-sensor-server.cpp:2945-3005`). -/
def bodyPlan (m : HTTPRequest) : Except StdException BodyPlan := do
  let hasBody := requestHasBody m.method
  if hasBody = .no then return .none
  let contentLength ← match m.headers.get? "Content-Length" with
    | some h => some <$> h.valueAsNumber
    | none => pure none
  let chunkedTE := match m.headers.get? "Transfer-Encoding" with
    | some h => decide (ascii "chunked" <:+: h.value)
    | none => false
  let trailerLength := match m.headers.get? "Trailer" with
    | some h => h.valueAsList.length
    | none => 0
  match chunkedTE, contentLength with
  | true, none => return .chunked trailerLength (← expectContinue m.headers)
  | false, some length => return .contentLength length (← expectContinue m.headers)
  | false, none =>
      if hasBody = .optional then return .none else invalidRequest "Bad Request received"
  | true, some _ => invalidRequest "Bad Request received"

/-- The interim response, which leaves the stream bad if it cannot be written. -/
def sendContinue (env : Surroundings) (expect : Bool) (rs : IStream) : IStream :=
  if expect && !env.continueSent then { rs with badbit := true } else rs

/-- `std::string( length, '\0' )`, then `read`. -/
def readData (maxSize length : Nat) (rs : IStream) : Except StdException (Bytes × IStream) :=
  if maxSize < length then .error .length_error else .ok (rs.read length)

structure ChunkState where
  chunkHeader : Bytes
  data : Bytes
  rs : IStream
  deriving DecidableEq, Repr

/-- The three lines that are read after the data of a chunk, into one string. -/
def afterChunk (chunkHeader : Bytes) (rs : IStream) : Bytes × IStream :=
  let (chunkHeader, rs) := rs.getline chunkHeader 10
  let (chunkHeader, rs) := rs.getline chunkHeader 10
  rs.getline chunkHeader 10

/-- The loop over the chunks, one iteration. -/
def chunk (maxSize : Nat) (s : ChunkState) :
    Except StdException (Next ChunkState (Bytes × IStream)) :=
  if charAt s.chunkHeader 0 = 48 then .ok (.done (s.data, s.rs))
  else do
    let number ← stoll 16 s.chunkHeader
    let (piece, rs) ← readData maxSize (toSizeT number) s.rs
    let data := s.data ++ piece
    if maxSize < data.length then .error .length_error
    else
      let (chunkHeader, rs) := afterChunk s.chunkHeader rs
      return .again { chunkHeader := chunkHeader, data := data, rs := rs }

/-- `readChunkedData` -/
def readChunkedData (maxSize : Nat) (rs : IStream) : Bounded StdException (Bytes × IStream) :=
  let (chunkHeader, rs) := rs.getline [] 10
  .loop (chunk maxSize) { chunkHeader := chunkHeader, data := [], rs := rs }

/-- The loop over the trailers (`pcm-sensor-server.cpp:3014-3022`), one iteration: it never reads
another line. -/
def trailer (remainder : Bytes) (s : Headers × Nat) :
    Except StdException (Next (Headers × Nat) (Headers × Nat)) :=
  if charAt remainder 0 = 13 then .ok (.done s)
  else (addParsed s.1 remainder).map (fun headers => .again (headers, s.2 + 1))

def readTrailers (trailerLength : Nat) (headers : Headers) (rs : IStream) :
    Bounded StdException (Headers × IStream) := do
  let (remainder, rs) := rs.getline [] 10
  let (headers, numHeadersAdded) ← Bounded.loop (trailer remainder) (headers, 0)
  if numHeadersAdded ≠ trailerLength then
    Bounded.lift (invalidRequest "Trailing headers does not match Trailer header content")
  else return (headers, rs)

/-- What follows the chunks. -/
def readRemainder (m : HTTPRequest) (trailerLength : Nat) (body : Bytes) (rs : IStream) :
    Bounded StdException (HTTPRequest × IStream) := do
  let (headers, rs) ← readTrailers trailerLength m.headers rs
  return ({ m with headers := headers, body := body }, rs)

def readBody (env : Surroundings) (m : HTTPRequest) (rs : IStream) :
    BodyPlan → Bounded StdException (HTTPRequest × IStream)
  | .none => return (m, rs)
  | .chunked trailerLength expect => do
      let (body, rs) ← readChunkedData env.maxSize (sendContinue env expect rs)
      readRemainder m trailerLength body rs
  | .contentLength length expect => do
      -- the body that is read here is not stored in the message
      let (_, rs) ← Bounded.lift (readData env.maxSize length (sendContinue env expect rs))
      return (m, rs)

/-- What follows the headers. -/
def readAnnounced (env : Surroundings) (m : HTTPRequest) (rs : IStream) :
    Bounded StdException (HTTPRequest × IStream) := do
  let plan ← Bounded.lift (bodyPlan m)
  readBody env m rs plan

/-- What follows the request line. -/
def readMessage (env : Surroundings) (m : HTTPRequest) (rs : IStream) :
    Bounded StdException (HTTPRequest × IStream) := do
  let (headers, rs) ← readHeaders rs
  readAnnounced env { m with headers := headers } rs

/-- `operator>>` -/
def readRequest (env : Surroundings) (rs : IStream) :
    Bounded StdException (HTTPRequest × IStream) := do
  let (m, rs) ← Bounded.lift (readRequestLine rs)
  readMessage env m rs

end Pcm.Http

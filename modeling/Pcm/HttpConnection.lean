import Mathlib.Tactic.ByContra
import Pcm.HttpMessage

/-!
# Connections

`HTTPConnection::execute` (`pcm-sensor-server.cpp:3166-3262`): requests are read and answered in a loop
that goes on while a flag is set. The flag belongs to the connection, not to the request.
-/

namespace Pcm.Http

open StdString

/-! ## Responses -/

structure HTTPResponse where
  protocol : HTTPProtocol
  responseCode : Nat := 200
  headers : Headers := []
  body : Bytes := []
  deriving DecidableEq, Repr

namespace HTTPResponse

def addHeader (response : HTTPResponse) (name : String) (value : Bytes) :
    Except StdException HTTPResponse := do
  let headers ← response.headers.add (.serverSet (ascii name) value)
  return { response with headers := headers }

/-- `createResponse` (`pcm-sensor-server.cpp:2744-2750`) -/
def createResponse (response : HTTPResponse) (mimeType : String) (body : Bytes) (rc : Nat) :
    Except StdException HTTPResponse := do
  let response ← response.addHeader "Content-Type" (ascii mimeType)
  let response ← response.addHeader "Content-Length" (ascii (toString body.length))
  return { response with body := body, responseCode := rc }

end HTTPResponse

/-- `HTTPMethodProperties::getMethodAsString` -/
def getMethodAsString (rme : HTTPRequestMethod) : Bytes :=
  match httpMethodProperties.find? (·.1 = rme) with
  | some prop => ascii prop.2.1
  | none => []

/-! ## One turn of the loop -/

/-- The callbacks by method, which may throw, and the time at which each response is made. -/
structure Server where
  callbackList : HTTPRequestMethod → Option (HTTPRequest → HTTPResponse → Except StdException HTTPResponse)
  date : Nat → Bytes

def requestLimit : Nat := 100

/-- What reading gives: a request, or, if it throws, the protocol if that is known by then. -/
abbrev Incoming := Except (Option HTTPProtocol) HTTPRequest

/-- The value of the header `Connection`, empty if there is none. -/
def connection (request : HTTPRequest) : Bytes :=
  match request.headers.get? "Connection" with
  | some h => h.value
  | none => []

/-- The request carries `Connection` with the value `keep-alive`. -/
def asksKeepAlive (request : HTTPRequest) : Bool := connection request = ascii "keep-alive"

/-- HTTP/1.1 requires a `Host`. -/
def conforms (request : HTTPRequest) : Bool :=
  !(request.protocol = .http_1_1 && !request.headers.has "Host")

/-- The callback of the method, or 501. -/
def process (server : Server) (request : HTTPRequest) (response : HTTPResponse) :
    Except StdException HTTPResponse :=
  match server.callbackList request.method with
  | some callback => callback request response
  | none => response.createResponse "text/plain" (ascii "501 Not Implemented." ++
      ascii " Method \"" ++ getMethodAsString request.method ++
      ascii "\" is not implemented (yet).") 501

/-- The headers about the connection. -/
def connectionHeaders (numRequests : Nat) (request : HTTPRequest) (response : HTTPResponse) :
    Except StdException HTTPResponse :=
  if numRequests < requestLimit then
    if asksKeepAlive request then do
      let response ← response.addHeader "Connection" (ascii "keep-alive")
      response.addHeader "Keep-Alive" (ascii "timeout=10, max=100")
    else return response
  else response.addHeader "Connection" (ascii "close")

/-- `keepListening` after the same branches, two of which set it. -/
def keepListeningAfter (numRequests : Nat) (keepListening : Bool) (request : HTTPRequest) : Bool :=
  if numRequests < requestLimit then
    if asksKeepAlive request then true else keepListening
  else false

/-- The response to a request that conforms to its protocol (`pcm-sensor-server.cpp:3209-3252`). -/
def answer (server : Server) (numRequests : Nat) (request : HTTPRequest) :
    Except StdException HTTPResponse := do
  let response ← process server request { protocol := request.protocol }
  let response ← response.addHeader "Server" (ascii "PCMWebServer 0.1")
  let response ← response.addHeader "Date" (server.date numRequests)
  let response ← connectionHeaders numRequests request response
  return if request.method = .head then { response with body := [] } else response

/-- How a turn ends: 400 for what could not be read, 400 for a missing `Host`, the response to the
request and whether to go on listening, or an exception, which leaves `execute`. -/
inductive Turn
  | unreadable (response : HTTPResponse)
  | refused (response : HTTPResponse)
  | answered (response : HTTPResponse) (keepListening : Bool)
  | threw (e : StdException)
  deriving DecidableEq, Repr

def Turn.ofResponse (written : HTTPResponse → Turn) : Except StdException HTTPResponse → Turn
  | .ok response => written response
  | .error e => .threw e

/-- The body of the loop, with the number that the request gets if it can be read. -/
def turn (server : Server) (numRequests : Nat) (keepListening : Bool) : Incoming → Turn
  | .error protocol => .ofResponse .unreadable
      (HTTPResponse.createResponse { protocol := protocol.getD .http_1_1 } "text/plain"
        (ascii "400 Bad Request") 400)
  | .ok request =>
      if conforms request then
        .ofResponse (.answered · (keepListeningAfter numRequests keepListening request))
          (answer server numRequests request)
      else .ofResponse .refused (HTTPResponse.createResponse { protocol := request.protocol } "text/plain"
        (ascii "400 Bad Request. HTTP 1.1: Mandatory Host header is missing.") 400)

/-- Whether the loop goes on after this turn. -/
def Turn.goesOn : Turn → Bool
  | .answered _ keepListening => keepListening
  | _ => false

/-- The turns from this one on; when no request is left the read fails. -/
def turns (server : Server) (numRequests : Nat) (keepListening : Bool) : List Incoming → List Turn
  | [] => [turn server (numRequests + 1) keepListening (.error none)]
  | request :: rest =>
      let this := turn server (numRequests + 1) keepListening request
      if this.goesOn then this :: turns server (numRequests + 1) true rest else [this]

/-- `execute`, over the requests that arrive on the connection. -/
def execute (server : Server) (incoming : List Incoming) : List Turn := turns server 0 false incoming

/-! ## Which requests are read -/

section Runs

variable {server : Server} {incoming : List Incoming} {request : HTTPRequest}

/-- The request at this position is answered in its turn, without an exception. -/
def Served (server : Server) (incoming : List Incoming) (i : Nat) : Prop :=
  ∃ request response, incoming[i]? = some (.ok request) ∧ conforms request = true ∧
    answer server (i + 1) request = .ok response

/-- The request at this position is refused for a missing `Host`. -/
def Refused (incoming : List Incoming) (i : Nat) : Prop :=
  ∃ request, incoming[i]? = some (.ok request) ∧ conforms request = false

/-- The request at this position carries `Connection` with the value `keep-alive`. -/
def AsksAt (incoming : List Incoming) (i : Nat) : Prop :=
  ∃ request, incoming[i]? = some (.ok request) ∧ asksKeepAlive request = true

/-- A turn in which a response to a request was written. -/
inductive Turn.Written : Turn → Prop
  | refused (response) : Written (.refused response)
  | answered (response keepListening) : Written (.answered response keepListening)

/-- Of which the request was also accepted. -/
inductive Turn.Answered : Turn → Prop
  | intro (response keepListening) : Answered (.answered response keepListening)

theorem Turn.Answered.written {this : Turn} (answered : this.Answered) : this.Written := by
  obtain ⟨response, keepListening⟩ := answered
  exact .answered response keepListening

theorem Turn.answered_of_goesOn {this : Turn} (on : this.goesOn = true) : this.Answered := by
  cases this with
  | answered response keepListening => exact ⟨response, keepListening⟩
  | unreadable response => cases on
  | refused response => cases on
  | threw e => cases on

/-- After the responses of these turns another request is read if and only if fewer than the limit have
been read and the one that was answered asks for it. -/
def KeepsAlive (server : Server) (incoming : List Incoming) (counts : Turn → Prop) : Prop :=
  ∀ i this, (execute server incoming)[i]? = some this → counts this →
    (i + 1 < (execute server incoming).length ↔ i + 1 < requestLimit ∧ AsksAt incoming i)

/-- What a turn with a parsed request can be. -/
theorem turn_parsed (server : Server) (n : Nat) (keepListening : Bool) (request : HTTPRequest) :
    (conforms request = false ∧ ∃ response, turn server n keepListening (.ok request) = .refused response) ∨
    (conforms request = true ∧ ∃ response, answer server n request = .ok response ∧
      turn server n keepListening (.ok request) =
        .answered response (keepListeningAfter n keepListening request)) ∨
    (conforms request = true ∧ ∃ e, answer server n request = .error e ∧
      turn server n keepListening (.ok request) = .threw e) := by
  rcases conform : conforms request with - | -
  · refine Or.inl ⟨rfl, ?_⟩
    simp only [turn, conform]
    exact ⟨_, rfl⟩
  · right
    rcases result : answer server n request with e | response
    · refine Or.inr ⟨rfl, e, rfl, ?_⟩
      simp only [turn, conform, if_true, result, Turn.ofResponse]
    · refine Or.inl ⟨rfl, response, rfl, ?_⟩
      simp only [turn, conform, if_true, result, Turn.ofResponse]

theorem turn_unreadable (server : Server) (n : Nat) (keepListening : Bool)
    (protocol : Option HTTPProtocol) :
    ∃ response, turn server n keepListening (.error protocol) = .unreadable response :=
  ⟨_, rfl⟩

/-- The turn that this position gets if the loop goes on so far: the flag is set from the second on. -/
def turnAt (server : Server) (incoming : List Incoming) (i : Nat) : Turn :=
  turn server (i + 1) (decide (0 < i)) (incoming[i]?.getD (.error none))

/-- A turn is reached if all before it go on. -/
theorem turns_get (server : Server) (n : Nat) (keepListening : Bool) (incoming : List Incoming)
    (i : Nat) (this : Turn) :
    (turns server n keepListening incoming)[i]? = some this ↔
      (∀ j < i, (turn server (n + j + 1) (keepListening || decide (0 < j))
        (incoming[j]?.getD (.error none))).goesOn = true) ∧
      turn server (n + i + 1) (keepListening || decide (0 < i))
        (incoming[i]?.getD (.error none)) = this := by
  induction incoming generalizing n keepListening i with
  | nil =>
      cases i with
      | zero => simp [turns]
      | succ i =>
          simp only [turns, List.getElem?_cons_succ, List.getElem?_nil]
          refine ⟨nofun, ?_⟩
          rintro ⟨earlier, -⟩
          cases earlier 0 (Nat.succ_pos i)
  | cons request rest ih =>
      simp only [turns]
      rcases on : (turn server (n + 1) keepListening request).goesOn with - | -
      · cases i with
        | zero => simp
        | succ i =>
            simp only [Bool.false_eq_true, if_false, List.getElem?_cons_succ, List.getElem?_nil]
            refine ⟨nofun, ?_⟩
            rintro ⟨earlier, -⟩
            have first := earlier 0 (Nat.succ_pos i)
            simp [on] at first
      · cases i with
        | zero => simp
        | succ i =>
            simp only [if_true, List.getElem?_cons_succ, ih]
            have shift : ∀ j, n + 1 + j + 1 = n + (j + 1) + 1 := by omega
            simp only [Bool.true_or, shift, Nat.zero_lt_succ, decide_true, Bool.or_true]
            refine and_congr_left (fun _ => ?_)
            constructor
            · intro earlier j less
              cases j with
              | zero => simpa using on
              | succ j => simpa using earlier j (by omega)
            · intro earlier j less
              simpa using earlier (j + 1) (by omega)

theorem execute_get (server : Server) (incoming : List Incoming) (i : Nat) (this : Turn) :
    (execute server incoming)[i]? = some this ↔
      (∀ j < i, (turnAt server incoming j).goesOn = true) ∧ turnAt server incoming i = this := by
  simpa [turnAt, execute] using turns_get server 0 false incoming i this

theorem lt_length_execute (server : Server) (incoming : List Incoming) (i : Nat) :
    i < (execute server incoming).length ↔ ∀ j < i, (turnAt server incoming j).goesOn = true := by
  constructor
  · intro less
    exact ((execute_get server incoming i _).mp (List.getElem?_eq_getElem less)).1
  · intro earlier
    have reached := (execute_get server incoming i _).mpr ⟨earlier, rfl⟩
    exact (List.getElem?_eq_some_iff.mp reached).1

theorem keepListeningAfter_iff (n : Nat) (keepListening : Bool) (request : HTTPRequest) :
    keepListeningAfter n keepListening request = true ↔
      n < requestLimit ∧ (keepListening = true ∨ asksKeepAlive request = true) := by
  rw [keepListeningAfter]
  split
  · rename_i below
    rcases asksKeepAlive request with - | - <;> simp [below]
  · rename_i limit
    simp [limit]

theorem asksAt_iff {i : Nat} (arrived : incoming[i]? = some (.ok request)) :
    AsksAt incoming i ↔ asksKeepAlive request = true := by
  simp [AsksAt, arrived]

/-- A turn by the request at its position. -/
theorem turnAt_cases (server : Server) (incoming : List Incoming) (i : Nat) :
    (Refused incoming i ∧ ∃ response, turnAt server incoming i = .refused response) ∨
    (Served server incoming i ∧ ∃ response keepListening,
      turnAt server incoming i = .answered response keepListening ∧
      (keepListening = true ↔ i + 1 < requestLimit ∧ (0 < i ∨ AsksAt incoming i))) ∨
    (¬ (turnAt server incoming i).Written ∧ ¬ Refused incoming i ∧ ¬ Served server incoming i) := by
  have unread : ∀ protocol, incoming[i]?.getD (.error none) = .error protocol →
      ¬ (turnAt server incoming i).Written := by
    intro protocol failed
    obtain ⟨response, unreadable⟩ := turn_unreadable server (i + 1) (decide (0 < i)) protocol
    rw [turnAt, failed, unreadable]
    rintro ⟨⟩
  rcases arrived : incoming[i]? with - | protocol | request
  · exact Or.inr (Or.inr ⟨unread none (by rw [arrived]; rfl), by simp [Refused, arrived],
      by simp [Served, arrived]⟩)
  · exact Or.inr (Or.inr ⟨unread protocol (by rw [arrived]; rfl), by simp [Refused, arrived],
      by simp [Served, arrived]⟩)
  · have this : turnAt server incoming i = turn server (i + 1) (decide (0 < i)) (.ok request) := by
      rw [turnAt, arrived]
      rfl
    rcases turn_parsed server (i + 1) (decide (0 < i)) request with
      ⟨conform, response, result⟩ | ⟨conform, response, made, result⟩ | ⟨conform, e, failed, result⟩
    · exact Or.inl ⟨⟨request, arrived, conform⟩, response, this.trans result⟩
    · refine Or.inr (Or.inl ⟨⟨request, response, arrived, conform, made⟩, response, _,
        this.trans result, ?_⟩)
      rw [keepListeningAfter_iff, asksAt_iff arrived, decide_eq_true_iff]
    · refine Or.inr (Or.inr ⟨?_, by simp [Refused, arrived, conform],
        by simp [Served, arrived, failed]⟩)
      rw [this, result]
      rintro ⟨⟩

theorem not_served_of_refused {i : Nat} (refused : Refused incoming i) : ¬ Served server incoming i := by
  obtain ⟨request, arrived, conform⟩ := refused
  simp [Served, arrived, conform]

theorem answered_iff (server : Server) (incoming : List Incoming) (i : Nat) :
    (turnAt server incoming i).Answered ↔ Served server incoming i := by
  rcases turnAt_cases server incoming i with ⟨refused, response, this⟩ |
    ⟨served, response, keepListening, this, -⟩ | ⟨unwritten, -, unserved⟩
  · rw [this]
    exact ⟨nofun, fun served => absurd served (not_served_of_refused refused)⟩
  · rw [this]
    exact ⟨fun _ => served, fun _ => ⟨response, keepListening⟩⟩
  · exact ⟨fun answered => absurd answered.written unwritten, fun served => absurd served unserved⟩

theorem written_iff (server : Server) (incoming : List Incoming) (i : Nat) :
    (turnAt server incoming i).Written ↔ Served server incoming i ∨ Refused incoming i := by
  rcases turnAt_cases server incoming i with ⟨refused, response, this⟩ |
    ⟨served, response, keepListening, this, -⟩ | ⟨unwritten, unrefused, unserved⟩
  · rw [this]
    exact ⟨fun _ => Or.inr refused, fun _ => .refused response⟩
  · rw [this]
    exact ⟨fun _ => Or.inl served, fun _ => .answered response keepListening⟩
  · simp [unwritten, unrefused, unserved]

/-- The flag is set by a request that asks for it, and stays set until the limit. -/
theorem goesOn_iff (server : Server) (incoming : List Incoming) (i : Nat) :
    (turnAt server incoming i).goesOn = true ↔
      Served server incoming i ∧ i + 1 < requestLimit ∧ (0 < i ∨ AsksAt incoming i) := by
  rcases turnAt_cases server incoming i with ⟨refused, response, this⟩ |
    ⟨served, response, keepListening, this, flag⟩ | ⟨unwritten, -, unserved⟩
  · simp [this, Turn.goesOn, not_served_of_refused refused]
  · simp only [this, Turn.goesOn, served, true_and, flag]
  · refine ⟨fun on => absurd (Turn.answered_of_goesOn on).written unwritten, ?_⟩
    rintro ⟨served, -⟩
    exact absurd served unserved

/-- The requests that are read. -/
theorem reached_iff (server : Server) (incoming : List Incoming) (i : Nat) :
    i < (execute server incoming).length ↔
      (∀ j < i, Served server incoming j) ∧ (0 < i → i < requestLimit ∧ AsksAt incoming 0) := by
  rw [lt_length_execute]
  simp only [goesOn_iff]
  constructor
  · intro earlier
    refine ⟨fun j less => (earlier j less).1, fun positive => ?_⟩
    have last := (earlier (i - 1) (by omega)).2.1
    have first := (earlier 0 positive).2.2
    exact ⟨by omega, by simpa using first⟩
  · rintro ⟨served, first⟩ j less
    obtain ⟨below, asks⟩ := first (by omega)
    refine ⟨served j less, by omega, ?_⟩
    rcases Nat.eq_zero_or_pos j with rfl | positive
    · exact Or.inr asks
    · exact Or.inl positive

/-! ## When the loop goes by the request -/

/-- A request before the limit that does not ask to keep the connection, after others of which the first
does, all of them served. -/
def Lapses (server : Server) (incoming : List Incoming) : Prop :=
  ∃ i, 0 < i ∧ i + 1 < requestLimit ∧ AsksAt incoming 0 ∧ (∀ j ≤ i, Served server incoming j) ∧
    ¬ AsksAt incoming i

/-- A request before the limit that asks to keep the connection but has no `Host`. -/
def RefusedAsking (server : Server) (incoming : List Incoming) : Prop :=
  ∃ i, i + 1 < requestLimit ∧ (0 < i → AsksAt incoming 0) ∧ (∀ j < i, Served server incoming j) ∧
    Refused incoming i ∧ AsksAt incoming i

/-- What the requests have to satisfy, for the turns that count. -/
theorem keepsAlive_iff_reached (server : Server) (incoming : List Incoming) (counts : Turn → Prop) :
    KeepsAlive server incoming counts ↔
      ∀ i < (execute server incoming).length, counts (turnAt server incoming i) →
        (Served server incoming i ∧ i + 1 < requestLimit ∧ (0 < i ∨ AsksAt incoming i) ↔
          i + 1 < requestLimit ∧ AsksAt incoming i) := by
  have next : ∀ i < (execute server incoming).length, (i + 1 < (execute server incoming).length ↔
      Served server incoming i ∧ i + 1 < requestLimit ∧ (0 < i ∨ AsksAt incoming i)) := by
    intro i reached
    rw [lt_length_execute] at reached ⊢
    rw [← goesOn_iff]
    constructor
    · intro earlier
      exact earlier i (Nat.lt_succ_self i)
    · intro on j less
      rcases Nat.lt_succ_iff_lt_or_eq.mp less with before | rfl
      · exact reached j before
      · exact on
  constructor
  · intro holds i reached counted
    rw [← next i reached]
    have get := (execute_get server incoming i _).mpr
      ⟨(lt_length_execute server incoming i).mp reached, rfl⟩
    exact holds i _ get counted
  · intro holds i this get counted
    obtain ⟨earlier, rfl⟩ := (execute_get server incoming i this).mp get
    have reached := (lt_length_execute server incoming i).mpr earlier
    rw [next i reached]
    exact holds i reached counted

theorem keepsAlive_answered_iff (server : Server) (incoming : List Incoming) :
    KeepsAlive server incoming Turn.Answered ↔ ¬ Lapses server incoming := by
  rw [keepsAlive_iff_reached]
  simp only [answered_iff, reached_iff]
  constructor
  · rintro holds ⟨i, positive, below, first, served, lapse⟩
    have same := holds i ⟨fun j less => served j (Nat.le_of_lt less), fun _ => ⟨by omega, first⟩⟩
      (served i (Nat.le_refl i))
    exact lapse (same.mp ⟨served i (Nat.le_refl i), below, Or.inl positive⟩).2
  · rintro none i ⟨earlier, first⟩ served
    constructor
    · rintro ⟨-, below, positive | asks⟩
      · refine ⟨below, by_contra fun lapse => none ?_⟩
        refine ⟨i, positive, below, (first positive).2, fun j le => ?_, lapse⟩
        rcases Nat.lt_or_eq_of_le le with less | rfl
        · exact earlier j less
        · exact served
      · exact ⟨below, asks⟩
    · rintro ⟨below, asks⟩
      exact ⟨served, below, Or.inr asks⟩

theorem keepsAlive_written_iff (server : Server) (incoming : List Incoming) :
    KeepsAlive server incoming Turn.Written ↔
      KeepsAlive server incoming Turn.Answered ∧ ¬ RefusedAsking server incoming := by
  rw [keepsAlive_iff_reached, keepsAlive_iff_reached]
  simp only [answered_iff, written_iff, reached_iff]
  constructor
  · intro holds
    refine ⟨fun i reached served => holds i reached (Or.inl served), ?_⟩
    rintro ⟨i, below, first, earlier, refused, asks⟩
    have same := holds i ⟨earlier, fun positive => ⟨by omega, first positive⟩⟩ (Or.inr refused)
    exact not_served_of_refused refused (same.mpr ⟨below, asks⟩).1
  · rintro ⟨holds, none⟩ i reached (served | refused)
    · exact holds i reached served
    · constructor
      · rintro ⟨served, -⟩
        exact absurd served (not_served_of_refused refused)
      · rintro ⟨below, asks⟩
        exact absurd ⟨i, below, fun positive => (reached.2 positive).2, reached.1, refused, asks⟩ none

/-- The loop goes by the request that was just answered if and only if no request lapses; over all
requests that could be parsed, if and only if moreover none asks to go on that is refused. -/
theorem execute_keepsAlive_iff (server : Server) (incoming : List Incoming) :
    (KeepsAlive server incoming Turn.Answered ↔ ¬ Lapses server incoming) ∧
      (KeepsAlive server incoming Turn.Written ↔
        ¬ Lapses server incoming ∧ ¬ RefusedAsking server incoming) := by
  refine ⟨keepsAlive_answered_iff server incoming, ?_⟩
  rw [keepsAlive_written_iff, keepsAlive_answered_iff]

/-- A server with one callback, and a request for it with this value of `Connection`. -/
def greeting : Server where
  callbackList := fun method => if method = .get then
    some (fun _ response => response.createResponse "text/plain" (ascii "hello") 200) else none
  date := fun _ => ascii "Thu, 01 Jan 1970 00:00:00 GMT"

def greetingRequest (value : String) : HTTPRequest where
  protocol := .http_1_1
  method := .get
  url := { path := ascii "/" }
  headers := [(ascii "Host", ⟨ascii "Host", ascii "pcm", .hostPort, []⟩),
    (ascii "Connection", ⟨ascii "Connection", ascii value, .string, []⟩)]

/-- After `keep-alive` a request for `close` does not end the loop. -/
theorem execute_ignores_close :
    ¬ KeepsAlive greeting [.ok (greetingRequest "keep-alive"), .ok (greetingRequest "close")]
      Turn.Answered := by
  rw [keepsAlive_answered_iff, not_not]
  refine ⟨1, by decide, by decide, ⟨_, rfl, by decide⟩, ?_, ?_⟩
  · intro j le
    rcases Nat.le_one_iff_eq_zero_or_eq_one.mp le with rfl | rfl
    · exact ⟨_, _, rfl, by decide, rfl⟩
    · exact ⟨_, _, rfl, by decide, rfl⟩
  · rintro ⟨request, arrived, asks⟩
    cases arrived
    revert asks
    decide

end Runs

end Pcm.Http

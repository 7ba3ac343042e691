import Pcm.GetCallback

/-!
# Conversations with the server

The loop of `HTTPConnection::execute` (`pcm-sensor-server.cpp:3166-3262`) over the bytes that arrive on a
connection, with the callback that the server registers and with the interim responses that `operator>>`
writes while it reads a request. A response is written only to a stream that is still good. What a client
reads from the bytes that come back are the responses that were written.
-/

namespace Pcm.Http

open StdString IStream Bounded
open SampleHistory (persecond)

/-! ## Reading a request on a connection -/

/-- Whether the body is sent only after an interim response. -/
def BodyPlan.expect : BodyPlan → Bool
  | .none => false
  | .chunked _ expect => expect
  | .contentLength _ expect => expect

/-- Request line and headers have been read, and this is how the body is to come. -/
inductive Announces (rs : IStream) : HTTPRequest → BodyPlan → IStream → Prop
  | intro {m between headers after plan} (line : readRequestLine rs = .ok (m, between))
      (lines : (readHeaders between).Returns (.ok (headers, after)))
      (planned : bodyPlan { m with headers := headers } = .ok plan) :
      Announces rs { m with headers := headers } plan after

/-- The interim response reaches the client. -/
def continues (env : Surroundings) (plan : BodyPlan) (rs : IStream) : Bool :=
  plan.expect && rs.good && env.continueSent

/-- How `operator>>` is left: whether it has written the interim response, what the loop gets, if
anything, and the stream. In which state an exception leaves a stream that was being read is left open. -/
inductive Reads (env : Surroundings) (rs : IStream) : Bool → Option Incoming → IStream → Prop
  | badLine {e} (threw : readRequestLine rs = .error e) :
      Reads env rs false (some (.error none)) (rs.getline [] 10).2
  | badHeaders {m between e} (line : readRequestLine rs = .ok (m, between))
      (threw : (readHeaders between).Returns (.error e)) (left : IStream) :
      Reads env rs false (some (.error (some m.protocol))) left
  | badPlan {m between headers left e} (line : readRequestLine rs = .ok (m, between))
      (lines : (readHeaders between).Returns (.ok (headers, left)))
      (threw : bodyPlan { m with headers := headers } = .error e) :
      Reads env rs false (some (.error (some m.protocol))) left
  | badBody {m plan after e} (announced : Announces rs m plan after)
      (threw : (readBody env m after plan).Returns (.error e)) (left : IStream) :
      Reads env rs (continues env plan after) (some (.error (some m.protocol))) left
  | endless {m plan after} (announced : Announces rs m plan after)
      (never : ¬ (readBody env m after plan).Ends) (left : IStream) :
      Reads env rs (continues env plan after) none left
  | whole {m plan after request left} (announced : Announces rs m plan after)
      (returned : (readBody env m after plan).Returns (.ok (request, left))) :
      Reads env rs (continues env plan after) (some (.ok request)) left

section Reading

variable {env : Surroundings} {rs left : IStream} {continued : Bool}

theorem returns_afterLine {m : HTTPRequest} {between : IStream} (line : readRequestLine rs = .ok (m, between))
    {r : Except StdException (HTTPRequest × IStream)} :
    (readRequest env rs).Returns r ↔ (readMessage env m between).Returns r :=
  returns_bind_of_ok (stable_lift _) (fun _ => stable_readMessage env _ _) (returns_lift.mpr line)

theorem returns_afterHeaders {m : HTTPRequest} {between after : IStream} {headers : Headers}
    (lines : (readHeaders between).Returns (.ok (headers, after)))
    {r : Except StdException (HTTPRequest × IStream)} :
    (readMessage env m between).Returns r ↔ (readAnnounced env { m with headers := headers } after).Returns r :=
  returns_bind_of_ok (stable_loop _ _) (fun _ => stable_readAnnounced env _ _) lines

theorem Announces.returns {m : HTTPRequest} {plan : BodyPlan} {after : IStream}
    (announced : Announces rs m plan after) {r : Except StdException (HTTPRequest × IStream)} :
    (readRequest env rs).Returns r ↔ (readBody env m after plan).Returns r := by
  obtain ⟨line, lines, planned⟩ := announced
  rw [returns_afterLine line, returns_afterHeaders lines]
  exact returns_bind_of_ok (stable_lift _) (fun plan => stable_readBody env _ _ plan)
    (returns_lift.mpr planned)

/-- What the loop gets is what `operator>>` comes to. -/
theorem Reads.readRequest {incoming : Option Incoming} (reads : Reads env rs continued incoming left) :
    match incoming with
    | some (.ok request) => (readRequest env rs).Returns (.ok (request, left))
    | some (.error _) => ∃ e, (readRequest env rs).Returns (.error e)
    | none => ¬ (readRequest env rs).Ends := by
  cases reads with
  | @badLine e threw =>
      exact ⟨e, returns_bind_of_error (stable_lift _) (fun _ => stable_readMessage env _ _)
        (returns_lift.mpr threw)⟩
  | @badHeaders m between e line threw =>
      refine ⟨e, (returns_afterLine line).mpr ?_⟩
      exact returns_bind_of_error (stable_loop _ _) (fun _ => stable_readAnnounced env _ _) threw
  | @badPlan m between headers left e line lines threw =>
      refine ⟨e, (returns_afterLine line).mpr ((returns_afterHeaders lines).mpr ?_)⟩
      exact returns_bind_of_error (stable_lift _) (fun plan => stable_readBody env _ _ plan)
        (returns_lift.mpr threw)
  | badBody announced threw => exact ⟨_, announced.returns.mpr threw⟩
  | endless announced never =>
      rintro ⟨r, returned⟩
      exact never ⟨r, announced.returns.mp returned⟩
  | whole announced returned => exact announced.returns.mpr returned

end Reading

/-! ## The rounds of the loop -/

/-- What a turn writes. -/
def Turn.response : Turn → Option HTTPResponse
  | .unreadable response => some response
  | .refused response => some response
  | .answered response _ => some response
  | .threw _ => none

/-- There is a body unless the turn is the answer to a request with the method HEAD. -/
def expectsBody (incoming : Incoming) (this : Turn) : Bool :=
  match incoming, this with
  | .ok request, .answered _ _ => request.method ≠ .head
  | _, _ => true

/-- The interim response (`pcm-sensor-server.cpp:2994-3000`). -/
def continueResponse : HTTPResponse := { protocol := .http_1_1, responseCode := 100 }

/-- A response on the wire, and whether its client is to expect a body. -/
structure Sent where
  response : HTTPResponse
  bodyExpected : Bool

/-- How a round ends: with a turn, at the end of which the stream is good or not, with a callback that
stays in the loop of `getAggregators`, or with a read that never comes back. -/
inductive Outcome (α : Type)
  | turn (incoming : Incoming) (this : Turn) (good : Bool)
  | asleep (request : HTTPRequest) (site : Site α)
  | endless

structure Round (α : Type) where
  continued : Bool
  outcome : Outcome α

section Rounds

variable {α : Type}

/-- Nothing is written to a stream that is not good. -/
def Outcome.sent : Outcome α → List Sent
  | .turn incoming this good =>
      if good then this.response.toList.map (⟨·, expectsBody incoming this⟩) else []
  | .asleep _ _ => []
  | .endless => []

def Round.sent (round : Round α) : List Sent :=
  (if round.continued then [⟨continueResponse, false⟩] else []) ++ round.outcome.sent

/-- The rounds from this one on, with the number of requests read before, the flag of the loop and the
stream. What the callback has at hand changes from round to round. -/
inductive Conversation (env : Surroundings) (sites : Nat → Site α) :
    Nat → Bool → IStream → List (Round α) → Prop
  | endless {numRequests keepListening rs continued left} (reads : Reads env rs continued none left) :
      Conversation env sites numRequests keepListening rs [⟨continued, .endless⟩]
  | asleep {numRequests keepListening rs continued request left}
      (reads : Reads env rs continued (some (.ok request)) left)
      (sleeps : asleep (sites numRequests) (.ok request) = true) :
      Conversation env sites numRequests keepListening rs
        [⟨continued, .asleep request (sites numRequests)⟩]
  | last {numRequests keepListening rs continued incoming left this}
      (reads : Reads env rs continued (some incoming) left)
      (awake : asleep (sites numRequests) incoming = false)
      (turned : turn (sites numRequests).server (numRequests + 1) keepListening incoming = this)
      (ends : this.goesOn = false) :
      Conversation env sites numRequests keepListening rs [⟨continued, .turn incoming this left.good⟩]
  | further {numRequests keepListening rs continued incoming left this later}
      (reads : Reads env rs continued (some incoming) left)
      (awake : asleep (sites numRequests) incoming = false)
      (turned : turn (sites numRequests).server (numRequests + 1) keepListening incoming = this)
      (on : this.goesOn = true)
      (rest : Conversation env sites (numRequests + 1) true left later) :
      Conversation env sites numRequests keepListening rs
        (⟨continued, .turn incoming this left.good⟩ :: later)

variable {site : Site α}

/-- The loop goes on only below its limit. -/
theorem lt_requestLimit_of_goesOn {server : Server} {n : Nat} {keepListening : Bool}
    {incoming : Incoming} (on : (turn server n keepListening incoming).goesOn = true) :
    n < requestLimit := by
  cases incoming with
  | error protocol =>
      obtain ⟨response, unreadable⟩ := turn_unreadable server n keepListening protocol
      rw [unreadable] at on
      cases on
  | ok request =>
      rcases turn_parsed server n keepListening request with
        ⟨-, response, this⟩ | ⟨-, response, -, this⟩ | ⟨-, e, -, this⟩
      · rw [this] at on
        cases on
      · rw [this] at on
        exact ((keepListeningAfter_iff n keepListening request).mp on).1
      · rw [this] at on
        cases on

variable {env : Surroundings} {sites : Nat → Site α} {numRequests : Nat} {keepListening : Bool}
  {rs : IStream} {rounds : List (Round α)}

theorem Conversation.length_le (conversation : Conversation env sites numRequests keepListening rs rounds)
    (below : numRequests < requestLimit) : numRequests + rounds.length ≤ requestLimit := by
  induction conversation with
  | endless reads => exact below
  | asleep reads sleeps => exact below
  | last reads awake turned ends => exact below
  | further reads awake turned on rest ih =>
      subst turned
      have bound := ih (lt_requestLimit_of_goesOn on)
      rw [List.length_cons]
      omega

/-- A client that knows what it asked for can read it. -/
structure Sent.Deliverable (sent : Sent) : Prop where
  sendable : Sendable sent.response
  framed : ∀ maxSize < 2 ^ 63, sent.response.body.length ≤ maxSize →
    Framed maxSize sent.response sent.bodyExpected

theorem deliverable_continue : Sent.Deliverable ⟨continueResponse, false⟩ where
  sendable := by
    have known : 100 ∈ codes := by decide
    exact @sendable_of_entries _ [] known rfl nofun .nil nofun
  framed := fun _ _ _ => .bodiless rfl

/-- The responses that come with the end of the connection. -/
theorem deliverable_created (protocol : HTTPProtocol) {body : Bytes} (some : body ≠ []) :
    Sent.Deliverable ⟨created protocol "text/plain" body 400, true⟩ where
  sendable := by
    have known : 400 ∈ codes := by decide
    refine sendable_of_entries known rfl ?_ ?_ (printable_contentEntries (by decide) _)
    · rw [contentEntries, List.forall_mem_cons, List.forall_mem_singleton]
      exact ⟨List.mem_of_elem_eq_true rfl, List.mem_of_elem_eq_true rfl⟩
    · change [ascii "Content-Length", ascii "Content-Type"].Nodup
      decide
  framed := fun _ limit fits =>
    .announced some fits (Nat.lt_of_le_of_lt fits limit) (mem_contentLength List.mem_cons_self) rfl

/-- A turn writes a response that a client can read. -/
theorem turn_deliverable (numRequests : Nat) (keepListening : Bool) {incoming : Incoming} {this : Turn}
    (awake : asleep site incoming = false)
    (turned : turn site.server numRequests keepListening incoming = this) :
    ∃ response, this.response = some response ∧
      Sent.Deliverable ⟨response, expectsBody incoming this⟩ := by
  subst turned
  cases incoming with
  | error protocol =>
      rw [turn, createResponse_eq]
      exact ⟨_, rfl, deliverable_created _ (by decide)⟩
  | ok request =>
      rw [turn]
      split
      · rename_i conform
        obtain ⟨response, answered, sendable, framed⟩ := answer_readable numRequests conform awake
        rw [answered]
        exact ⟨response, rfl, sendable, framed⟩
      · rw [createResponse_eq]
        exact ⟨_, rfl, deliverable_created _ (by decide)⟩

/-- What a round writes after a turn can be read. -/
theorem deliverable_turn {continued good : Bool} {incoming : Incoming} {this : Turn} {response : HTTPResponse}
    (some : this.response = some response)
    (deliverable : Sent.Deliverable ⟨response, expectsBody incoming this⟩) :
    ∀ sent ∈ Round.sent (α := α) ⟨continued, .turn incoming this good⟩, sent.Deliverable := by
  intro sent member
  rcases List.mem_append.mp member with interim | final
  · cases continued with
    | false => cases interim
    | true =>
        obtain rfl := List.mem_singleton.mp interim
        exact deliverable_continue
  · cases good with
    | false => cases final
    | true =>
        rw [Outcome.sent, some] at final
        obtain rfl := List.mem_singleton.mp final
        exact deliverable

/-- A round that does not come to a turn writes the interim response at most. -/
theorem deliverable_interim {continued : Bool} {outcome : Outcome α} (silent : outcome.sent = []) :
    ∀ sent ∈ Round.sent ⟨continued, outcome⟩, sent.Deliverable := by
  intro sent member
  rw [Round.sent, silent, List.append_nil] at member
  cases continued with
  | false => cases member
  | true =>
      obtain rfl := List.mem_singleton.mp member
      exact deliverable_continue

theorem Conversation.deliverable
    (conversation : Conversation env sites numRequests keepListening rs rounds) :
    ∀ sent ∈ rounds.flatMap Round.sent, sent.Deliverable := by
  induction conversation with
  | endless reads =>
      rw [List.flatMap_singleton]
      exact deliverable_interim rfl
  | asleep reads sleeps =>
      rw [List.flatMap_singleton]
      exact deliverable_interim rfl
  | last reads awake turned ends =>
      obtain ⟨response, some, deliverable⟩ := turn_deliverable _ _ awake turned
      rw [List.flatMap_singleton]
      exact deliverable_turn some deliverable
  | further reads awake turned on rest ih =>
      obtain ⟨response, some, deliverable⟩ := turn_deliverable _ _ awake turned
      rw [List.flatMap_cons, List.forall_mem_append]
      exact ⟨deliverable_turn some deliverable, ih⟩

/-! ## What a client reads -/

end Rounds

/-! ## A conversation -/

end Pcm.Http

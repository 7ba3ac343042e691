import Pcm.DashboardPanels
import Pcm.HttpResponseText
import Pcm.JsonDocument
import Pcm.PrometheusSamples
import Pcm.SampleHistory

/-!
# The answers of the server

`my_get_callback` (`pcm-sensor-server.cpp:3840-4001`), which `startHTTPServer` registers for GET and HEAD,
with the printers that it calls, and the headers that `HTTPConnection::execute` adds to its responses.
-/

namespace Pcm.Http

open StdString IStream Bounded
open Dashboard (DashboardType)
open SampleHistory (getAggregators persecond)

/-! ## The date -/

/-- The part of `std::tm` that is printed, as `gmtime` fills it in. -/
structure CalendarTime where
  weekday : Fin 7
  monthDay : Fin 32
  month : Fin 12
  year : Nat
  hour : Fin 24
  minute : Fin 60
  second : Fin 61

def weekdays : List String := ["Sun", "Mon", "Tue", "Wed", "Thu", "Fri", "Sat"]

def months : List String :=
  ["Jan", "Feb", "Mar", "Apr", "May", "Jun", "Jul", "Aug", "Sep", "Oct", "Nov", "Dec"]

def twoDigits (n : Nat) : Bytes := [UInt8.ofNat (48 + n / 10), UInt8.ofNat (48 + n % 10)]

/-- `datetime::toString` (`pcm-sensor-server.cpp:165-175`), with the format `%a, %d %b %Y %T GMT`. -/
def CalendarTime.toText (t : CalendarTime) : Bytes :=
  ascii (weekdays.get t.weekday) ++ ascii ", " ++ twoDigits t.monthDay ++ ascii " " ++
    ascii (months.get t.month) ++ ascii " " ++ decimal t.year ++ ascii " " ++ twoDigits t.hour ++ ascii ":" ++
    twoDigits t.minute ++ ascii ":" ++ twoDigits t.second ++ ascii " GMT"

/-! ## What is asked for -/

/-- `enum OutputFormat`, as far as `mimeTypeToOutputFormat` chooses one. -/
inductive OutputFormat
  | prometheus_0_0_4
  | json
  | html
  deriving DecidableEq, Repr

/-- `mimeTypeToOutputFormat` (`pcm-sensor-server.cpp:3789-3795`) -/
def mimeTypeToOutputFormat : MimeType → OutputFormat
  | .catchAll => .html
  | .textPlainProm_0_0_4 => .prometheus_0_0_4
  | .applicationJSON => .json

/-- The branches of `my_get_callback` by the path. -/
inductive Endpoint
  | favicon
  | root
  | dashboard (type : DashboardType)
  /-- What comes after `/persecond`. -/
  | persecond (rest : Bytes)
  | metrics
  | unknown

def endpoint (path : Bytes) : Endpoint :=
  if path = ascii "/favicon.ico" then .favicon
  else if path = ascii "/" then .root
  else if path = ascii "/dashboard" ∨ path = ascii "/dashboard/influxdb" then .dashboard .influxDB
  else if path = ascii "/dashboard/prometheus" then .dashboard .prometheus
  else if path = ascii "/dashboard/prometheus/default" then .dashboard .prometheusDefault
  else if ascii "/persecond" <+: path then .persecond (path.drop 10)
  else if path = ascii "/metrics" then .metrics
  else .unknown

/-! ## The callback -/

/-- `favicon_ico` (`favicon.ico.h`) -/
def favicon_ico : Bytes :=
  [0x00, 0x00, 0x01, 0x00, 0x01, 0x00, 0x10, 0x10, 0x02, 0x00, 0x01, 0x00, 0x01, 0x00, 0xb0, 0x00, 0x00,
    0x00, 0x16, 0x00, 0x00, 0x00, 0x28, 0x00, 0x00, 0x00, 0x10, 0x00, 0x00, 0x00, 0x20, 0x00, 0x00,
    0x00, 0x01, 0x00, 0x01, 0x00, 0x00, 0x00, 0x00, 0x00, 0x40, 0x00, 0x00, 0x00, 0x00, 0x00, 0x00,
    0x00, 0x00, 0x00, 0x00, 0x00, 0x02, 0x00, 0x00, 0x00, 0x02, 0x00, 0x00, 0x00, 0x00, 0x00, 0x00,
    0x00, 0xff, 0xff, 0xff, 0x00, 0xff, 0xff, 0x00, 0x00, 0x7e, 0x6e, 0x00, 0x00, 0x7d, 0xae, 0x00,
    0x00, 0x7d, 0xae, 0x00, 0x00, 0x7d, 0xee, 0x00, 0x00, 0x7d, 0xee, 0x00, 0x00, 0x7d, 0xee, 0x00,
    0x00, 0x7d, 0xee, 0x00, 0x00, 0x0d, 0xee, 0x00, 0x00, 0x75, 0xea, 0x00, 0x00, 0x75, 0xea, 0x00,
    0x00, 0x75, 0xea, 0x00, 0x00, 0x75, 0xa4, 0x00, 0x00, 0x75, 0xa4, 0x00, 0x00, 0x0e, 0x6e, 0x00,
    0x00, 0xff, 0xff, 0x00, 0x00, 0x00, 0x00, 0x00, 0x00, 0x00, 0x00, 0x00, 0x00, 0x00, 0x00, 0x00,
    0x00, 0x00, 0x00, 0x00, 0x00, 0x00, 0x00, 0x00, 0x00, 0x00, 0x00, 0x00, 0x00, 0x00, 0x00, 0x00,
    0x00, 0x00, 0x00, 0x00, 0x00, 0x00, 0x00, 0x00, 0x00, 0x00, 0x00, 0x00, 0x00, 0x00, 0x00, 0x00,
    0x00, 0x00, 0x00, 0x00, 0x00, 0x00, 0x00, 0x00, 0x00, 0x00, 0x00, 0x00, 0x00, 0x00, 0x00, 0x00,
    0x00, 0x00, 0x00, 0x00, 0x00, 0x00]

/-- One less than there are. -/
def favicon_ico_len : Nat := 198

/-- What the callback has at hand while it answers: the history when the loop of `getAggregators` is
left, the pair of `getNullAndCurrentAggregator`, the topology with what the counter functions make of a
pair for either printer, and what the dashboard is made for. -/
structure Site (α : Type) where
  agVector : List α
  null : α
  current : α
  systemTopology : Topology.SystemRoot
  readings : α × α → JsonPrinter.Readings
  counters : α × α → Prometheus.Machine
  dashboard : Dashboard.Machine
  now : CalendarTime

/-- The text of a `JSONPrinter` after the topology has been dispatched. -/
def jsonText (readings : JsonPrinter.Readings) (topology : Topology.SystemRoot) :
    Except StdException Bytes := do
  let ((), jp) ← JsonPrinter.dispatchSystemRoot readings topology JsonPrinter.JSONPrinter.fresh
  return jp.ss.content

/-- The text of a `PrometheusPrinter` after that; its stack is never popped when it is empty. -/
def prometheusText (counters : Prometheus.Machine) (topology : Topology.SystemRoot) : Bytes :=
  match Prometheus.dispatchSystemRoot counters topology {} with
  | some ((), pp) => pp.str
  | none => []

/-- The page at `/` (`pcm-sensor-server.cpp:3877-3900`). -/
def indexHtml : Bytes :=
  ascii "<!DOCTYPE html>\n" ++ ascii (
    "<html lang=\"en\">\n" ++
    "  <head>\n" ++
    "    <title>PCM Sensor Server</title>\n" ++
    "  </head>\n" ++
    "  <body>\n" ++
    "    <h1>PCM Sensor Server</h1>\n" ++
    "    <p>PCM Sensor Server provides performance counter data through an HTTP interface. By " ++
    "default this text is served when requesting the endpoint \"/\".</p>\n" ++
    "    <p>The endpoints for retrieving counter data, /, /persecond and /persecond/X, support " ++
    "returning data in JSON or prometheus format. For JSON have your client send the HTTP " ++
    "header \"Accept: application/json\" and for prometheus \"Accept: text/plain; " ++
    "version=0.0.4\" along with the request, PCM Sensor Server will then return the counter " ++
    "data in the requested format.</p>\n" ++
    "    <p>Endpoints you can call are:</p>\n" ++
    "    <ul>\n" ++
    "      <li>/ : This will fetch the counter values since start of the daemon, minus " ++
    "overflow so should be considered absolute numbers and should be used for further " ++
    "processing by yourself.</li>\n" ++
    "      <li>/persecond : This will fetch data from the internal sample thread which samples " ++
    "every second and returns the difference between the last 2 samples.</li>\n" ++
    "      <li>/persecond/X : This will fetch data from the internal sample thread which " ++
    "samples every second and returns the difference between the last 2 samples which are X " ++
    "seconds apart. X can be at most 30 seconds without changing the source code.</li>\n" ++
    "      <li>/metrics : The Prometheus server does not send an Accept header to decide what " ++
    "format to return so it got its own endpoint that will always return data in the " ++
    "Prometheus format. pcm-sensor-server is sending the header \"Content-Type: text/plain; " ++
    "version=0.0.4\" as required. This /metrics endpoints mimics the same behavior as / and " ++
    "data is thus absolute, not relative.</li>\n" ++
    "      <li>/dashboard/influxdb : This will return JSON for a Grafana dashboard with " ++
    "InfluxDB backend that holds all counters. Please see the documentation for more " ++
    "information.</li>\n" ++
    "      <li>/dashboard/prometheus : This will return JSON for a Grafana dashboard with " ++
    "Prometheus backend that holds all counters. Please see the documentation for more " ++
    "information.</li>\n" ++
    "      <li>/dashboard/prometheus/default : Same as /dashboard/prometheus but tuned for " ++
    "existing installations with default Prometheus scrape period of 15 seconds and the rate " ++
    "of 1 minute in Grafana. Please see the documentation for more information.</li>\n" ++
    "      <li>/dashboard : same as /dashboard/influxdb </li>\n" ++
    "      <li>/favicon.ico : This will return a small favicon.ico as requested by many " ++
    "browsers.</li>\n" ++
    "    </ul>\n" ++
    "  </body>\n" ++
    "</html>\n")

/-- A call of the callback may stay in the loop of `getAggregators`. -/
inductive Handled
  | sleeps
  | returned (result : Except StdException HTTPResponse)

section Callback

variable {α : Type} (site : Site α)

/-- The `switch` at the end. -/
def printAggregators (format : OutputFormat) (req : HTTPRequest) (resp : HTTPResponse)
    (aggregatorPair : α × α) : Handled :=
  match format with
  | .json => .returned (do
      let body ← jsonText (site.readings aggregatorPair) site.systemTopology
      resp.createResponse "application/json" body 200)
  | .prometheus_0_0_4 => .returned (resp.createResponse "text/plain; version=0.0.4"
      (prometheusText (site.counters aggregatorPair) site.systemTopology) 200)
  | .html => .returned (resp.createResponse "text/plain"
      (ascii "406 Not Acceptable. Server can only serve \"" ++ req.url.path ++ ascii
        "\" as application/json or \"text/plain; version=0.0.4\" (prometheus format).") 406)

/-- `my_get_callback` -/
def my_get_callback (req : HTTPRequest) (resp : HTTPResponse) : Handled :=
  let mt := acceptedMimeType req
  let format := mimeTypeToOutputFormat mt
  match endpoint req.url.path with
  | .favicon => .returned
      (resp.createResponse "image/x-icon" (favicon_ico.take favicon_ico_len) 200)
  | .root =>
      if mt ≠ .applicationJSON ∧ mt ≠ .textPlainProm_0_0_4 then
        .returned (resp.createResponse "text/html" indexHtml 200)
      else printAggregators site format req resp (site.null, site.current)
  | .dashboard type =>
      .returned (resp.createResponse "application/json"
        (Dashboard.getPCMDashboardJSON site.dashboard type (-1) (-1) (-1)) 200)
  | .persecond rest =>
      match persecond rest with
      | .samples index =>
          match getAggregators site.agVector index 0 with
          | .bug what => .returned (invalidRequest what)
          | .sleeps => .sleeps
          | .pair first second => printAggregators site format req resp (first, second)
      | .badRequest body => .returned (resp.createResponse "text/plain" (ascii body) 400)
      | .notFound body => .returned (resp.createResponse "text/plain" (ascii body) 404)
  | .metrics => printAggregators site .prometheus_0_0_4 req resp (site.null, site.current)
  | .unknown => .returned (resp.createResponse "text/plain" (ascii "404 Unknown path.") 404)

/-- Whether the answer to a request stays away. -/
def asleep : Incoming → Bool
  | .error _ => false
  | .ok request =>
      conforms request && decide (request.method = .get ∨ request.method = .head) &&
        match my_get_callback site request { protocol := request.protocol } with
        | .sleeps => true
        | .returned _ => false

/-- The callbacks of `startHTTPServer` (`pcm-sensor-server.cpp:4003-4010`), for requests whose answers do
not stay away. -/
def Site.server : Server where
  callbackList := fun method =>
    if method = .get ∨ method = .head then
      some fun req resp =>
        match my_get_callback site req resp with
        | .returned result => result
        | .sleeps => invalidRequest "asleep"
    else none
  date := fun _ => site.now.toText

end Callback

/-! ## Headers that the server makes -/

/-- A value that a header line can have. -/
structure Printable (value : Bytes) : Prop where
  trimmed : Trimmed value
  line : 10 ∉ value
  quoted : value.count 34 % 2 = 0

theorem printable_of_ends {value : Bytes} {first last : UInt8} (head : value.head? = some first)
    (back : value.getLast? = some last) (solid : isspace first = false ∧ isspace last = false)
    (line : 10 ∉ value) (quoted : value.count 34 % 2 = 0) : Printable value where
  trimmed := by
    constructor
    · intro c here
      rw [head] at here
      rw [← Option.some.inj here]
      exact solid.1
    · intro c here
      rw [back] at here
      rw [← Option.some.inj here]
      exact solid.2
  line := line
  quoted := quoted

theorem printable_decimal (n : Nat) : Printable (decimal n) := by
  have digit : ∀ c ∈ decimal n, isdigit c = true := fun _ member => isdigit_of_mem_decimal member
  have other : ∀ c, isdigit c = false → c ∉ decimal n := by
    intro c noDigit member
    rw [digit c member] at noDigit
    cases noDigit
  refine ⟨⟨?_, ?_⟩, other 10 (by decide), ?_⟩
  · intro c first
    exact not_isspace_of_isdigit (digit c (List.mem_of_mem_head? first))
  · intro c last
    exact not_isspace_of_isdigit (digit c (List.mem_of_getLast? last))
  · rw [List.count_eq_zero.mpr (other 34 (by decide))]

/-! ### The date -/

/-- Neither the end of a line nor a quote. -/
def Unquoted (text : Bytes) : Prop := 10 ∉ text ∧ 34 ∉ text

theorem Unquoted.append {s t : Bytes} (first : Unquoted s) (second : Unquoted t) : Unquoted (s ++ t) := by
  simp only [Unquoted, List.mem_append, not_or] at *
  exact ⟨⟨first.1, second.1⟩, first.2, second.2⟩

theorem unquoted_twoDigits {n : Nat} (bound : n < 100) : Unquoted (twoDigits n) := by
  have digits : ∀ n < 100, 10 ∉ twoDigits n ∧ 34 ∉ twoDigits n := by decide
  exact digits n bound

theorem unquoted_decimal (n : Nat) : Unquoted (decimal n) :=
  ⟨(printable_decimal n).line, fun member => absurd (isdigit_of_mem_decimal member) (by decide)⟩

theorem printable_toText (t : CalendarTime) : Printable t.toText := by
  have names : (∀ day, Unquoted (ascii (weekdays.get day))) ∧ ∀ month, Unquoted (ascii (months.get month)) := by
    simp only [Unquoted]
    decide
  have literals : Unquoted (ascii ", ") ∧ Unquoted (ascii " ") ∧ Unquoted (ascii ":") ∧
      Unquoted (ascii " GMT") := by
    simp only [Unquoted]
    decide
  obtain ⟨comma, blank, colon, zone⟩ := literals
  have plain : Unquoted t.toText := by
    have day := unquoted_twoDigits (show (t.monthDay : Nat) < 100 by omega)
    have hour := unquoted_twoDigits (show (t.hour : Nat) < 100 by omega)
    have minute := unquoted_twoDigits (show (t.minute : Nat) < 100 by omega)
    have second := unquoted_twoDigits (show (t.second : Nat) < 100 by omega)
    exact ((((((((((((((names.1 t.weekday).append comma).append day).append blank).append
      (names.2 t.month)).append blank).append (unquoted_decimal t.year)).append blank).append
      hour).append colon).append minute).append colon).append second).append zone)
  have first : ∃ c, t.toText.head? = some c ∧ isspace c = false := by
    have start : ∀ day, ∃ c, (ascii (weekdays.get day)).head? = some c ∧ isspace c = false := by decide
    obtain ⟨c, head, solid⟩ := start t.weekday
    refine ⟨c, ?_, solid⟩
    simp [CalendarTime.toText, head]
  obtain ⟨c, head, solid⟩ := first
  have last : t.toText.getLast? = some 84 := by
    rw [CalendarTime.toText, List.getLast?_append_of_ne_nil _ (by decide)]
    decide
  apply printable_of_ends head last ⟨solid, by decide⟩ plain.1
  rw [List.count_eq_zero.mpr plain.2]

/-! ### Responses made of such headers -/

/-- A header that the server sets. -/
def entry (name : String) (value : Bytes) : Bytes × HTTPHeader := (ascii name, .serverSet (ascii name) value)

def serverNames : List String :=
  ["Keep-Alive", "Connection", "Date", "Server", "Content-Length", "Content-Type"]

theorem serverNames_solid : ∀ name ∈ serverNames,
    (∀ c ∈ ascii name, isspace c = false ∧ c ≠ 58) ∧ (ascii name).length < 2 ^ 63 := by
  decide +kernel

/-- The codes of the callback and of the loop around it, and that of the interim response. -/
def codes : List Nat := [100, 200, 400, 404, 406, 501]

theorem codes_known : ∀ code ∈ codes, ∃ entry ∈ responseMap, entry.1 = code := by
  decide +kernel

theorem sendable_of_entries {response : HTTPResponse} {entries : List (String × Bytes)}
    (code : response.responseCode ∈ codes)
    (headers : response.headers = entries.map fun e => entry e.1 e.2)
    (names : ∀ e ∈ entries, e.1 ∈ serverNames)
    (unique : (entries.map fun e => ascii e.1).Nodup)
    (printable : ∀ e ∈ entries, Printable (sentValue (ascii e.1) e.2)) : Sendable response where
  code := by
    obtain ⟨⟨number, reason⟩, known, same⟩ := codes_known _ code
    exact ⟨reason, same ▸ known⟩
  field := by
    rw [headers]
    intro sent member
    obtain ⟨e, inside, rfl⟩ := List.mem_map.mp member
    obtain ⟨solid, fits⟩ := serverNames_solid e.1 (names e inside)
    exact ⟨solid, (printable e inside).trimmed, (printable e inside).line, fits⟩
  quoted := by
    rw [headers]
    intro sent member
    obtain ⟨e, inside, rfl⟩ := List.mem_map.mp member
    exact (printable e inside).quoted
  unique := by
    rw [headers, List.map_map]
    exact unique

/-- `mimeTypeMap` (`pcm-sensor-server.cpp:2331-2338`), the types that are answered with. -/
def mimeTypes : List String :=
  ["text/html", "text/plain", "text/plain; version=0.0.4", "image/x-icon", "application/json"]

theorem printable_mimeType {mimeType : String} (known : mimeType ∈ mimeTypes) :
    Printable (sentValue (ascii "Content-Type") (ascii mimeType)) := by
  have all : ∀ mimeType ∈ mimeTypes,
      (∃ c, (sentValue (ascii "Content-Type") (ascii mimeType)).head? = some c ∧ isspace c = false) ∧
      (sentValue (ascii "Content-Type") (ascii mimeType)).getLast? = some 56 ∧
      10 ∉ sentValue (ascii "Content-Type") (ascii mimeType) ∧
      (sentValue (ascii "Content-Type") (ascii mimeType)).count 34 % 2 = 0 := by
    decide +kernel
  obtain ⟨⟨c, head, solid⟩, last, line, quoted⟩ := all mimeType known
  exact printable_of_ends head last ⟨solid, by decide⟩ line quoted

/-- A response with these headers. -/
def withEntries (response : HTTPResponse) (entries : List (String × Bytes)) : HTTPResponse :=
  { response with headers := entries.map fun e => entry e.1 e.2 }

def contentEntries (mimeType : String) (length : Nat) : List (String × Bytes) :=
  [("Content-Length", decimal length), ("Content-Type", ascii mimeType)]

/-- What `createResponse` makes of a response without headers. -/
def created (protocol : HTTPProtocol) (mimeType : String) (body : Bytes) (rc : Nat) : HTTPResponse :=
  withEntries { protocol := protocol, responseCode := rc, body := body } (contentEntries mimeType body.length)

theorem createResponse_eq (protocol : HTTPProtocol) (mimeType : String) (body : Bytes) (rc : Nat) :
    HTTPResponse.createResponse { protocol := protocol } mimeType body rc =
      .ok (created protocol mimeType body rc) := by
  have apart : ¬ ascii "Content-Type" = ascii "Content-Length" := by decide
  have length : ascii (toString body.length) = decimal body.length := ascii_toString body.length
  simp [HTTPResponse.createResponse, HTTPResponse.addHeader, Headers.add, created, withEntries, contentEntries,
    entry, HTTPHeader.serverSet, apart, Bind.bind, Except.bind, pure, Except.pure]
  exact length

/-- A response as the callback gives it. -/
structure Answer (protocol : HTTPProtocol) (response : HTTPResponse) : Prop where
  made : ∃ mimeType body rc, mimeType ∈ mimeTypes ∧ body ≠ [] ∧ rc ∈ codes ∧
    response = created protocol mimeType body rc

/-- The JSON printer never throws, and prints a document. -/
theorem jsonText_ok (readings : JsonPrinter.Readings) (topology : Topology.SystemRoot) :
    ∃ body, jsonText readings topology = .ok body ∧ body ≠ [] := by
  obtain ⟨jp, ran, document, -⟩ := JsonPrinter.dispatchSystemRoot_document readings topology
  refine ⟨jp.ss.content, ?_, ?_⟩
  · rw [jsonText, ran]
    rfl
  · obtain ⟨before, inner, after, text, -, object, -⟩ := document
    cases object with
    | object separated =>
        rw [text]
        exact List.append_ne_nil_of_right_ne_nil _ (List.append_ne_nil_of_left_ne_nil (List.cons_ne_nil _ _) _)

/-- The Prometheus printer prints the interval at least. -/
theorem prometheusText_ne_nil (counters : Prometheus.Machine) (topology : Topology.SystemRoot) :
    prometheusText counters topology ≠ [] := by
  obtain ⟨added, ran, related⟩ := Prometheus.emits_system counters topology {}
  rw [prometheusText, ran]
  cases added with
  | nil => cases related
  | cons line added =>
      change line.text ++ added.flatMap Prometheus.Line.text ≠ []
      refine List.append_ne_nil_of_left_ne_nil ?_ _
      cases line <;> simp [Prometheus.Line.text]

theorem getPCMDashboardJSON_ne_nil (m : Dashboard.Machine) (type : DashboardType) :
    Dashboard.getPCMDashboardJSON m type (-1) (-1) (-1) ≠ [] := by
  have front : Dashboard.dashboardFront ≠ [] := by
    rw [Dashboard.dashboardFront, Json.ascii_ofList, List.map_cons]
    exact List.cons_ne_nil _ _
  rw [Dashboard.getPCMDashboardJSON, Dashboard.dashboard]
  exact List.append_ne_nil_of_left_ne_nil front _

/-- A refusal of `/persecond` says why. -/
theorem persecond_refusal {rest : Bytes} {body : String}
    (refused : persecond rest = .badRequest body ∨ persecond rest = .notFound body) : ascii body ≠ [] := by
  have reasons : body ∈ [
      "400 Bad Request. seconds equals 0 or seconds larger than 30 is not allowed",
      "400 Bad Request Request starts with /persecond/ but is not followed by numbers only.",
      "404 Bad Request. Request starts with /persecond but contains bad characters."] := by
    simp only [persecond, SampleHistory.persecondSeconds] at refused
    grind
  have texts : ∀ body ∈ [
      "400 Bad Request. seconds equals 0 or seconds larger than 30 is not allowed",
      "400 Bad Request Request starts with /persecond/ but is not followed by numbers only.",
      "404 Bad Request. Request starts with /persecond but contains bad characters."], ascii body ≠ [] := by
    decide
  exact texts body reasons

section Callback

variable {α : Type} {site : Site α} {req : HTTPRequest} {protocol : HTTPProtocol}
  {result : Except StdException HTTPResponse}

theorem answer_created (protocol : HTTPProtocol) {mimeType : String} {body : Bytes} {rc : Nat}
    (known : mimeType ∈ mimeTypes) (some : body ≠ []) (code : rc ∈ codes)
    (made : HTTPResponse.createResponse { protocol := protocol } mimeType body rc = result) :
    ∃ response, result = .ok response ∧ Answer protocol response := by
  rw [createResponse_eq] at made
  exact ⟨_, made.symm, ⟨mimeType, body, rc, known, some, code, rfl⟩⟩

theorem printAggregators_answer {format : OutputFormat} {pair : α × α}
    (returned : printAggregators site format req { protocol := protocol } pair = .returned result) :
    ∃ response, result = .ok response ∧ Answer protocol response := by
  cases format with
  | json =>
      obtain ⟨body, printed, some⟩ := jsonText_ok (site.readings pair) site.systemTopology
      have made := Handled.returned.inj returned
      rw [printed] at made
      exact answer_created protocol (by decide) some (by decide) made
  | prometheus_0_0_4 =>
      exact answer_created protocol (by decide) (prometheusText_ne_nil _ _) (by decide)
        (Handled.returned.inj returned)
  | html =>
      refine answer_created protocol (by decide) ?_ (by decide) (Handled.returned.inj returned)
      exact List.append_ne_nil_of_right_ne_nil _ (by decide)

/-- The callback never throws, and its response has a body. -/
theorem my_get_callback_answer
    (returned : my_get_callback site req { protocol := protocol } = .returned result) :
    ∃ response, result = .ok response ∧ Answer protocol response := by
  unfold my_get_callback at returned
  cases which : endpoint req.url.path with
  | favicon =>
      rw [which] at returned
      exact answer_created protocol (by decide) (by decide) (by decide)
        (Handled.returned.inj returned)
  | root =>
      simp only [which] at returned
      split at returned
      · refine answer_created protocol (by decide) ?_ (by decide) (Handled.returned.inj returned)
        exact List.append_ne_nil_of_left_ne_nil (by decide) _
      · exact printAggregators_answer returned
  | dashboard type =>
      rw [which] at returned
      exact answer_created protocol (by decide) (getPCMDashboardJSON_ne_nil _ _) (by decide)
        (Handled.returned.inj returned)
  | persecond rest =>
      simp only [which] at returned
      cases asked : persecond rest with
      | samples index =>
          simp only [asked] at returned
          have positive := (SampleHistory.persecond_bounds asked).1
          cases pair : getAggregators site.agVector index 0 with
          | bug what =>
              exfalso
              unfold getAggregators at pair
              rw [if_neg (by omega)] at pair
              split at pair
              · cases pair
              · split at pair <;> cases pair
          | sleeps =>
              rw [pair] at returned
              cases returned
          | pair first second =>
              rw [pair] at returned
              exact printAggregators_answer returned
      | badRequest body =>
          simp only [asked] at returned
          exact answer_created protocol (by decide) (persecond_refusal (Or.inl asked)) (by decide)
            (Handled.returned.inj returned)
      | notFound body =>
          simp only [asked] at returned
          exact answer_created protocol (by decide) (persecond_refusal (Or.inr asked)) (by decide)
            (Handled.returned.inj returned)
  | metrics =>
      rw [which] at returned
      exact printAggregators_answer returned
  | unknown =>
      rw [which] at returned
      exact answer_created protocol (by decide) (by decide) (by decide) (Handled.returned.inj returned)

/-- What the loop does for a method: its callback, or 501. -/
theorem process_answer (conform : conforms req = true) (awake : asleep site (.ok req) = false) :
    ∃ response, process site.server req { protocol := req.protocol } = .ok response ∧
      Answer req.protocol response := by
  by_cases handled : req.method = .get ∨ req.method = .head
  · simp only [asleep, conform, decide_eq_true handled, Bool.and_true, Bool.true_and] at awake
    cases called : my_get_callback site req { protocol := req.protocol } with
    | sleeps =>
        rw [called] at awake
        cases awake
    | returned result =>
        obtain ⟨response, ok, answer⟩ := my_get_callback_answer called
        refine ⟨response, ?_, answer⟩
        simp only [process, Site.server, if_pos handled, called]
        exact ok
  · simp only [process, Site.server, if_neg handled]
    refine answer_created req.protocol (by decide) ?_ (by decide) rfl
    exact List.append_ne_nil_of_right_ne_nil _ (by decide)

/-! ### The headers of the loop -/

/-- What `connectionHeaders` adds. -/
def connectionEntries (numRequests : Nat) (request : HTTPRequest) : List (String × Bytes) :=
  if numRequests < requestLimit then
    if asksKeepAlive request then
      [("Keep-Alive", ascii "timeout=10, max=100"), ("Connection", ascii "keep-alive")]
    else []
  else [("Connection", ascii "close")]

def answerEntries (site : Site α) (numRequests : Nat) (request : HTTPRequest) (mimeType : String)
    (length : Nat) : List (String × Bytes) :=
  connectionEntries numRequests request ++
    ("Date", site.now.toText) :: ("Server", ascii "PCMWebServer 0.1") :: contentEntries mimeType length

theorem addHeader_entries {response : HTTPResponse} {entries : List (String × Bytes)} {name : String}
    (apart : ascii name ∉ entries.map fun e => ascii e.1) (value : Bytes) :
    (withEntries response entries).addHeader name value =
      .ok (withEntries response ((name, value) :: entries)) := by
  have absent : ¬ ((withEntries response entries).headers.any (·.1 = ascii name)) = true := by
    intro known
    obtain ⟨sent, member, same⟩ := List.any_eq_true.mp known
    obtain ⟨e, inside, rfl⟩ := List.mem_map.mp member
    exact apart (List.mem_map.mpr ⟨e, inside, of_decide_eq_true same⟩)
  have added : (withEntries response entries).headers.add (.serverSet (ascii name) value) =
      .ok (entry name value :: (withEntries response entries).headers) := if_neg absent
  rw [HTTPResponse.addHeader, added]
  rfl

theorem connectionHeaders_entries {response : HTTPResponse} {entries : List (String × Bytes)}
    (connection : ascii "Connection" ∉ entries.map fun e => ascii e.1)
    (keepAlive : ascii "Keep-Alive" ∉ entries.map fun e => ascii e.1) (numRequests : Nat) :
    connectionHeaders numRequests req (withEntries response entries) =
      .ok (withEntries response (connectionEntries numRequests req ++ entries)) := by
  simp only [connectionHeaders, connectionEntries]
  split
  · split
    · rw [addHeader_entries connection]
      apply addHeader_entries
      rw [List.map_cons, List.mem_cons, not_or]
      exact ⟨by decide, keepAlive⟩
    · rfl
  · exact addHeader_entries connection _

theorem answer_eq {numRequests : Nat} {mimeType : String} {body : Bytes} {rc : Nat}
    (processed : process site.server req { protocol := req.protocol } =
      .ok (created req.protocol mimeType body rc)) :
    answer site.server numRequests req = .ok
      (withEntries
        { protocol := req.protocol, responseCode := rc, body := if req.method = .head then [] else body }
        (answerEntries site numRequests req mimeType body.length)) := by
  let start : HTTPResponse := { protocol := req.protocol, responseCode := rc, body := body }
  let content := contentEntries mimeType body.length
  have server : (withEntries start content).addHeader "Server" (ascii "PCMWebServer 0.1") =
      .ok (withEntries start (("Server", ascii "PCMWebServer 0.1") :: content)) := by
    apply addHeader_entries
    change _ ∉ [ascii "Content-Length", ascii "Content-Type"]
    decide
  have date : (withEntries start (("Server", ascii "PCMWebServer 0.1") :: content)).addHeader "Date"
      (site.server.date numRequests) =
      .ok (withEntries start
        (("Date", site.now.toText) :: ("Server", ascii "PCMWebServer 0.1") :: content)) := by
    apply addHeader_entries
    change _ ∉ [ascii "Server", ascii "Content-Length", ascii "Content-Type"]
    decide
  have connection : connectionHeaders numRequests req (withEntries start
      (("Date", site.now.toText) :: ("Server", ascii "PCMWebServer 0.1") :: content)) =
      .ok (withEntries start (answerEntries site numRequests req mimeType body.length)) := by
    apply connectionHeaders_entries
    · change _ ∉ [ascii "Date", ascii "Server", ascii "Content-Length", ascii "Content-Type"]
      decide
    · change _ ∉ [ascii "Date", ascii "Server", ascii "Content-Length", ascii "Content-Type"]
      decide
  have base : created req.protocol mimeType body rc = withEntries start content := rfl
  simp only [answer, processed, base, Bind.bind, Except.bind, server, date, connection]
  split <;> rfl

theorem answerEntries_names (numRequests : Nat) (mimeType : String) (length : Nat) :
    (answerEntries site numRequests req mimeType length).map Prod.fst ∈
      [["Date", "Server", "Content-Length", "Content-Type"],
        ["Connection", "Date", "Server", "Content-Length", "Content-Type"],
        ["Keep-Alive", "Connection", "Date", "Server", "Content-Length", "Content-Type"]] := by
  simp only [answerEntries, connectionEntries, contentEntries]
  split
  · split
    · exact List.mem_cons_of_mem _ (List.mem_cons_of_mem _ List.mem_cons_self)
    · exact List.mem_cons_self
  · exact List.mem_cons_of_mem _ List.mem_cons_self

/-- The headers with a value of their own that the loop sets. -/
theorem printable_constant {name value : String}
    (constant : (name, value) ∈ [("Keep-Alive", "timeout=10, max=100"), ("Connection", "keep-alive"),
      ("Connection", "close"), ("Server", "PCMWebServer 0.1")]) :
    Printable (sentValue (ascii name) (ascii value)) := by
  have all : ∀ e ∈ [("Keep-Alive", "timeout=10, max=100"), ("Connection", "keep-alive"),
      ("Connection", "close"), ("Server", "PCMWebServer 0.1")],
      (∃ c, (sentValue (ascii e.1) (ascii e.2)).head? = some c ∧ isspace c = false) ∧
      (∃ c, (sentValue (ascii e.1) (ascii e.2)).getLast? = some c ∧ isspace c = false) ∧
      10 ∉ sentValue (ascii e.1) (ascii e.2) ∧ (sentValue (ascii e.1) (ascii e.2)).count 34 % 2 = 0 := by
    decide +kernel
  obtain ⟨⟨c, head, solid⟩, ⟨d, last, solidLast⟩, line, quoted⟩ := all _ constant
  exact printable_of_ends head last ⟨solid, solidLast⟩ line quoted

theorem printable_contentEntries {mimeType : String} (known : mimeType ∈ mimeTypes) (length : Nat) :
    ∀ e ∈ contentEntries mimeType length, Printable (sentValue (ascii e.1) e.2) := by
  rw [contentEntries, List.forall_mem_cons, List.forall_mem_singleton]
  refine ⟨?_, printable_mimeType known⟩
  have plain : sentValue (ascii "Content-Length") (decimal length) = decimal length := if_neg (by decide)
  rw [plain]
  exact printable_decimal length

theorem printable_answerEntries (numRequests : Nat) {mimeType : String} (known : mimeType ∈ mimeTypes)
    (length : Nat) :
    ∀ e ∈ answerEntries site numRequests req mimeType length, Printable (sentValue (ascii e.1) e.2) := by
  have always : ∀ e ∈ ("Date", site.now.toText) :: ("Server", ascii "PCMWebServer 0.1") ::
      contentEntries mimeType length, Printable (sentValue (ascii e.1) e.2) := by
    rw [List.forall_mem_cons, List.forall_mem_cons]
    refine ⟨?_, printable_constant (by decide), printable_contentEntries known length⟩
    have plain : sentValue (ascii "Date") site.now.toText = site.now.toText := if_neg (by decide)
    rw [plain]
    exact printable_toText site.now
  simp only [answerEntries, connectionEntries]
  split
  · split
    · rw [List.cons_append, List.forall_mem_cons, List.cons_append, List.forall_mem_cons]
      exact ⟨printable_constant (by decide), printable_constant (by decide), always⟩
    · exact always
  · rw [List.cons_append, List.forall_mem_cons]
    exact ⟨printable_constant (by decide), always⟩

theorem mem_contentLength {response : HTTPResponse} {entries : List (String × Bytes)} {length : Nat}
    (member : ("Content-Length", decimal length) ∈ entries) :
    (ascii "Content-Length", HTTPHeader.serverSet (ascii "Content-Length") (decimal length)) ∈
      (withEntries response entries).headers :=
  List.mem_map.mpr ⟨_, member, rfl⟩

/-- The answer to a request is never an exception, a client can read it, and its length is announced if
it has a body. -/
theorem answer_readable (numRequests : Nat) (conform : conforms req = true)
    (awake : asleep site (.ok req) = false) :
    ∃ response, answer site.server numRequests req = .ok response ∧ Sendable response ∧
      ∀ maxSize < 2 ^ 63, response.body.length ≤ maxSize →
        Framed maxSize response (decide (req.method ≠ .head)) := by
  obtain ⟨-, processed, mimeType, body, rc, known, some, code, rfl⟩ := process_answer conform awake
  have names := @answerEntries_names _ site req numRequests mimeType body.length
  refine ⟨_, answer_eq processed, ?_, ?_⟩
  · have unique : ∀ names ∈ [["Date", "Server", "Content-Length", "Content-Type"],
        ["Connection", "Date", "Server", "Content-Length", "Content-Type"],
        ["Keep-Alive", "Connection", "Date", "Server", "Content-Length", "Content-Type"]],
        (∀ name ∈ names, name ∈ serverNames) ∧ (names.map ascii).Nodup := by
      decide
    obtain ⟨listed, apart⟩ := unique _ names
    refine sendable_of_entries code rfl ?_ ?_ (printable_answerEntries numRequests known body.length)
    · intro e member
      exact listed e.1 (List.mem_map.mpr ⟨e, member, rfl⟩)
    · rw [List.map_map] at apart
      exact apart
  · intro maxSize limit fits
    by_cases head : req.method = .head
    · rw [decide_eq_false (not_not.mpr head)]
      exact .bodiless (if_pos head)
    · rw [decide_eq_true head]
      have whole : (if req.method = .head then [] else body) = body := if_neg head
      have member : ("Content-Length", decimal body.length) ∈
          answerEntries site numRequests req mimeType body.length := by
        simp [answerEntries, contentEntries]
      simp only [whole] at fits ⊢
      exact .announced some fits (Nat.lt_of_le_of_lt fits limit) (mem_contentLength member) rfl

end Callback

end Pcm.Http

import TeamAccess.Http.Answer
import TeamAccess.Json.Parser

/-! # The server

A server keeps the settings, the store and the supply of API keys. At startup it creates the tables,
unless it is a productive one, and what it needs to administer itself. A request is read, passes the
gate, is checked and is answered, in this order, in a session of its own.
-/

namespace TeamAccess.Http

open TeamAccess.Action

/-- A server that runs. -/
structure Server where
  settings : Settings
  store : Store
  keys : KeySupply

/-- A response, with the events that were recorded while the request was served, and the failure
that nothing else took care of. -/
structure Exchange where
  response : Response
  events : List Event
  context : List (String × Json)
  crash : Option Failure

/-- What comes of an attempt to start a server. -/
structure Startup where
  outcome : Except Failure Server
  events : List Event

namespace Server

/-- The store that a server finds at startup: productive servers create no tables. -/
def prepare (settings : Settings) (store : Store) : Store :=
  if settings.env = .prod then store else store.createTables

/-- Starts a server on a store. -/
def start (settings : Settings) (store : Store) (keys : KeySupply) : Startup :=
  let begun := Event.startup settings.env.text
  match Bootstrap.ensure settings.bootstrapAdmin (Session.start (prepare settings store)) with
  | .ok _ session => ⟨.ok ⟨settings, session.durable, keys⟩, begun :: session.events⟩
  | .error failure session => ⟨.error failure, begun :: session.events ++ [.shutdown]⟩

/-- The answer to a request that holds something wrong. -/
def complain (complaints : List Complaint) : Reply :=
  let place : Place → Json
    | .name s => .str s
    | .index n => .int n
  ⟨422, .obj [("detail", .arr (complaints.map fun c =>
    .obj [("type", .str c.defect.code), ("loc", .arr (c.path.map place))]))]⟩

/-- The body of a request, or the answer to one that cannot be read. -/
def readPayload (request : Request) : Except Reply Payload :=
  if request.body.isEmpty then .ok .absent
  else if !request.declaresJson then .ok .raw
  else
    match Json.parseBytes request.body with
    | .ok j => .ok (.json j)
    | .error (.parse ⟨.tooManyDigits _, _, _, _⟩) | .error (.encoding _) =>
      .error ⟨400, .obj [("detail", .str "There was an error parsing the body")]⟩
    | .error (.parse e) =>
      .error (complain [⟨.jsonInvalid, [.name "body", .index e.position]⟩])

/-- Serves a request to an endpoint. -/
def serve (settings : Settings) (request : Request) (endpoint : Endpoint)
    (parameters : Parameters) : Action Reply := do
  match if endpoint.takesBody then readPayload request else .ok .absent with
  | .error reply => return reply
  | .ok payload =>
    let caller ← Gate.pass settings request endpoint.access
    match Call.ofRequest endpoint parameters request payload with
    | .error complaints => return complain complaints
    | .ok call => call.answer settings request.now caller

/-- An answer that only tells what is wrong. -/
def detail (status : Nat) (text : String) : Reply := ⟨status, .obj [("detail", .str text)]⟩

/-- The answer to a request whose serving has failed, with the event to record; none for a failure
that nothing takes care of. -/
def recover : Failure → Option (Reply × List Event)
  | .refused status text => some (detail status text, [])
  | .notFound entity identifier =>
    some (detail 404 (Failure.notFound entity identifier).message, [])
  | .unavailable reason => some (detail 503 "Store unavailable", [.storeUnavailable reason])
  | _ => none

/-- The characters of an address that a redirect leaves as they are. -/
def addressMarks : List Char := ":/%#?=@[]!$&'()*+,;".toList

/-- Where a redirect to a path leads. -/
def location (request : Request) (path : List Char) : String :=
  let query := if request.query.isEmpty then [] else '?' :: request.query
  let address := "http://test".toList ++ addressPath path ++ query
  String.ofList (Text.Percent.encode addressMarks address)

/-- A response with JSON. -/
def respond (request : Request) (reply : Reply) (headers : List (String × String) := []) :
    Response :=
  ⟨reply.status, ("x-request-id", request.id) :: headers, .json reply.body⟩

/-- What every event of a request carries. -/
def context (request : Request) : List (String × Json) :=
  [("request_id", .str request.id), ("path", .str (String.ofList request.shownPath)),
    ("method", .str request.method)]

/-- The response to a request whose serving has ended. -/
def conclude (request : Request) (result : Except Failure Reply) (events : List Event) :
    Exchange :=
  match result with
  | .ok reply => ⟨respond request reply, events, context request, none⟩
  | .error failure =>
    match recover failure with
    | some (reply, more) => ⟨respond request reply, events ++ more, context request, none⟩
    | none =>
      ⟨⟨500, [], .text "Internal Server Error"⟩, events, context request, some failure⟩

/-- Handles a request to an endpoint in a session of its own. -/
def handleEndpoint (server : Server) (outage : Option Outage) (request : Request)
    (endpoint : Endpoint) (parameters : Parameters) : Exchange × Server :=
  let session := { Session.start server.store outage with keys := server.keys }
  match serve server.settings request endpoint parameters session with
  | .ok reply s =>
    (conclude request (.ok reply) s.events, { server with store := s.durable, keys := s.keys })
  | .error failure s =>
    (conclude request (.error failure) s.events, { server with store := s.durable, keys := s.keys })

/-- Handles a request. -/
def handle (server : Server) (outage : Option Outage) (request : Request) : Exchange × Server :=
  let plain (response : Response) : Exchange × Server :=
    (⟨response, [], context request, none⟩, server)
  match Route.target request.method request.path with
  | .endpoint endpoint parameters => server.handleEndpoint outage request endpoint parameters
  | .otherMethod allowed =>
    plain (respond request (detail 405 "Method Not Allowed") [("allow", allowed)])
  | .nowhere => plain (respond request (detail 404 "Not Found"))
  | .redirect path =>
    plain ⟨307, [("x-request-id", request.id), ("location", location request path)], .text ""⟩

end Server

end TeamAccess.Http

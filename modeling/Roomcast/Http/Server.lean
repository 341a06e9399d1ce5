import Roomcast.Http.Head
import Roomcast.Service
import Roomcast.Service.Error
import Roomcast.WebSocket.Reader

/-!
# The server

The server answers requests and passes the bytes of websockets to the sessions behind them. A
request whose head is refused reaches none of its parts. A request to join a room is checked in a
fixed order, and only one that passes all checks becomes a guest of the service. It is answered when
the guest has a reader of the room, so a client that gets the answer misses nothing from then on.
-/

namespace Roomcast.Http

open Peer

/-- An answer to a request. -/
structure Response where
  status : Nat
  body : Option Json.Tree
  origins : Option String

/-- The origins that may see the response to a request. All may. -/
def allowedOrigins : String := "*"

namespace Response

def json (status : Nat) (body : Json.Tree) : Response := ⟨status, some body, some allowedOrigins⟩

def bare (status : Nat) : Response := ⟨status, none, some allowedOrigins⟩

/-- The response to a request that is not served. -/
def ofError (e : ServiceError) : Response := json e.status e.body

/-- The response to a head that is refused. It says nothing about origins, because it answers no
request. -/
def ofHeadError (e : HeadError) : Response := ⟨e.status, none, none⟩

end Response

/-- The status of a request that opens a websocket. -/
def switchingProtocols : Nat := 101

/-- The status of a request for a websocket in a version of the protocol that cannot open one. -/
def upgradeRequired : Nat := 426

/-- The answer to a request, now or after a visit. -/
inductive Answer where
  | now (r : Response)
  | later (visit : Nat)

/-- A service that is reached over HTTP. -/
structure Server where
  service : Service
  pace : Pace

structure Socket where
  session : Nat
  reader : WebSocket.Reader

namespace Server

def start (hub : Hub) (connector : Option (Except SignalError Unit)) (pace : Pace) : Server :=
  ⟨.start hub connector, pace⟩

/-- The report on the state of the service. -/
def health (s : Server) : Json.Tree :=
  let registry := s.service.hub.registry
  .ofFields [("status", .ofText (if registry.down then "shuttingDown" else "ok")),
    ("rooms", .ofNat registry.size)]

/-- The guest that a request to join a room asks to become, or the answer to a request that does not
pass the checks. -/
def guest (s : Server) (r : Request) (room : String) : Except Response Service.Guest :=
  if r.method ≠ "GET" then .error (.bare 405)
  else if !r.asksUpgrade then .error (.bare 400)
  else if r.version = .oneZero then .error (.bare upgradeRequired)
  else
    match roomOfName? room, Params.ofQuery? r.query with
    | some roomId, some params =>
      if params.media && s.service.connector.isNone then
        .error (.ofError (.badRequest "Media is not available"))
      else
        .ok {
          userId := params.userId
          roomId
          link := .fresh .silence
          pace := s.pace
          media := params.media }
    | _, _ => .error (.bare 400)

/-- Answers a request. Every path may be asked what is allowed there. -/
def respond (s : Server) (r : Request) : Server × Answer :=
  if r.method = "OPTIONS" then (s, .now (.bare 200))
  else
    match r.route with
    | .unknown => (s, .now (.bare 404))
    | .health =>
      (s, .now (match r.method with
        | "GET" => .json 200 s.health
        | "HEAD" => .bare 200
        | _ => .bare 405))
    | .room name =>
      match s.guest r name with
      | .error response => (s, .now response)
      | .ok guest =>
        let (service, visit) := s.service.receive guest
        ({ s with service }, .later visit)

/-- Answers a request that arrives as the bytes of a head. -/
def answer (s : Server) (head : List UInt8) : Server × Answer :=
  match Head.parse head with
  | .error e => (s, .now (.ofHeadError e))
  | .ok r => s.respond r

/-- What a visit has led to, if that is known: a response, and a websocket if there is one. -/
def outcome? (s : Server) (visit : Nat) : Option (Response × Option Socket) :=
  match s.service.visits[visit]? with
  | some (.refused e) => some (.ofError (.ofStream e), none)
  | some (.seated session) => some (.bare switchingProtocols, some ⟨session, .start⟩)
  | _ => none

/-- Some bytes come from the client of a websocket. -/
def receive (s : Server) (socket : Socket) (bytes : List UInt8) : Server × Socket :=
  let (reader, arrivals) := socket.reader.receive bytes
  ({ s with service := arrivals.foldl (·.arrive socket.session ·) s.service },
    { socket with reader })

def lose (s : Server) (socket : Socket) : Server :=
  { s with
    service := s.service.modifySession socket.session fun session =>
      { session with
        link := session.link.lost.arrive (.failure (.receiveFailed "connection reset")) } }

end Server

end Roomcast.Http

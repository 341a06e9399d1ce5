import Roomcast.Http.Target
import Roomcast.Text.Escaped
import Roomcast.Uuid

/-!
# Requests over HTTP

What a request asks for follows from its method, its target and its headers. The path of a target
leads to a `Route`. To join a room a request has to ask for a websocket, and has to name the user in
its query.
-/

namespace Roomcast.Http

/-- The versions of the protocol. -/
inductive Version where
  | oneZero
  | oneOne
deriving DecidableEq

structure Header where
  name : String
  value : List UInt8

structure Request where
  method : String
  target : Target
  version : Version
  headers : List Header

/-- Where a path leads. -/
inductive Route where
  | health
  | room (name : String)
  | unknown
deriving DecidableEq

def Route.ofParts : List String → Route
  | ["", "health"] => health
  | ["", "ws", name] => if name = "" then unknown else room name
  | _ => unknown

/-- Whether some characters occur in others, one after the other. -/
def occursIn (part : List Char) : List Char → Bool
  | [] => part.isEmpty
  | c :: cs => part.isPrefixOf (c :: cs) || occursIn part cs

namespace Request

/-- The query, which is empty if there is none. -/
def query (r : Request) : String := String.ofList (r.target.query.getD [])

def route (r : Request) : Route :=
  .ofParts ((Text.splitAt '/' r.target.path).map String.ofList)

/-- The value of a header, the first one if there are several. The name is given in lower case. -/
def header? (r : Request) (name : String) : Option (List UInt8) :=
  (r.headers.find? (·.name = name)).map (·.value)

/-- The value of a header in lower case, if it is text. -/
def headerText? (r : Request) (name : String) : Option String :=
  ((r.header? name).bind Text.Utf8.decode?).map String.toLower

/-- Whether a header has a value, in any letter case. -/
def headerIs (r : Request) (name value : String) : Bool :=
  r.headerText? name = some value

/-- Whether a header contains a value, in any letter case. -/
def headerHas (r : Request) (name value : String) : Bool :=
  (r.headerText? name).any fun v => occursIn value.toList v.toList

/-- Whether the request asks for a websocket in full. -/
def asksUpgrade (r : Request) : Bool :=
  r.headerHas "connection" "upgrade" && r.headerIs "upgrade" "websocket" &&
    r.headerIs "sec-websocket-version" "13" && (r.header? "sec-websocket-key").isSome

end Request

/-- The room that a part of a path names. -/
def roomOfName? (name : String) : Option Uuid :=
  (Text.unescapeText? (Text.Utf8.encode name)).bind fun s => Uuid.parse? s.toList

/-- What the query of a request to join a room says. -/
structure Params where
  userId : Uuid
  media : Bool
deriving DecidableEq

def valuesOf (name : String) (pairs : List (Option String × Option String)) :
    List (Option String) :=
  (pairs.filter (·.1 = some name)).map (·.2)

/-- Reads a query. The user is required and media are not; neither may be given twice. -/
def Params.ofQuery? (query : String) : Option Params := do
  let pairs := Text.formPairs query
  let userId ← match valuesOf "userId" pairs with
    | [some s] => Uuid.parse? s.toList
    | _ => none
  let media ← match valuesOf "media" pairs with
    | [] => some false
    | [some "true"] => some true
    | [some "false"] => some false
    | _ => none
  return { userId, media }

end Roomcast.Http

import Roomcast.Calendar.Parser
import Roomcast.Json.Record
import Roomcast.Uuid

/-!
# Events

A room's log is made of events. An event has a kind and a body; the body is opaque and passed on
as it is. An event has two written forms that differ in the order of its fields: one for the store
and one for clients. Both hold every field under the same name, so each can be read as the other
unless it is written as an array.
-/

namespace Roomcast

/-- What an event says. -/
structure Payload where
  kind : String
  body : Json.Value

/-- An event of a room. -/
structure Event where
  id : Uuid
  roomId : Uuid
  ownerId : Uuid
  createdAt : Timestamp
  payload : Payload

namespace Event

/-- The kind of an event that states what a peer publishes. -/
def stateKind : String := "peerState"

/-- The kind of an event that carries a peer's text. -/
def textKind : String := "peerMessage"

def knownKinds : List String := [stateKind, textKind, "recording", "reaction"]

def isKnown (e : Event) : Bool := knownKinds.contains e.payload.kind

/-- The order in which the fields of an event are written. -/
inductive Layout where
  | stored
  | shown
deriving DecidableEq

/-- The names of the fields in their order. -/
def Layout.names : Layout → List String
  | .stored => ["id", "roomId", "ownerId", "createdAt", "payload"]
  | .shown => ["id", "ownerId", "roomId", "createdAt", "payload"]

end Event

namespace Json.Decoder

def uuid : Decoder Uuid := fun depth t => (text depth t).bind fun s => Uuid.parse? s.toList

def timestamp : Decoder Timestamp := fun depth t =>
  (text depth t).bind fun s => Timestamp.parse? s.toList

def payload : Decoder Payload := fun depth t =>
  match record? ["type", "payload"] depth t with
  | some (depth, [kind, body]) => do
    let kind ← required text depth kind
    let body ← required value depth body
    return { kind, body }
  | _ => none

def event (layout : Event.Layout) : Decoder Event := fun depth t =>
  match record? layout.names depth t with
  | some (depth, [id, first, second, createdAt, body]) => do
    let id ← required uuid depth id
    let first ← required uuid depth first
    let second ← required uuid depth second
    let createdAt ← required timestamp depth createdAt
    let payload ← required payload depth body
    return match layout with
      | .stored => { id, roomId := first, ownerId := second, createdAt, payload }
      | .shown => { id, roomId := second, ownerId := first, createdAt, payload }
  | _ => none

end Json.Decoder

open Json (Tree)

def Uuid.toTree (u : Uuid) : Tree := .string (Json.Piece.ofText u.render)

def Timestamp.toTree (t : Timestamp) : Tree := .string (Json.Piece.ofText t.render)

/-- The written form of what an event says. -/
def Payload.toTree (p : Payload) : Tree :=
  .ofFields [("type", .ofText p.kind), ("payload", p.body.toTree)]

def Event.toTree (layout : Event.Layout) (e : Event) : Tree :=
  let (first, second) := match layout with
    | .stored => (e.roomId, e.ownerId)
    | .shown => (e.ownerId, e.roomId)
  .ofFields (layout.names.zip
    [e.id.toTree, first.toTree, second.toTree, e.createdAt.toTree, e.payload.toTree])

end Roomcast

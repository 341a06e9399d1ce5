import Roomcast.Peer.State

/-!
# Frames

A frame is one text between a client and its session. A request may carry an id, and the reply to
it carries the same id as its own field. What a frame is about stands in one of four parts.
-/

namespace Roomcast.Peer

/-- What a frame is about. -/
structure Frame.Body where
  signal : Option Signal
  state : Option State
  note : Option Note
  event : Option Event

/-- One text between a client and its session. -/
structure Frame where
  requestId : Option String
  responseId : Option String
  body : Frame.Body

namespace Frame

def Body.empty : Body := ⟨none, none, none, none⟩

def ofSignal (s : Signal) : Frame := ⟨none, none, { Body.empty with signal := some s }⟩

def ofState (s : State) : Frame := ⟨none, none, { Body.empty with state := some s }⟩

def ofEvent (e : Event) : Frame := ⟨none, none, { Body.empty with event := some e }⟩

/-- The frame as the reply to a request with the given id. -/
def inResponseTo (f : Frame) (requestId : Option String) : Frame :=
  { f with responseId := requestId }

open Json (Tree)

/-- The written form of a body: the parts that are there. -/
def Body.toTree (b : Body) : Tree :=
  .ofFields <|
    optionalField "signal" Signal.toTree b.signal ++
      optionalField "state" State.toTree b.state ++
      optionalField "peerMessage" Note.toTree b.note ++
      optionalField "event" (Event.toTree .shown) b.event

def toTree (f : Frame) : Tree :=
  .ofFields <|
    optionalField "requestId" .ofText f.requestId ++
      optionalField "responseId" .ofText f.responseId ++ [("payload", f.body.toTree)]

def render (f : Frame) : String := String.ofList f.toTree.render

end Frame

end Roomcast.Peer

namespace Roomcast.Json.Decoder

open Roomcast.Peer

def body : Decoder Frame.Body := fun depth t =>
  match record? ["signal", "state", "peerMessage", "event"] depth t with
  | some (depth, [s, st, n, e]) => do
    let signal ← optional Decoder.signal depth s
    let state ← optional state depth st
    let note ← optional note depth n
    let event ← optional (Decoder.event .shown) depth e
    return { signal, state, note, event }
  | _ => none

/-- A frame. Its body may be absent. -/
def frame : Decoder Frame := fun depth t =>
  match record? ["requestId", "responseId", "payload"] depth t with
  | some (depth, [requestId, responseId, payload]) => do
    let requestId ← optional text depth requestId
    let responseId ← optional text depth responseId
    let body ← defaulted .empty body depth payload
    return { requestId, responseId, body }
  | _ => none

end Roomcast.Json.Decoder

namespace Roomcast.Peer

def Frame.parse? (s : String) : Option Frame := Json.Decoder.parse? Json.Decoder.frame s

end Roomcast.Peer

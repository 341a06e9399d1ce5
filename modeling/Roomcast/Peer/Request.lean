import Roomcast.Peer.Error
import Roomcast.Peer.Frame

/-!
# Requests

What a client asks of its session. A frame asks for one thing at most: a signal to the media service
comes first, if there is a channel that could carry it, then a state, then a text. States and texts
have to be in order. A text that is no frame, and a frame that asks for nothing or for something
unacceptable, have no effect at all.
-/

namespace Roomcast.Peer

/-- What a client asks for. -/
inductive Request where
  | relay (s : Signal)
  | publish (s : State)
  | say (n : Note)
deriving DecidableEq

/-- What is wrong with a request, if anything is. -/
def Request.fault? : Request → Option Fault
  | relay _ => none
  | publish s => s.fault?
  | say n => n.fault?

/-- What a frame asks for. Signals count only if there is a media channel. -/
def Frame.request? (f : Frame) (media : Bool) : Option Request :=
  match f.body.signal, media with
  | some s, true => some (.relay s)
  | _, _ => (f.body.state.map .publish).or (f.body.note.map .say)

/-- What the text of a frame asks for, with the id of the request. -/
def Request.read (media : Bool) (text : String) :
    Except SessionError (Option (Option String × Request)) :=
  match Frame.parse? text with
  | none => .error .malformed
  | some f =>
    match f.request? media with
    | none => .ok none
    | some request =>
      match request.fault? with
      | some fault => .error (.ofFault fault)
      | none => .ok (some (f.requestId, request))

end Roomcast.Peer

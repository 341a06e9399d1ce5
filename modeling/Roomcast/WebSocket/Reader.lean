import Roomcast.Peer.Link
import Roomcast.WebSocket.Frame

/-!
# Reading frames

A reader turns the bytes of a client, in whatever chunks they come, into arrivals on its link. Parts
of a message are put together; frames that concern the connection may stand between them. A text has
to be UTF-8 in every part of it, and bytes that are meant as a text in the end. After a breach of
the protocol, and after the client has closed the connection, nothing more is read.
-/

namespace Roomcast.WebSocket

open Text (Utf8)
open Peer (Arrival)

/-- A message of which some parts have come. -/
inductive Partial where
  | text (size : Nat) (read : Utf8)
  | binary (bytes : List UInt8)

def maxMessage : Nat := 64 * 1024 * 1024

namespace Partial

def size : Partial → Nat
  | text size _ => size
  | binary bytes => bytes.length

def extend (m : Partial) (payload : List UInt8) : Except Breach Partial :=
  if maxMessage < m.size + payload.length then .error .tooLong
  else
    match m with
    | text size read =>
      match read.read? payload with
      | some read => .ok (.text (size + payload.length) read)
      | none => .error .notText
    | binary bytes => .ok (.binary (bytes ++ payload))

def arrival : Partial → Except Breach Arrival
  | text _ read =>
    match read.text? with
    | some s => .ok (.text s)
    | none => .error .notText
  | binary bytes =>
    match Utf8.decode? bytes with
    | some s => .ok (.text s)
    | none => .ok (.failure (.receiveFailed Breach.notText.message))

end Partial

/-- What is known of the bytes of a client. -/
structure Reader where
  pending : List UInt8
  message : Option Partial
  closed : Bool

namespace Reader

def start : Reader := ⟨[], none, false⟩

/-- The reader after a part of a message, and the message if it is complete. -/
def addPart (r : Reader) (final : Bool) (m : Partial) (payload : List UInt8) :
    Except Breach (Reader × List Arrival) := do
  let m ← m.extend payload
  if final then return ({ r with message := none }, [← m.arrival])
  else return ({ r with message := some m }, [])

/-- Whether the payload of a frame that closes the connection is well formed: a code and a reason,
or nothing. -/
def checkGoodbye : List UInt8 → Except Breach Unit
  | [] => .ok ()
  | [_] => .error .shortGoodbye
  | _ :: _ :: reason => if (Utf8.decode? reason).isSome then .ok () else .error .notText

/-- The reader after a frame, and what has arrived with it. -/
def accept (r : Reader) (p : Packet) : Except Breach (Reader × List Arrival) :=
  match p.kind, r.message with
  | .close, _ => do
    checkGoodbye p.payload
    return ({ r with closed := true }, [.goodbye])
  | .ping, _ => .ok (r, [.ping p.payload])
  | .pong, _ => .ok (r, [.pong])
  | .part, some m => r.addPart p.final m p.payload
  | .part, none => .error .strayPart
  | .text, none => r.addPart p.final (.text 0 .start) p.payload
  | .binary, none => r.addPart p.final (.binary []) p.payload
  | .text, some _ | .binary, some _ => .error .missingPart

/-- The reader after a breach of the protocol. -/
def breach (r : Reader) (b : Breach) : Reader × List Arrival :=
  ({ r with closed := true }, [.failure (.receiveFailed b.message)])

def readAll (r : Reader) (bytes : List UInt8) : Reader × List Arrival :=
  if r.closed then (r, [])
  else
    match _taken : Packet.take? bytes with
    | none => ({ r with pending := bytes }, [])
    | some (.error b) => r.breach b
    | some (.ok (p, rest)) =>
      match r.accept p with
      | .error b => r.breach b
      | .ok (r, arrivals) =>
        let (r, more) := readAll r rest
        (r, arrivals ++ more)
termination_by bytes.length
decreasing_by exact Packet.length_of_take? _taken

def receive (r : Reader) (bytes : List UInt8) : Reader × List Arrival :=
  r.readAll (r.pending ++ bytes)

end Reader

end Roomcast.WebSocket

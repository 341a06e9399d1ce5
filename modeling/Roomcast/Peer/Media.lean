import Roomcast.Peer.Error

/-!
# Media channels

A media channel carries signals between a session and the media service. What the service sends
waits until the session receives it; what the session sends is kept in order.
-/

namespace Roomcast.Peer

/-- A channel to the media service. -/
structure Media where
  /-- What the service has sent and has not been received, first one first. -/
  inbox : List (Except SignalError Signal)
  sent : List Signal
  sendFailure : Option SignalError
  closeFailure : Option SignalError
  closes : Nat

namespace Media

/-- A channel on which nothing has happened yet. -/
def fresh : Media := ⟨[], [], none, none, 0⟩

/-- The service sends a signal, or fails to. -/
def arrive (m : Media) (a : Except SignalError Signal) : Media := { m with inbox := m.inbox ++ [a] }

def receive? (m : Media) : Option (Media × Except SignalError Signal) :=
  match m.inbox with
  | [] => none
  | a :: inbox => some ({ m with inbox }, a)

def send (m : Media) (s : Signal) : Except SignalError Media :=
  match m.sendFailure with
  | none => .ok { m with sent := m.sent ++ [s] }
  | some e => .error e

def close (m : Media) : Media × Except SignalError Unit :=
  ({ m with closes := m.closes + 1 },
    match m.closeFailure with
    | none => .ok ()
    | some e => .error e)

end Media

end Roomcast.Peer

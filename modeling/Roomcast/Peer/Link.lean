import Roomcast.Peer.Error

/-!
# Links

A link is the connection to a client as its session sees it. What arrives waits in an inbox until
the session receives it; what the session sends is kept in order. A ping that has been sent is
answered later, at a time that its `Echo` tells, or when the client's own answer is received.
-/

namespace Roomcast.Peer

/-- How a client reacts to a ping. -/
inductive Echo where
  /-- It answers at a time. -/
  | answer (time : Nat)
  /-- The connection fails at a time. -/
  | failure (time : Nat) (e : LinkError)
  /-- It does not react. -/
  | silence
deriving DecidableEq

/-- The reaction to a ping that is sent at a time, where the times of `echo` count from the ping. -/
def Echo.since (now : Nat) : Echo → Echo
  | answer delay => answer (now + delay)
  | failure delay e => failure (now + delay) e
  | silence => silence

def Echo.time? : Echo → Option Nat
  | answer time | failure time _ => some time
  | silence => none

/-- Something that arrives on a link. -/
inductive Arrival where
  | text (s : String)
  | ping (payload : List UInt8)
  | pong
  | goodbye
  | failure (e : LinkError)
deriving DecidableEq

/-- How a session has closed its link. -/
structure Farewell where
  code : Nat
  reason : String
  delivered : Bool
deriving DecidableEq

/-- A connection to a client. -/
structure Link where
  /-- What has arrived and has not been received, first one first. -/
  inbox : List Arrival
  sent : List String
  answered : List (List UInt8)
  pings : Nat
  /-- How the client reacts to pings from now on. -/
  echo : Echo
  /-- How and when the client reacts to the ping that was sent last. -/
  awaited : Option Echo
  sendFailure : Option LinkError
  closeFailure : Option LinkError
  closes : List Farewell

namespace Link

/-- A link to a client that has done nothing yet. -/
def fresh (echo : Echo) : Link := ⟨[], [], [], 0, echo, none, none, none, []⟩

def arrive (l : Link) (a : Arrival) : Link := { l with inbox := l.inbox ++ [a] }

/-- The link of a client that is gone. -/
def lost (l : Link) : Link :=
  { l with
    echo := .failure 0 .closed
    sendFailure := some .closed
    closeFailure := some .closed }

/-- Takes what arrived first. Pings and their answers are dealt with here and give no result. -/
def receive? (l : Link) : Option (Link × Option (Except LinkError String)) :=
  match l.inbox with
  | [] => none
  | a :: inbox =>
    let l := { l with inbox }
    some <| match a with
    | .text s => (l, some (.ok s))
    | .ping payload => ({ l with answered := l.answered ++ [payload] }, none)
    | .pong => ({ l with awaited := l.awaited.map fun _ => .answer 0 }, none)
    | .goodbye => (l.lost, some (.error .closed))
    | .failure e => (l, some (.error e))

def send (l : Link) (s : String) : Except LinkError Link :=
  match l.sendFailure with
  | none => .ok { l with sent := l.sent ++ [s] }
  | some e => .error e

def ping (l : Link) (now : Nat) : Link :=
  { l with pings := l.pings + 1, awaited := some (l.echo.since now) }

/-- What has become of the last ping, if its client has reacted by now. -/
def echoed? (l : Link) (now : Nat) : Option (Except LinkError Unit) :=
  match l.awaited with
  | some (.answer time) => if time ≤ now then some (.ok ()) else none
  | some (.failure time e) => if time ≤ now then some (.error e) else none
  | _ => none

def close (l : Link) (code : Nat) (reason : String) : Link × Except LinkError Unit :=
  ({ l with closes := l.closes ++ [⟨code, reason, l.closeFailure.isNone⟩] },
    match l.closeFailure with
    | none => .ok ()
    | some e => .error e)

end Link

end Roomcast.Peer

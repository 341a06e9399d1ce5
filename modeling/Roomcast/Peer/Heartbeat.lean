import Roomcast.Peer.Link

/-!
# Heartbeats

A heartbeat pings a client. Ping number `k` is due `k` intervals after the start, and is sent when
it is due and the ping before it has been answered: pings that come late catch up without a pause,
and never overlap. A ping that fails, or that has no answer when its time is up, ends the heartbeat.
An answer that comes exactly when the time is up still counts.
-/

namespace Roomcast.Peer

/-- How often a client is pinged and how long it may take to answer. -/
structure Pace where
  interval : Nat
  timeout : Nat
deriving DecidableEq

/-- The pings of one session. -/
structure Heartbeat where
  /-- How often the client is pinged. -/
  pace : Pace
  /-- When the heartbeat started. -/
  start : Nat
  /-- How many pings have been answered. -/
  answered : Nat
  /-- When the ping was sent that has no answer yet. -/
  since : Option Nat
  /-- Whether the heartbeat has ended. -/
  ended : Bool
deriving DecidableEq

namespace Heartbeat

def begin (pace : Pace) (now : Nat) : Heartbeat := ⟨pace, now, 0, none, false⟩

def due (h : Heartbeat) : Nat := h.start + h.answered * h.pace.interval

def stop (h : Heartbeat) : Heartbeat := { h with since := none, ended := true }

/-- The next step of a heartbeat, if it can go on: it sends a ping that is due, or learns what has
become of the last one. -/
def step? (h : Heartbeat) (l : Link) (now : Nat) : Option (Heartbeat × Link) :=
  if h.ended then none
  else
    match h.since with
    | none => if h.due ≤ now then some ({ h with since := some now }, l.ping now) else none
    | some sent =>
      match l.echoed? now with
      | some (.ok _) => some ({ h with since := none, answered := h.answered + 1 }, l)
      | some (.error _) => some (h.stop, l)
      | none => if sent + h.pace.timeout ≤ now then some (h.stop, l) else none

/-- When a heartbeat can go on, if nothing happens to its link before. -/
def wakeAt? (h : Heartbeat) (l : Link) : Option Nat :=
  if h.ended then none
  else
    match h.since with
    | none => some h.due
    | some sent =>
      let limit := sent + h.pace.timeout
      some (((l.awaited.bind Echo.time?).map (min limit)).getD limit)

end Heartbeat

end Roomcast.Peer

import Roomcast.Registry.Basic

/-!
# Pulling

A puller moves the events of a feed into a window, one at a time and in their order. It stops when
the feed fails or ends, and when somebody closes the window; then it closes the window itself, so
that no reader is left waiting, and the feed, once.
-/

namespace Roomcast.Registry

/-- What a puller does next while it pulls, if there is anything to do. The end of the window comes
before the feed, and a fault of the feed before its events. -/
def Stream.pull? (store : Store) (s : Stream) : Option Stream :=
  if s.room.isClosed then some { s with puller := .stopping }
  else
    match s.fault with
    | some .crash => some { s with fault := none, puller := .crashed }
    | some (.error _) => some { s with fault := none, puller := .stopping }
    | none =>
      match store.poll s.feed with
      | (_, none) => none
      | (feed, some (.ok e)) => some { s with feed, puller := .holding e }
      | (feed, some (.error _)) => some { s with feed, puller := .stopping }

def Stream.push (s : Stream) (e : Event) : Stream :=
  match s.room.append e with
  | .ok room => { s with room, puller := .pulling }
  | .error _ => { s with puller := .stopping }

/-- The next step of a puller, if it can go on. -/
def Stream.step? (store : Store) (s : Stream) : Option Stream :=
  match s.puller with
  | .pulling => s.pull? store
  | .holding e => some (s.push e)
  | .stopping => some { s with room := s.room.close, puller := .closing }
  | .closing | .ended | .crashed => none

/-- The next step of the puller of a stream, if it can go on. -/
def stepPuller? (r : Registry) (i : Nat) : Option Registry :=
  ((r.streams[i]?).bind (·.step? r.store)).map fun s => r.modifyStream i fun _ => s

/-- Whether the puller of a stream has ended. -/
def pullerEnded (r : Registry) (i : Nat) : Bool :=
  (r.streams[i]?).any fun s =>
    match s.puller with
    | .ended | .crashed => true
    | _ => false

/-- The feed for which a puller waits has closed. -/
def feedClosed? (r : Registry) (i : Nat) : Option Registry :=
  match r.streams[i]? with
  | some { puller := .closing, .. } =>
    some (r.modifyStream i fun s => { s with feed := s.feed.close, puller := .ended })
  | _ => none

/-- Whether the feed of a stream may still be read. -/
def Stream.isLive (s : Stream) : Bool :=
  match s.puller with
  | .pulling | .holding _ => true
  | _ => false

/-- Lets the next read of each live feed of a room fail. A feed that is to fail already fails in the
way that was asked for first. -/
def injectFault (r : Registry) (room : Uuid) (f : Fault) : Registry :=
  { r with
    streams := r.streams.map fun s =>
      if s.roomId = room ∧ s.isLive then { s with fault := s.fault <|> some f } else s }

end Roomcast.Registry

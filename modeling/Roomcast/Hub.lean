import Roomcast.Registry.Reader
import Roomcast.Registry.Step

/-!
# The hub

What sessions share: the registry of rooms, and the store through which they publish events. An
event that a session makes gets a fresh id and the current time from a supply of stamps.
-/

namespace Roomcast

/-- What tells a new event from all others. -/
structure Stamp where
  id : Uuid
  createdAt : Timestamp

/-- What sessions share. -/
structure Hub where
  registry : Registry
  /-- Why no event can be published. -/
  emitFailure : Option StreamError
  /-- The stamps of new events. -/
  stamps : Nat → Stamp
  stamped : Nat

namespace Hub

def empty (capacity channelCapacity : Nat) (stamps : Nat → Stamp) : Hub :=
  ⟨.empty capacity channelCapacity, none, stamps, 0⟩

def onRegistry (h : Hub) (f : Registry → Registry) : Hub := { h with registry := f h.registry }

def newEvent (h : Hub) (room owner : Uuid) (payload : Payload) : Hub × Event :=
  let stamp := h.stamps h.stamped
  ({ h with stamped := h.stamped + 1 },
    { id := stamp.id, roomId := room, ownerId := owner, createdAt := stamp.createdAt, payload })

/-- The error of a store whose channels can hold nothing. -/
def full : StreamError := .unexpected "channel without capacity"

def emit (h : Hub) (e : Event) : Except StreamError Hub :=
  match h.emitFailure with
  | some failure => .error failure
  | none =>
    match h.registry.emit? e with
    | none => .error full
    | some registry => .ok { h with registry }

end Hub

end Roomcast

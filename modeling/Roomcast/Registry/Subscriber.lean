import Roomcast.Registry.Basic

/-!
# Subscribing

A subscriber looks for the entry of its room, or makes one, and then asks for the entry's lock.
With the lock it takes a reader of the stream; if there is no stream yet it opens a feed first and
starts one. An entry that hands out no readers is removed, and the subscriber tries again.
-/

namespace Roomcast.Registry

def subscribe (r : Registry) (room : Uuid) : Registry :=
  { r with subscribers := r.subscribers.push ⟨room, .checking⟩ }

/-- A new entry of a room, in the registry. -/
def register (r : Registry) (room : Uuid) : Registry :=
  { r with
    registered := (room, r.entries.size) :: r.registered
    entries := r.entries.push ⟨room, none, none, false, []⟩ }

/-- Ends a subscriber's hold on an entry, with the outcome of opening a reader. An entry that is
closed will be removed. -/
def conclude (r : Registry) (i entry : Nat) (result : Except StreamError Reader) : Registry :=
  let r := r.release entry (.subscriber i)
  match result with
  | .error .closed => r.setSubscriber i (.removing entry)
  | result => r.setSubscriber i (.done result)

def joinStream (r : Registry) (stream : Nat) : Registry × Except StreamError Reader :=
  match r.streams[stream]? with
  | none => (r, .error .closed)
  | some s =>
    match s.room.join with
    | .error e => (r, .error e)
    | .ok (room, cursor) => (r.modifyRoom stream fun _ => room, .ok ⟨stream, cursor⟩)

/-- What a subscriber does with the lock of an entry: it takes a reader of the stream, or asks for
a feed if there is no stream. -/
def enter (r : Registry) (i entry : Nat) (e : Entry) : Registry :=
  if e.retired then r.conclude i entry (.error .closed)
  else
    match e.stream with
    | some stream =>
      let (r, result) := r.joinStream stream
      r.conclude i entry result
    | none => r.setSubscriber i (.watching entry)

/-- Completes the start of a stream. The entry keeps the stream even if its window is closed
already. -/
def complete (r : Registry) (i entry stream : Nat) : Registry :=
  let (r, result) := r.joinStream stream
  match r.streamOf? entry with
  | some _ => r.conclude i entry (.error (.unexpected "room buffer started twice"))
  | none =>
    (r.modifyEntry entry fun e => { e with stream := some stream }).conclude i entry result

/-- The next step of a subscriber, if it can go on. -/
def stepSubscriber? (r : Registry) (i : Nat) : Option Registry :=
  match r.subscribers[i]? with
  | none => none
  | some s =>
    match s.phase with
    | .checking =>
      some (r.setSubscriber i (if r.down then .done (.error .shuttingDown) else .looking))
    | .looking =>
      match r.entryOf? s.roomId with
      | some entry => some (r.setSubscriber i (.arriving entry))
      | none => some (r.setSubscriber i .creating)
    | .creating =>
      if r.down then some (r.setSubscriber i (.done (.error .shuttingDown)))
      else
        match r.entryOf? s.roomId with
        | some entry => some (r.setSubscriber i (.arriving entry))
        | none => some ((r.register s.roomId).setSubscriber i (.arriving r.entries.size))
    | .arriving entry =>
      some ((r.enqueue entry (.subscriber i)).setSubscriber i (.queued entry))
    | .queued entry =>
      if r.holds entry (.subscriber i) then (r.entries[entry]?).map (r.enter i entry) else none
    | .starting entry stream => some (r.complete i entry stream)
    | .removing entry =>
      let r := if r.entryOf? s.roomId = some entry then r.unregister s.roomId else r
      some (r.setSubscriber i .checking)
    | .watching _ | .done _ | .aborted => none

/-- The feed for which a subscriber waits has been opened, or could not be. A new feed gets a window
and a puller at once. -/
def watched? (r : Registry) (i : Nat) (failure : Option StreamError) : Option Registry :=
  match r.subscribers[i]? with
  | none => none
  | some s =>
    match s.phase, failure with
    | .watching entry, some e => some (r.conclude i entry (.error e))
    | .watching entry, none =>
      (r.store.watch? s.roomId).map fun (store, feed) =>
        let stream := r.streams.size
        let r := { r with
          store
          streams := r.streams.push ⟨s.roomId, .empty r.capacity, feed, none, .pulling⟩ }
        (r.modifyEntry entry fun e => { e with puller := some stream }).setSubscriber i
          (.starting entry stream)
    | _, _ => none

/-- The caller of a subscriber gives up. A subscriber that has started a stream completes it
first. -/
def abort? (r : Registry) (i : Nat) : Option Registry :=
  match r.subscribers[i]? with
  | none => none
  | some s =>
    match s.phase with
    | .queued entry | .watching entry =>
      some ((r.release entry (.subscriber i)).setSubscriber i .aborted)
    | .starting .. | .done _ | .aborted => none
    | _ => some (r.setSubscriber i .aborted)

end Roomcast.Registry

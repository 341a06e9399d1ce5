import Roomcast.Event
import Roomcast.Store.Channel
import Roomcast.Stream.Error

/-!
# The store

The store keeps every event of every room, in the order in which they came. Whoever watches a room
gets a `Feed`, through which the events that come from then on can be read one by one. The feeds of
a room share a channel, which lasts until the room is closed; a feed opened later gets a new one.
-/

namespace Roomcast

namespace Store

/-- What is kept of a room. -/
structure Log where
  events : Array Event
  /-- The channel of the feeds, unless the room has been closed. -/
  channel : Option Nat

/-- A reader of the events of a room. -/
structure Feed where
  roomId : Uuid
  channel : Nat
  /-- The number of the event it reads next, counted within the channel. -/
  next : Nat
  closed : Bool

end Store

/-- The events of all rooms. -/
structure Store where
  capacity : Nat
  logs : List (Uuid × Store.Log)
  channels : Array (Store.Channel Event)

namespace Store

def empty (capacity : Nat) : Store := ⟨capacity, [], #[]⟩

def log? (s : Store) (room : Uuid) : Option Log := s.logs.lookup room

def fetch (s : Store) (room : Uuid) : List Event := ((s.log? room).map (·.events.toList)).getD []

def setLog (s : Store) (room : Uuid) (log : Log) : Store :=
  { s with logs := (room, log) :: s.logs.filter (·.1 ≠ room) }

/-- Opens a channel, whose size is a power of two. Nothing can pass through one without slots. -/
def openChannel? (s : Store) : Option (Store × Nat) :=
  if s.capacity = 0 then none
  else
    some ({ s with channels := s.channels.push (.ofSize s.capacity.nextPowerOfTwo) },
      s.channels.size)

/-- What is kept of a room, which begins with this call if nothing was. -/
def logOf? (s : Store) (room : Uuid) : Option (Store × Log) :=
  match s.log? room with
  | some log => some (s, log)
  | none => s.openChannel?.map fun (s, channel) => (s, ⟨#[], some channel⟩)

/-- Appends an event to the log of its room and sends it to the feeds. -/
def emit? (s : Store) (e : Event) : Option Store :=
  (s.logOf? e.roomId).map fun (s, log) =>
    let s := s.setLog e.roomId { log with events := log.events.push e }
    match log.channel with
    | none => s
    | some channel => { s with channels := s.channels.modify channel (·.send e) }

/-- Opens a feed of the events that come from now on. -/
def watch? (s : Store) (room : Uuid) : Option (Store × Feed) :=
  (s.logOf? room).bind fun (s, log) =>
    let opened := match log.channel with
      | some channel => some (s, channel)
      | none => s.openChannel?
    opened.map fun (s, channel) =>
      (s.setLog room { log with channel := some channel },
        { roomId := room, channel, closed := false
          next := ((s.channels[channel]?).map (·.sent)).getD 0 })

def closeRoom (s : Store) (room : Uuid) : Store :=
  match s.log? room with
  | none => s
  | some log =>
    let s := s.setLog room { log with channel := none }
    match log.channel with
    | none => s
    | some channel => { s with channels := s.channels.modify channel (·.finish) }

/-- The error of a feed that has lost events. -/
def lagError (room : Uuid) (count : Nat) : StreamError :=
  .feed s!"room {room} feed lagged by {count} events"

/-- Reads from a feed, or finds nothing to read yet. -/
def poll (s : Store) (f : Feed) : Feed × Option (Except StreamError Event) :=
  if f.closed then (f, some (.error .closed))
  else
    match s.channels[f.channel]? with
    | none => (f, some (.error .closed))
    | some channel =>
      match channel.receive f.next with
      | (next, .item e) => ({ f with next }, some (.ok e))
      | (next, .lagged count) => ({ f with next }, some (.error (lagError f.roomId count)))
      | (next, .pending) => ({ f with next }, none)
      | (next, .ended) => ({ f with next }, some (.error .closed))

def Feed.close (f : Feed) : Feed := { f with closed := true }

end Store

end Roomcast

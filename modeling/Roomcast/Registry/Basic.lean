import Roomcast.Room
import Roomcast.Store

/-!
# The registry

The registry gives every subscriber of a room a reader of one shared window. The first subscriber
opens a feed of the room's events and starts a puller that moves them into the window; whoever comes
later shares both. An entry that nobody reads is reclaimed after a while, and a shutdown ends all.

The parties are subscribers, pullers, closers, shutdowns and collectors. Each goes through phases,
and between two phases any other party may act. This module holds the state they share; the steps
are in the modules beside it.
-/

namespace Roomcast

namespace Registry

/-- How a feed fails. -/
inductive Fault where
  /-- Its next read ends with an error. -/
  | error (e : StreamError)
  /-- Its next read never returns and takes the puller down. -/
  | crash

/-- The phases of a puller. -/
inductive Puller where
  /-- It waits for the next event, or for the end of the window. -/
  | pulling
  /-- It has an event that is not in the window yet. -/
  | holding (e : Event)
  /-- It is about to close the window. -/
  | stopping
  /-- It waits for the feed to close. -/
  | closing
  /-- It has closed the feed. -/
  | ended
  /-- The feed took it down. -/
  | crashed

/-- One feed, the window it fills, and the puller between them. -/
structure Stream where
  roomId : Uuid
  room : Room Event
  feed : Store.Feed
  fault : Option Fault
  puller : Puller

/-- Who may hold the lock of an entry. -/
inductive Holder where
  | subscriber (i : Nat)
  | closer (i : Nat)
deriving DecidableEq

/-- What the registry knows of a room. -/
structure Entry where
  /-- The room. -/
  roomId : Uuid
  /-- The stream, once somebody has started it. -/
  stream : Option Nat
  /-- The stream whose puller has to be waited for when the entry closes. -/
  puller : Option Nat
  /-- Whether it hands out no more readers. -/
  retired : Bool
  /-- Who holds its lock, followed by those who wait for it. -/
  lock : List Holder

/-- A reader of one stream. -/
structure Reader where
  stream : Nat
  cursor : Nat
deriving DecidableEq

/-- The phases of a subscriber. An entry is named by its number. -/
inductive Subscribing where
  /-- It is about to see whether a shutdown has begun. -/
  | checking
  /-- It is about to look for an entry. -/
  | looking
  /-- It found none and is about to make one. -/
  | creating
  /-- It is about to ask for the lock of an entry. -/
  | arriving (entry : Nat)
  /-- It waits for the lock, or has it. -/
  | queued (entry : Nat)
  /-- It has the lock and waits for a feed. -/
  | watching (entry : Nat)
  /-- It has the lock and has started a stream. -/
  | starting (entry stream : Nat)
  /-- It is about to remove a dead entry and to try again. -/
  | removing (entry : Nat)
  /-- It has a reader or an error. -/
  | done (result : Except StreamError Reader)
  /-- Its caller gave up. -/
  | aborted

/-- Somebody who wants a reader of a room. -/
structure Subscriber where
  roomId : Uuid
  phase : Subscribing

/-- The phases of the one who closes an entry. -/
inductive Closing where
  /-- It is about to ask for the lock. -/
  | arriving
  /-- It waits for the lock, or has it. -/
  | queued
  /-- It is about to close the window. -/
  | stopping (puller : Option Nat)
  /-- It waits for the puller to end. -/
  | joining (puller : Option Nat)
  /-- The entry is closed. -/
  | done

/-- Somebody who closes an entry. -/
structure Closer where
  entry : Nat
  phase : Closing

/-- The phases of a shutdown. -/
inductive Stopping where
  /-- It is about to forbid subscriptions. -/
  | starting
  /-- It is about to take all entries out of the registry. -/
  | draining
  /-- It waits for the closers of those entries. -/
  | closing (closers : List Nat)
  /-- It is about to take over the closers of reclaimed entries. -/
  | taking
  /-- It waits for the closers of reclaimed entries. -/
  | joining (closers : List Nat)
  /-- All is closed. -/
  | done

/-- The phases of a collector. -/
inductive Collecting where
  /-- It is about to see whether a shutdown has begun. -/
  | checking
  /-- It is about to note the entries without readers. -/
  | scanning
  /-- It waits for its period to pass. -/
  | sleeping (candidates : List Nat)
  /-- It is about to reclaim the entries that it has noted. -/
  | reclaiming (candidates : List Nat)
  /-- It was told to end and waits for a shutdown of its own. -/
  | stopping (shutdown : Nat)
  /-- It has ended. -/
  | done (result : Except StreamError Unit)

/-- Somebody who reclaims entries that nobody reads. -/
structure Collector where
  period : Nat
  cancelled : Bool
  phase : Collecting

end Registry

/-- The registry, the store it reads from, and everybody who is busy with them. -/
structure Registry where
  capacity : Nat
  store : Store
  /-- The entry of each room that has one. -/
  registered : List (Uuid × Nat)
  entries : Array Registry.Entry
  streams : Array Registry.Stream
  down : Bool
  /-- The closers of reclaimed entries that no shutdown waits for. -/
  reclaims : List Nat
  subscribers : Array Registry.Subscriber
  closers : Array Registry.Closer
  shutdowns : Array Registry.Stopping
  collectors : Array Registry.Collector

namespace Registry

def empty (capacity channelCapacity : Nat) : Registry :=
  { capacity, store := .empty channelCapacity, registered := [], entries := #[], streams := #[],
    down := false, reclaims := [], subscribers := #[], closers := #[], shutdowns := #[],
    collectors := #[] }

/-- The number of rooms that have an entry. -/
def size (r : Registry) : Nat := r.registered.length

def entryOf? (r : Registry) (room : Uuid) : Option Nat := r.registered.lookup room

def streamOf? (r : Registry) (entry : Nat) : Option Nat := (r.entries[entry]?).bind (·.stream)

/-- The number of open readers of an entry. -/
def readersOf (r : Registry) (entry : Nat) : Nat :=
  (((r.streamOf? entry).bind fun s => r.streams[s]?).map (·.room.readers)).getD 0

/-- The number of open readers of a room, if it has an entry. -/
def openReaders (r : Registry) (room : Uuid) : Option Nat := (r.entryOf? room).map r.readersOf

def modifyEntry (r : Registry) (i : Nat) (f : Entry → Entry) : Registry :=
  { r with entries := r.entries.modify i f }

def modifyStream (r : Registry) (i : Nat) (f : Stream → Stream) : Registry :=
  { r with streams := r.streams.modify i f }

def modifyRoom (r : Registry) (i : Nat) (f : Room Event → Room Event) : Registry :=
  r.modifyStream i fun s => { s with room := f s.room }

def setSubscriber (r : Registry) (i : Nat) (phase : Subscribing) : Registry :=
  { r with subscribers := r.subscribers.modify i fun s => { s with phase } }

def setCloser (r : Registry) (i : Nat) (phase : Closing) : Registry :=
  { r with closers := r.closers.modify i fun c => { c with phase } }

def setShutdown (r : Registry) (i : Nat) (phase : Stopping) : Registry :=
  { r with shutdowns := r.shutdowns.modify i fun _ => phase }

def setCollector (r : Registry) (i : Nat) (phase : Collecting) : Registry :=
  { r with collectors := r.collectors.modify i fun c => { c with phase } }

def enqueue (r : Registry) (entry : Nat) (h : Holder) : Registry :=
  r.modifyEntry entry fun e => { e with lock := e.lock ++ [h] }

/-- Gives the lock of an entry back, or stops waiting for it. -/
def release (r : Registry) (entry : Nat) (h : Holder) : Registry :=
  r.modifyEntry entry fun e => { e with lock := e.lock.filter (· ≠ h) }

/-- Whether somebody has the lock of an entry. -/
def holds (r : Registry) (entry : Nat) (h : Holder) : Bool :=
  (r.entries[entry]?).any fun e => e.lock.head? = some h

/-- Takes the entry of a room out of the registry. -/
def unregister (r : Registry) (room : Uuid) : Registry :=
  { r with registered := r.registered.filter (·.1 ≠ room) }

end Registry

end Roomcast

import Roomcast.Registry.Basic

/-!
# Readers

What one can do with a reader that a subscription has returned. Each operation is that of the
window to which the reader belongs, and leaves all other windows alone.
-/

namespace Roomcast.Registry

def roomOf? (r : Registry) (h : Reader) : Option (Room Event) :=
  (r.streams[h.stream]?).map (·.room)

def onRoom (r : Registry) (h : Reader) (f : Room Event → Nat → Room Event) : Registry :=
  r.modifyRoom h.stream fun room => f room h.cursor

/-- Applies an operation that may return a result to the window of a reader. -/
def readWith (r : Registry) (h : Reader)
    (f : Room Event → Nat → Room Event × Option (Except StreamError Event)) :
    Registry × Option (Except StreamError Event) :=
  match r.roomOf? h with
  | none => (r, none)
  | some room =>
    let (room, result) := f room h.cursor
    (r.modifyRoom h.stream fun _ => room, result)

def poll (r : Registry) (h : Reader) (cancelled : Bool) :
    Registry × Option (Except StreamError Event) :=
  r.readWith h fun room c => room.poll c cancelled

def beginRead (r : Registry) (h : Reader) (cancelled : Bool) : Registry :=
  r.onRoom h fun room c => room.beginRead c cancelled

/-- Gives up the read that is going on. -/
def cancelRead (r : Registry) (h : Reader) : Registry := r.onRoom h Room.cancel

/-- Lets a read that has begun go on. -/
def resume (r : Registry) (h : Reader) : Registry × Option (Except StreamError Event) :=
  r.readWith h Room.resume

def leave (r : Registry) (h : Reader) : Registry := r.onRoom h Room.leave

def abandon (r : Registry) (h : Reader) : Registry := r.onRoom h Room.abandon

/-- Closes a reader and ends its read without a result. -/
def drop (r : Registry) (h : Reader) : Registry := r.onRoom h Room.drop

def isReading (r : Registry) (h : Reader) : Bool := (r.roomOf? h).any (·.isReading h.cursor)

/-- Whether a read that has begun can go on. -/
def canResume (r : Registry) (h : Reader) : Bool := (r.roomOf? h).any (·.canResume h.cursor)

def hasLeft (r : Registry) (h : Reader) : Bool := (r.roomOf? h).all (·.hasLeft h.cursor)

def readers (r : Registry) : List Reader :=
  (List.range r.streams.size).flatMap fun s =>
    match r.streams[s]? with
    | none => []
    | some stream => (List.range stream.room.cursors.size).map fun c => ⟨s, c⟩

end Roomcast.Registry

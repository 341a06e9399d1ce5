import Roomcast.Room.Chain

/-!
# Rooms

A `Room` is the bounded window on a room's events that all of its readers share, together with
the readers themselves. A reader starts at the newest event and sees every later one in order, or
learns that it fell too far behind. The room counts the readers that are open. A reader closes
once: when it is told to, or at its first failed read.
-/

namespace Roomcast

namespace Room

/-- A read that has begun and has no result yet. -/
structure Wait where
  /-- Whether the reader has looked for an event and found none. -/
  parked : Bool
  /-- Whether its caller has given up. -/
  cancelled : Bool
deriving DecidableEq

/-- The position of a reader. -/
structure Cursor where
  /-- The node of the event it has read last. -/
  node : Nat
  closed : Bool
  wait : Option Wait

end Room

/-- A window on the events of a room, and its readers. -/
structure Room (α : Type) where
  capacity : Nat
  chain : Room.Chain α
  /-- The number of open readers. -/
  readers : Nat
  /-- Every reader there has been. -/
  cursors : Array Room.Cursor

namespace Room

variable {α : Type}

def empty (capacity : Nat) : Room α := ⟨capacity, .empty, 0, #[]⟩

def isClosed (r : Room α) : Bool := r.chain.closed

def size (r : Room α) : Nat := r.chain.length

/-- The number of nodes from the oldest to the newest. -/
def liveNodes (r : Room α) : Nat := r.chain.live.length

def append (r : Room α) (event : α) : Except StreamError (Room α) :=
  (r.chain.append r.capacity event).map fun chain => { r with chain }

def close (r : Room α) : Room α := { r with chain := r.chain.close }

/-- Opens a reader at the newest event and names it by its number. -/
def join (r : Room α) : Except StreamError (Room α × Nat) :=
  if r.isClosed then .error .closed
  else
    .ok ({ r with
      readers := r.readers + 1
      cursors := r.cursors.push ⟨r.chain.head, false, none⟩ }, r.cursors.size)

def modifyCursor (r : Room α) (i : Nat) (f : Cursor → Cursor) : Room α :=
  { r with cursors := r.cursors.modify i f }

/-- Closes a reader. One that is closed already is not counted again. -/
def leave (r : Room α) (i : Nat) : Room α :=
  match r.cursors[i]? with
  | none => r
  | some c =>
    if c.closed then r
    else { r.modifyCursor i fun c => { c with closed := true } with readers := r.readers - 1 }

/-- Ends a read with its result: the reader moves on to the event, or closes. -/
def settle (r : Room α) (i : Nat) :
    Except StreamError (α × Nat) → Room α × Except StreamError α
  | .ok (e, node) => (r.modifyCursor i fun c => { c with node, wait := none }, .ok e)
  | .error err => ((r.modifyCursor i fun c => { c with wait := none }).leave i, .error err)

/-- What a reader gets who looks for an event, or none if there is nothing to read yet. -/
def look? (r : Room α) (c : Cursor) (cancelled : Bool) : Option (Except StreamError (α × Nat)) :=
  if c.closed then some (.error .closed) else r.chain.read? c.node cancelled

def poll (r : Room α) (i : Nat) (cancelled : Bool) : Room α × Option (Except StreamError α) :=
  match (r.cursors[i]?).bind fun c => r.look? c cancelled with
  | none => (r, none)
  | some result => ((r.settle i result).1, some (r.settle i result).2)

def beginRead (r : Room α) (i : Nat) (cancelled : Bool) : Room α :=
  r.modifyCursor i fun c => { c with wait := some ⟨false, cancelled⟩ }

/-- Gives up the read that is going on. The reader learns of it when it goes on. -/
def cancel (r : Room α) (i : Nat) : Room α :=
  r.modifyCursor i fun c => { c with wait := c.wait.map fun w => { w with cancelled := true } }

/-- What a read that has begun gets when it goes on, or none if it has to wait longer. -/
def result? (r : Room α) (i : Nat) : Option (Except StreamError (α × Nat)) :=
  (r.cursors[i]?).bind fun c =>
    c.wait.bind fun w =>
      if w.parked then r.chain.await? c.node w.cancelled else r.look? c w.cancelled

/-- Lets a read that has begun go on: it ends with a result, or the reader is parked. -/
def resume (r : Room α) (i : Nat) : Room α × Option (Except StreamError α) :=
  match r.result? i with
  | none =>
    (r.modifyCursor i fun c => { c with wait := c.wait.map fun w => { w with parked := true } },
      none)
  | some result => ((r.settle i result).1, some (r.settle i result).2)

def isReading (r : Room α) (i : Nat) : Bool := (r.cursors[i]?).any (·.wait.isSome)

/-- Whether a read is going on that is not parked, or is and has a result. -/
def canResume (r : Room α) (i : Nat) : Bool :=
  (r.cursors[i]?).any fun c =>
    c.wait.any fun w => !w.parked || (r.chain.await? c.node w.cancelled).isSome

/-- Ends a read without a result. The reader stays as it was before the read. -/
def abandon (r : Room α) (i : Nat) : Room α :=
  r.modifyCursor i fun c => { c with wait := none }

/-- Closes a reader and ends its read without a result. -/
def drop (r : Room α) (i : Nat) : Room α := (r.abandon i).leave i

def hasLeft (r : Room α) (i : Nat) : Bool := (r.cursors[i]?).all (·.closed)

end Room

end Roomcast

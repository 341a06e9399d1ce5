import Roomcast.Stream.Error

/-!
# The chain of a room

The latest events of a room form a chain of nodes. The newest node, the head, waits for its
successor; appending an event creates that successor and makes the node ready. A chain that holds
as many events as it may evicts its oldest node, the tail: readers that still stand there have
fallen behind, and the link onwards is cut, so that such a reader keeps nothing else alive.

Nodes are named by their place in an array and never move.
-/

namespace Roomcast.Room

/-- A place in the chain. -/
structure Node (α : Type) where
  /-- The event that was appended with the node; the first node has none. -/
  event : Option α
  /-- The successor, once there is one and as long as the node is not evicted. -/
  next : Option Nat
  /-- Whether those who wait for the successor may go on. -/
  ready : Bool
  /-- Whether the node has been given up. -/
  evicted : Bool

/-- The nodes of a room. -/
structure Chain (α : Type) where
  /-- Every node there has been. -/
  nodes : Array (Node α)
  /-- The newest node. -/
  head : Nat
  /-- The oldest node that is not evicted. -/
  tail : Nat
  /-- The number of events held. -/
  length : Nat
  /-- Whether the chain has ended. -/
  closed : Bool

namespace Chain

variable {α : Type}

def freshNode (event : Option α) : Node α := ⟨event, none, false, false⟩

def empty : Chain α := ⟨#[freshNode none], 0, 0, 0, false⟩

def next? (c : Chain α) (i : Nat) : Option Nat := (c.nodes[i]?).bind (·.next)

def event? (c : Chain α) (i : Nat) : Option α := (c.nodes[i]?).bind (·.event)

/-- Whether those who wait at a node may go on. -/
def isReady (c : Chain α) (i : Nat) : Bool := (c.nodes[i]?).any (·.ready)

def isEvicted (c : Chain α) (i : Nat) : Bool := (c.nodes[i]?).any (·.evicted)

def modify (c : Chain α) (i : Nat) (f : Node α → Node α) : Chain α :=
  { c with nodes := c.nodes.modify i f }

/-- Lets those who wait at a node go on. -/
def release (c : Chain α) (i : Nat) : Chain α := c.modify i fun n => { n with ready := true }

/-- Gives a node up and cuts its link. -/
def evict (c : Chain α) (i : Nat) : Chain α :=
  c.modify i fun n => { n with evicted := true, next := none }

/-- Links a new node with an event behind the head, which becomes ready. -/
def extend (c : Chain α) (event : α) : Except StreamError (Chain α) :=
  if c.isReady c.head || (c.next? c.head).isSome then
    .error (.unexpected "event node resolved twice")
  else
    let new := c.nodes.size
    let c := { c with nodes := c.nodes.push (freshNode (some event)) }
    let c := (c.modify c.head fun n => { n with next := some new }).release c.head
    .ok { c with head := new }

/-- Appends an event. A chain that holds `capacity` events evicts its tail. -/
def append (capacity : Nat) (c : Chain α) (event : α) : Except StreamError (Chain α) :=
  if c.closed then .error .closed
  else do
    let c ← c.extend event
    if c.length < capacity then
      return { c with length := c.length + 1 }
    else
      match c.next? c.tail with
      | none => .error (.unexpected "tail node has no successor")
      | some tail => return { c.evict c.tail with tail }

/-- The nodes met from a node on, following at most `fuel` links. -/
def path (c : Chain α) : Nat → Nat → List Nat
  | 0, i => [i]
  | fuel + 1, i =>
    i :: match c.next? i with
      | none => []
      | some j => c.path fuel j

/-- The nodes from the tail to the head. -/
def live (c : Chain α) : List Nat := c.path c.nodes.size c.tail

/-- Ends the chain: gives every live node up and lets those who wait at the head go on. -/
def close (c : Chain α) : Chain α :=
  if c.closed then c
  else
    let c := (c.live.foldl evict c).release c.head
    { c with closed := true, tail := c.head, length := 0 }

/-- What a reader gets who waits at a node: the next event and its node, an error, or nothing yet.
A reader whose caller gave up is told so even if the event is there. -/
def await? (c : Chain α) (i : Nat) (cancelled : Bool) : Option (Except StreamError (α × Nat)) :=
  if cancelled then some (.error .cancelled)
  else if !c.isReady i then none
  else if c.isEvicted i then some (.error .closed)
  else
    match c.next? i with
    | none => some (.error .closed)
    | some j =>
      match c.event? j with
      | none => some (.error (.unexpected "resolved node without event"))
      | some e => some (.ok (e, j))

/-- What a reader gets who arrives at a node. At a node that has been given up there is nothing to
wait for. -/
def read? (c : Chain α) (i : Nat) (cancelled : Bool) : Option (Except StreamError (α × Nat)) :=
  if c.isEvicted i then some (.error .closed) else c.await? i cancelled

end Chain

end Roomcast.Room

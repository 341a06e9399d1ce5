/-!
# Channels

A channel passes values to any number of receivers. It holds the latest values in a ring; each slot
says which value of the sequence it holds. A receiver is no more than the number of the value it
wants next. One that asks for a value whose slot has been taken over learns how many values it has
lost, and goes on with the oldest that is still there.
-/

namespace Roomcast.Store

structure Channel (α : Type) where
  /-- Each slot holds a value and its number in the sequence. -/
  slots : Array (Option (Nat × α))
  sent : Nat
  live : Bool

/-- What a receiver finds in a channel. -/
inductive Receipt (α : Type) where
  | item (value : α)
  | lagged (count : Nat)
  | pending
  | ended

namespace Channel

variable {α : Type}

def ofSize (size : Nat) : Channel α := ⟨Array.replicate size none, 0, true⟩

/-- The number of values that the channel holds. -/
def size (c : Channel α) : Nat := c.slots.size

/-- Sends a value. It takes the slot of the oldest one. -/
def send (c : Channel α) (value : α) : Channel α :=
  { c with
    slots := c.slots.setIfInBounds (c.sent % c.size) (some (c.sent, value))
    sent := c.sent + 1 }

def finish (c : Channel α) : Channel α := { c with live := false }

/-- Looks for value number `next`, and says which number the receiver wants then. -/
def receive (c : Channel α) (next : Nat) : Nat × Receipt α :=
  match (c.slots[next % c.size]?).bind id with
  | some (number, value) =>
    if number = next then (next + 1, .item value)
    else if next < number then (c.sent - c.size, .lagged (c.sent - c.size - next))
    else (next, if c.live then .pending else .ended)
  | none => (next, if c.live then .pending else .ended)

end Channel

end Roomcast.Store

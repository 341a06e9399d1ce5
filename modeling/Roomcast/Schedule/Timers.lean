/-!
# Timers

A clock that stands still until it is told to move, and the timers set on it. Timers ring in the
order of their times; of several with the same time, the one set first rings first.
-/

namespace Roomcast.Schedule

/-- A clock and its timers. A timer is named by what it is set for. -/
structure Timers (τ : Type) where
  /-- The time. -/
  now : Nat
  /-- The timers that have not rung, with their times, in the order in which they were set. -/
  pending : List (Nat × τ)
  /-- The timers that have rung and that nobody has noticed. -/
  rung : List τ

namespace Timers

variable {τ : Type} [DecidableEq τ]

def start : Timers τ := ⟨0, [], []⟩

def set (c : Timers τ) (delay : Nat) (t : τ) : Timers τ :=
  { c with pending := c.pending ++ [(c.now + delay, t)] }

/-- Whether a timer is set and has not rung. -/
def isSet (c : Timers τ) (t : τ) : Bool := c.pending.any (·.2 = t)

def hasRung (c : Timers τ) (t : τ) : Bool := c.rung.contains t

def clear (c : Timers τ) (t : τ) : Timers τ :=
  { c with pending := c.pending.filter (·.2 ≠ t), rung := c.rung.filter (· ≠ t) }

/-- The time of the next timer that rings no later than `limit`. -/
def next? (c : Timers τ) (limit : Nat) : Option Nat :=
  ((c.pending.map (·.1)).filter (· ≤ limit)).min?

def moveTo (c : Timers τ) (time : Nat) : Timers τ := { c with now := max c.now time }

/-- Lets one of the timers ring whose time has come: the first by time, then by setting. -/
def ring? (c : Timers τ) : Option (Timers τ) :=
  (c.next? c.now).bind fun time =>
    (c.pending.find? (·.1 = time)).map fun timer =>
      { c with pending := c.pending.erase timer, rung := c.rung ++ [timer.2] }

end Timers

end Roomcast.Schedule

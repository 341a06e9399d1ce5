import Roomcast.Schedule.Timers

/-!
# Schedules

A system of tasks that act on a common state runs in a fixed order. A task that can go on stands in
a queue; the first one runs until it cannot, and then those that can go on by now and stand nowhere
in the queue yet are appended to it. When the queue is empty the system is at rest. Time passes only
at rest, from one timer to the next.
-/

namespace Roomcast.Schedule

/-- A system of tasks. -/
class System (σ : Type) (τ : outParam Type) where
  /-- The next step of a task, if it can go on. -/
  step? : σ → τ → Option σ
  /-- All tasks, in the order in which they are noticed. -/
  tasks : σ → List τ
  /-- The clock. -/
  timers : σ → Timers τ
  /-- Changes the clock. -/
  setTimers : σ → Timers τ → σ

variable {σ τ : Type} [DecidableEq τ] [System σ τ]

def canStep (s : σ) (t : τ) : Bool := (System.step? s t).isSome

/-- Lets a task run until it cannot, for at most `fuel` steps. -/
def runTask : Nat → σ → τ → σ
  | 0, s, _ => s
  | fuel + 1, s, t =>
    match System.step? s t with
    | none => s
    | some s => runTask fuel s t

/-- The queue, with the tasks that can go on and do not stand in it appended. -/
def enlist (s : σ) (queue : List τ) : List τ :=
  queue ++ (System.tasks s).filter fun t => !queue.contains t && canStep s t

/-- Lets the tasks of a queue run, and those that they wake, for at most `fuel` tasks. -/
def settle : Nat → σ → List τ → σ
  | 0, s, _ => s
  | _, s, [] => s
  | fuel + 1, s, t :: rest =>
    let s := runTask (fuel + 1) s t
    settle fuel s (enlist s rest)

/-- Lets the timers ring whose time has come, and queues the tasks that can go on then. -/
def ringAll : Nat → σ → List τ → σ × List τ
  | 0, s, queue => (s, queue)
  | fuel + 1, s, queue =>
    match (System.timers s).ring? with
    | none => (s, queue)
    | some timers =>
      let s := System.setTimers s timers
      ringAll fuel s (enlist s queue)

/-- Lets time pass up to `limit`. At each time at which timers ring the system comes to rest before
time goes on. -/
def advanceTo : Nat → σ → Nat → σ
  | 0, s, _ => s
  | fuel + 1, s, limit =>
    match (System.timers s).next? limit with
    | none => System.setTimers s ((System.timers s).moveTo limit)
    | some time =>
      let s := System.setTimers s ((System.timers s).moveTo time)
      let (s, queue) := ringAll (fuel + 1) s []
      advanceTo fuel (settle (fuel + 1) s queue) limit

/-- More steps than any system takes that comes to rest. -/
def patience : Nat := 1000000

def rest (s : σ) (queue : List τ) : σ := settle patience s queue

/-- Lets a system at rest see an amount of time pass. -/
def advance (s : σ) (amount : Nat) : σ :=
  advanceTo patience s ((System.timers s).now + amount)

end Roomcast.Schedule

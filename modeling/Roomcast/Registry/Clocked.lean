import Roomcast.Registry.Step
import Roomcast.Schedule

/-!
# The registry in time

A registry whose store takes a while to open and to close feeds, and whose collectors wait for their
periods. Readers that wait for an event are tasks too; what they get is kept until somebody asks.
Each task does what the registry lets its party do, so every run is a sequence of the registry's
actions.
-/

namespace Roomcast.Registry

/-- Who goes on by itself: a reader that waits for an event, or a party. -/
inductive Task where
  | reader (h : Reader)
  | party (p : Party)
deriving DecidableEq

/-- A registry, its clock, and how its store behaves. -/
structure Clocked where
  /-- The registry. -/
  registry : Registry
  /-- The clock. -/
  timers : Schedule.Timers Task
  /-- How long it takes to open a feed. -/
  watchDelay : Nat
  /-- How long it takes to close a feed. -/
  closeDelay : Nat
  /-- Whether no feed can be opened. -/
  watchFails : Bool
  /-- What waiting readers have got since somebody last asked, latest first. -/
  woken : List (Reader × Except StreamError Event)

namespace Clocked

def start (capacity channelCapacity watchDelay closeDelay : Nat) : Clocked :=
  ⟨.empty capacity channelCapacity, .start, watchDelay, closeDelay, false, []⟩

def withRegistry (c : Clocked) (r : Registry) : Clocked := { c with registry := r }

/-- What a task does that has to wait for a time: it sets its timer, or, once that has rung or if
there is nothing to wait for, it goes on. -/
def after? (c : Clocked) (t : Task) (delay : Nat) (goOn : Registry → Option Registry) :
    Option Clocked :=
  if c.timers.hasRung t || delay = 0 then
    (goOn c.registry).map fun registry => { c with registry, timers := c.timers.clear t }
  else if c.timers.isSet t then none
  else some { c with timers := c.timers.set delay t }

/-- The error of a store that opens no feeds. -/
def unavailable : StreamError := .feed "store unavailable"

/-- The next step of a reader that waits. -/
def stepReader? (c : Clocked) (h : Reader) : Option Clocked :=
  if c.registry.canResume h then
    match c.registry.resume h with
    | (registry, none) => some { c with registry }
    | (registry, some result) => some { c with registry, woken := (h, result) :: c.woken }
  else none

/-- The next step of a subscriber. It waits while the store opens a feed, and learns only then
whether the store can. -/
def stepSubscriber? (c : Clocked) (i : Nat) : Option Clocked :=
  match c.registry.subscribers[i]? with
  | some { phase := .watching _, .. } =>
    c.after? (.party (.subscriber i)) c.watchDelay
      (·.watched? i (if c.watchFails then some unavailable else none))
  | _ => (c.registry.step? (.subscriber i)).map c.withRegistry

/-- The next step of a puller. It waits while the store closes its feed. -/
def stepPuller? (c : Clocked) (i : Nat) : Option Clocked :=
  match c.registry.streams[i]? with
  | some { puller := .closing, .. } => c.after? (.party (.puller i)) c.closeDelay (·.feedClosed? i)
  | _ => (c.registry.step? (.puller i)).map c.withRegistry

/-- The next step of a shutdown. It takes the steps of its closers. -/
def stepShutdown? (c : Clocked) (i : Nat) : Option Clocked :=
  let own := match c.registry.shutdowns[i]? with
    | some (.closing closers) => closers
    | _ => []
  ((own.findSome? fun j => c.registry.step? (.closer j)).or
    (c.registry.step? (.shutdown i))).map c.withRegistry

/-- The next step of a collector. It waits for its period to pass unless it is told to end, and
takes the steps of its own shutdown. -/
def stepCollector? (c : Clocked) (i : Nat) : Option Clocked :=
  match c.registry.collectors[i]? with
  | some { phase := .sleeping _, period, cancelled := false } =>
    c.after? (.party (.collector i)) period (·.elapsed? i)
  | some { phase := .sleeping _, .. } =>
    (c.registry.step? (.collector i)).map fun registry =>
      { c with registry, timers := c.timers.clear (.party (.collector i)) }
  | some { phase := .stopping shutdown, .. } =>
    (c.stepShutdown? shutdown).or ((c.registry.step? (.collector i)).map c.withRegistry)
  | _ => (c.registry.step? (.collector i)).map c.withRegistry

/-- The next step of a task, if it can go on. -/
def step? (c : Clocked) : Task → Option Clocked
  | .reader h => c.stepReader? h
  | .party (.puller i) => c.stepPuller? i
  | .party (.subscriber i) => c.stepSubscriber? i
  | .party (.closer i) => (c.registry.step? (.closer i)).map c.withRegistry
  | .party (.shutdown i) => c.stepShutdown? i
  | .party (.collector i) => c.stepCollector? i

/-- Whether a closer acts as part of a shutdown. -/
def inShutdown (r : Registry) (closer : Nat) : Bool :=
  r.shutdowns.any fun s =>
    match s with
    | .closing closers => closers.contains closer
    | _ => false

/-- Whether a shutdown acts as part of a collector. -/
def inCollector (r : Registry) (shutdown : Nat) : Bool :=
  r.collectors.any fun c =>
    match c.phase with
    | .stopping own => own = shutdown
    | _ => false

def tasks (c : Clocked) : List Task :=
  let r := c.registry
  r.readers.map .reader ++
    (List.range r.streams.size).map (.party ∘ .puller) ++
    (List.range r.subscribers.size).map (.party ∘ .subscriber) ++
    ((List.range r.closers.size).filter fun i => !inShutdown r i).map (.party ∘ .closer) ++
    ((List.range r.shutdowns.size).filter fun i => !inCollector r i).map (.party ∘ .shutdown) ++
    (List.range r.collectors.size).map (.party ∘ .collector)

instance : Schedule.System Clocked Task where
  step? := step?
  tasks := tasks
  timers c := c.timers
  setTimers c timers := { c with timers }

/-- Gives up a subscriber, and with it the wait for its feed. -/
def abort (c : Clocked) (i : Nat) : Clocked :=
  match c.registry.abort? i with
  | none => c
  | some registry => { c with registry, timers := c.timers.clear (.party (.subscriber i)) }

/-- What waiting readers have got since somebody last asked, first one first. -/
def takeWoken (c : Clocked) : Clocked × List (Reader × Except StreamError Event) :=
  ({ c with woken := [] }, c.woken.reverse)

def opened (c : Clocked) : Nat := c.registry.streams.size

def closed (c : Clocked) : Nat :=
  c.registry.streams.foldl (fun n s => match s.puller with | .ended => n + 1 | _ => n) 0

end Clocked

end Roomcast.Registry

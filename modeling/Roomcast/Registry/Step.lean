import Roomcast.Registry.Collector
import Roomcast.Registry.Reader
import Roomcast.Registry.Subscriber

/-!
# Steps of the registry

Everything that can happen to a registry is an `Action`: a party goes on by itself, or something
comes from outside, such as a call, an event, or the answer of the store. A party acts only when it
can, so an action may be impossible. `Registry.perform?` is the whole transition relation.
-/

namespace Roomcast.Registry

/-- A party that goes on by itself. -/
inductive Party where
  | puller (stream : Nat)
  | subscriber (i : Nat)
  | closer (i : Nat)
  | shutdown (i : Nat)
  | collector (i : Nat)
deriving DecidableEq

/-- The next step of a party, if it can go on. -/
def step? (r : Registry) : Party → Option Registry
  | .puller i => r.stepPuller? i
  | .subscriber i => r.stepSubscriber? i
  | .closer i => r.stepCloser? i
  | .shutdown i => r.stepShutdown? i
  | .collector i => r.stepCollector? i

/-- The next step of a party over a store that opens and closes feeds at once. -/
def stepAtOnce? (r : Registry) : Party → Option Registry
  | .subscriber i => (r.stepSubscriber? i).or (r.watched? i none)
  | .puller i => (r.stepPuller? i).or (r.feedClosed? i)
  | p => r.step? p

def parties (r : Registry) : List Party :=
  (List.range r.streams.size).map .puller ++ (List.range r.subscribers.size).map .subscriber ++
    (List.range r.closers.size).map .closer ++ (List.range r.shutdowns.size).map .shutdown ++
    (List.range r.collectors.size).map .collector

def emit? (r : Registry) (e : Event) : Option Registry :=
  (r.store.emit? e).map fun store => { r with store }

def endFeed (r : Registry) (room : Uuid) : Registry := { r with store := r.store.closeRoom room }

/-- Something that happens to a registry. -/
inductive Action where
  | step (p : Party)
  | subscribe (room : Uuid)
  | abort (i : Nat)
  | watched (i : Nat) (failure : Option StreamError)
  | feedClosed (stream : Nat)
  | emit (e : Event)
  | endFeed (room : Uuid)
  | fault (room : Uuid) (f : Fault)
  | shutdown
  | collect (period : Nat) (cancelled : Bool)
  | cancelCollector (i : Nat)
  | elapsed (i : Nat)
  | poll (h : Reader) (cancelled : Bool)
  | beginRead (h : Reader) (cancelled : Bool)
  | cancelRead (h : Reader)
  | resume (h : Reader)
  | abandon (h : Reader)
  | leave (h : Reader)
  | drop (h : Reader)

/-- What an action leads to, if it is possible. -/
def perform? (r : Registry) : Action → Option Registry
  | .step p => r.step? p
  | .subscribe room => some (r.subscribe room)
  | .abort i => r.abort? i
  | .watched i failure => r.watched? i failure
  | .feedClosed stream => r.feedClosed? stream
  | .emit e => r.emit? e
  | .endFeed room => some (r.endFeed room)
  | .fault room f => some (r.injectFault room f)
  | .shutdown => some r.shutdown
  | .collect period cancelled => some (r.collect period cancelled)
  | .cancelCollector i => some (r.cancelCollector i)
  | .elapsed i => r.elapsed? i
  | .poll h cancelled => some (r.poll h cancelled).1
  | .beginRead h cancelled => some (r.beginRead h cancelled)
  | .cancelRead h => some (r.cancelRead h)
  | .resume h => some (r.resume h).1
  | .abandon h => some (r.abandon h)
  | .leave h => some (r.leave h)
  | .drop h => some (r.drop h)

end Roomcast.Registry

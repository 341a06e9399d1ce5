import Roomcast.Proofs.View
import Roomcast.Registry.Step

/-!
# What can happen to a registry

`Move` says once what a single change of a registry can be, with everything that was checked before
it. Each action of the registry is a sequence of moves, and all but one kind are a single move: only
a collector reclaims several entries at once. What every move keeps therefore holds in every state
of every run.

A run is a list of actions. `Passes` says which states it goes through, and `reads` which events a
reader has got from it.
-/

namespace Roomcast

namespace Registry

/-- The entry whose lock a subscriber has, or has asked for. -/
def Subscribing.lock? : Subscribing → Option Nat
  | .queued entry | .watching entry | .starting entry _ => some entry
  | _ => none

def Subscribing.entry? : Subscribing → Option Nat
  | .arriving entry | .queued entry | .watching entry | .starting entry _ | .removing entry =>
    some entry
  | _ => none

def Subscribing.reader? : Subscribing → Option Reader
  | .done (.ok h) => some h
  | _ => none

/-- An entry from which nobody can get a reader: it is retired, or its window is closed. -/
def Dead (r : Registry) (x : Entry) : Prop :=
  x.retired = true ∨
    ∃ t, x.stream = some t ∧ ∀ st, r.streams[t]? = some st → st.room.isClosed = true

/-- The reader that is used by an action, and what is done in its window. -/
def Action.use? : Action → Option (Reader × Room.Op Event)
  | .poll h cancelled => some (h, .poll h.cursor cancelled)
  | .beginRead h cancelled => some (h, .beginRead h.cursor cancelled)
  | .cancelRead h => some (h, .cancel h.cursor)
  | .resume h => some (h, .resume h.cursor)
  | .abandon h => some (h, .abandon h.cursor)
  | .leave h => some (h, .leave h.cursor)
  | .drop h => some (h, .drop h.cursor)
  | _ => none

/-- Whether an action is one of a collector, or tells a collector something. -/
def Action.isPatrol : Action → Bool
  | .step (.collector _) | .collect .. | .cancelCollector _ | .elapsed _ => true
  | _ => false

def Stream.perform (st : Stream) (op : Room.Op Event) : Stream :=
  { st with room := (st.room.perform op).1 }

/-- The registry with a new stream of a room, over the store in which its feed was opened. -/
def openStream (r : Registry) (room : Uuid) (store : Store) (feed : Store.Feed) : Registry :=
  { r with store, streams := r.streams.push ⟨room, .empty r.capacity, feed, none, .pulling⟩ }

inductive Stream.Pull (store : Store) (st : Stream) : Stream → Prop
  /-- The window is closed. -/
  | cut (pulling : st.puller = .pulling) (closed : st.room.isClosed = true) :
      Pull store st { st with puller := .stopping }
  /-- The feed takes the puller down. -/
  | crash (pulling : st.puller = .pulling) (running : st.room.isClosed = false)
      (fault : st.fault = some .crash) :
      Pull store st { st with fault := none, puller := .crashed }
  /-- The feed fails. -/
  | fail {err : StreamError} (pulling : st.puller = .pulling) (running : st.room.isClosed = false)
      (fault : st.fault = some (.error err)) :
      Pull store st { st with fault := none, puller := .stopping }
  /-- The feed has an event. -/
  | item {feed : Store.Feed} {e : Event} (pulling : st.puller = .pulling)
      (running : st.room.isClosed = false) (sound : st.fault = none)
      (got : store.poll st.feed = (feed, some (.ok e))) :
      Pull store st { st with feed, puller := .holding e }
  /-- The feed has ended or has lost events. -/
  | finish {feed : Store.Feed} {err : StreamError} (pulling : st.puller = .pulling)
      (running : st.room.isClosed = false) (sound : st.fault = none)
      (got : store.poll st.feed = (feed, some (.error err))) :
      Pull store st { st with feed, puller := .stopping }
  /-- An event gets into the window. -/
  | push {e : Event} {room : Room Event} (holding : st.puller = .holding e)
      (appended : st.room.append e = .ok room) :
      Pull store st { st with room, puller := .pulling }
  /-- The window takes no event. -/
  | refuse {e : Event} {err : StreamError} (holding : st.puller = .holding e)
      (failed : st.room.append e = .error err) :
      Pull store st { st with puller := .stopping }
  /-- The puller closes the window. -/
  | stop (stopping : st.puller = .stopping) :
      Pull store st { st.perform .close with puller := .closing }

/-- A step of subscriber `i` to a phase without an entry. -/
inductive Subscriber.Walks (r : Registry) (a : Action) (i : Nat) (s : Subscriber) :
    Subscribing → Prop
  /-- A shutdown has begun. -/
  | refuse (phase : s.phase = .checking ∨ s.phase = .creating) (down : r.down = true) :
      Walks r a i s (.done (.error .shuttingDown))
  /-- No shutdown has begun. -/
  | look (phase : s.phase = .checking) (up : r.down = false) : Walks r a i s .looking
  /-- The room has no entry. -/
  | miss (phase : s.phase = .looking) (new : r.entryOf? s.roomId = none) : Walks r a i s .creating
  /-- A dead entry is not the one of the room any more. -/
  | again {e : Nat} (phase : s.phase = .removing e) (other : r.entryOf? s.roomId ≠ some e) :
      Walks r a i s .checking
  /-- The caller gives up. -/
  | quit (unlocked : s.phase.lock? = none) (waits : ∀ result, s.phase ≠ .done result)
      (called : a = .abort i) : Walks r a i s .aborted

/-- One change of a registry. -/
inductive Move (r : Registry) : Action → Registry → Prop
  /-- Somebody subscribes. -/
  | subscribe (room : Uuid) : Move r (.subscribe room) (r.subscribe room)
  /-- A subscriber that has no lock goes on to a phase without an entry. -/
  | walk {a : Action} {i : Nat} {s : Subscriber} {q : Subscribing}
      (found : r.subscribers[i]? = some s) (walks : s.Walks r a i q) :
      Move r a (r.setSubscriber i q)
  /-- A subscriber finds the entry of its room. -/
  | find {a : Action} {i e : Nat} {s : Subscriber} (found : r.subscribers[i]? = some s)
      (phase : s.phase = .looking ∨ s.phase = .creating) (current : r.entryOf? s.roomId = some e) :
      Move r a (r.setSubscriber i (.arriving e))
  /-- A subscriber makes the entry of its room. -/
  | create {i : Nat} {s : Subscriber} (found : r.subscribers[i]? = some s)
      (phase : s.phase = .creating) (up : r.down = false) (new : r.entryOf? s.roomId = none) :
      Move r (.step (.subscriber i))
        ((r.register s.roomId).setSubscriber i (.arriving r.entries.size))
  /-- A subscriber asks for the lock of its entry. -/
  | ask {a : Action} {i e : Nat} {s : Subscriber} (found : r.subscribers[i]? = some s)
      (phase : s.phase = .arriving e) :
      Move r a ((r.enqueue e (.subscriber i)).setSubscriber i (.queued e))
  /-- A subscriber sees that its entry is dead. -/
  | turnAway {a : Action} {i e : Nat} {s : Subscriber} {x : Entry}
      (found : r.subscribers[i]? = some s) (phase : s.phase = .queued e)
      (here : r.entries[e]? = some x) (head : x.lock.head? = some (.subscriber i))
      (dead : r.Dead x) :
      Move r a ((r.release e (.subscriber i)).setSubscriber i (.removing e))
  /-- A subscriber takes a reader of a stream that runs. -/
  | join {i e t : Nat} {s : Subscriber} {x : Entry} {st : Stream}
      (found : r.subscribers[i]? = some s) (phase : s.phase = .queued e)
      (here : r.entries[e]? = some x) (head : x.lock.head? = some (.subscriber i))
      (live : x.retired = false) (stream : x.stream = some t) (there : r.streams[t]? = some st)
      (running : st.room.isClosed = false) :
      Move r (.step (.subscriber i))
        (((r.modifyStream t (·.perform .join)).release e (.subscriber i)).setSubscriber i
          (.done (.ok ⟨t, st.room.cursors.size⟩)))
  /-- A subscriber asks for a feed. -/
  | watch {a : Action} {i e : Nat} {s : Subscriber} {x : Entry}
      (found : r.subscribers[i]? = some s) (phase : s.phase = .queued e)
      (here : r.entries[e]? = some x) (head : x.lock.head? = some (.subscriber i))
      (live : x.retired = false) (bare : x.stream = none) :
      Move r a (r.setSubscriber i (.watching e))
  /-- A feed is open, and with it a stream. -/
  | watched {i e : Nat} {s : Subscriber} {store : Store} {feed : Store.Feed}
      (found : r.subscribers[i]? = some s) (phase : s.phase = .watching e)
      (opened : r.store.watch? s.roomId = some (store, feed)) :
      Move r (.watched i none)
        (((r.openStream s.roomId store feed).modifyEntry e
          fun x => { x with puller := some r.streams.size }).setSubscriber i
          (.starting e r.streams.size))
  /-- A feed could not be opened. -/
  | fail {i e : Nat} {s : Subscriber} {err : StreamError}
      (found : r.subscribers[i]? = some s) (phase : s.phase = .watching e) (other : err ≠ .closed) :
      Move r (.watched i (some err))
        ((r.release e (.subscriber i)).setSubscriber i (.done (.error err)))
  /-- A feed could not be opened since it has ended already. -/
  | failClosed {i e : Nat} {s : Subscriber}
      (found : r.subscribers[i]? = some s) (phase : s.phase = .watching e) :
      Move r (.watched i (some .closed))
        ((r.release e (.subscriber i)).setSubscriber i (.removing e))
  /-- A subscriber completes the start of a stream and takes its first reader. -/
  | start {i e t : Nat} {s : Subscriber} {st : Stream}
      (found : r.subscribers[i]? = some s) (phase : s.phase = .starting e t)
      (there : r.streams[t]? = some st) (running : st.room.isClosed = false) :
      Move r (.step (.subscriber i))
        ((((r.modifyStream t (·.perform .join)).modifyEntry e
          fun x => { x with stream := some t }).release e (.subscriber i)).setSubscriber i
          (.done (.ok ⟨t, st.room.cursors.size⟩)))
  /-- A subscriber completes the start of a stream whose window is closed already. -/
  | startDead {a : Action} {i e t : Nat} {s : Subscriber}
      (found : r.subscribers[i]? = some s) (phase : s.phase = .starting e t)
      (stopped : ∀ st, r.streams[t]? = some st → st.room.isClosed = true) :
      Move r a (((r.modifyEntry e fun x => { x with stream := some t }).release e
        (.subscriber i)).setSubscriber i (.removing e))
  /-- A subscriber removes the entry of its room. -/
  | remove {i e : Nat} {s : Subscriber} (found : r.subscribers[i]? = some s)
      (phase : s.phase = .removing e) (current : r.entryOf? s.roomId = some e) :
      Move r (.step (.subscriber i)) ((r.unregister s.roomId).setSubscriber i .checking)
  /-- The caller of a subscriber gives up while that has a lock or waits for it. -/
  | abort {i e : Nat} {s : Subscriber} (found : r.subscribers[i]? = some s)
      (phase : s.phase = .queued e ∨ s.phase = .watching e) :
      Move r (.abort i) ((r.release e (.subscriber i)).setSubscriber i .aborted)
  /-- A closer asks for the lock of its entry. -/
  | askToClose {a : Action} {j : Nat} {c : Closer} (found : r.closers[j]? = some c)
      (phase : c.phase = .arriving) :
      Move r a ((r.enqueue c.entry (.closer j)).setCloser j .queued)
  /-- A closer retires its entry. -/
  | retire {a : Action} {j : Nat} {c : Closer} {x : Entry} (found : r.closers[j]? = some c)
      (phase : c.phase = .queued) (here : r.entries[c.entry]? = some x)
      (head : x.lock.head? = some (.closer j)) :
      Move r a (r.retire j c.entry x)
  /-- A closer closes the window of its entry. -/
  | closeWindow {a : Action} {j t : Nat} {c : Closer} {p : Option Nat}
      (found : r.closers[j]? = some c) (phase : c.phase = .stopping p)
      (stream : r.streamOf? c.entry = some t) :
      Move r a ((r.modifyStream t (·.perform .close)).setCloser j (.joining p))
  /-- A closer finds no window to close. -/
  | closeNothing {a : Action} {j : Nat} {c : Closer} {p : Option Nat}
      (found : r.closers[j]? = some c) (phase : c.phase = .stopping p)
      (bare : r.streamOf? c.entry = none) :
      Move r a (r.setCloser j (.joining p))
  /-- A closer sees that the puller of its entry has ended. -/
  | closed {a : Action} {j : Nat} {c : Closer} {p : Option Nat} (found : r.closers[j]? = some c)
      (phase : c.phase = .joining p) (ended : ∀ t, p = some t → r.pullerEnded t = true) :
      Move r a (r.setCloser j .done)
  /-- Somebody calls for a shutdown, or a collector does when it is told to end. -/
  | shutdown {a : Action} (called : a = .shutdown ∨ a.isPatrol = true) : Move r a r.shutdown
  /-- A shutdown forbids subscriptions. -/
  | goDown {a : Action} {k : Nat} (found : r.shutdowns[k]? = some .starting) :
      Move r a ({ r with down := true }.setShutdown k .draining)
  /-- A shutdown takes all entries out of the registry and has them closed. -/
  | drain {k : Nat} (found : r.shutdowns[k]? = some .draining) :
      Move r (.step (.shutdown k))
        ((({ r with registered := [] } : Registry).addClosers
          (r.registered.map (·.2))).setShutdown k
          (.closing ((List.range r.registered.length).map (r.closers.size + ·))))
  /-- The entries of a shutdown are closed. -/
  | drained {a : Action} {k : Nat} {closers : List Nat}
      (found : r.shutdowns[k]? = some (.closing closers)) (done : closers.all r.closerDone = true) :
      Move r a (r.setShutdown k .taking)
  /-- A shutdown takes over the closers of reclaimed entries. -/
  | take {a : Action} {k : Nat} (found : r.shutdowns[k]? = some .taking) :
      Move r a ({ r with reclaims := [] }.setShutdown k (.joining r.reclaims))
  /-- A shutdown ends. -/
  | stop {a : Action} {k : Nat} {closers : List Nat}
      (found : r.shutdowns[k]? = some (.joining closers)) (done : closers.all r.closerDone = true) :
      Move r a (r.setShutdown k .done)
  /-- Something happens to the collectors alone. -/
  | patrol {a : Action} (collectors : Array Collector) (patrols : a.isPatrol = true) :
      Move r a { r with collectors }
  /-- A collector reclaims an entry. -/
  | reclaim {a : Action} {e : Nat} {x : Entry} (here : r.entries[e]? = some x)
      (may : r.reclaimable e = true) (patrols : a.isPatrol = true) : Move r a (r.reclaim e)
  /-- An event is stored. -/
  | emit {e : Event} {store : Store} (stored : r.store.emit? e = some store) :
      Move r (.emit e) { r with store }
  /-- The feeds of a room end. -/
  | endFeed (room : Uuid) : Move r (.endFeed room) (r.endFeed room)
  /-- The feeds of a room fail. -/
  | fault (room : Uuid) (f : Fault) : Move r (.fault room f) (r.injectFault room f)
  /-- A puller goes on. -/
  | pull {t : Nat} {st st' : Stream} (there : r.streams[t]? = some st)
      (went : st.Pull r.store st') :
      Move r (.step (.puller t)) (r.modifyStream t fun _ => st')
  /-- The feed of a stream has closed. -/
  | close {a : Action} {t : Nat} {st : Stream} (there : r.streams[t]? = some st)
      (closing : st.puller = .closing) :
      Move r a (r.modifyStream t fun st => { st with feed := st.feed.close, puller := .ended })
  /-- A reader does something in its window. -/
  | use {a : Action} {h : Reader} {op : Room.Op Event} (used : a.use? = some (h, op)) :
      Move r a (r.modifyStream h.stream (·.perform op))

section

variable {r : Registry} {a : Action} {i : Nat} {s : Subscriber} {q : Subscribing}

/-- A subscriber without an answer has no reader. -/
theorem Subscribing.reader?_of_waits {p : Subscribing} (waits : ∀ result, p ≠ .done result) :
    p.reader? = none := by
  cases p with
  | done result => exact absurd rfl (waits result)
  | _ => rfl

/-- Who walks has no lock and no answer. -/
theorem Subscriber.Walks.free (walks : s.Walks r a i q) :
    s.phase.lock? = none ∧ ∀ result, s.phase ≠ .done result := by
  cases walks with
  | refuse phase =>
      obtain phase | phase := phase <;> rw [phase] <;> exact ⟨rfl, nofun⟩
  | look phase | miss phase | again phase =>
      rw [phase]
      exact ⟨rfl, nofun⟩
  | quit unlocked waits => exact ⟨unlocked, waits⟩

/-- Who walks gets neither an entry nor a reader. -/
theorem Subscriber.Walks.nowhere (walks : s.Walks r a i q) :
    q.entry? = none ∧ q.reader? = none := by
  cases walks <;> exact ⟨rfl, rfl⟩

/-- Who looks for an entry has no lock. -/
theorem Subscribing.unlocked {p : Subscribing} (seeks : p = .looking ∨ p = .creating) :
    p.lock? = none := by
  obtain rfl | rfl := seeks <;> rfl

end

/-- No entry has a stream already while one is started for it. -/
def Fresh (r : Registry) : Prop :=
  ∀ (i : Nat) (s : Subscriber) (e t : Nat), r.subscribers[i]? = some s →
    s.phase = .starting e t → r.streamOf? e = none

/-- A chain of moves that belong to one action. -/
def Moves (r : Registry) (a : Action) (r' : Registry) : Prop :=
  Relation.ReflTransGen (fun r r' => Move r a r') r r'

theorem Move.moves {r r' : Registry} {a : Action} (m : Move r a r') : Moves r a r' :=
  Relation.ReflTransGen.single m

theorem join_eq (room : Room Event) :
    room.join =
      if room.isClosed then .error .closed
      else .ok ((room.perform .join).1, room.cursors.size) := by
  rw [Room.perform]
  rw [Room.join]
  cases room.isClosed <;> rfl

theorem modifyStream_congr {r : Registry} {t : Nat} {f g : Stream → Stream}
    (same : ∀ st, r.streams[t]? = some st → f st = g st) :
    r.modifyStream t f = r.modifyStream t g := by
  rw [modifyStream, modifyStream, modify_congr same]

/-- Who asks a stream for a reader gets one, unless its window is closed. -/
theorem joinStream_eq (r : Registry) (t : Nat) :
    (∃ st, r.streams[t]? = some st ∧ st.room.isClosed = false ∧
      r.joinStream t =
        (r.modifyStream t (·.perform .join), .ok ⟨t, st.room.cursors.size⟩)) ∨
    ((∀ st, r.streams[t]? = some st → st.room.isClosed = true) ∧
      r.joinStream t = (r, .error .closed)) := by
  rw [joinStream]
  cases there : r.streams[t]? with
  | none =>
      refine .inr ⟨fun st found => ?_, rfl⟩
      cases found
  | some st =>
      cases closed : st.room.isClosed with
      | true =>
          refine .inr ⟨fun st' found => ?_, by simp [join_eq, closed]⟩
          rw [← Option.some.inj found]
          exact closed
      | false =>
          refine .inl ⟨st, rfl, closed, ?_⟩
          have same : r.modifyRoom t (fun _ => (st.room.perform .join).1) =
              r.modifyStream t (·.perform .join) := by
            refine modifyStream_congr fun st' found => ?_
            rw [there] at found
            rw [← Option.some.inj found]
            rfl
          simp only [join_eq, closed, Bool.false_eq_true, if_false, same]

/-- A subscriber with the lock of its entry. -/
theorem enter_moves {r : Registry} {i e : Nat} {s : Subscriber} {x : Entry}
    (found : r.subscribers[i]? = some s) (phase : s.phase = .queued e)
    (here : r.entries[e]? = some x) (head : x.lock.head? = some (.subscriber i)) :
    Move r (.step (.subscriber i)) (r.enter i e x) := by
  rw [enter]
  cases gone : x.retired with
  | true => exact .turnAway found phase here head (.inl gone)
  | false =>
      cases stream : x.stream with
      | none => exact .watch found phase here head gone stream
      | some t =>
          obtain ⟨st, there, running, eq⟩ | ⟨stopped, eq⟩ := joinStream_eq r t
          · simp only [Bool.false_eq_true, if_false, eq]
            exact .join found phase here head gone stream there running
          · simp only [Bool.false_eq_true, if_false, eq]
            exact .turnAway found phase here head (.inr ⟨t, stream, stopped⟩)

/-- A subscriber that has started a stream. -/
theorem complete_moves {r : Registry} {i e t : Nat} {s : Subscriber}
    (found : r.subscribers[i]? = some s) (phase : s.phase = .starting e t)
    (fresh : r.streamOf? e = none) : Move r (.step (.subscriber i)) (r.complete i e t) := by
  rw [complete]
  obtain ⟨st, there, running, eq⟩ | ⟨stopped, eq⟩ := joinStream_eq r t
  · have fresh' : (r.modifyStream t (·.perform .join)).streamOf? e = none := fresh
    simp only [eq, fresh']
    exact .start found phase there running
  · simp only [eq, fresh]
    exact .startDead found phase stopped

theorem stepSubscriber?_moves {r r' : Registry} {i : Nat} (fresh : r.Fresh)
    (went : r.stepSubscriber? i = some r') : Move r (.step (.subscriber i)) r' := by
  rw [stepSubscriber?] at went
  cases found : r.subscribers[i]? with
  | none => simp [found] at went
  | some s =>
      simp only [found] at went
      cases phase : s.phase with
      | checking =>
          simp only [phase, Option.some.injEq] at went
          subst went
          cases down : r.down with
          | true => exact .walk found (.refuse (.inl phase) down)
          | false => exact .walk found (.look phase down)
      | looking =>
          cases current : r.entryOf? s.roomId with
          | none =>
              simp only [phase, current, Option.some.injEq] at went
              subst went
              exact .walk found (.miss phase current)
          | some e =>
              simp only [phase, current, Option.some.injEq] at went
              subst went
              exact .find found (.inl phase) current
      | creating =>
          cases down : r.down with
          | true =>
              simp only [phase, down, if_true, Option.some.injEq] at went
              subst went
              exact .walk found (.refuse (.inr phase) down)
          | false =>
              cases current : r.entryOf? s.roomId with
              | none =>
                  simp only [phase, down, current, Bool.false_eq_true, if_false,
                    Option.some.injEq] at went
                  subst went
                  exact .create found phase down current
              | some e =>
                  simp only [phase, down, current, Bool.false_eq_true, if_false,
                    Option.some.injEq] at went
                  subst went
                  exact .find found (.inr phase) current
      | arriving e =>
          simp only [phase, Option.some.injEq] at went
          subst went
          exact .ask found phase
      | queued e =>
          simp only [phase] at went
          split_ifs at went with holds
          obtain ⟨x, here, rfl⟩ := Option.map_eq_some_iff.1 went
          refine enter_moves found phase here ?_
          simpa [Registry.holds, here] using holds
      | starting e t =>
          simp only [phase, Option.some.injEq] at went
          subst went
          exact complete_moves found phase (fresh i s e t found phase)
      | removing e =>
          simp only [phase, Option.some.injEq] at went
          subst went
          by_cases current : r.entryOf? s.roomId = some e
          · rw [if_pos current]
            exact .remove found phase current
          · rw [if_neg current]
            exact .walk found (.again phase current)
      | watching e => simp [phase] at went
      | done result => simp [phase] at went
      | aborted => simp [phase] at went

theorem watched?_moves {r r' : Registry} {i : Nat} {failure : Option StreamError}
    (went : r.watched? i failure = some r') : Move r (.watched i failure) r' := by
  rw [watched?] at went
  cases found : r.subscribers[i]? with
  | none => simp [found] at went
  | some s =>
      simp only [found] at went
      cases phase : s.phase with
      | watching e =>
          cases failure with
          | none =>
              simp only [phase] at went
              obtain ⟨⟨store, feed⟩, opened, rfl⟩ := Option.map_eq_some_iff.1 went
              exact .watched found phase opened
          | some err =>
              simp only [phase, Option.some.injEq] at went
              subst went
              by_cases closed : err = .closed
              · subst closed
                exact .failClosed found phase
              · have eq : r.conclude i e (.error err) =
                    (r.release e (.subscriber i)).setSubscriber i (.done (.error err)) := by
                  cases err <;> first | rfl | exact absurd rfl closed
                rw [eq]
                exact .fail found phase closed
      | _ => simp [phase] at went

theorem abort?_moves {r r' : Registry} {i : Nat} (went : r.abort? i = some r') :
    Move r (.abort i) r' := by
  rw [abort?] at went
  cases found : r.subscribers[i]? with
  | none => simp [found] at went
  | some s =>
      simp only [found] at went
      cases phase : s.phase with
      | queued e =>
          simp only [phase, Option.some.injEq] at went
          subst went
          exact .abort found (.inl phase)
      | watching e =>
          simp only [phase, Option.some.injEq] at went
          subst went
          exact .abort found (.inr phase)
      | starting e t => simp [phase] at went
      | done result => simp [phase] at went
      | aborted => simp [phase] at went
      | checking | looking | creating | arriving e | removing e =>
          simp only [phase, Option.some.injEq] at went
          subst went
          exact .walk found (.quit (by rw [phase]; rfl) (by rw [phase]; exact nofun) rfl)

theorem stepCloser?_moves {r r' : Registry} {a : Action} {j : Nat}
    (went : r.stepCloser? j = some r') : Move r a r' := by
  rw [stepCloser?] at went
  cases found : r.closers[j]? with
  | none => simp [found] at went
  | some c =>
      simp only [found] at went
      cases phase : c.phase with
      | arriving =>
          simp only [phase, Option.some.injEq] at went
          subst went
          exact .askToClose found phase
      | queued =>
          simp only [phase] at went
          split_ifs at went with holds
          obtain ⟨x, here, rfl⟩ := Option.map_eq_some_iff.1 went
          exact .retire found phase here (by simpa [Registry.holds, here] using holds)
      | stopping p =>
          cases stream : r.streamOf? c.entry with
          | none =>
              simp only [phase, stream, Option.some.injEq] at went
              subst went
              exact .closeNothing found phase stream
          | some t =>
              simp only [phase, stream, Option.some.injEq] at went
              subst went
              exact .closeWindow found phase stream
      | joining p =>
          cases p with
          | none =>
              simp only [phase, Option.some.injEq] at went
              subst went
              exact .closed found phase fun t eq => by cases eq
          | some t =>
              simp only [phase] at went
              split_ifs at went with ended
              obtain rfl := Option.some.inj went
              refine .closed found phase fun t' eq => ?_
              rw [← Option.some.inj eq]
              exact ended
      | done => simp [phase] at went

theorem stepShutdown?_moves {r r' : Registry} {k : Nat} (went : r.stepShutdown? k = some r') :
    Move r (.step (.shutdown k)) r' := by
  rw [stepShutdown?] at went
  cases found : r.shutdowns[k]? with
  | none => simp [found] at went
  | some phase =>
      cases phase with
      | starting =>
          simp only [found, Option.some.injEq] at went
          subst went
          exact .goDown found
      | draining =>
          simp only [found, Option.some.injEq, List.length_map] at went
          subst went
          exact .drain found
      | closing closers =>
          simp only [found] at went
          split_ifs at went with done
          obtain rfl := Option.some.inj went
          exact .drained found done
      | taking =>
          simp only [found, Option.some.injEq] at went
          subst went
          exact .take found
      | joining closers =>
          simp only [found] at went
          split_ifs at went with done
          obtain rfl := Option.some.inj went
          exact .stop found done
      | done => simp [found] at went

/-- A collector reclaims its candidates one after the other. -/
theorem foldl_reclaim_chain {R : Registry → Registry → Prop}
    (reclaims : ∀ {r : Registry} {e : Nat} {x : Entry}, r.entries[e]? = some x →
      r.reclaimable e = true → R r (r.reclaim e)) (r : Registry) (candidates : List Nat) :
    Relation.ReflTransGen R r (candidates.foldl reclaim r) := by
  induction candidates generalizing r with
  | nil => exact .refl
  | cons e rest ih =>
      refine Relation.ReflTransGen.trans ?_ (ih (r.reclaim e))
      cases here : r.entries[e]? with
      | none => rw [reclaim, here]
      | some x =>
          by_cases may : r.reclaimable e = true
          · exact .single (reclaims here may)
          · have same : r.reclaim e = r := by simp [reclaim, here, may]
            rw [same]

theorem stepCollector?_moves {r r' : Registry} {i : Nat} (went : r.stepCollector? i = some r') :
    Moves r (.step (.collector i)) r' := by
  rw [stepCollector?] at went
  cases found : r.collectors[i]? with
  | none => simp [found] at went
  | some c =>
      simp only [found] at went
      cases phase : c.phase with
      | checking =>
          simp only [phase, Option.some.injEq] at went
          subst went
          exact (Move.patrol _ rfl).moves
      | scanning =>
          simp only [phase, Option.some.injEq] at went
          subst went
          exact (Move.patrol _ rfl).moves
      | sleeping candidates =>
          simp only [phase] at went
          split_ifs at went with cancelled
          obtain rfl := Option.some.inj went
          exact (Move.shutdown (.inr rfl)).moves.tail (Move.patrol _ rfl)
      | reclaiming candidates =>
          simp only [phase, Option.some.injEq] at went
          subst went
          exact (foldl_reclaim_chain (fun here may => .reclaim here may rfl) r candidates).tail
            (Move.patrol _ rfl)
      | stopping shutdown =>
          simp only [phase] at went
          split_ifs at went with done
          obtain rfl := Option.some.inj went
          exact (Move.patrol _ rfl).moves
      | done result => simp [phase] at went

theorem elapsed?_moves {r r' : Registry} {i : Nat} (went : r.elapsed? i = some r') :
    Move r (.elapsed i) r' := by
  rw [elapsed?] at went
  split at went
  · obtain rfl := Option.some.inj went
    exact .patrol _ rfl
  · cases went

theorem Stream.step?_pull {store : Store} {st st' : Stream} (went : st.step? store = some st') :
    st.Pull store st' := by
  rw [Stream.step?] at went
  cases phase : st.puller with
  | pulling =>
      simp only [phase, Stream.pull?] at went
      split_ifs at went with closed
      · obtain rfl := Option.some.inj went
        exact .cut phase closed
      · have running : st.room.isClosed = false := by simpa using closed
        split at went
        case h_1 fault =>
          obtain rfl := Option.some.inj went
          exact .crash phase running fault
        case h_2 fault =>
          obtain rfl := Option.some.inj went
          exact .fail phase running fault
        case h_3 sound =>
          split at went
          case h_1 => cases went
          case h_2 got =>
            obtain rfl := Option.some.inj went
            exact .item phase running sound got
          case h_3 got =>
            obtain rfl := Option.some.inj went
            exact .finish phase running sound got
  | holding e =>
      simp only [phase, Option.some.injEq, Stream.push] at went
      cases appended : st.room.append e with
      | ok room =>
          simp only [appended] at went
          subst went
          exact .push phase appended
      | error err =>
          simp only [appended] at went
          subst went
          exact .refuse phase appended
  | stopping =>
      simp only [phase, Option.some.injEq] at went
      subst went
      exact .stop phase
  | closing | ended | crashed => simp [phase] at went

theorem stepPuller?_moves {r r' : Registry} {t : Nat} (went : r.stepPuller? t = some r') :
    Move r (.step (.puller t)) r' := by
  obtain ⟨st', stepped, rfl⟩ := Option.map_eq_some_iff.1 went
  obtain ⟨st, there, stepped⟩ := Option.bind_eq_some_iff.1 stepped
  exact .pull there (Stream.step?_pull stepped)

theorem feedClosed?_moves {r r' : Registry} {a : Action} {t : Nat}
    (went : r.feedClosed? t = some r') : Move r a r' := by
  rw [feedClosed?] at went
  split at went
  case h_1 there =>
    obtain rfl := Option.some.inj went
    exact .close there rfl
  case h_2 => cases went

/-- A read changes nothing but the window of its reader. -/
theorem readWith_eq {r : Registry} {h : Reader}
    {f : Room Event → Nat → Room Event × Option (Except StreamError Event)} {op : Room.Op Event}
    (does : ∀ room, (f room h.cursor).1 = (room.perform op).1) :
    (r.readWith h f).1 = r.modifyStream h.stream (·.perform op) := by
  rw [readWith, roomOf?]
  cases there : r.streams[h.stream]? with
  | none =>
      have same : r.streams.modify h.stream (·.perform op) = r.streams :=
        modify_eq_self fun st found => by
          rw [there] at found
          cases found
      rw [modifyStream, same]
      rfl
  | some st =>
      refine modifyStream_congr fun st' found => ?_
      obtain rfl : st = st' := Option.some.inj (there.symm.trans found)
      rw [Stream.perform, does]

/-- Using a reader is always possible, and changes nothing but its window. -/
theorem perform?_use {r : Registry} {a : Action} {h : Reader} {op : Room.Op Event}
    (used : a.use? = some (h, op)) :
    r.perform? a = some (r.modifyStream h.stream (·.perform op)) := by
  cases a with
  | poll | resume =>
      obtain ⟨rfl, rfl⟩ := Prod.mk.inj (Option.some.inj used)
      exact congrArg some (readWith_eq fun room => rfl)
  | beginRead | cancelRead | abandon | leave | drop =>
      obtain ⟨rfl, rfl⟩ := Prod.mk.inj (Option.some.inj used)
      rfl
  | _ => cases used

/-- An action of the registry that is no step of a collector is a single move. -/
theorem perform?_move {r r' : Registry} {a : Action} (fresh : r.Fresh)
    (other : ∀ i, a ≠ .step (.collector i)) (did : r.perform? a = some r') : Move r a r' := by
  cases used : a.use? with
  | some use =>
      rw [perform?_use used] at did
      obtain rfl := Option.some.inj did
      exact .use used
  | none =>
      cases a with
      | step p =>
          cases p with
          | puller t => exact stepPuller?_moves did
          | subscriber i => exact stepSubscriber?_moves fresh did
          | closer j => exact stepCloser?_moves did
          | shutdown k => exact stepShutdown?_moves did
          | collector i => exact absurd rfl (other i)
      | abort i => exact abort?_moves did
      | watched i failure => exact watched?_moves did
      | feedClosed t => exact feedClosed?_moves did
      | elapsed i => exact elapsed?_moves did
      | emit e =>
          obtain ⟨store, stored, rfl⟩ := Option.map_eq_some_iff.1 did
          exact .emit stored
      | subscribe room =>
          obtain rfl := Option.some.inj did
          exact .subscribe room
      | endFeed room =>
          obtain rfl := Option.some.inj did
          exact .endFeed room
      | fault room f =>
          obtain rfl := Option.some.inj did
          exact .fault room f
      | shutdown =>
          obtain rfl := Option.some.inj did
          exact .shutdown (.inl rfl)
      | collect period cancelled =>
          obtain rfl := Option.some.inj did
          exact .patrol _ rfl
      | cancelCollector i =>
          obtain rfl := Option.some.inj did
          exact .patrol _ rfl
      | _ => cases used

/-- An action of the registry is a sequence of moves. -/
theorem perform?_moves {r r' : Registry} {a : Action} (fresh : r.Fresh)
    (did : r.perform? a = some r') : Moves r a r' := by
  by_cases collects : ∃ i, a = .step (.collector i)
  · obtain ⟨i, rfl⟩ := collects
    exact stepCollector?_moves did
  · exact (perform?_move fresh (fun i eq => collects ⟨i, eq⟩) did).moves

/-- Does one thing after the other, if each is possible when its turn comes. -/
def run? (r : Registry) : List Action → Option Registry
  | [] => some r
  | a :: acts => (r.perform? a).bind fun r => r.run? acts

theorem run?_append (r : Registry) (acts more : List Action) :
    r.run? (acts ++ more) = (r.run? acts).bind fun r => r.run? more := by
  induction acts generalizing r with
  | nil => rfl
  | cons a acts ih =>
      simp only [List.cons_append, run?, Option.bind_assoc, ih]

theorem run?_snoc {r r'' : Registry} {acts : List Action} {a : Action} :
    r.run? (acts ++ [a]) = some r'' ↔
      ∃ r', r.run? acts = some r' ∧ r'.perform? a = some r'' := by
  simp [run?_append, run?, Option.bind_eq_some_iff]

/-- What holds at the beginning of a run and is kept by each action holds at its end. -/
theorem run?_induction {P : List Action → Registry → Prop} {r₀ : Registry} (start : P [] r₀)
    (next : ∀ acts a r r', r₀.run? acts = some r → P acts r → r.perform? a = some r' →
      P (acts ++ [a]) r') :
    ∀ {acts : List Action} {r : Registry}, r₀.run? acts = some r → P acts r := by
  intro acts
  induction acts using List.reverseRecOn with
  | nil =>
      intro r ran
      obtain rfl := Option.some.inj ran
      exact start
  | append_singleton acts a ih =>
      intro r' ran
      obtain ⟨r, before, did⟩ := run?_snoc.1 ran
      exact next acts a r r' before (ih before) did

/-- A run from a registry goes through a state. -/
def Passes (r : Registry) (acts : List Action) (r' : Registry) : Prop :=
  ∃ before, before <+: acts ∧ r.run? before = some r'

/-- The states of a run that is longer by one action are those of the run before, and its last. -/
theorem passes_snoc {r₀ r r' : Registry} {acts : List Action} {a : Action}
    (ran : r₀.run? (acts ++ [a]) = some r) (passed : r₀.Passes (acts ++ [a]) r') :
    r₀.Passes acts r' ∨ r' = r := by
  obtain ⟨before, inside, reached⟩ := passed
  obtain rfl | earlier := List.prefix_concat_iff.1 inside
  · exact .inr (Option.some.inj (reached.symm.trans ran))
  · exact .inl ⟨before, earlier, reached⟩

def readBy? (r : Registry) (h : Reader) : Action → Option Event
  | .poll h' cancelled => if h' = h then (r.poll h cancelled).2.bind Except.toOption else none
  | .resume h' => if h' = h then (r.resume h).2.bind Except.toOption else none
  | _ => none

/-- What is seen of the actions of a run, first one first. -/
def seen {α : Type} (see : Registry → Action → Option α) (r : Registry) : List Action → List α
  | [] => []
  | a :: acts => (see r a).toList ++ ((r.perform? a).map fun r => seen see r acts).getD []

theorem seen_snoc {α : Type} {r r' : Registry} {acts : List Action}
    (see : Registry → Action → Option α) (a : Action) (ran : r.run? acts = some r') :
    seen see r (acts ++ [a]) = seen see r acts ++ (see r' a).toList := by
  induction acts generalizing r with
  | nil =>
      obtain rfl := Option.some.inj ran
      cases did : r.perform? a <;> simp [seen, did]
  | cons b acts ih =>
      obtain ⟨r₁, did, rest⟩ := Option.bind_eq_some_iff.1 ran
      simp [seen, did, ih rest]

def reads (r : Registry) (h : Reader) (acts : List Action) : List Event :=
  seen (fun r a => r.readBy? h a) r acts

theorem reads_snoc {r r' : Registry} {acts : List Action} (h : Reader) (a : Action)
    (ran : r.run? acts = some r') :
    r.reads h (acts ++ [a]) = r.reads h acts ++ (r'.readBy? h a).toList :=
  seen_snoc _ a ran

end Registry

end Roomcast

import Roomcast.Peer.Session
import Roomcast.Schedule

/-!
# The service

The service lets guests into rooms and runs a session for each. A guest first gets a reader of the
room; from that moment on no event of the room escapes its session, however long the media channel
takes to open. A service that has been stopped still lets guests in, but their sessions end at once.

A service is a system of tasks: the parties of its registry, the visits of guests that wait for a
reader, and the sessions.
-/

namespace Roomcast

open Peer

namespace Service

/-- Who goes on by itself. -/
inductive Task where
  | party (p : Registry.Party)
  | visit (i : Nat)
  | session (i : Nat)
deriving DecidableEq

/-- Somebody who wants to join a room. -/
structure Guest where
  userId : Uuid
  roomId : Uuid
  link : Link
  pace : Pace
  media : Bool

/-- How far a guest is. -/
inductive Visit where
  | waiting (subscriber : Nat) (guest : Guest)
  | refused (e : StreamError)
  | seated (session : Nat)

end Service

/-- Sessions over a common registry. -/
structure Service where
  hub : Hub
  timers : Schedule.Timers Service.Task
  /-- What opening a media channel leads to, if there is a media service. -/
  connector : Option (Except SignalError Unit)
  stopped : Bool
  visits : Array Service.Visit
  sessions : Array Session

namespace Service

def start (hub : Hub) (connector : Option (Except SignalError Unit)) : Service :=
  { hub, timers := .start, connector, stopped := false, visits := #[], sessions := #[] }

def onRegistry (s : Service) (f : Registry → Registry) : Service :=
  { s with hub := s.hub.onRegistry f }

def modifySession (s : Service) (i : Nat) (f : Session → Session) : Service :=
  { s with sessions := s.sessions.modify i f }

/-- Lets a guest in, or at least tries to, and numbers the visit. -/
def receive (s : Service) (guest : Guest) : Service × Nat :=
  let subscriber := s.hub.registry.subscribers.size
  ({ s.onRegistry (·.subscribe guest.roomId) with
    visits := s.visits.push (.waiting subscriber guest) }, s.visits.size)

/-- The session of a guest that has got a reader. It waits for a media channel only if the guest
wants one and there is a media service. -/
def admission (s : Service) (guest : Guest) (reader : Registry.Reader) : Session :=
  let session := { Session.connecting guest.userId guest.roomId guest.link reader guest.pace with
    cancelled := s.stopped }
  if guest.media && s.connector.isSome then session else session.serve none s.timers.now

/-- The next step of a visit, if it can go on. -/
def stepVisit? (s : Service) (i : Nat) : Option Service :=
  match s.visits[i]? with
  | some (.waiting subscriber guest) =>
    match s.hub.registry.subscribers[subscriber]? with
    | some { phase := .done (.ok reader), .. } =>
      some { s with
        visits := s.visits.modify i fun _ => .seated s.sessions.size
        sessions := s.sessions.push (s.admission guest reader) }
    | some { phase := .done (.error e), .. } =>
      some { s with visits := s.visits.modify i fun _ => .refused e }
    | _ => none
  | _ => none

/-- Sets the timer of a session to the time at which it goes on by itself. -/
def wind (s : Service) (i : Nat) : Service :=
  let timers := s.timers.clear (.session i)
  { s with
    timers := match (s.sessions[i]?).bind (·.wakeAt?) with
      | some time =>
        if timers.now < time then timers.set (time - timers.now) (.session i) else timers
      | none => timers }

/-- The next step of a session, if it can go on. The media service answers at once. -/
def stepSession? (s : Service) (i : Nat) : Option Service :=
  (s.sessions[i]?).bind fun session =>
    match session.stage, s.connector with
    | .connecting, some result =>
      let session := session.connected (result.map fun _ => .fresh) s.timers.now
      some ((s.modifySession i fun _ => session).wind i)
    | _, _ =>
      (session.step? s.hub s.timers.now).map fun (hub, session) =>
        ({ s with hub }.modifySession i fun _ => session).wind i

/-- The next step of a task, if it can go on. -/
def step? (s : Service) : Task → Option Service
  | .party p => (s.hub.registry.stepAtOnce? p).map fun registry => s.onRegistry fun _ => registry
  | .visit i => s.stepVisit? i
  | .session i => s.stepSession? i

def tasks (s : Service) : List Task :=
  s.hub.registry.parties.map .party ++ (List.range s.visits.size).map .visit ++
    (List.range s.sessions.size).map .session

instance : Schedule.System Service Task where
  step? := step?
  tasks := tasks
  timers s := s.timers
  setTimers s timers := { s with timers }

def rest (s : Service) : Service := Schedule.rest s (Schedule.enlist s [])

/-- Something arrives on the link of a session. -/
def arrive (s : Service) (i : Nat) (a : Arrival) : Service :=
  s.modifySession i fun session => { session with link := session.link.arrive a }

/-- The media service sends a signal to a session, or fails to. -/
def signal (s : Service) (i : Nat) (a : Except SignalError Signal) : Service :=
  s.modifySession i fun session => { session with media := session.media.map (·.arrive a) }

def stopSession (s : Service) (i : Nat) : Service :=
  s.modifySession i fun session => { session with cancelled := true }

/-- Tells every session to end, now and from now on. -/
def stop (s : Service) : Service :=
  { s with
    stopped := true
    sessions := s.sessions.map fun session => { session with cancelled := true } }

end Service

end Roomcast

import Roomcast.Hub
import Roomcast.Peer.Heartbeat
import Roomcast.Peer.Media
import Roomcast.Peer.Request

/-!
# Sessions

A session ties a client to a room. Four loops act side by side: one receives what the client asks
for, one pings it, one passes signals from the media service on, and one passes the events of the
room on. Each loop is a small automaton, and between two of its steps any other loop may act.

When one loop ends, for whatever reason, the session is cancelled, and then every loop may quit
wherever it stands. Once all have ended the session leaves its room, closes its media channel, and
closes its link, in this order. A session whose media channel cannot be opened never starts its
loops.
-/

namespace Roomcast.Peer

/-- The loops of a session. -/
inductive Loop where
  | receiving
  | beating
  | relaying
  | forwarding
deriving DecidableEq

/-- The states of the loop that receives. -/
inductive Receiving where
  | waiting
  | passing (s : Signal)
  | publishing (e : Event) (reply : Frame)
  | replying (reply : Frame)
  | ended

/-- The states of the loop that passes signals on. -/
inductive Relaying where
  | waiting
  | writing (s : Signal)
  | ended

/-- The states of the loop that passes events on. -/
inductive Forwarding where
  | idle
  | reading
  | writing (e : Event)
  | ended

/-- How far a session is. -/
inductive Stage where
  /-- It waits for its media channel. -/
  | connecting
  /-- It has no media channel and is about to close its link. -/
  | refused
  /-- It has closed its link without having started, and is about to leave its room. -/
  | dismissed
  /-- Its loops act, or have ended and it is about to leave its room. -/
  | serving
  /-- It has left its room and is about to close its media channel. -/
  | left
  /-- It is about to close its link. -/
  | hungUp
  | ended
deriving DecidableEq

/-- One client in one room. -/
structure Session where
  userId : Uuid
  roomId : Uuid
  link : Link
  reader : Registry.Reader
  media : Option Media
  stage : Stage
  cancelled : Bool
  receiving : Receiving
  heartbeat : Heartbeat
  relaying : Relaying
  forwarding : Forwarding

/-- The code with which a link is closed. -/
def normalClosure : Nat := 1000

/-- The reason given when a session has ended. -/
def peerClosed : String := "Peer closed."

/-- The reason given when a session could not start. -/
def mediaUnavailable : String := "Media service unavailable."

namespace Session

/-- A session that waits for its media channel. -/
def connecting (userId roomId : Uuid) (link : Link) (reader : Registry.Reader) (pace : Pace) :
    Session :=
  { userId, roomId, link, reader, media := none, stage := .connecting, cancelled := false
    receiving := .waiting, heartbeat := .begin pace 0, relaying := .waiting, forwarding := .idle }

/-- Starts the loops at a time. Without a media channel there are no signals to pass on. -/
def serve (s : Session) (media : Option Media) (now : Nat) : Session :=
  { s with
    media
    stage := .serving
    heartbeat := .begin s.heartbeat.pace now
    relaying := if media.isSome then .waiting else .ended }

def connected (s : Session) (result : Except SignalError Media) (now : Nat) : Session :=
  match result with
  | .ok media => s.serve (some media) now
  | .error _ => { s with stage := .refused }

def hasEnded (s : Session) : Loop → Bool
  | .receiving => match s.receiving with | .ended => true | _ => false
  | .beating => s.heartbeat.ended
  | .relaying => match s.relaying with | .ended => true | _ => false
  | .forwarding => match s.forwarding with | .ended => true | _ => false

/-- The session with one loop at its end. -/
def stopLoop (s : Session) : Loop → Session
  | .receiving => { s with receiving := .ended }
  | .beating => { s with heartbeat := s.heartbeat.stop }
  | .relaying => { s with relaying := .ended }
  | .forwarding => { s with forwarding := .ended }

/-- A loop ends by itself, and with it the session. -/
def endLoop (s : Session) (l : Loop) : Session := { s.stopLoop l with cancelled := true }

/-- Sends a frame to the client, as the last part of a turn of a loop. -/
def write (s : Session) (l : Loop) (f : Frame) (goOn : Session → Session) : Session :=
  match s.link.send f.render with
  | .ok link => goOn { s with link }
  | .error _ => s.endLoop l

/-- Makes the event that a request asks for, and the reply to it. -/
def publish (s : Session) (hub : Hub) (id : Option String) (payload : Payload)
    (reply : Event → Frame) : Hub × Session :=
  let (hub, e) := hub.newEvent s.roomId s.userId payload
  (hub, { s with receiving := .publishing e ((reply e).inResponseTo id) })

/-- Takes a text from the client. What concerns only this text does not end the session. -/
def take (s : Session) (hub : Hub) (text : String) : Hub × Session :=
  match Request.read s.media.isSome text with
  | .error e => (hub, if e.isRecoverable then s else s.endLoop .receiving)
  | .ok none => (hub, s)
  | .ok (some (_, .relay signal)) => (hub, { s with receiving := .passing signal })
  | .ok (some (id, .publish state)) =>
    s.publish hub id ⟨Event.stateKind, state.toValue⟩ fun _ => .ofState state
  | .ok (some (id, .say note)) => s.publish hub id ⟨Event.textKind, note.toValue⟩ .ofEvent

/-- The next step of the loop that receives. -/
def stepReceiving? (s : Session) (hub : Hub) : Option (Hub × Session) :=
  match s.receiving with
  | .waiting =>
    s.link.receive?.map fun (link, got) =>
      let s := { s with link }
      match got with
      | none => (hub, s)
      | some (.ok text) => s.take hub text
      | some (.error _) => (hub, s.endLoop .receiving)
  | .passing signal =>
    s.media.map fun media =>
      match media.send signal with
      | .ok media => (hub, { s with media := some media, receiving := .waiting })
      | .error _ => (hub, s.endLoop .receiving)
  | .publishing e reply =>
    match hub.emit e with
    | .ok hub => some (hub, { s with receiving := .replying reply })
    | .error _ => some (hub, s.endLoop .receiving)
  | .replying reply =>
    some (hub, s.write .receiving reply fun s => { s with receiving := .waiting })
  | .ended => none

/-- The next step of the loop that pings. -/
def stepBeating? (s : Session) (now : Nat) : Option Session :=
  (s.heartbeat.step? s.link now).map fun (heartbeat, link) =>
    { s with heartbeat, link, cancelled := s.cancelled || heartbeat.ended }

/-- The next step of the loop that passes signals on. Those that are not understood are left out. -/
def stepRelaying? (s : Session) : Option Session :=
  match s.relaying with
  | .waiting =>
    (s.media.bind (·.receive?)).map fun (media, got) =>
      let s := { s with media := some media }
      match got with
      | .ok signal => { s with relaying := .writing signal }
      | .error (.unknown _) => s
      | .error _ => s.endLoop .relaying
  | .writing signal =>
    some (s.write .relaying (.ofSignal signal) fun s => { s with relaying := .waiting })
  | .ended => none

/-- The registry in which the read of a session goes on. Once the session is cancelled the read has
been given up. -/
def withRead (s : Session) (hub : Hub) : Registry :=
  if s.cancelled then hub.registry.cancelRead s.reader else hub.registry

/-- The next step of the loop that passes events on. Those that clients do not understand are left
out. -/
def stepForwarding? (s : Session) (hub : Hub) : Option (Hub × Session) :=
  match s.forwarding with
  | .idle =>
    some (hub.onRegistry (·.beginRead s.reader s.cancelled), { s with forwarding := .reading })
  | .reading =>
    if (s.withRead hub).canResume s.reader then
      let (registry, got) := (s.withRead hub).resume s.reader
      let hub := { hub with registry }
      some <| match got with
      | none => (hub, s)
      | some (.error _) => (hub, s.endLoop .forwarding)
      | some (.ok e) =>
        match showEvent e with
        | .ok e => (hub, { s with forwarding := .writing e })
        | .error _ => (hub, { s with forwarding := .idle })
    else none
  | .writing e =>
    some (hub, s.write .forwarding (.ofEvent e) fun s => { s with forwarding := .idle })
  | .ended => none

/-- The next step of a loop, if it can go on. -/
def stepLoop? (s : Session) (hub : Hub) (now : Nat) : Loop → Option (Hub × Session)
  | .receiving => s.stepReceiving? hub
  | .beating => (s.stepBeating? now).map (hub, ·)
  | .relaying => s.stepRelaying?.map (hub, ·)
  | .forwarding => s.stepForwarding? hub

/-- A loop of a cancelled session quits, if it has not ended. A read that it has begun is abandoned,
unless the loop sees before that the read has failed. -/
def quitLoop? (s : Session) (hub : Hub) (l : Loop) : Option (Hub × Session) :=
  if s.cancelled && !s.hasEnded l then
    let hub := match l, s.forwarding with
      | .forwarding, .reading => hub.onRegistry (·.abandon s.reader)
      | _, _ => hub
    some (hub, s.stopLoop l)
  else none

def loopsEnded (s : Session) : Bool :=
  s.hasEnded .receiving && s.hasEnded .beating && s.hasEnded .relaying && s.hasEnded .forwarding

/-- The next step by which a session comes to its end, if it can go on. Nothing that fails on the
way stops it. -/
def finish? (s : Session) (hub : Hub) : Option (Hub × Session) :=
  match s.stage with
  | .refused =>
    some (hub,
      { s with link := (s.link.close normalClosure mediaUnavailable).1, stage := .dismissed })
  | .dismissed => some (hub.onRegistry (·.leave s.reader), { s with stage := .ended })
  | .serving =>
    if s.loopsEnded then some (hub.onRegistry (·.leave s.reader), { s with stage := .left })
    else none
  | .left => some (hub, { s with media := s.media.map (·.close.1), stage := .hungUp })
  | .hungUp =>
    some (hub, { s with link := (s.link.close normalClosure peerClosed).1, stage := .ended })
  | .connecting | .ended => none

/-- What a session can do by itself. -/
inductive Move where
  /-- A loop takes a step. -/
  | loop (l : Loop)
  /-- A loop quits. -/
  | quit (l : Loop)
  /-- The session comes closer to its end. -/
  | finish

/-- What a move leads to, if it is possible. -/
def move? (s : Session) (hub : Hub) (now : Nat) : Move → Option (Hub × Session)
  | .loop l => if s.stage = .serving then s.stepLoop? hub now l else none
  | .quit l => if s.stage = .serving then s.quitLoop? hub l else none
  | .finish => s.finish? hub

/-- The loops in the order in which they are looked at. -/
def loops : List Loop := [.receiving, .beating, .relaying, .forwarding]

/-- The moves of a session in the order in which they are tried. Loops that are to end do. -/
def moves (s : Session) : List Move :=
  loops.map (if s.cancelled then .quit else .loop) ++ [.finish]

/-- The first move of a session that is possible. -/
def step? (s : Session) (hub : Hub) (now : Nat) : Option (Hub × Session) :=
  s.moves.findSome? (s.move? hub now)

/-- When a session can go on, if nothing happens to it before. -/
def wakeAt? (s : Session) : Option Nat :=
  if s.stage = .serving then s.heartbeat.wakeAt? s.link else none

end Session

end Roomcast.Peer

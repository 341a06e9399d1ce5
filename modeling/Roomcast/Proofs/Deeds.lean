import Roomcast.Proofs.Readers
import Roomcast.Proofs.Serving

/-!
# What a session does

A session acts on the world outside in two ways. It does something to its client, to the media
service or to the other sessions, which is a `Deed`, and it uses the registry, which is an action
like those of everybody else. Each of its moves is one deed and one action at most.

`Went` says all that a loop can do, and `Did` all that a session can do whose loops have begun. What
is true of a session at all times is shown by going through these cases.
-/

namespace Roomcast.Peer

variable {hub hub' : Hub} {s s' : Session}

/-- Something that a session does to the world outside. -/
inductive Deed where
  /-- One of its loops sends a frame to the client. -/
  | wrote (l : Loop) (f : Frame)
  /-- It publishes an event. -/
  | emitted (e : Event)
  /-- It passes a signal on to the media service. -/
  | relayed (signal : Signal)
  /-- It leaves its room. -/
  | left
  /-- It closes its media channel. -/
  | hungUp
  /-- It closes its link. -/
  | closed

namespace Deed

def ofEffect : Effect → Deed
  | .relayed signal => relayed signal
  | .emitted e => emitted e
  | .replied f => wrote .receiving f

/-- Whether the deed is one of those with which a session ends. -/
def isClosing : Deed → Bool
  | left | hungUp | closed => true
  | wrote .. | emitted _ | relayed _ => false

def writing? : Deed → Option (Loop × Frame)
  | wrote l f => some (l, f)
  | _ => none

/-- What the loop that receives has done, if it is its deed. -/
def effect? : Deed → Option Effect
  | wrote .receiving f => some (.replied f)
  | emitted e => some (.emitted e)
  | relayed signal => some (.relayed signal)
  | _ => none

@[simp] theorem effect?_ofEffect (e : Effect) : (ofEffect e).effect? = some e := by
  cases e <;> rfl

@[simp] theorem isClosing_ofEffect (e : Effect) : (ofEffect e).isClosing = false := by
  cases e <;> rfl

end Deed

namespace Effect

/-- The action that an effect is for the registry. -/
def act? : Effect → Option Registry.Action
  | emitted e => some (.emit e)
  | relayed _ | replied _ => none

theorem perform?_act {e : Effect} (performed : e.perform? hub s = some (hub', s')) :
    hub.registry.run? e.act?.toList = some hub'.registry := by
  cases e with
  | relayed | replied =>
      obtain ⟨_, _, same⟩ := Option.map_eq_some_iff.1 performed
      cases same
      rfl
  | emitted e =>
      obtain ⟨_, emitted, same⟩ := Option.map_eq_some_iff.1 performed
      cases same
      rw [Hub.emit] at emitted
      split at emitted
      · cases emitted
      · split at emitted
        case h_1 => cases emitted
        case h_2 registry stored =>
          cases emitted
          show (hub.registry.emit? e).bind _ = _
          rw [stored]
          rfl

theorem perform?_streams {e : Effect} (performed : e.perform? hub s = some (hub', s')) :
    hub'.registry.streams = hub.registry.streams := by
  have acted := perform?_act performed
  cases e with
  | relayed | replied => exact congrArg _ (Option.some.inj acted).symm
  | emitted e =>
      obtain ⟨registry, stored, same⟩ := Option.bind_eq_some_iff.1 acted
      obtain ⟨_, _, rfl⟩ := Option.map_eq_some_iff.1 stored
      rw [← Option.some.inj same]

/-- An effect concerns the link and the media channel only, and neither what waits in the channel
nor whether they have been closed. -/
theorem perform?_frame {e : Effect} (performed : e.perform? hub s = some (hub', s')) :
    ∃ link media, s' = { s with link, media } ∧ link.closes = s.link.closes ∧
      media.map (fun m => (m.inbox, m.closes)) = s.media.map fun m => (m.inbox, m.closes) := by
  cases e with
  | relayed signal =>
      obtain ⟨media, able, same⟩ := Option.map_eq_some_iff.1 performed
      obtain ⟨old, channel, sent⟩ := Option.bind_eq_some_iff.1 able
      cases same
      refine ⟨_, _, rfl, rfl, ?_⟩
      rw [Media.send] at sent
      split at sent <;> cases sent
      rw [channel]
      rfl
  | emitted e =>
      obtain ⟨_, _, same⟩ := Option.map_eq_some_iff.1 performed
      cases same
      exact ⟨_, _, rfl, rfl, rfl⟩
  | replied f =>
      obtain ⟨link, sent, same⟩ := Option.map_eq_some_iff.1 performed
      cases same
      refine ⟨_, _, rfl, ?_, rfl⟩
      rw [Link.send] at sent
      split at sent <;> cases sent
      rfl

end Effect

def Link.push (l : Link) (f : Frame) : Link := { l with sent := l.sent ++ [f.render] }

/-- Nothing has been sent on a link, and it has not been closed. -/
structure Link.Still (l l' : Link) : Prop where
  sent : l'.sent = l.sent
  closes : l'.closes = l.closes

theorem Link.Still.receive {l l' : Link} {got : Option (Except LinkError String)}
    (received : l.receive? = some (l', got)) : l.Still l' := by
  rw [Link.receive?] at received
  split at received
  · cases received
  · obtain same := congrArg Prod.fst (Option.some.inj received)
    dsimp only at same
    split at same <;> exact same ▸ ⟨rfl, rfl⟩

theorem Heartbeat.step?_still {h h' : Heartbeat} {l l' : Link} {now : Nat}
    (stepped : h.step? l now = some (h', l')) : h.ended = false ∧ l.Still l' := by
  rw [Heartbeat.step?, Option.ite_none_left_eq_some, Bool.not_eq_true] at stepped
  obtain ⟨on, stepped⟩ := stepped
  refine ⟨on, ?_⟩
  split at stepped
  · split at stepped <;> cases stepped
    exact ⟨rfl, rfl⟩
  · split at stepped
    · cases stepped
      exact ⟨rfl, rfl⟩
    · cases stepped
      exact ⟨rfl, rfl⟩
    · split at stepped <;> cases stepped
      exact ⟨rfl, rfl⟩

namespace Session

/-- What a loop does that has a frame to send. -/
def writes? (s : Session) (l : Loop) (f : Frame) : Option Deed :=
  if s.link.sendFailure = none then some (.wrote l f) else none

def deed? (s : Session) (hub : Hub) : Move → Option Deed
  | .loop .receiving => (s.does? hub).map .ofEffect
  | .loop .relaying =>
    match s.relaying with
    | .writing signal => s.writes? .relaying (.ofSignal signal)
    | _ => none
  | .loop .forwarding =>
    match s.forwarding with
    | .writing e => s.writes? .forwarding (.ofEvent e)
    | _ => none
  | .finish =>
    match s.stage with
    | .serving | .dismissed => some .left
    | .left => s.media.map fun _ => .hungUp
    | .hungUp | .refused => some .closed
    | .connecting | .ended => none
  | .loop .beating | .quit _ => none

/-- What a move does with the registry. A read that is given up and fails counts as one that was
given up from the start. -/
def act? (s : Session) (hub : Hub) : Move → Option Registry.Action
  | .loop .receiving => (s.does? hub).bind Effect.act?
  | .loop .forwarding =>
    match s.forwarding with
    | .idle => some (.beginRead s.reader s.cancelled)
    | .reading => some (if s.cancelled then .poll s.reader true else .resume s.reader)
    | .writing _ | .ended => none
  | .quit .forwarding =>
    match s.forwarding with
    | .reading => some (.abandon s.reader)
    | .idle | .writing _ | .ended => none
  | .finish =>
    match s.stage with
    | .serving | .dismissed => some (.leave s.reader)
    | _ => none
  | .loop .beating | .loop .relaying | .quit .receiving | .quit .beating | .quit .relaying => none

/-- What a loop can do, with its deed and its action. -/
inductive Went (hub : Hub) (s : Session) :
    Option Deed → Option Registry.Action → Hub → Session → Prop
  /-- The loop that receives takes something from the link and goes on. -/
  | ponders {hub' : Hub} {link : Link} {q : Receiving} (waits : s.receiving = .waiting)
      (still : s.link.Still link) (on : q ≠ .ended) (same : hub'.registry = hub.registry) :
    Went hub s none none hub' { s with link, receiving := q }
  /-- It brings about an effect. -/
  | performs {e : Effect} {hub' : Hub} {s' : Session} {q : Receiving} (on : s.receiving ≠ .ended)
      (performed : e.perform? hub s = some (hub', s')) (on' : q ≠ .ended) :
    Went hub s (some (.ofEffect e)) e.act? hub' { s' with receiving := q }
  /-- It fails. -/
  | fails {link : Link} (still : s.link.Still link) :
    Went hub s none none hub ({ s with link }.endLoop .receiving)
  /-- The heart beats, or stops. -/
  | beats {h : Heartbeat} {link : Link} (still : s.link.Still link)
      (on : s.heartbeat.ended = false) :
    Went hub s none none hub
      { s with heartbeat := h, link, cancelled := s.cancelled || h.ended }
  /-- The media service has sent a signal. -/
  | hears {m : Media} {rest : List (Except SignalError Signal)} {signal : Signal}
      (waits : s.relaying = .waiting) (channel : s.media = some m)
      (first : m.inbox = .ok signal :: rest) :
    Went hub s none none hub
      { s with media := some { m with inbox := rest }, relaying := .writing signal }
  /-- It has sent something that is not understood. -/
  | overhears {m : Media} {rest : List (Except SignalError Signal)} {what : String}
      (waits : s.relaying = .waiting) (channel : s.media = some m)
      (first : m.inbox = .error (.unknown what) :: rest) :
    Went hub s none none hub { s with media := some { m with inbox := rest } }
  /-- Its channel has failed. -/
  | loses {m : Media} {rest : List (Except SignalError Signal)} {e : SignalError}
      (waits : s.relaying = .waiting) (channel : s.media = some m)
      (first : m.inbox = .error e :: rest) :
    Went hub s none none hub ({ s with media := some { m with inbox := rest } }.endLoop .relaying)
  /-- A signal is sent to the client. -/
  | relays {signal : Signal} (phase : s.relaying = .writing signal) :
    Went hub s (some (.wrote .relaying (.ofSignal signal))) none hub
      { s with link := s.link.push (.ofSignal signal), relaying := .waiting }
  /-- It cannot be sent. -/
  | relayFails {signal : Signal} (phase : s.relaying = .writing signal) :
    Went hub s none none hub (s.endLoop .relaying)
  /-- A read begins. -/
  | begins (phase : s.forwarding = .idle) :
    Went hub s none (some (.beginRead s.reader s.cancelled))
      (hub.onRegistry (·.beginRead s.reader s.cancelled)) { s with forwarding := .reading }
  /-- The read has to wait. -/
  | parks (phase : s.forwarding = .reading)
      (got : (hub.registry.resume s.reader).2 = none) :
    Went hub s none (some (.resume s.reader)) (hub.onRegistry fun r => (r.resume s.reader).1) s
  /-- An event has been read that clients understand. -/
  | reads {e : Event} (phase : s.forwarding = .reading)
      (got : (hub.registry.resume s.reader).2 = some (.ok e)) (known : e.isKnown = true) :
    Went hub s none (some (.resume s.reader)) (hub.onRegistry fun r => (r.resume s.reader).1)
      { s with forwarding := .writing e }
  /-- An event has been read that they do not understand. -/
  | skips {e : Event} (phase : s.forwarding = .reading)
      (got : (hub.registry.resume s.reader).2 = some (.ok e)) (unknown : e.isKnown = false) :
    Went hub s none (some (.resume s.reader)) (hub.onRegistry fun r => (r.resume s.reader).1)
      { s with forwarding := .idle }
  /-- The read has failed. -/
  | misses {err : StreamError} (phase : s.forwarding = .reading)
      (got : (hub.registry.resume s.reader).2 = some (.error err)) :
    Went hub s none (some (.resume s.reader)) (hub.onRegistry fun r => (r.resume s.reader).1)
      (s.endLoop .forwarding)
  /-- The read has been given up, and has failed. -/
  | withdraws {err : StreamError} (told : s.cancelled = true) (phase : s.forwarding = .reading)
      (got : (hub.registry.poll s.reader true).2 = some (.error err)) :
    Went hub s none (some (.poll s.reader true)) (hub.onRegistry fun r => (r.poll s.reader true).1)
      (s.endLoop .forwarding)
  /-- An event is sent to the client. -/
  | forwards {e : Event} (phase : s.forwarding = .writing e) :
    Went hub s (some (.wrote .forwarding (.ofEvent e))) none hub
      { s with link := s.link.push (.ofEvent e), forwarding := .idle }
  /-- It cannot be sent. -/
  | forwardFails {e : Event} (phase : s.forwarding = .writing e) :
    Went hub s none none hub (s.endLoop .forwarding)
  /-- A loop quits while no read is going on, or another loop does. -/
  | quits {l : Loop} (told : s.cancelled = true)
      (rests : l = .forwarding → s.forwarding ≠ .reading) :
    Went hub s none none hub (s.stopLoop l)
  /-- The loop that passes events on quits, and gives up its read. -/
  | abandons (told : s.cancelled = true) (phase : s.forwarding = .reading) :
    Went hub s none (some (.abandon s.reader)) (hub.onRegistry (·.abandon s.reader))
      (s.stopLoop .forwarding)

/-- What a session can do whose loops have begun, with its deed and its action. -/
inductive Did (hub : Hub) (s : Session) :
    Option Deed → Option Registry.Action → Hub → Session → Prop
  | loop {deed : Option Deed} {act : Option Registry.Action} {hub' : Hub} {s' : Session}
      (serving : s.stage = .serving) (went : Went hub s deed act hub' s') :
    Did hub s deed act hub' s'
  /-- It leaves its room when its loops have ended. -/
  | leaves (stage : s.stage = .serving) (all : ∀ l, s.hasEnded l = true) :
    Did hub s (some .left) (some (.leave s.reader)) (hub.onRegistry (·.leave s.reader))
      { s with stage := .left }
  /-- It closes its media channel, if it has one. -/
  | hangsUp (stage : s.stage = .left) :
    Did hub s (s.media.map fun _ => .hungUp) none hub
      { s with media := s.media.map (·.close.1), stage := .hungUp }
  /-- It closes its link. -/
  | closes (stage : s.stage = .hungUp) :
    Did hub s (some .closed) none hub
      { s with link := (s.link.close normalClosure peerClosed).1, stage := .ended }

theorem write_eq (s : Session) (l : Loop) (f : Frame) (goOn : Session → Session) :
    s.write l f goOn =
      if s.link.sendFailure = none then goOn { s with link := s.link.push f } else s.endLoop l := by
  unfold write Link.send Link.push
  cases failure : s.link.sendFailure <;> simp

theorem loopsEnded_iff : s.loopsEnded = true ↔ ∀ l, s.hasEnded l = true := by
  simp only [loopsEnded, Bool.and_eq_true]
  constructor
  · rintro ⟨⟨⟨receiving, beating⟩, relaying⟩, forwarding⟩ l
    cases l <;> assumption
  · intro all
    exact ⟨⟨⟨all _, all _⟩, all _⟩, all _⟩

/-- The loop that receives takes what has arrived first. -/
theorem waiting_went (waits : s.receiving = .waiting)
    (stepped : s.stepReceiving? hub = some (hub', s')) : Went hub s none none hub' s' := by
  rw [stepReceiving?_of_waiting waits] at stepped
  obtain ⟨⟨link, got⟩, received, same⟩ := Option.map_eq_some_iff.1 stepped
  have still := Link.Still.receive received
  cases got with
  | none =>
      cases same
      exact .ponders (q := s.receiving) waits still (by simp [waits]) rfl
  | some got =>
      cases got with
      | error e =>
          cases same
          exact .fails still
      | ok text =>
          obtain ⟨hub₁, q, taken, takes⟩ := take_eq hub (s := { s with link }) waits text
          cases taken.symm.trans same
          refine .ponders waits still takes.goesOn ?_
          obtain same | same := takes.stamped <;> rw [same]

theorem stepReceiving?_went (fits : s.Fits) (stepped : s.stepReceiving? hub = some (hub', s')) :
    Went hub s (s.deed? hub (.loop .receiving)) (s.act? hub (.loop .receiving)) hub' s' := by
  cases due : s.receiving.pending with
  | cons e rest =>
      have on : s.receiving ≠ .ended := by
        intro ended
        rw [ended] at due
        cases due
      rw [stepReceiving?_of_pending hub fits due] at stepped
      cases performed : e.perform? hub s with
      | none =>
          have idle : s.does? hub = none := by simp [does?, due, performed]
          rw [performed] at stepped
          cases stepped
          rw [deed?, act?, idle]
          exact .fails ⟨rfl, rfl⟩
      | some result =>
          have does : s.does? hub = some e := by simp [does?, due, performed]
          rw [performed] at stepped
          cases stepped
          rw [deed?, act?, does]
          exact .performs on performed (Receiving.next_ne_ended due)
  | nil =>
      have idle : s.does? hub = none := by simp [does?, due]
      rw [deed?, act?, idle]
      cases phase : s.receiving with
      | passing | publishing | replying =>
          rw [phase] at due
          cases due
      | ended =>
          rw [stepReceiving?, phase] at stepped
          cases stepped
      | waiting => exact waiting_went phase stepped

theorem stepBeating?_went {now : Nat} (stepped : s.stepBeating? now = some s') :
    Went hub s none none hub s' := by
  obtain ⟨⟨h, link⟩, beaten, rfl⟩ := Option.map_eq_some_iff.1 stepped
  obtain ⟨on, still⟩ := Heartbeat.step?_still beaten
  exact .beats still on

theorem stepRelaying?_went (hub : Hub) (stepped : s.stepRelaying? = some s') :
    Went hub s (s.deed? hub (.loop .relaying)) none hub s' := by
  rw [stepRelaying?] at stepped
  split at stepped
  case h_1 phase =>
    obtain ⟨⟨media, got⟩, received, rfl⟩ := Option.map_eq_some_iff.1 stepped
    obtain ⟨m, channel, taken⟩ := Option.bind_eq_some_iff.1 received
    have idle : s.deed? hub (.loop .relaying) = none := by simp only [deed?, phase]
    rw [idle]
    rw [Media.receive?] at taken
    split at taken
    case h_1 => cases taken
    case h_2 rest first =>
      cases taken
      cases got with
      | ok signal => exact .hears phase channel first
      | error e =>
          cases e with
          | unknown what => exact .overhears phase channel first
          | closed | transport => exact .loses phase channel first
  case h_2 signal phase =>
    obtain rfl := Option.some.inj stepped
    simp only [deed?, phase, writes?]
    rw [write_eq]
    split_ifs
    · exact .relays phase
    · exact .relayFails phase
  case h_3 => cases stepped

theorem stepForwarding?_went (stepped : s.stepForwarding? hub = some (hub', s')) :
    Went hub s (s.deed? hub (.loop .forwarding)) (s.act? hub (.loop .forwarding)) hub' s' := by
  rw [stepForwarding?] at stepped
  split at stepped
  case h_1 phase =>
    cases stepped
    simp only [deed?, act?, phase]
    exact .begins phase
  case h_2 phase =>
    rw [Option.ite_none_right_eq_some] at stepped
    obtain ⟨able, answer⟩ := stepped
    simp only [deed?, act?, phase]
    cases told : s.cancelled with
    | true =>
        rw [withRead_of_told told] at able answer
        obtain ⟨err, err', resumes, polls⟩ := Registry.resume_cancelRead able
        rw [resumes] at answer
        cases answer
        rw [if_pos rfl]
        exact .withdraws told phase polls
    | false =>
        rw [withRead_of_untold told] at answer
        rw [if_neg Bool.false_ne_true]
        dsimp only at answer
        split at answer
        case h_1 got =>
          cases answer
          exact .parks phase got
        case h_2 err got =>
          cases answer
          exact .misses phase got
        case h_3 e got =>
          rw [showEvent] at answer
          cases known : e.isKnown <;> rw [known] at answer <;> cases answer
          · exact .skips phase got known
          · exact .reads phase got known
  case h_3 e phase =>
    obtain ⟨rfl, rfl⟩ := Prod.mk.inj (Option.some.inj stepped)
    simp only [deed?, act?, phase, writes?]
    rw [write_eq]
    split_ifs
    · exact .forwards phase
    · exact .forwardFails phase
  case h_4 => cases stepped

theorem quitLoop?_went {l : Loop} (quits : s.quitLoop? hub l = some (hub', s')) :
    Went hub s none (s.act? hub (.quit l)) hub' s' := by
  unfold quitLoop? at quits
  rw [Option.ite_none_right_eq_some, Bool.and_eq_true] at quits
  obtain ⟨⟨told, _⟩, same⟩ := quits
  cases l with
  | receiving | beating | relaying =>
      cases same
      exact .quits told (by simp)
  | forwarding =>
      simp only [act?]
      cases phase : s.forwarding <;> rw [phase] at same <;> cases same
      · exact .quits told (by simp [phase])
      · exact .abandons told phase
      · exact .quits told (by simp [phase])
      · exact .quits told (by simp [phase])

theorem finish?_did (begun : s.hasBegun = true) (finished : s.finish? hub = some (hub', s')) :
    Did hub s (s.deed? hub .finish) (s.act? hub .finish) hub' s' := by
  rw [finish?] at finished
  rw [hasBegun] at begun
  simp only [deed?, act?]
  split at finished
  case h_3 stage =>
    rw [Option.ite_none_right_eq_some] at finished
    obtain ⟨all, same⟩ := finished
    cases same
    rw [stage]
    exact .leaves stage (loopsEnded_iff.1 all)
  case h_4 stage =>
    cases finished
    rw [stage]
    exact .hangsUp stage
  case h_5 stage =>
    cases finished
    rw [stage]
    exact .closes stage
  case h_6 | h_7 => cases finished
  all_goals
    rename_i stage
    rw [stage] at begun
    cases begun

/-- A session whose loops have begun does nothing but what `Did` tells. -/
theorem move?_did {m : Move} {now : Nat} (fits : s.Fits) (begun : s.hasBegun = true)
    (moved : s.move? hub now m = some (hub', s')) :
    Did hub s (s.deed? hub m) (s.act? hub m) hub' s' := by
  cases m with
  | loop l =>
      rw [move?, Option.ite_none_right_eq_some] at moved
      obtain ⟨serving, stepped⟩ := moved
      cases l with
      | receiving => exact .loop serving (stepReceiving?_went fits stepped)
      | forwarding => exact .loop serving (stepForwarding?_went stepped)
      | beating =>
          obtain ⟨_, beaten, same⟩ := Option.map_eq_some_iff.1 stepped
          cases same
          exact .loop serving (stepBeating?_went beaten)
      | relaying =>
          obtain ⟨_, relayed, same⟩ := Option.map_eq_some_iff.1 stepped
          cases same
          exact .loop serving (stepRelaying?_went hub relayed)
  | quit l =>
      rw [move?, Option.ite_none_right_eq_some] at moved
      exact .loop moved.1 (quitLoop?_went moved.2)
  | finish => exact finish?_did begun moved

variable {deed : Option Deed} {act : Option Registry.Action}

/-- What becomes of the registry is what the action makes of it. -/
theorem Did.registry (did : Did hub s deed act hub' s') :
    hub.registry.run? act.toList = some hub'.registry := by
  cases did with
  | loop serving went =>
      cases went with
      | ponders _ _ _ same => rw [same]; rfl
      | performs _ performed => exact Effect.perform?_act performed
      | _ => rfl
  | _ => rfl

end Session

end Roomcast.Peer

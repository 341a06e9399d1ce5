import Roomcast.Proofs.Occasions

/-!
# What a client asks for

What a text of the client asks for is a list of effects: a signal is passed on to the media service,
or an event is published and then the client is answered, or nothing at all happens. The list
depends on nothing but the text, the seat of the session and the stamp of a new event.

The loop that receives takes a text only when there is nothing left to do for the one before. Each
of its other steps brings about the effect that comes next, or ends the session if this fails.
-/

namespace Roomcast.Peer

variable {hub hub' : Hub} {s s' : Session}

/-- Something that a session does because of a text of its client. -/
inductive Effect where
  /-- It passes a signal on to the media service. -/
  | relayed (signal : Signal)
  /-- It publishes an event. -/
  | emitted (e : Event)
  /-- It answers its client. -/
  | replied (f : Frame)

namespace Effect

/-- What an effect leads to, unless it fails. -/
def perform? (hub : Hub) (s : Session) : Effect → Option (Hub × Session)
  | relayed signal =>
    (s.media.bind fun m => (m.send signal).toOption).map fun m => (hub, { s with media := some m })
  | emitted e => (hub.emit e).toOption.map fun hub => (hub, s)
  | replied f => (s.link.send f.render).toOption.map fun link => (hub, { s with link })

def signal? : Effect → Option Signal
  | relayed signal => some signal
  | _ => none

/-- What an effect leaves alone, and the signals that have been passed on after it. -/
structure Leaves (e : Effect) (s s' : Session) : Prop where
  seat : s'.seat = s.seat
  texts : s'.link.texts = s.link.texts
  signals : s'.media.map (·.sent) = (s.media.map (·.sent)).map (· ++ e.signal?.toList)
  stage : s'.stage = s.stage
  receiving : s'.receiving = s.receiving

theorem leaves {e : Effect} (performed : e.perform? hub s = some (hub', s')) : e.Leaves s s' := by
  have still : s.media.map (·.sent) = (s.media.map (·.sent)).map (· ++ []) := by
    cases s.media <;> simp
  cases e with
  | relayed signal =>
      obtain ⟨media, able, same⟩ := Option.map_eq_some_iff.1 performed
      obtain ⟨old, there, sent⟩ := Option.bind_eq_some_iff.1 able
      cases same
      rw [Media.send] at sent
      split at sent <;> cases sent
      refine ⟨?_, rfl, ?_, rfl, rfl⟩
      · simp [Session.seat, there]
      · simp [there, signal?]
  | emitted e =>
      obtain ⟨hub', emitted, same⟩ := Option.map_eq_some_iff.1 performed
      cases same
      exact ⟨rfl, rfl, still, rfl, rfl⟩
  | replied f =>
      obtain ⟨link, sent, same⟩ := Option.map_eq_some_iff.1 performed
      cases same
      rw [Link.send] at sent
      split at sent <;> cases sent
      exact ⟨rfl, rfl, still, rfl, rfl⟩

end Effect

namespace Session.Seat

variable (p : Seat)

def event (stamp : Stamp) (payload : Payload) : Event :=
  { id := stamp.id, roomId := p.roomId, ownerId := p.userId, createdAt := stamp.createdAt, payload }

/-- A state is published, and answered with itself. A state that has a fault has no effect. -/
def onState (id : Option String) (state : State) (stamp : Stamp) : List Effect :=
  if state.fault? = none then
    [.emitted (p.event stamp ⟨"peerState", state.toValue⟩),
      .replied { requestId := none, responseId := id
                 body := { signal := none, state := some state, note := none, event := none } }]
  else []

/-- A text to the room is published, and answered with the event. One that has a fault has no
effect. -/
def onNote (id : Option String) (note : Note) (stamp : Stamp) : List Effect :=
  if note.fault? = none then
    let e := p.event stamp ⟨"peerMessage", note.toValue⟩
    [.emitted e,
      .replied { requestId := none, responseId := id
                 body := { signal := none, state := none, note := none, event := some e } }]
  else []

/-- What a frame asks for. A signal counts if there is a media channel, and only then; a state comes
before a text to the room. -/
def onFrame (f : Frame) (stamp : Stamp) : List Effect :=
  match f.body.signal, p.media, f.body.state, f.body.note with
  | some signal, true, _, _ => [.relayed signal]
  | _, _, some state, _ => p.onState f.requestId state stamp
  | _, _, none, some note => p.onNote f.requestId note stamp
  | _, _, none, none => []

/-- What a text asks for. One that is no frame asks for nothing. -/
def reaction (text : String) (stamp : Stamp) : List Effect :=
  match Frame.parse? text with
  | none => []
  | some f => p.onFrame f stamp

def effects (stamp : Stamp) : Option String × Request → List Effect
  | (_, .relay signal) => [.relayed signal]
  | (id, .publish state) =>
    [.emitted (p.event stamp ⟨Event.stateKind, state.toValue⟩),
      .replied ((Frame.ofState state).inResponseTo id)]
  | (id, .say note) =>
    let e := p.event stamp ⟨Event.textKind, note.toValue⟩
    [.emitted e, .replied ((Frame.ofEvent e).inResponseTo id)]

def effectsOf (stamp : Stamp) : Except SessionError (Option (Option String × Request)) → List Effect
  | .ok (some request) => p.effects stamp request
  | _ => []

/-- A frame has the effects of its request if there is no fault in it. -/
theorem onFrame_eq (f : Frame) (stamp : Stamp) :
    p.onFrame f stamp =
      match f.request? p.media with
      | none => []
      | some request =>
        if request.fault? = none then p.effects stamp (f.requestId, request) else [] := by
  unfold onFrame Frame.request?
  cases f.body.signal <;> cases p.media <;> cases f.body.state <;> cases f.body.note <;> rfl

/-- A text has the effects of the request that is read from it. -/
theorem reaction_eq (text : String) (stamp : Stamp) :
    p.reaction text stamp = p.effectsOf stamp (Request.read p.media text) := by
  rw [reaction, Request.read]
  cases Frame.parse? text with
  | none => rfl
  | some f =>
      dsimp only
      rw [onFrame_eq]
      cases f.request? p.media with
      | none => rfl
      | some request =>
          cases fault : request.fault? <;> simp [fault, effectsOf]

theorem media_of_relayed {text : String} {stamp : Stamp} {signal : Signal}
    (among : .relayed signal ∈ p.reaction text stamp) : p.media = true := by
  rw [reaction] at among
  split at among
  · cases among
  · unfold onFrame at among
    split at among
    · assumption
    · rw [onState] at among
      split at among <;> simp at among
    · rw [onNote] at among
      split at among <;> simp at among
    · cases among

end Session.Seat

theorem Request.read_recoverable {media : Bool} {text : String} {e : SessionError}
    (read : Request.read media text = .error e) : e.isRecoverable = true := by
  rw [Request.read] at read
  split at read
  · cases read
    rfl
  · split at read
    · cases read
    · split at read <;> cases read
      rfl

/-- What the loop that receives still has to do for the text that it has taken. -/
def Receiving.pending : Receiving → List Effect
  | .waiting | .ended => []
  | .passing signal => [.relayed signal]
  | .publishing e reply => [.emitted e, .replied reply]
  | .replying reply => [.replied reply]

/-- The state of the loop after the first of these effects. -/
def Receiving.next : Receiving → Receiving
  | .passing _ | .replying _ | .waiting => .waiting
  | .publishing _ reply => .replying reply
  | .ended => .ended

theorem Receiving.next_pending (q : Receiving) : q.next.pending = q.pending.tail := by
  cases q <;> rfl

theorem Receiving.next_ne_ended {q : Receiving} {e : Effect} {rest : List Effect}
    (due : q.pending = e :: rest) : q.next ≠ .ended := by
  cases q <;> simp_all [next, pending]

namespace Session

/-- What happens when a text is taken: nothing but that it is known what there is to do. A new event
uses up a stamp. -/
structure Takes (hub : Hub) (s : Session) (text : String) (hub' : Hub) (q : Receiving) : Prop where
  pending : q.pending = s.seat.reaction text (hub.stamps hub.stamped)
  goesOn : q ≠ .ended
  stamped : hub' = hub ∨ hub' = { hub with stamped := hub.stamped + 1 }
  /-- A text that asks for nothing leaves no trace. -/
  idle : s.seat.reaction text (hub.stamps hub.stamped) = [] → hub' = hub ∧ q = .waiting

theorem take_eq (hub : Hub) (waits : s.receiving = .waiting) (text : String) :
    ∃ hub' q, s.take hub text = (hub', { s with receiving := q }) ∧ Takes hub s text hub' q := by
  have asks : s.seat.reaction text (hub.stamps hub.stamped) =
      s.seat.effectsOf (hub.stamps hub.stamped) (Request.read s.media.isSome text) :=
    s.seat.reaction_eq text (hub.stamps hub.stamped)
  have same : ∀ {q : Receiving}, q = s.receiving → { s with receiving := q } = s := by
    rintro _ rfl
    rfl
  rw [take]
  split
  case h_1 e read =>
    rw [read] at asks
    refine ⟨hub, .waiting, ?_, asks.symm, by simp, .inl rfl, fun _ => ⟨rfl, rfl⟩⟩
    rw [Request.read_recoverable read, if_pos rfl, same waits.symm]
  case h_2 read =>
    rw [read] at asks
    exact ⟨hub, .waiting, by rw [same waits.symm], asks.symm, by simp, .inl rfl,
      fun _ => ⟨rfl, rfl⟩⟩
  case h_3 signal read =>
    rw [read] at asks
    refine ⟨hub, .passing signal, rfl, asks.symm, by simp, .inl rfl, fun nothing => ?_⟩
    rw [asks] at nothing
    cases nothing
  case h_4 | h_5 =>
    rename_i read
    rw [read] at asks
    refine ⟨_, _, rfl, asks.symm, by simp, .inr rfl, fun nothing => ?_⟩
    rw [asks] at nothing
    cases nothing

/-- Only a session with a media channel passes signals on. -/
def Fits (s : Session) : Prop :=
  ∀ signal, s.receiving = .passing signal → s.media.isSome = true

/-- A step of the loop brings about the next effect, or the session ends. -/
theorem stepReceiving?_of_pending (hub : Hub) {e : Effect} {rest : List Effect} (fits : s.Fits)
    (due : s.receiving.pending = e :: rest) :
    s.stepReceiving? hub = some (match e.perform? hub s with
      | some (hub, s') => (hub, { s' with receiving := s.receiving.next })
      | none => (hub, s.endLoop .receiving)) := by
  cases phase : s.receiving with
  | waiting | ended =>
      rw [phase] at due
      cases due
  | passing signal =>
      rw [phase] at due
      cases due
      obtain ⟨media, there⟩ := Option.isSome_iff_exists.1 (fits signal phase)
      rw [stepReceiving?, phase, Effect.perform?, there]
      cases sent : media.send signal <;> simp [sent, Except.toOption, Receiving.next]
  | publishing e reply =>
      rw [phase] at due
      cases due
      rw [stepReceiving?, phase, Effect.perform?]
      cases emitted : hub.emit e <;> simp [emitted, Except.toOption, Receiving.next]
  | replying reply =>
      rw [phase] at due
      cases due
      rw [stepReceiving?, phase, Effect.perform?]
      cases sent : s.link.send reply.render <;>
        simp [write, sent, Except.toOption, Receiving.next]

theorem stepReceiving?_of_waiting (waits : s.receiving = .waiting) :
    s.stepReceiving? hub = s.link.receive?.map fun (link, got) =>
      match got with
      | none => (hub, { s with link })
      | some (.ok text) => { s with link }.take hub text
      | some (.error _) => (hub, { s with link }.endLoop .receiving) := by
  unfold stepReceiving?
  split
  case h_1 => rfl
  all_goals simp_all

/-- The session after it has taken what arrived first from its link. -/
def behead (s : Session) (rest : List Arrival) : Session :=
  { s with link := { s.link with inbox := rest } }

theorem stepReceiving?_of_text (hub : Hub) {t : String} {rest : List Arrival}
    (waits : s.receiving = .waiting) (first : s.link.inbox = .text t :: rest) :
    ∃ hub' q, s.stepReceiving? hub = some (hub', { s.behead rest with receiving := q }) ∧
      Takes hub s t hub' q := by
  obtain ⟨hub', q, taken, takes⟩ := take_eq hub (s := s.behead rest) waits t
  refine ⟨hub', q, ?_, takes.pending, takes.goesOn, takes.stamped, takes.idle⟩
  rw [stepReceiving?_of_waiting waits, Link.receive?, first]
  exact congrArg some taken

/-- What arrives beside texts has no effect that a text could have. -/
theorem stepReceiving?_of_other (hub : Hub) {a : Arrival} {rest : List Arrival}
    (waits : s.receiving = .waiting) (first : s.link.inbox = a :: rest) (other : ∀ t, a ≠ .text t) :
    ∃ s', s.stepReceiving? hub = some (hub, s') ∧ Apart s s' [] ∧
      s'.link.sent = s.link.sent := by
  have texts : ∀ {link : Link}, link.inbox = rest → link.texts = s.link.texts ++ [] := by
    intro link same
    rw [List.append_nil, Link.texts, Link.texts, same, first]
    cases a <;> simp at other ⊢
  rw [stepReceiving?_of_waiting waits, Link.receive?, first]
  cases a with
  | text t => exact absurd rfl (other t)
  | ping | pong =>
      exact ⟨_, rfl, ⟨rfl, texts rfl, rfl, .inl rfl, id, id, .inl⟩, rfl⟩
  | goodbye | failure =>
      exact ⟨_, rfl, ⟨rfl, texts rfl, rfl, .inr ⟨rfl, rfl⟩, fun _ => rfl, id, .inl⟩, rfl⟩

theorem move?_receiving {now : Nat} (serving : s.stage = .serving) :
    s.move? hub now (.loop .receiving) = s.stepReceiving? hub := by
  rw [move?, if_pos serving, stepLoop?]

/-- What the next steps of a session do for its client. -/
structure Reacts (hub : Hub) (s : Session) : Prop where
  /-- A text can be taken as soon as there is nothing left to do for the one before. -/
  takes : ∀ (t : String) (rest : List Arrival) (now : Nat), s.stage = .serving →
    s.receiving = .waiting → s.link.inbox = .text t :: rest →
    ∃ hub' q, s.move? hub now (.loop .receiving) =
        some (hub', { s.behead rest with receiving := q }) ∧ Takes hub s t hub' q
  /-- What comes next is done, and nothing else with it. If it fails the session ends. -/
  performs : ∀ (e : Effect) (rest : List Effect) (now : Nat), s.stage = .serving →
    s.receiving.pending = e :: rest →
    ∃ q, q.pending = rest ∧ q ≠ .ended ∧
      s.move? hub now (.loop .receiving) = some (match e.perform? hub s with
        | some (hub, s') => (hub, { s' with receiving := q })
        | none => (hub, s.endLoop .receiving))

/-- The text that the loop that receives takes with its next step. -/
def takes? (s : Session) : Option String :=
  match s.receiving, s.link.inbox with
  | .waiting, .text t :: _ => some t
  | _, _ => none

/-- A step of the loop that receives takes a text, brings about an effect, or does neither. -/
theorem stepReceiving?_cases (stepped : s.stepReceiving? hub = some (hub', s')) :
    (∃ t rest, s.receiving = .waiting ∧ s.link.inbox = .text t :: rest) ∨
      (∃ e rest, s.receiving.pending = e :: rest) ∨
      s.receiving = .waiting ∧ s.takes? = none ∧ hub' = hub ∧ Apart s s' [] ∧
        s'.link.sent = s.link.sent := by
  cases phase : s.receiving with
  | waiting =>
      cases inbox : s.link.inbox with
      | nil =>
          rw [stepReceiving?_of_waiting phase, Link.receive?, inbox] at stepped
          cases stepped
      | cons a rest =>
          by_cases text : ∃ t, a = .text t
          · obtain ⟨t, rfl⟩ := text
            exact .inl ⟨t, rest, rfl, rfl⟩
          · obtain ⟨_, same, apart, sent⟩ :=
              stepReceiving?_of_other hub phase inbox (fun t h => text ⟨t, h⟩)
            rw [same] at stepped
            cases stepped
            have nothing : s.takes? = none := by
              rw [takes?, phase, inbox]
              cases a <;> simp at text ⊢
            exact .inr (.inr ⟨rfl, nothing, rfl, apart, sent⟩)
  | passing | publishing | replying => exact .inr (.inl ⟨_, _, rfl⟩)
  | ended =>
      rw [stepReceiving?, phase] at stepped
      cases stepped

theorem Fits.reacts (fits : s.Fits) : Reacts hub s := by
  constructor
  case takes =>
    intro t rest now serving waits first
    rw [move?_receiving serving]
    exact stepReceiving?_of_text hub waits first
  case performs =>
    intro e rest now serving due
    refine ⟨s.receiving.next, ?_, Receiving.next_ne_ended due, ?_⟩
    · rw [Receiving.next_pending, due, List.tail_cons]
    · rw [move?_receiving serving]
      exact stepReceiving?_of_pending hub fits due

/-- The effect that the loop that receives brings about with its next step. -/
def does? (s : Session) (hub : Hub) : Option Effect :=
  s.receiving.pending.head?.filter fun e => (e.perform? hub s).isSome

end Session

end Roomcast.Peer

import Roomcast.Proofs.Contents
import Roomcast.Proofs.Sending

/-!
# From peer to peer

What one client says to its room is what the others read. A state or a text is read from a frame of
the client and becomes the opaque body of an event; the event is stored, read from the log by the
sessions of the room, and written into frames to their clients. At each of these places the body is
read as what the client has sent, and so is what the reply to the client carries.

Two sessions of one service share the registry. Each is a `Stay` of its own, in which the other is
among those who do something with the registry; they belong together when both have seen the same
done.
-/

namespace Roomcast.Peer

open Json (Decoder)

variable {hub hub' : Hub} {s s' : Session} {deed : Option Deed} {act : Option Registry.Action}

/-- Whoever reads what an event says finds what a request has asked for. -/
def Request.IsSaid : Request → Payload → Prop
  | relay _, _ => False
  | publish s, x => x.kind = Event.stateKind ∧
      ∀ depth, 3 ≤ depth → Decoder.state depth x.body.toTree = some s
  | say n, x => x.kind = Event.textKind ∧
      ∀ depth, 3 ≤ depth → Decoder.note depth x.body.toTree = some n

/-- An event says what a client has asked its session for. -/
structure Carries (p : Session.Seat) (request : Request) (e : Event) : Prop where
  owner : e.ownerId = p.userId
  room : e.roomId = p.roomId
  said : request.IsSaid e.payload

/-- A reply says what the client has asked for. -/
structure Repeats (p : Session.Seat) (id : Option String) (request : Request) (reply : Frame) :
    Prop where
  id : reply.responseId = id
  said : (∃ s, request = .publish s ∧ reply.body.state = some s) ∨
    ∃ n e, request = .say n ∧ reply.body.event = some e ∧ Carries p request e

/-- What a request leads to: an event that others read and a reply that the client reads. -/
structure Speaks (p : Session.Seat) (id : Option String) (request : Request) (e : Event)
    (reply : Frame) : Prop where
  carries : Carries p request e
  known : e.isKnown = true
  shown : Frame.parse? (Frame.ofEvent e).render = some (Frame.ofEvent e)
  answer : Frame.parse? reply.render = some reply
  repeats : Repeats p id request reply

theorem Session.Seat.effects_speaks (p : Session.Seat) (stamp : Stamp) (id : Option String)
    {request : Request} (own : ∀ signal, request ≠ .relay signal) :
    ∃ e reply, p.effects stamp (id, request) = [.emitted e, .replied reply] ∧
      Speaks p id request e reply := by
  cases request with
  | relay signal => exact absurd rfl (own signal)
  | publish s =>
      have plain := s.toValue_plain
      have read : ∀ depth, 3 ≤ depth → Decoder.state depth s.toValue.toTree = some s :=
        fun depth fits => (Decoder.reads_stateValue s).read (plain.shallow.trans fits)
      refine ⟨_, _, rfl, ⟨rfl, rfl, rfl, read⟩, rfl, ?_, Frame.parse?_ofState s id, rfl,
        .inl ⟨s, rfl, rfl⟩⟩
      exact Frame.parse?_ofEvent plain none
  | say n =>
      have plain := n.toValue_plain
      have read : ∀ depth, 3 ≤ depth → Decoder.note depth n.toValue.toTree = some n :=
        fun depth fits => (Decoder.reads_noteValue n).read (plain.shallow.trans fits)
      have carries : Carries p (.say n) (p.event stamp ⟨Event.textKind, n.toValue⟩) :=
        ⟨rfl, rfl, rfl, read⟩
      refine ⟨_, _, rfl, carries, rfl, ?_, Frame.parse?_ofEvent plain id, rfl,
        .inr ⟨n, _, rfl, rfl, carries⟩⟩
      exact Frame.parse?_ofEvent plain none

theorem Deed.effect?_eq_emitted {d : Deed} {e : Event} :
    d.effect? = some (.emitted e) ↔ d = .emitted e := by
  cases d with
  | wrote l f => cases l <;> simp [effect?]
  | _ => simp [effect?]

/-- What a session publishes it has the registry store. -/
theorem Session.Did.emits {e : Event} (did : Did hub s deed act hub' s')
    (emitted : deed = some (.emitted e)) : act = some (.emit e) := by
  cases did with
  | leaves | closes => cases emitted
  | hangsUp => cases media : s.media <;> simp [media] at emitted
  | loop serving went =>
      cases went with
      | @performs e' => cases e' <;> cases emitted; rfl
      | _ => cases emitted

namespace Stay

variable {x y : Stay} {r₀ : Registry} {p : Session.Seat} {before : Option (List Signal)}
  {reader : Registry.Reader} {sent₀ : List String} {acts₀ : List Registry.Action}

/-- All that the session has published has been stored. -/
def Stored (x : Stay) : Prop := ∀ e, Deed.emitted e ∈ x.deeds → Registry.Action.emit e ∈ x.acts

theorem Stored.step (step : Step x y) (h : x.Stored) : y.Stored := by
  intro e among
  cases step with
  | @moves deed act did acts _ deeds =>
      rw [deeds] at among
      rw [acts]
      obtain old | new := List.mem_append.1 among
      · exact List.mem_append_left _ (h e old)
      · rw [did.emits (Option.mem_toList.1 new)]
        exact List.mem_append_right _ (List.mem_singleton_self _)
  | hears _ _ _ acts _ looks | bears _ _ acts _ looks =>
      rw [looks.deeds] at among
      rw [acts]
      exact h e among
  | others a _ _ _ acts _ looks =>
      rw [looks.deeds] at among
      rw [acts]
      exact List.mem_append_left _ (h e among)

/-- What has been published stands in the log of its room. -/
theorem Sends.mem_log {capacity channelCapacity : Nat}
    (sound : Sound (.empty capacity channelCapacity) p before reader x)
    (h : Sends (.empty capacity channelCapacity) p acts₀ sent₀ reader x) (stored : x.Stored)
    {e : Event} (done : .emitted e ∈ x.scene.done) :
    e ∈ x.hub.registry.store.fetch e.roomId := by
  rw [h.done] at done
  obtain ⟨d, among, same⟩ := List.mem_filterMap.1 done
  obtain rfl := Deed.effect?_eq_emitted.1 same
  rw [Registry.run?_log sound.past]
  exact List.mem_filterMap.2 ⟨_, stored e among, by rw [Registry.Action.published?, if_pos rfl]⟩

/-- When the loop that receives waits, all has been done that the texts before have asked for. -/
theorem Sound.done (sound : Sound r₀ p before reader x)
    (waits : x.session.receiving = .waiting) : x.scene.done = x.scene.due p := by
  obtain ⟨missing, whole, _, pending⟩ := sound.kept.inTurn
  obtain rfl : missing = [] := by rw [pending (by simp [waits]), waits, Receiving.pending]
  rw [← whole, List.append_nil]

/-- The events that have been read and that clients understand. -/
def understood (r₀ : Registry) (reader : Registry.Reader) (x : Stay) : List Event :=
  (r₀.reads reader x.acts).filter (·.isKnown)

theorem Sends.mem_sent (h : Sends r₀ p acts₀ sent₀ reader x) {l : Loop} {f : Frame}
    (among : f ∈ x.writtenBy l) : f.render ∈ x.session.link.sent := by
  obtain ⟨w, own, rfl⟩ := List.mem_map.1 among
  rw [h.sent]
  exact List.mem_append_right _ (List.mem_map.2 ⟨w, (List.mem_filter.1 own).1, rfl⟩)

/-- The frame that is written for an event is the frame of this event. -/
theorem Sends.frame_eq (h : Sends r₀ p acts₀ sent₀ reader x) {k : Nat} {e : Event} {f : Frame}
    (read : (understood r₀ reader x)[k]? = some e)
    (written : (x.writtenBy .forwarding)[k]? = some f) : f = .ofEvent e := by
  obtain ⟨inside, here⟩ := List.getElem?_eq_some_iff.1 written
  have frame := List.prefix_iff_getElem?.1 h.events.isPrefix k inside
  rw [here, eventFrames_eq, List.getElem?_map] at frame
  rw [understood] at read
  rw [read] at frame
  exact (Option.some.inj frame).symm

/-- A session at rest has written a frame for every event that came after it had begun, if no event
is on its way. -/
theorem Complete.shows {logged : Nat} (complete : x.Complete r₀ p reader logged)
    (calm : ∀ room, Registry.Action.fault room .crash ∉ x.acts)
    (idle : x.hub.registry.step? (.puller reader.stream) = none) {e : Event}
    (late : e ∈ (x.hub.registry.store.fetch p.roomId).drop logged) (known : e.isKnown = true) :
    ∃ k : Nat, (understood r₀ reader x)[k]? = some e ∧
      (x.writtenBy .forwarding)[k]? = some (.ofEvent e) := by
  obtain ⟨start, bound, all⟩ := complete.log calm idle
  have read : e ∈ r₀.reads reader x.acts := by
    rw [all]
    exact (List.drop_sublist_drop_left _ bound).subset late
  obtain ⟨k, here⟩ := List.mem_iff_getElem?.1 (List.mem_filter.2 ⟨read, known⟩)
  refine ⟨k, here, ?_⟩
  rw [complete.events, eventFrames_eq, List.getElem?_map, here]
  rfl

/-- With each turn the account of what has been done with the registry grows. -/
theorem next?_acts {t : Turn} (happened : x.next? t = some y) : x.acts <+: y.acts := by
  cases t with
  | session o =>
      obtain ⟨_, _, rfl⟩ := Option.map_eq_some_iff.1 happened
      exact List.prefix_append _ _
  | registry a =>
      rw [next?, Option.ite_none_left_eq_some] at happened
      obtain ⟨_, _, happened⟩ := Option.bind_eq_some_iff.1 happened.2
      obtain ⟨_, _, rfl⟩ := Option.map_eq_some_iff.1 happened
      exact List.prefix_append _ _

theorem run?_acts {ts : List Turn} (ran : x.run? ts = some y) : x.acts <+: y.acts := by
  induction ts generalizing x with
  | nil =>
      obtain rfl := Option.some.inj ran
      exact List.prefix_rfl
  | cons t ts ih =>
      rw [run?, List.foldlM_cons] at ran
      obtain ⟨z, happened, ran⟩ := Option.bind_eq_some_iff.1 ran
      exact (next?_acts happened).trans (ih ran)

/-- What happens to one of two sessions that belong together, the other can take as done by others,
as long as nobody else uses its reader. So they go on belonging together. -/
theorem run?_beside {x' : Stay} {ts : List Turn} {p' : Session.Seat}
    {before' : Option (List Signal)} {reader' : Registry.Reader}
    (sound : Sound r₀ p before reader x') (other : Sound r₀ p' before' reader' y)
    (same : x.acts = y.acts) (ran : x.run? ts = some x')
    (unused : ∀ a ∈ x'.acts.drop x.acts.length, ∀ op, a.use? ≠ some (reader', op)) :
    ∃ acts, x'.acts = x.acts ++ acts ∧ (y.afterOthers acts x'.hub.registry).acts = x'.acts ∧
      y.run? (acts.map .registry) = some (y.afterOthers acts x'.hub.registry) := by
  obtain ⟨acts, grown⟩ := run?_acts ran
  have did : y.hub.registry.run? acts = some x'.hub.registry := by
    have past := sound.past
    rw [← grown, same, Registry.run?_append, other.past] at past
    exact past
  rw [← grown, List.drop_left] at unused
  refine ⟨acts, grown.symm, ?_, run?_others did (by rw [other.reader]; exact unused)⟩
  rw [afterOthers, ← same, grown]

/-- What becomes of a request of one client, in its own session and in another. -/
structure Conveyed (r₀ : Registry) (p : Session.Seat) (id : Option String) (request : Request)
    (e : Event) (reply : Frame) (reader : Registry.Reader) (logged : Nat) (x y : Stay) : Prop where
  carries : Carries p request e
  /-- When the session waits for the next text, the event has been published and the reply sent. -/
  done : x.session.receiving = .waiting →
    .emitted e ∈ x.scene.done ∧ .replied reply ∈ x.scene.done
  /-- Both sessions see the same log, and the event stands there as soon as it is published. -/
  shared : y.hub.registry = x.hub.registry
  stored : .emitted e ∈ x.scene.done → e ∈ x.hub.registry.store.fetch p.roomId
  /-- What the other session writes for the event is read by its client. -/
  shown : ∀ (k : Nat) (f : Frame), (understood r₀ reader y)[k]? = some e →
    (y.writtenBy .forwarding)[k]? = some f → f.render ∈ y.session.link.sent ∧
      ∃ g e', Frame.parse? f.render = some g ∧ g.responseId = none ∧ g.body.event = some e' ∧
        Carries p request e'
  /-- It has written it when it is at rest, if the event came after the session had begun and no
  event is on its way. -/
  arrives : ∀ now, (∀ m, y.session.move? y.hub now m = none) → y.session.stage ≠ .ended →
    (∀ room, Registry.Action.fault room .crash ∉ y.acts) →
    y.hub.registry.step? (.puller reader.stream) = none →
    e ∈ (x.hub.registry.store.fetch p.roomId).drop logged →
    ∃ (k : Nat) (f : Frame), (understood r₀ reader y)[k]? = some e ∧
      (y.writtenBy .forwarding)[k]? = some f
  /-- The reply that is sent is read by the client. -/
  answered : .replied reply ∈ x.scene.done → reply.render ∈ x.session.link.sent ∧
    ∃ g, Frame.parse? reply.render = some g ∧ Repeats p id request g

variable {capacity channelCapacity : Nat} {hub₀ : Hub} {acts₁ : List Registry.Action} {hub₁ : Hub}
  {userId₀ userId₁ roomId : Uuid} {link₀ link₁ : Link} {reader₀ reader₁ : Registry.Reader}
  {pace₀ pace₁ : Pace} {media₀ media₁ : Option Media} {now₀ now₁ : Nat} {ts₀ ts₁ : List Turn}

/-- What a client publishes or says is what the other clients of the room read, and what its own
reply repeats: the same tracks or the same text, as its own and in its room. -/
theorem run?_conveyed
    (begins₀ : Begins (.empty capacity channelCapacity) acts₀ hub₀ roomId reader₀)
    (ran₀ : (start acts₀ hub₀ (.connecting userId₀ roomId link₀ reader₀ pace₀) media₀ now₀).run?
      ts₀ = some x)
    (begins₁ : Begins (.empty capacity channelCapacity) acts₁ hub₁ roomId reader₁)
    (ran₁ : (start acts₁ hub₁ (.connecting userId₁ roomId link₁ reader₁ pace₁) media₁ now₁).run?
      ts₁ = some y)
    (same : x.acts = y.acts) {t : String} {stamp : Stamp} (taken : (t, stamp) ∈ x.scene.taken)
    {id : Option String} {request : Request}
    (accepted : Request.read media₀.isSome t = .ok (some (id, request)))
    (own : ∀ signal, request ≠ .relay signal) :
    ∃ e reply, Session.Seat.reaction ⟨roomId, userId₀, media₀.isSome⟩ t stamp =
        [.emitted e, .replied reply] ∧
      Conveyed (.empty capacity channelCapacity) ⟨roomId, userId₀, media₀.isSome⟩ id request e reply
        reader₁ (hub₁.registry.store.fetch roomId).length x y := by
  obtain ⟨sound₀, sends₀, stored⟩ := run?_induction
    (P := fun x => Sends (.empty capacity channelCapacity) ⟨roomId, userId₀, media₀.isSome⟩ acts₀
      link₀.sent reader₀ x ∧ x.Stored)
    (start_sound begins₀) ⟨start_sends begins₀, fun _ none => (List.not_mem_nil none).elim⟩
    (fun _ _ sound _ step h => ⟨h.1.step sound step, h.2.step step⟩) ran₀
  obtain ⟨sound₁, sends₁⟩ := run?_induction (start_sound begins₁) (start_sends begins₁)
    (fun _ _ sound _ step h => h.step sound step) ran₁
  obtain ⟨e, reply, effects, speaks⟩ :=
    Session.Seat.effects_speaks ⟨roomId, userId₀, media₀.isSome⟩ stamp id own
  have shared : y.hub.registry = x.hub.registry := by
    have past := sound₁.past
    rw [← same, sound₀.past] at past
    exact (Option.some.inj past).symm
  have reaction : Session.Seat.reaction ⟨roomId, userId₀, media₀.isSome⟩ t stamp =
      [.emitted e, .replied reply] := by
    rw [Session.Seat.reaction_eq, accepted]
    exact effects
  refine ⟨e, reply, reaction, speaks.carries, ?done, shared, ?stored, ?shown, ?arrives, ?answered⟩
  case done =>
    intro waits
    have due : ∀ effect ∈ [Effect.emitted e, .replied reply], effect ∈ x.scene.done := by
      intro effect among
      rw [sound₀.done waits, Scene.due, List.mem_flatMap]
      exact ⟨(t, stamp), taken, reaction ▸ among⟩
    exact ⟨due _ (by simp), due _ (by simp)⟩
  case stored =>
    intro done
    have here := sends₀.mem_log sound₀ stored done
    rwa [speaks.carries.room] at here
  case shown =>
    intro k f read written
    obtain rfl := sends₁.frame_eq read written
    exact ⟨sends₁.mem_sent (List.mem_of_getElem? written), _, e, speaks.shown, rfl, rfl,
      speaks.carries⟩
  case arrives =>
    intro now still on calm idle late
    have rests := sound₁.stands.resting sound₁.kept.fits still on
    have complete := sends₁.complete begins₁ sound₁ rests
    obtain ⟨k, read, written⟩ :=
      complete.shows calm idle (by rw [shared]; exact late) speaks.known
    exact ⟨k, _, read, written⟩
  case answered =>
    intro done
    have written : reply ∈ x.writtenBy .receiving := by
      rw [sends₀.replies]
      exact List.mem_filterMap.2 ⟨_, done, rfl⟩
    exact ⟨sends₀.mem_sent written, reply, speaks.answer, speaks.repeats⟩

/-- The client says something to the room, in a frame that it writes as arrays. -/
def greeted : String := "[\"7\", null, [null, null, [\"h\\u0069\"]]]"

/-- What it says is published and comes to the room's window, and the reply is sent. -/
def greeting : List Turn :=
  [.session (.arrives (.text greeted)),
    .session (.moves (.loop .receiving) 0), .session (.moves (.loop .receiving) 0),
    .session (.moves (.loop .receiving) 0), .registry (.step (.puller 0)),
    .registry (.step (.puller 0))]

/-- The other client, in the same room without media. -/
def listener : Stay :=
  start twoJoin sharedHub (.connecting (.ofNat 2) (.ofNat 7) (.fresh .silence) ⟨0, 1⟩ ⟨1, 1⟩)
    none 0

/-- Its session passes on what it reads and comes to rest. -/
def listening : List Turn :=
  List.replicate 5 (.session (.moves (.loop .forwarding) 0)) ++
    [.session (.moves (.loop .beating) 0)]

/-- What the other session sees done meanwhile. -/
def news : List Registry.Action :=
  ((visitor.run? greeting).map fun x => x.acts.drop twoJoin.length).getD []

def crashes : Registry.Action → Bool
  | .fault _ .crash => true
  | _ => false

/-- What keeps a session from using the reader of another can be seen from what has been done. -/
theorem unused_of_all {acts : List Registry.Action} {reader : Registry.Reader}
    (all : acts.all (fun a => a.use?.map Prod.fst ≠ some reader) = true) :
    ∀ a ∈ acts, ∀ op, a.use? ≠ some (reader, op) := by
  intro a among op used
  have other := List.all_eq_true.1 all a among
  simp [used] at other

/-- The two sessions can go on side by side until the other has read the event. -/
theorem greeting_heard : ∃ x y ts, visitor.run? (greeting ++ ts) = some x ∧
    listener.run? (news.map .registry ++ listening) = some y ∧ x.acts = y.acts ∧
    x.session.receiving = .waiting ∧ ∃ stamp, (greeted, stamp) ∈ x.scene.taken := by
  -- The first greets, and the other sees it done.
  obtain ⟨x, ran⟩ := Option.isSome_iff_exists.1
    (show (visitor.run? greeting).isSome = true by decide +kernel)
  have facts : (visitor.run? greeting).map (fun x => (x.scene.taken.map (·.1),
      x.session.hasEnded .receiving, x.session.receiving.pending.isEmpty, x.acts.length,
      (x.acts.drop twoJoin.length).all fun a => a.use?.map Prod.fst ≠ some ⟨0, 1⟩)) =
      some ([greeted], false, true, 16, true) := by decide +kernel
  rw [ran] at facts
  simp only [Option.map_some, Option.some.injEq, Prod.mk.injEq] at facts
  obtain ⟨texts, on, done, length, unused⟩ := facts
  have sound : visitor.Sound (.empty 2 1) _ _ ⟨0, 0⟩ := start_sound (sharedHub_begins 0)
  have sound := sound.run ran
  have there : Sound (.empty 2 1) ⟨.ofNat 7, .ofNat 2, (none : Option Media).isSome⟩
      ((none : Option Media).map (·.sent)) ⟨0, 1⟩ listener := start_sound (sharedHub_begins 1)
  obtain ⟨acts, grown, same, told⟩ :=
    run?_beside (x := visitor) sound there rfl ran (unused_of_all unused)
  obtain rfl : acts = news := by
    rw [news, ran, Option.map_some, Option.getD_some, grown]
    exact List.drop_left.symm
  -- The other reads, and the first sees it done.
  obtain ⟨y, heard⟩ := Option.isSome_iff_exists.1
    (show (listener.run? (news.map .registry ++ listening)).isSome = true by decide +kernel)
  have apart : (listener.run? (news.map .registry ++ listening)).map (fun y =>
      (y.acts.drop 16).all fun a => a.use?.map Prod.fst ≠ some ⟨0, 0⟩) = some true := by
    decide +kernel
  rw [heard, Option.map_some, Option.some.injEq] at apart
  have sound' := there.run heard
  have read := heard
  rw [run?_append, told, Option.bind_some] at read
  obtain ⟨acts', grown', same', told'⟩ := run?_beside sound' sound same read
    (unused_of_all (by rw [same, length]; exact apart))
  refine ⟨_, y, acts'.map .registry, ?_, heard, same', ?_, ?_⟩
  · rw [run?_append, ran, Option.bind_some, told']
  · show x.session.receiving = .waiting
    cases phase : x.session.receiving <;>
      simp [phase, Receiving.pending, Session.hasEnded] at on done ⊢
  · have taken : greeted ∈ x.scene.taken.map (·.1) := by
      rw [texts]
      exact List.mem_singleton_self _
    obtain ⟨⟨_, stamp⟩, among, rfl⟩ := List.mem_map.1 taken
    exact ⟨stamp, among⟩

/-- The other client has read it when its session rests, as the first has said it. -/
theorem run?_conveyed_greeting : ∃ x y e reply, Request.read true greeted =
      .ok (some (some "7", .say ⟨"hi"⟩)) ∧ x.acts = y.acts ∧
    Conveyed (.empty 2 1) ⟨.ofNat 7, .ofNat 1, true⟩ (some "7") (.say ⟨"hi"⟩) e reply ⟨0, 1⟩ 0 x y ∧
    .replied reply ∈ x.scene.done ∧ ∃ f ∈ y.writtenBy .forwarding, ∃ g e',
      Frame.parse? f.render = some g ∧ g.body.event = some e' ∧
        Carries ⟨.ofNat 7, .ofNat 1, true⟩ (.say ⟨"hi"⟩) e' := by
  obtain ⟨x, y, ts, greets, heard, same, waits, stamp, taken⟩ := greeting_heard
  have accepted : Request.read true greeted = .ok (some (some "7", .say ⟨"hi"⟩)) := rfl
  have facts : (listener.run? (news.map .registry ++ listening)).map (fun y =>
      (decide (y.session.stage = .ended), Session.loops.all fun l =>
        (y.session.move? y.hub 0 (.loop l)).isNone && (y.session.move? y.hub 0 (.quit l)).isNone,
      (y.session.move? y.hub 0 .finish).isNone, (y.hub.registry.step? (.puller 0)).isNone,
      y.acts.any crashes)) = some (false, true, true, true, false) := by decide +kernel
  have unlogged : (sharedHub.registry.store.fetch (.ofNat 7)).length = 0 := by decide +kernel
  rw [heard] at facts
  simp only [Option.map_some, Option.some.injEq, Prod.mk.injEq, decide_eq_false_iff_not,
    Session.loops, List.all_cons, List.all_nil, Bool.and_true, Bool.and_eq_true,
    Option.isNone_iff_eq_none] at facts
  obtain ⟨on, ⟨⟨r, r'⟩, ⟨b, b'⟩, ⟨s, s'⟩, ⟨f, f'⟩⟩, finish, idle, calm⟩ := facts
  obtain ⟨e, reply, _, conveyed⟩ := run?_conveyed (sharedHub_begins 0) greets (sharedHub_begins 1)
    heard same taken accepted fun _ relays => by cases relays
  rw [unlogged] at conveyed
  obtain ⟨emitted, replied⟩ := conveyed.done waits
  have still : ∀ m, y.session.move? y.hub 0 m = none := by
    intro m
    cases m with
    | finish => exact finish
    | loop l => cases l <;> assumption
    | quit l => cases l <;> assumption
  have sane : ∀ room, Registry.Action.fault room .crash ∉ y.acts := by
    intro room among
    exact (List.any_eq_false.1 calm _ among) rfl
  obtain ⟨k, frame, here, written⟩ :=
    conveyed.arrives 0 still on sane idle (conveyed.stored emitted)
  obtain ⟨_, g, e', parsed, _, carried⟩ := conveyed.shown k frame here written
  exact ⟨x, y, e, reply, accepted, same, conveyed, replied, frame, List.mem_of_getElem? written,
    g, e', parsed, carried⟩

end Stay

end Roomcast.Peer

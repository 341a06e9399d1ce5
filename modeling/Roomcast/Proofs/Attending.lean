import Roomcast.Proofs.Endings
import Roomcast.Proofs.Hosting
import Roomcast.Proofs.Sending

/-!
# What a client of a site is sent of its room

A client is answered when it has a reader of its room. The events that it is forwarded from then on
are those that it understands in one stretch of the room's log. The stretch starts where the log
ended when the client was answered, or earlier, and has no gap, however long it takes until the
session begins. A session whose reader has lost its place forwards nothing more, and ends.
-/

namespace Roomcast

namespace Room.View

variable {α : Type} {v : View α}

/-- A read of a window that is closed, or too far ahead of the reader, fails. -/
theorem goOn?_lost {i : Nat} {c : Reading α} {w : Wait} (found : v.readers[i]? = some c)
    (reading : c.wait = some w) (lost : v.room.isClosed = true ∨ v.room.isBehind i = true) :
    ∃ err, v.goOn? c = some (.error err) := by
  have lost : v.window.lost c.position = true := by
    refine Window.lost_iff.2 (lost.imp_right fun behind => ?_)
    rw [isBehind, room_cursor?, found] at behind
    exact of_decide_eq_true behind
  rw [goOn?, reading, Option.bind_some, Window.await?, look?, Window.poll?, if_pos lost,
    if_pos lost]
  split_ifs <;> exact ⟨_, rfl⟩

end Room.View

namespace Registry

variable {r : Registry} {h : Reader}

/-- Whether the window of a reader is closed, or the reader has fallen behind it. -/
def hasLostPlace (r : Registry) (h : Reader) : Bool :=
  (r.roomOf? h).any fun room => room.isClosed || room.isBehind h.cursor

/-- A read that waits at the end of a window has not lost its place. -/
theorem hasLostPlace_of_stuck (laid : r.Laid) (reading : r.isReading h = true)
    (stuck : r.canResume h = false) : r.hasLostPlace h = false := by
  rw [hasLostPlace]
  cases window : r.roomOf? h with
  | none => rfl
  | some room =>
      obtain ⟨st, there, rfl⟩ := Option.map_eq_some_iff.1 window
      obtain ⟨v, valid, layout⟩ := laid _ st there
      rw [isReading, window, layout] at reading
      rw [canResume, window, layout] at stuck
      obtain ⟨running, c, found, last⟩ := waiting_at_end valid reading stuck
      have here : v.room.isBehind h.cursor = false := by
        rw [Room.isBehind, Room.View.room_cursor?, found]
        simp [Room.Reading.cursor, Room.View.room, last]
      have open' : v.room.isClosed = false := running
      rw [Option.any_some, layout, open', here]
      rfl

/-- A read of a reader that has lost its place can go on, and fails. -/
theorem resume_lost (laid : r.Laid) (reading : r.isReading h = true)
    (lost : r.hasLostPlace h = true) :
    r.canResume h = true ∧ ∃ err, (r.resume h).2 = some (.error err) := by
  refine ⟨?_, ?_⟩
  · by_contra stuck
    rw [hasLostPlace_of_stuck laid reading (by simpa using stuck)] at lost
    cases lost
  · cases window : r.roomOf? h with
    | none => simp [hasLostPlace, window] at lost
    | some room =>
        obtain ⟨st, there, rfl⟩ := Option.map_eq_some_iff.1 window
        obtain ⟨v, valid, layout⟩ := laid _ st there
        rw [hasLostPlace, window, Option.any_some, layout, Bool.or_eq_true] at lost
        rw [isReading, window, Option.any_some, layout, Room.isReading,
          Room.View.room_cursor?] at reading
        obtain ⟨c, found⟩ : ∃ c, v.readers[h.cursor]? = some c := by
          cases found : v.readers[h.cursor]? with
          | none => simp [found] at reading
          | some c => exact ⟨c, rfl⟩
        obtain ⟨w, waits⟩ : ∃ w, c.wait = some w := by
          rw [found] at reading
          exact Option.isSome_iff_exists.1 reading
        obtain ⟨err, fails⟩ := Room.View.goOn?_lost found waits lost
        refine ⟨err, ?_⟩
        rw [resume, readWith, window]
        show (st.room.resume h.cursor).2 = _
        rw [layout, Room.View.room_resume valid, Room.View.resume, found, Option.bind_some, fails]

end Registry

namespace Peer

variable {hub : Hub} {s : Session}

/-- A beginning of the frames of some events is all frames of a beginning of them. -/
theorem prefix_eventFrames {frames : List Frame} {events : List Event}
    (begins : frames <+: eventFrames events) : ∃ n, frames = eventFrames (events.take n) := by
  induction events generalizing frames with
  | nil => exact ⟨0, List.prefix_nil.1 begins⟩
  | cons e events ih =>
      cases known : e.isKnown with
      | false =>
          rw [eventFrames_unknown known] at begins
          obtain ⟨n, same⟩ := ih begins
          exact ⟨n + 1, by rw [List.take_succ_cons, eventFrames_unknown known, same]⟩
      | true =>
          cases frames with
          | nil => exact ⟨0, rfl⟩
          | cons f frames =>
              rw [eventFrames_known known] at begins
              obtain ⟨rfl, rest⟩ := List.cons_prefix_cons.1 begins
              obtain ⟨n, same⟩ := ih rest
              exact ⟨n + 1, by rw [List.take_succ_cons, eventFrames_known known, same]⟩

/-- The read of a session whose reader has lost its place can go on and fails, given up or not. -/
theorem Session.withRead_lost (laid : hub.registry.Laid)
    (reading : hub.registry.isReading s.reader = true)
    (lost : hub.registry.hasLostPlace s.reader = true) :
    (s.withRead hub).canResume s.reader = true ∧
      ∃ err, ((s.withRead hub).resume s.reader).2 = some (.error err) := by
  cases told : s.cancelled with
  | true =>
      rw [Session.withRead_of_told told]
      have able := Registry.canResume_cancelRead reading
      obtain ⟨err, _, resumes, _⟩ := Registry.resume_cancelRead able
      exact ⟨able, err, congrArg Prod.snd resumes⟩
  | false =>
      rw [Session.withRead_of_untold told]
      exact Registry.resume_lost laid reading lost

/-- A read that fails ends the loop that passes events on, and tells the session to end. -/
theorem Session.move?_misses {err : StreamError} (serving : s.stage = .serving)
    (reading : s.forwarding = .reading) (able : (s.withRead hub).canResume s.reader = true)
    (fails : ((s.withRead hub).resume s.reader).2 = some (.error err)) (now : Nat) :
    s.move? hub now (.loop .forwarding) =
      some ({ hub with registry := ((s.withRead hub).resume s.reader).1 },
        s.endLoop .forwarding) := by
  rw [Session.move?, if_pos serving]
  show s.stepForwarding? hub = _
  rw [Session.stepForwarding?, reading]
  dsimp only
  rw [if_pos able, fails]

/-- What a client is sent of the log of its room, and what becomes of a session whose reader has
lost its place. -/
structure Attends (hub : Hub) (deeds : List Deed) (s : Session) (logged : Nat) : Prop where
  /-- What has been sent on the link is what the loops have sent. -/
  frames : s.link.sent = (deeds.filterMap Deed.writing?).map (·.2.render)
  /-- The events among this are those that clients understand in a stretch of the log without gaps.
  It begins at a place that the log had reached by then. When the session is at rest and no event is
  on its way, the stretch goes to the end of the log, and the reader has not lost its place. -/
  events : ∃ start ≤ logged,
    (∃ n, deeds.filterMap (Deed.writtenBy? .forwarding) =
      eventFrames (((hub.registry.store.fetch s.roomId).drop start).take n)) ∧
    ∀ now, (∀ m, s.move? hub now m = none) → s.stage ≠ .connecting → s.stage ≠ .ended →
      hub.registry.hasLostPlace s.reader = false ∧
        (hub.registry.step? (.puller s.reader.stream) = none →
          deeds.filterMap (Deed.writtenBy? .forwarding) =
            eventFrames ((hub.registry.store.fetch s.roomId).drop start))
  /-- The read of a reader that has lost its place fails. Nothing is sent because of it, and the
  session ends. -/
  lost : s.stage = .serving → s.forwarding = .reading → hub.registry.hasLostPlace s.reader = true →
    ∀ now, ∃ hub' s', s.move? hub now (.loop .forwarding) = some (hub', s') ∧
      s'.link = s.link ∧ ∀ now', (s'.after hub' now' 7).2.stage = .ended
  /-- A session whose reader is closed has ended, or ends by itself. -/
  ends : hub.registry.hasLeft s.reader = true →
    s.stage = .ended ∨ ∀ now, (s.after hub now 7).2.stage = .ended

variable {capacity channelCapacity logged : Nat} {acts : List Registry.Action} {deeds : List Deed}

theorem Session.Idles.attends (idles : s.Idles) (done : deeds = Deed.withdrawals s.stage)
    (past : (Registry.empty capacity channelCapacity).run? acts = some hub.registry)
    (there : (hub.registry.cursorOf? s.reader).isSome = true)
    (unused : s.stage ≠ .ended → ∀ a ∈ acts, ∀ op, a.use? ≠ some (s.reader, op)) :
    Attends hub deeds s logged := by
  have silent : deeds.filterMap Deed.writing? = [] ∧
      deeds.filterMap (Deed.writtenBy? .forwarding) = [] := by
    rw [done]
    cases s.stage <;> exact ⟨rfl, rfl⟩
  refine ⟨?_, ⟨0, Nat.zero_le _, ⟨0, silent.2⟩, fun now stuck waits on => ?_⟩, fun serving => ?_,
    fun left => ?_⟩
  · rw [silent.1, idles.sent]
    rfl
  · have stuck : s.finish? hub = none := stuck .finish
    obtain ⟨serving, left, hungUp⟩ := idles.stage
    rw [Session.finish?] at stuck
    split at stuck
    case h_3 stage => exact absurd stage serving
    case h_6 stage => exact absurd stage waits
    case h_7 stage => exact absurd stage on
    all_goals cases stuck
  · exact absurd serving idles.stage.1
  · refine .inl (by_contra fun on => ?_)
    obtain ⟨c, found⟩ := Option.isSome_iff_exists.1 there
    have fresh := (Registry.run?_unused past (unused on)).1 c found
    rw [Registry.hasLeft_of_cursorOf? found, fresh.1] at left
    cases left

/-- A session is lodged, its reader was handed out when the log of its room had reached a place, and
since then no puller has crashed. -/
theorem Lodged.attends (h : Lodged (.empty capacity channelCapacity) acts hub deeds s)
    (past : (Registry.empty capacity channelCapacity).run? acts = some hub.registry)
    (calm : ∀ room, Registry.Action.fault room .crash ∉ acts) {r : Registry}
    (passed : (Registry.empty capacity channelCapacity).Passes acts r) {t : Registry.Subscriber}
    (among : t ∈ r.subscribers) (room : t.roomId = s.roomId)
    (served : t.phase = .done (.ok s.reader))
    (there : (hub.registry.cursorOf? s.reader).isSome = true) :
    Attends hub deeds s (r.store.fetch s.roomId).length := by
  cases h with
  | idles idles done unused left => exact idles.attends done past there unused
  | @stays _ _ _ _ _ _ _ _ ts x g begins silent ran same hub₁ done session =>
      subst hub₁ session same done
      have sound := (Stay.start_sound begins).run ran
      have sent := Stay.run?_sent begins ran
      have ends := (Stay.run?_ends begins ran).1
      obtain ⟨start, bound, stretch, rest⟩ := Registry.run?_stretch past calm passed among served
      rw [room] at bound stretch rest
      have reader : x.session.reader = g := sound.reader
      have told : ∀ {s' : Session} {hub' : Hub} {now : Nat}, s'.cancelled = true →
          s'.stage = x.session.stage → (s'.after hub' now 7).2.stage = .ended := by
        intro s' hub' now told stage
        exact Session.after_ended told ((Session.hasBegun_congr stage).trans sound.stands.begun)
      constructor
      case frames =>
        rw [sent.frames, silent]
        rfl
      case events =>
        refine ⟨start, bound, ?_, fun now stuck waits on => ?_⟩
        · obtain ⟨n, same⟩ := prefix_eventFrames sent.events
          obtain ⟨m, whole⟩ : ∃ m, (Registry.empty capacity channelCapacity).reads g x.acts =
              ((x.hub.registry.store.fetch x.session.roomId).drop start).take m := by
            rw [reader] at stretch
            exact ⟨_, List.prefix_iff_eq_take.1 stretch⟩
          refine ⟨min n m, ?_⟩
          rw [← Stay.writtenBy_eq, same, whole, List.take_take]
        · have complete := sent.complete now stuck on
          have reading := complete.waits
          rw [← reader] at reading
          refine ⟨Registry.hasLostPlace_of_stuck sound.regular.laid reading.1 reading.2,
            fun idle => ?_⟩
          rw [← Stay.writtenBy_eq, complete.events, ← rest idle reading.1 reading.2, reader]
      case lost =>
        intro serving forwarding lost now
        obtain ⟨c, seats, _⟩ := sound.seated
        have reading : x.hub.registry.isReading x.session.reader = true := by
          rw [Registry.isReading_of_cursorOf? seats.found, seats.reading.2 forwarding]
        obtain ⟨able, err, fails⟩ := Session.withRead_lost sound.regular.laid reading lost
        exact ⟨_, _, Session.move?_misses serving forwarding able fails now, rfl,
          fun now' => told rfl rfl⟩
      case ends =>
        intro left
        exact .inr fun now => told (ends.failed left) rfl

end Peer

namespace Http

open Peer Service

namespace Site

variable {capacity channelCapacity : Nat} {x y z : Site}

/-- Whatever happens to a site after a request to join a room has been answered with a websocket,
the client behind it is forwarded a stretch of the room's log that begins where the log ended when
the answer was known, or before. If that is not possible the session ends. -/
theorem run?_attends {stamps : Nat → Stamp} {connector : Option (Except SignalError Unit)}
    {pace : Pace} {before between since : List Happening} {r : Request} {v : Nat}
    {response : Response} {socket : Socket}
    (reached : (start capacity channelCapacity stamps connector pace).run? before = some z)
    (later : (z.server.respond r).2 = .later v)
    (waited : z.run? (.request r :: between) = some y)
    (answered : y.server.outcome? v = some (response, some socket))
    (ran : y.run? since = some x) :
    response = .bare switchingProtocols ∧
      ∃ s, x.sessions[socket.session]? = some s ∧
        (∃ name, r.route = .room name ∧ roomOfName? name = some s.roomId) ∧
        Attends x.hub (x.deedsOf socket.session) s (y.registry.store.fetch s.roomId).length := by
  have kept := ((start_kept stamps connector pace).run reached).1
  have kept' := (kept.run waited).1
  obtain ⟨kept'', follows⟩ := kept'.run ran
  obtain ⟨j, seat, rfl, rfl⟩ : ∃ j, y.visits[v]? = some (.seated j) ∧
      response = .bare switchingProtocols ∧ socket = ⟨j, .start⟩ := by
    rw [Server.outcome?] at answered
    split at answered
    case h_1 | h_3 => cases answered
    case h_2 j seat =>
      cases answered
      exact ⟨j, seat, rfl, rfl⟩
  obtain ⟨s, t, there, found, room, phase, name, route, named⟩ :=
    kept.seated_of_request later waited seat
  obtain ⟨s', there', reader, roomId⟩ := follows.seats j s there
  obtain ⟨more, grown, _⟩ := follows.acts
  refine ⟨rfl, s', there', ⟨name, route, by rw [named, roomId]⟩, ?_⟩
  refine (kept''.lodged j s' there').attends kept''.past (fun room among => ?_)
    ⟨y.acts, ?_, kept'.past⟩ (Array.mem_of_getElem? found) (room.trans roomId.symm) ?_
    (kept''.cursor there')
  · cases kept''.plain _ among
  · rw [grown]
    exact List.prefix_append _ _
  · rw [reader]
    exact phase

def news (kind : String) : Event :=
  ⟨.ofNat 3, .ofNat 7, .ofNat 2, thatNight, ⟨kind, .null⟩⟩

/-- Two events are published while the media channel opens. -/
def meanwhile : List Happening :=
  [.registry (.emit (news "knock")), .registry (.step (.puller 0)), .registry (.step (.puller 0)),
    .registry (.emit (news Event.textKind)), .registry (.step (.puller 0)),
    .registry (.step (.puller 0)), .connects 0 (.ok .fresh) 9] ++
    List.replicate 7 (.session 0 (.moves (.loop .forwarding) 9)) ++
    [.session 0 (.moves (.loop .beating) 9)]

/-- When the session rests its client has been sent all of the log, of which it understands one
event. -/
theorem run?_attends_knocking : ∃ y x s, studio.run? (.request knocking :: admitted) = some y ∧
    y.run? meanwhile = some x ∧ x.sessions[0]? = some s ∧ Attends x.hub (x.deedsOf 0) s 0 ∧
    (x.deedsOf 0).filterMap (Deed.writtenBy? .forwarding) =
      eventFrames (x.registry.store.fetch (.ofNat 7)) ∧ s.link.sent.length = 1 := by
  obtain ⟨y, waited⟩ := Option.isSome_iff_exists.1
    (show (studio.run? (.request knocking :: admitted)).isSome = true by decide +kernel)
  have facts : (studio.run? (.request knocking :: admitted)).map (fun y =>
      ((y.server.outcome? 0).bind fun o => o.2.map (·.session),
        (y.registry.store.fetch (.ofNat 7)).length, (y.run? meanwhile).isSome)) =
      some (some 0, 0, true) := by decide +kernel
  have facts' : ((studio.run? (.request knocking :: admitted)).bind (·.run? meanwhile)).map
      (fun x => (x.sessions[0]?).map fun s => (s.roomId, s.link.sent.length,
        decide (s.stage ≠ .connecting ∧ s.stage ≠ .ended), Session.loops.all fun l =>
          (s.move? x.hub 9 (.loop l)).isNone && (s.move? x.hub 9 (.quit l)).isNone,
        (s.move? x.hub 9 .finish).isNone &&
          (x.registry.step? (.puller s.reader.stream)).isNone)) =
      some (some (Uuid.ofNat 7, 1, true, true, true)) := by decide +kernel
  rw [waited, Option.map_some, Option.some.injEq, Prod.mk.injEq, Prod.mk.injEq] at facts
  obtain ⟨seat, unlogged, ran⟩ := facts
  obtain ⟨x, ran⟩ := Option.isSome_iff_exists.1 ran
  rw [waited, Option.bind_some, ran, Option.map_some, Option.some.injEq] at facts'
  obtain ⟨⟨response, socket⟩, answered, seat⟩ := Option.bind_eq_some_iff.1 seat
  obtain ⟨socket, rfl, number⟩ := Option.map_eq_some_iff.1 seat
  have reached : (start 2 2 studio.hub.stamps (some (.ok ())) ⟨1, 1⟩).run? [] = some studio := rfl
  have later : (studio.server.respond knocking).2 = .later 0 :=
    Server.respond_later (by decide +kernel)
  obtain ⟨_, s, there, _, attends⟩ := run?_attends reached later waited answered ran
  rw [number] at there attends
  rw [there, Option.map_some, Option.some.injEq] at facts'
  simp only [Prod.mk.injEq, decide_eq_true_eq, Session.loops, List.all_cons, List.all_nil,
    Bool.and_true, Bool.and_eq_true, Option.isNone_iff_eq_none] at facts'
  obtain ⟨room, sent, ⟨waits, on⟩, ⟨⟨r, r'⟩, ⟨b, b'⟩, ⟨s', s''⟩, ⟨f, f'⟩⟩, finish, idle⟩ := facts'
  rw [room, unlogged] at attends
  obtain ⟨start, begins, _, rest⟩ := attends.events
  obtain rfl := Nat.le_zero.1 begins
  have still : ∀ m, s.move? x.hub 9 m = none := by
    intro m
    cases m with
    | finish => exact finish
    | loop l => cases l <;> assumption
    | quit l => cases l <;> assumption
  have all := (rest 9 still waits on).2 idle
  exact ⟨y, x, s, waited, ran, there, attends, room ▸ all, sent⟩

end Site

end Http

end Roomcast

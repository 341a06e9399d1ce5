import Roomcast.Proofs.Standing
import Roomcast.Service

/-!
# How a session leaves

When all its loops have ended a session leaves its room, closes its media channel if it has one, and
closes its link: each of them once, in this order, and whether or not the one before succeeds. From
the first of these deeds on it does nothing else. A reader that has failed is closed by then and is
not counted a second time.

Whatever makes a session end, it either ends completely or has not begun to, and nobody else is told
to end because of it.
-/

namespace Roomcast.Peer

variable {hub hub' : Hub} {s s' : Session} {deed : Option Deed} {act : Option Registry.Action}

namespace Deed

/-- The deeds by which a session has come to a stage of its end. -/
def closings (media : Bool) : Stage → List Deed
  | .left => [left]
  | .hungUp => left :: if media then [hungUp] else []
  | .ended => (left :: if media then [hungUp] else []) ++ [closed]
  | .connecting | .refused | .dismissed | .serving => []

end Deed

namespace Session

/-- What a session does is not part of its end as long as it serves, and is the next part of its end
afterwards. -/
theorem Did.closings (did : Did hub s deed act hub' s') :
    (s.Lasts s' ∧ s.stage = .serving ∧ ∀ d ∈ deed, d.isClosing = false) ∨
      Deed.closings s.media.isSome s'.stage =
        Deed.closings s.media.isSome s.stage ++ deed.toList := by
  cases did with
  | loop serving went =>
      refine .inl ⟨went.lasts, serving, ?_⟩
      cases went with
      | performs =>
          rintro d ⟨⟩
          exact Deed.isClosing_ofEffect _
      | relays | forwards =>
          rintro d ⟨⟩
          rfl
      | _ =>
          rintro d ⟨⟩
  | leaves stage => exact .inr (by rw [stage]; rfl)
  | hangsUp stage => exact .inr (by rw [stage]; cases s.media <;> rfl)
  | closes stage => exact .inr (by rw [stage]; rfl)

/-- How often a session closes its media channel before a stage. -/
def hangUps : Stage → Nat
  | .hungUp | .ended => 1
  | .connecting | .refused | .dismissed | .serving | .left => 0

/-- What a session has closed. -/
structure Closed (link₀ : Link) (media₀ : Option Media) (s : Session) : Prop where
  link : s.stage ≠ .ended → s.link.closes = link₀.closes
  farewell : s.stage = .ended →
    ∃ delivered, s.link.closes = link₀.closes ++ [⟨1000, "Peer closed.", delivered⟩]
  media : s.media.map (·.closes) = media₀.map (·.closes + hangUps s.stage)

variable {link₀ : Link} {media₀ : Option Media}

theorem Closed.lasts (h : s.Closed link₀ media₀) (lasts : s.Lasts s') :
    s'.Closed link₀ media₀ where
  link := by rw [lasts.stage, lasts.closes]; exact h.link
  farewell := by rw [lasts.stage, lasts.closes]; exact h.farewell
  media := by rw [lasts.stage, lasts.mediaCloses]; exact h.media

theorem Closed.did (h : s.Closed link₀ media₀) (did : Did hub s deed act hub' s') :
    s'.Closed link₀ media₀ := by
  have media := h.media
  cases did with
  | loop serving went => exact h.lasts went.lasts
  | leaves stage =>
      rw [stage] at media
      exact ⟨fun _ => h.link (by simp [stage]), nofun, media⟩
  | hangsUp stage =>
      rw [stage] at media
      refine ⟨fun _ => h.link (by simp [stage]), nofun, ?_⟩
      simpa [Function.comp_def, hangUps, Media.close] using congrArg (Option.map (· + 1)) media
  | closes stage =>
      rw [stage] at media
      refine ⟨fun on => absurd rfl on, fun _ => ⟨s.link.closeFailure.isNone, ?_⟩, media⟩
      rw [← h.link (by simp [stage])]
      rfl

/-- What a session does after its loops have ended. -/
theorem Did.silent (did : Did hub s deed act hub' s') (closing : s.stage ≠ .serving) :
    s'.stage ≠ .serving ∧ s'.link.sent = s.link.sent ∧
      s'.media.map (·.sent) = s.media.map (·.sent) ∧ ∀ d ∈ deed, d.isClosing = true := by
  cases did with
  | loop serving => exact absurd serving closing
  | leaves serving => exact absurd serving closing
  | hangsUp =>
      refine ⟨nofun, rfl, by simp [Function.comp_def, Media.close], ?_⟩
      cases s.media <;> simp [Deed.isClosing]
  | closes => exact ⟨nofun, rfl, rfl, by simp [Deed.isClosing]⟩

end Session

namespace Stay

variable {x y : Stay} {r₀ : Registry} {p : Session.Seat} {before : Option (List Signal)}
  {reader : Registry.Reader} {link₀ : Link} {media₀ : Option Media}

/-- What has been closed, and the deeds by which this has been done. -/
structure Closes (link₀ : Link) (media₀ : Option Media) (x : Stay) : Prop where
  order : ∃ active, (∀ d ∈ active, d.isClosing = false) ∧
    x.deeds = active ++ Deed.closings media₀.isSome x.session.stage
  closed : x.session.Closed link₀ media₀

theorem Closes.step (sound : Sound r₀ p before reader x) (media : p.media = media₀.isSome)
    (step : Step x y) (h : x.Closes link₀ media₀) : y.Closes link₀ media₀ := by
  obtain ⟨active, all, done⟩ := h.order
  have same : x.session.media.isSome = media₀.isSome := by
    rw [← media, ← sound.kept.seat]
    rfl
  obtain ⟨deed, act, did, deeds⟩ | rests := step.rests
  · refine ⟨?_, h.closed.did did⟩
    obtain ⟨lasts, serving, more⟩ | closing := did.closings
    · refine ⟨active ++ deed.toList, ?_, ?_⟩
      · intro d among
        exact (List.mem_append.1 among).elim (all d) fun new => more d (Option.mem_toList.1 new)
      · rw [deeds, done, lasts.stage, serving]
        simp [Deed.closings]
    · refine ⟨active, all, ?_⟩
      rw [deeds, done, ← same, closing, List.append_assoc]
  · refine ⟨⟨active, all, ?_⟩, h.closed.lasts rests.lasts⟩
    rw [rests.looks.deeds, done, rests.lasts.stage]

/-- What happens from the first of these deeds on: nothing is sent, nothing is published and nothing
is passed on. -/
structure Silent (x y : Stay) : Prop where
  closing : y.session.stage ≠ .serving
  sent : y.session.link.sent = x.session.link.sent
  signals : y.session.media.map (·.sent) = x.session.media.map (·.sent)
  deeds : ∃ closings, (∀ d ∈ closings, d.isClosing = true) ∧ y.deeds = x.deeds ++ closings

theorem Silent.step {z : Stay} (step : Step y z) (h : Silent x y) : Silent x z := by
  obtain ⟨closings, all, done⟩ := h.deeds
  obtain ⟨deed, act, did, deeds⟩ | rests := step.rests
  · obtain ⟨closing, sent, signals, more⟩ := did.silent h.closing
    refine ⟨closing, sent.trans h.sent, signals.trans h.signals, closings ++ deed.toList, ?_, ?_⟩
    · intro d among
      exact (List.mem_append.1 among).elim (all d) fun new => more d (Option.mem_toList.1 new)
    · rw [deeds, done, List.append_assoc]
  · refine ⟨?_, rests.sent.trans h.sent, rests.signals.trans h.signals, closings, all, ?_⟩
    · rw [rests.lasts.stage]
      exact h.closing
    · rw [rests.looks.deeds, done]

/-- A session that does not serve publishes nothing. -/
theorem next?_store {o : Occasion} (closing : x.session.stage ≠ .serving)
    (happened : x.next? (.session o) = some y) :
    y.hub.registry.store = x.hub.registry.store := by
  obtain ⟨scene, noted, rfl⟩ := Option.map_eq_some_iff.1 happened
  obtain ⟨⟨hub', s'⟩, next, rfl⟩ := Option.map_eq_some_iff.1 noted
  cases o with
  | moves m now =>
      refine Session.move?_store ?_ next
      rintro rfl
      have moved : x.session.move? x.hub now (.loop .receiving) = some (hub', s') := next
      rw [Session.move?, if_neg closing] at moved
      cases moved
  | arrives | signals | link | channel | others | cancel =>
      obtain ⟨rfl, rfl⟩ := Prod.mk.inj (Option.some.inj next)
      rfl

/-- The state of a session all of whose loops act: nothing has been closed. -/
structure Acting (link₀ : Link) (media₀ : Option Media) (x : Stay) : Prop where
  serving : x.session.stage = .serving
  /-- All loops act. The one that passes signals on is there if there is a media channel. -/
  loops : ∀ l, x.session.hasEnded l = true ↔ l = .relaying ∧ x.session.media = none
  reader : x.hub.registry.hasLeft x.session.reader = false
  counted : x.change = 0
  link : x.session.link.closes = link₀.closes
  media : x.session.media.map (·.closes) = media₀.map (·.closes)
  deeds : ∀ d ∈ x.deeds, d.isClosing = false

/-- The state of a session that has ended: all has been closed once, and in order. -/
structure Gone (link₀ : Link) (media₀ : Option Media) (x : Stay) : Prop where
  loops : ∀ l, x.session.hasEnded l = true
  reader : x.hub.registry.hasLeft x.session.reader = true
  counted : x.change = -1
  link : ∃ delivered,
    x.session.link.closes = link₀.closes ++ [⟨1000, "Peer closed.", delivered⟩]
  media : x.session.media.map (·.closes) = media₀.map (·.closes + 1)
  deeds : ∃ active, (∀ d ∈ active, d.isClosing = false) ∧
    x.deeds = active ++ (.left :: if media₀.isSome then [.hungUp] else []) ++ [.closed]

/-- How a session comes to its end. -/
structure Ends (link₀ : Link) (media₀ : Option Media) (x : Stay) : Prop where
  /-- A session that comes no closer to its end acts, or has ended. Whether its loops could take a
  step does not matter. -/
  settled : ∀ now, (∀ l, x.session.move? x.hub now (.quit l) = none) →
    x.session.move? x.hub now .finish = none → x.Acting link₀ media₀ ∨ x.session.stage = .ended
  ended : x.session.stage = .ended → x.Gone link₀ media₀
  /-- A session that has been told to end does so by itself. -/
  told : x.session.cancelled = true → ∀ now, (x.session.after x.hub now 7).2.stage = .ended
  /-- A reader that closes before the session leaves its room has failed, and the session has been
  told to end. -/
  failed : x.hub.registry.hasLeft x.session.reader = true → x.session.cancelled = true
  /-- Once it has left its room it sends nothing, passes nothing on and publishes nothing. -/
  silent : x.session.stage ≠ .serving → ∀ ts y, x.run? ts = some y → Silent x y
  unheard : x.session.stage ≠ .serving → ∀ o y, x.next? (.session o) = some y →
    y.hub.registry.store = x.hub.registry.store

theorem Sound.hasLeft (sound : Sound r₀ p before reader x) :
    ∃ closed, x.hub.registry.hasLeft x.session.reader = closed ∧
      x.change = -(closed.toNat : Int) ∧ (x.session.stage ≠ .serving → closed = true) ∧
      (closed = true → x.session.cancelled = true) ∧
      (x.session.stage = .serving → x.session.forwarding ≠ .ended → closed = false) := by
  obtain ⟨c, seats, change⟩ := sound.seated
  refine ⟨c.closed, Registry.hasLeft_of_cursorOf? seats.found, change, seats.left, ?_, seats.isOpen⟩
  intro closed
  obtain closing | ⟨_, told⟩ := seats.failed closed
  · have ended := sound.stands.all closing .forwarding
    exact (sound.stands.told _ ended).resolve_right (by simp)
  · exact told

theorem Sound.ends (sound : Sound r₀ p before reader x) (h : x.Closes link₀ media₀) :
    x.Ends link₀ media₀ := by
  obtain ⟨closed, hasLeft, change, left, told, isOpen⟩ := sound.hasLeft
  constructor
  case settled =>
    intro now still stuck
    obtain ⟨serving, _, loops⟩ | ended := sound.stands.settled still stuck
    · have acts : x.session.forwarding ≠ .ended := by
        intro ended
        have := (loops .forwarding).1 (Session.hasEnded_forwarding.2 ended)
        simp at this
      obtain rfl := isOpen serving acts
      obtain ⟨active, all, done⟩ := h.order
      refine .inl ⟨serving, loops, hasLeft, change, h.closed.link (by simp [serving]), ?_, ?_⟩
      · have media := h.closed.media
        rw [serving] at media
        exact media
      · rw [done, serving]
        simpa [Deed.closings] using all
    · exact .inr ended
  case ended =>
    intro ended
    obtain rfl := left (by simp [ended])
    obtain ⟨active, all, done⟩ := h.order
    have media := h.closed.media
    rw [ended] at media done
    refine ⟨sound.stands.all (by simp [ended]), hasLeft, change, h.closed.farewell ended, media,
      active, all, ?_⟩
    rw [done, Deed.closings, List.append_assoc]
  case told =>
    intro told now
    exact Session.after_ended told sound.stands.begun
  case failed =>
    intro failed
    exact told (hasLeft.symm.trans failed)
  case silent =>
    intro closing ts y ran
    refine (run?_induction (P := Silent x) sound ?_ ?_ ran).2
    · exact ⟨closing, rfl, rfl, [], by simp, (List.append_nil _).symm⟩
    · intro _ _ _ _ step h
      exact h.step step
  case unheard =>
    intro closing o y happened
    exact next?_store closing happened

end Stay

end Roomcast.Peer

namespace Roomcast.Service

open Peer

def Steps (i : Nat) : Service → Service → Prop :=
  Relation.ReflTransGen fun s s' => s.stepSession? i = some s'

/-- A step of a session tells nobody else to end, and changes no other session. -/
theorem stepSession?_others {s s' : Service} {i : Nat} (stepped : s.stepSession? i = some s') :
    s'.stopped = s.stopped ∧ ∀ j, j ≠ i → s'.sessions[j]? = s.sessions[j]? := by
  have modified : ∀ (sessions : Array Session) (session : Session) (j : Nat), j ≠ i →
      (sessions.modify i fun _ => session)[j]? = sessions[j]? := by
    intro sessions session j other
    rw [Array.getElem?_modify, if_neg (Ne.symm other)]
  obtain ⟨session, there, stepped⟩ := Option.bind_eq_some_iff.1 stepped
  split at stepped
  · cases stepped
    exact ⟨rfl, modified _ _⟩
  · obtain ⟨⟨hub, session'⟩, _, rfl⟩ := Option.map_eq_some_iff.1 stepped
    exact ⟨rfl, modified _ _⟩

theorem Steps.others {s s' : Service} {i : Nat} (steps : Steps i s s') :
    s'.stopped = s.stopped ∧ ∀ j, j ≠ i → s'.sessions[j]? = s.sessions[j]? := by
  induction steps with
  | refl => exact ⟨rfl, fun _ _ => rfl⟩
  | tail _ last ih =>
      obtain ⟨stopped, sessions⟩ := stepSession?_others last
      exact ⟨stopped.trans ih.1, fun j other => (sessions j other).trans (ih.2 j other)⟩

end Roomcast.Service

namespace Roomcast.Peer.Stay

variable {capacity channelCapacity : Nat} {acts : List Registry.Action} {hub : Hub}
  {userId roomId : Uuid} {reader : Registry.Reader} {link : Link} {pace : Pace}
  {media : Option Media} {now : Nat} {ts : List Turn} {x : Stay}

theorem start_closes :
    (start acts hub (.connecting userId roomId link reader pace) media now).Closes link media := by
  refine ⟨⟨[], by simp, rfl⟩, fun _ => rfl, nofun, ?_⟩
  simp [start, Scene.start, Session.serve, Session.hangUps]

/-- Whatever happens to a session, it ends completely or acts with all its loops. When it ends it
closes its reader, its media channel and its link once each, in this order, and nothing is heard of
it afterwards. It tells no other session to end. -/
theorem run?_ends (begins : Begins (.empty capacity channelCapacity) acts hub roomId reader)
    (ran : (start acts hub (.connecting userId roomId link reader pace) media now).run? ts =
      some x) :
    x.Ends link media ∧ ∀ (i : Nat) (s s' : Service), Service.Steps i s s' →
      s'.stopped = s.stopped ∧ ∀ j, j ≠ i → s'.sessions[j]? = s.sessions[j]? := by
  obtain ⟨sound, closes⟩ := run?_induction (P := Closes link media) (start_sound begins)
    start_closes (fun _ _ sound _ step h => h.step sound rfl step) ran
  exact ⟨sound.ends closes, fun i s s' steps => steps.others⟩

/-- A client says goodbye while an event is awaited, and the media channel fails to close. -/
def goodbye : List Turn :=
  [.session (.moves (.loop .forwarding) 0), .session (.moves (.loop .forwarding) 0),
    .session (.channel none (some .closed)), .session (.arrives .goodbye),
    .session (.moves (.loop .receiving) 0), .session (.moves (.quit .forwarding) 0),
    .session (.moves (.quit .beating) 0), .session (.moves (.quit .relaying) 0),
    .session (.moves .finish 0), .session (.moves .finish 0), .session (.moves .finish 0)]

/-- The session is gone, and the other client of the room is still there. -/
theorem run?_ends_goodbye : ∃ x, visitor.run? goodbye = some x ∧
    x.Gone (.fresh .silence) (some .fresh) ∧ x.openReaders = 1 ∧
    ∀ (s s' : Service), Service.Steps 0 s s' → s'.stopped = s.stopped := by
  have possible : (visitor.run? goodbye).isSome = true := by decide +kernel
  obtain ⟨x, ran⟩ := Option.isSome_iff_exists.1 possible
  have facts : (visitor.run? goodbye).map (fun x => (x.session.stage, x.openReaders)) =
      some (.ended, 1) := by decide +kernel
  rw [ran] at facts
  obtain ⟨ended, readers⟩ : x.session.stage = .ended ∧ x.openReaders = 1 := by simpa using facts
  obtain ⟨ends, others⟩ := run?_ends (sharedHub_begins 0) ran
  exact ⟨x, ran, ends.ended ended, readers, fun s s' steps => (others 0 s s' steps).1⟩

end Roomcast.Peer.Stay

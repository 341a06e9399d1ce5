import Roomcast.Proofs.Layouts
import Roomcast.Proofs.Standing

/-!
# What a client is sent

Three loops send frames to a client, each at its own pace: replies to what it asks for, signals of
the media service, and events of its room. What a loop has sent and what it has in its hands always
make up what it has taken from its source so far, so nothing is sent twice and nothing is left out
but what clients do not understand. A loop that ends with a frame in its hands takes nothing any
more.

A session at rest has nothing in its hands and nothing before it: its client has been sent all that
the sources have produced.
-/

namespace Roomcast.Peer

variable {hub hub' : Hub} {s s' : Session} {deed : Option Deed} {act : Option Registry.Action}

/-- What a loop has sent, of all that it had to send. It has the rest in its hands, unless it has
ended. -/
def Passed (due sent : List Frame) (hands : Option (List Frame)) : Prop :=
  ∃ missing, sent ++ missing = due ∧ ∀ held ∈ hands, missing = held

/-- How a turn changes what a loop has in its hands: it takes frames or sends one. -/
inductive Handles : Option (List Frame) → List Frame → List Frame → Option (List Frame) → Prop
  | stays (hands : Option (List Frame)) : Handles hands [] [] hands
  | ends (hands : Option (List Frame)) : Handles hands [] [] none
  | takes (frames : List Frame) : Handles (some []) frames [] (some frames)
  | sends (f : Frame) : Handles (some [f]) [] [f] (some [])

theorem Passed.turn {due sent taken written : List Frame} {hands hands' : Option (List Frame)}
    (h : Passed due sent hands) (turn : Handles hands taken written hands') :
    Passed (due ++ taken) (sent ++ written) hands' := by
  obtain ⟨missing, whole, held⟩ := h
  cases turn with
  | stays => exact ⟨missing, by simpa using whole, held⟩
  | ends => exact ⟨missing, by simpa using whole, by simp⟩
  | takes =>
      obtain rfl := held [] rfl
      exact ⟨taken, by simp [← whole], by simp⟩
  | sends f =>
      obtain rfl := held [f] rfl
      exact ⟨[], by simpa using whole, by simp⟩

theorem Passed.isPrefix {due sent : List Frame} {hands : Option (List Frame)}
    (h : Passed due sent hands) : sent <+: due := by
  obtain ⟨missing, whole, _⟩ := h
  exact ⟨missing, whole⟩

theorem Passed.all {due sent : List Frame} (h : Passed due sent (some [])) : sent = due := by
  obtain ⟨missing, whole, held⟩ := h
  obtain rfl := held [] rfl
  simpa using whole

namespace Deed

def writtenBy? (l : Loop) : Deed → Option Frame
  | wrote k f => if k = l then some f else none
  | _ => none

end Deed

def Effect.reply? : Effect → Option Frame
  | replied f => some f
  | _ => none

/-- The frames for what the media service has sent: each holds one signal and nothing else, and
answers no request. What is not understood is left out. -/
def signalFrames (heard : List (Except SignalError Signal)) : List Frame :=
  (heard.filterMap Except.toOption).map fun signal =>
    { requestId := none, responseId := none
      body := { signal := some signal, state := none, note := none, event := none } }

/-- The frames for events: each holds one event and nothing else, and answers no request. Those that
clients do not understand are left out. -/
def eventFrames (events : List Event) : List Frame :=
  (events.filter fun e =>
    e.payload.kind ∈ ["peerState", "peerMessage", "recording", "reaction"]).map fun e =>
      { requestId := none, responseId := none
        body := { signal := none, state := none, note := none, event := some e } }

theorem eventFrames_eq (events : List Event) :
    eventFrames events = (events.filter (·.isKnown)).map .ofEvent := by
  have same : (fun e : Event => decide (e.payload.kind ∈
      ["peerState", "peerMessage", "recording", "reaction"])) = (·.isKnown) := by
    funext e
    rw [Bool.eq_iff_iff, decide_eq_true_iff, isKnown_iff]
  rw [eventFrames, same]
  rfl

theorem eventFrames_known {e : Event} (known : e.isKnown = true) (rest : List Event) :
    eventFrames (e :: rest) = .ofEvent e :: eventFrames rest := by
  rw [eventFrames_eq, eventFrames_eq, List.filter_cons_of_pos known, List.map_cons]

theorem eventFrames_unknown {e : Event} (unknown : e.isKnown = false) (rest : List Event) :
    eventFrames (e :: rest) = eventFrames rest := by
  rw [eventFrames_eq, eventFrames_eq, List.filter_cons_of_neg (by simp [unknown])]

/-- What the loop that passes signals on has in its hands. -/
def Relaying.hands : Relaying → Option (List Frame)
  | .waiting => some []
  | .writing signal => some [.ofSignal signal]
  | .ended => none

def Forwarding.hands : Forwarding → Option (List Frame)
  | .idle | .reading => some []
  | .writing e => some [.ofEvent e]
  | .ended => none

theorem Effect.perform?_sent {e : Effect} (performed : e.perform? hub s = some (hub', s')) :
    s'.link.sent = s.link.sent ++ (Deed.ofEffect e).writing?.toList.map (·.2.render) := by
  cases e with
  | relayed | emitted =>
      obtain ⟨_, _, same⟩ := Option.map_eq_some_iff.1 performed
      cases same
      exact (List.append_nil _).symm
  | replied f =>
      obtain ⟨link, sent, same⟩ := Option.map_eq_some_iff.1 performed
      cases same
      rw [Link.send] at sent
      split at sent <;> cases sent
      rfl

namespace Session

/-- What the media service has sent and the session has not taken. -/
def awaiting (s : Session) : List (Except SignalError Signal) := (s.media.map (·.inbox)).getD []

theorem awaiting_congr {β : Type} {f : Media → List (Except SignalError Signal) × β}
    (inbox : ∀ m, (f m).1 = m.inbox) (same : s'.media.map f = s.media.map f) :
    s'.awaiting = s.awaiting := by
  have same := congrArg (Option.map Prod.fst) same
  rw [Option.map_map, Option.map_map] at same
  have here : (Prod.fst ∘ f) = (·.inbox) := funext inbox
  rw [awaiting, awaiting, ← here, same]

/-- What is sent on the link are the frames that the loops send. -/
theorem Did.sent (did : Did hub s deed act hub' s') :
    s'.link.sent = s.link.sent ++ (deed.bind Deed.writing?).toList.map (·.2.render) := by
  have nothing : s.link.sent = s.link.sent ++ [] := (List.append_nil _).symm
  cases did with
  | leaves | closes => exact nothing
  | hangsUp => cases s.media <;> exact nothing
  | loop serving went =>
      cases went with
      | ponders _ still | fails still | beats still => exact still.sent.trans nothing
      | performs _ performed =>
          have sent := Effect.perform?_sent performed
          exact sent
      | relays | forwards => rfl
      | @quits l => cases l <;> exact nothing
      | _ => exact nothing

/-- What a session takes from its media channel and what it sends of it. -/
theorem Did.relaying (did : Did hub s deed act hub' s') :
    ∃ heard, s.awaiting = heard ++ s'.awaiting ∧
      Handles s.relaying.hands (signalFrames heard)
        (deed.bind (Deed.writtenBy? .relaying)).toList s'.relaying.hands := by
  have still : s'.awaiting = s.awaiting → s'.relaying = s.relaying →
      deed.bind (Deed.writtenBy? .relaying) = none → ∃ heard, s.awaiting = heard ++ s'.awaiting ∧
        Handles s.relaying.hands (signalFrames heard)
          (deed.bind (Deed.writtenBy? .relaying)).toList s'.relaying.hands := by
    intro same relaying nothing
    refine ⟨[], same.symm, ?_⟩
    rw [nothing, relaying]
    exact .stays _
  cases did with
  | leaves | closes => exact still rfl rfl rfl
  | hangsUp =>
      refine still ?_ rfl ?_
      · rw [awaiting, awaiting]
        cases s.media <;> rfl
      · cases s.media <;> rfl
  | loop serving went =>
      cases went with
      | @performs e _ _ _ _ performed =>
          obtain ⟨link, media, rfl, _, same⟩ := Effect.perform?_frame performed
          refine still (awaiting_congr (fun _ => rfl) same) rfl ?_
          cases e <;> rfl
      | @hears m rest signal waits channel first =>
          refine ⟨[.ok signal], by simp [awaiting, channel, first], ?_⟩
          rw [waits]
          exact .takes _
      | @overhears m rest what waits channel first =>
          refine ⟨[.error (.unknown what)], by simp [awaiting, channel, first], ?_⟩
          exact .stays _
      | @loses m rest e waits channel first =>
          refine ⟨[.error e], by simp [awaiting, channel, first, endLoop, stopLoop], ?_⟩
          exact .ends _
      | relays phase =>
          refine ⟨[], rfl, ?_⟩
          rw [phase]
          exact .sends _
      | relayFails => exact ⟨[], rfl, .ends _⟩
      | @quits l =>
          cases l with
          | relaying => exact ⟨[], rfl, .ends _⟩
          | receiving | beating | forwarding => exact still rfl rfl rfl
      | _ => exact still rfl rfl rfl

/-- What a session reads and what it sends of it. -/
theorem Did.forwarding (did : Did hub s deed act hub' s') :
    Handles s.forwarding.hands
      (eventFrames (act.bind (hub.registry.readBy? s.reader)).toList)
      (deed.bind (Deed.writtenBy? .forwarding)).toList s'.forwarding.hands := by
  have still : s'.forwarding.hands = s.forwarding.hands →
      act.bind (hub.registry.readBy? s.reader) = none →
      deed.bind (Deed.writtenBy? .forwarding) = none →
      Handles s.forwarding.hands
        (eventFrames (act.bind (hub.registry.readBy? s.reader)).toList)
        (deed.bind (Deed.writtenBy? .forwarding)).toList s'.forwarding.hands := by
    intro forwarding unread nothing
    rw [unread, nothing, forwarding]
    exact .stays _
  have resumed : ∀ {got}, (hub.registry.resume s.reader).2 = got →
      hub.registry.readBy? s.reader (.resume s.reader) = got.bind Except.toOption := by
    rintro _ rfl
    rw [Registry.readBy?, if_pos rfl]
  cases did with
  | leaves | closes => exact still rfl rfl rfl
  | hangsUp =>
      refine still rfl rfl ?_
      cases s.media <;> rfl
  | loop serving went =>
      cases went with
      | @performs e _ _ _ _ performed =>
          obtain ⟨link, media, rfl, _⟩ := Effect.perform?_frame performed
          cases e <;> exact still rfl rfl rfl
      | begins phase => exact still (by rw [phase]; rfl) rfl rfl
      | parks phase got => exact still rfl (resumed got) rfl
      | @reads e phase got known =>
          rw [Option.bind_some, resumed got, phase]
          show Handles _ (eventFrames [e]) _ _
          rw [eventFrames_known known]
          exact .takes [.ofEvent e]
      | @skips e phase got unknown =>
          rw [Option.bind_some, resumed got, phase]
          show Handles _ (eventFrames [e]) _ _
          rw [eventFrames_unknown unknown]
          exact .stays (some [])
      | misses phase got =>
          rw [Option.bind_some, resumed got]
          exact .ends _
      | withdraws told phase got =>
          rw [Option.bind_some, Registry.readBy?, if_pos rfl, got]
          exact .ends _
      | forwards phase =>
          rw [phase]
          exact .sends _
      | forwardFails | abandons => exact .ends _
      | @quits l =>
          cases l with
          | forwarding => exact .ends _
          | receiving | beating | relaying => exact still rfl rfl rfl
      | _ => exact still rfl rfl rfl

theorem Did.writer (did : Did hub s deed act hub' s') :
    ∀ w ∈ deed.bind Deed.writing?, w.1 ≠ .beating := by
  cases did with
  | hangsUp => cases s.media <;> simp [Deed.writing?]
  | leaves | closes => simp [Deed.writing?]
  | loop serving went =>
      cases went with
      | @performs e => cases e <;> simp [Deed.writing?, Deed.ofEffect]
      | _ => simp [Deed.writing?]

end Session

namespace Stay

variable {x y : Stay} {r₀ : Registry} {p : Session.Seat} {before : Option (List Signal)}
  {reader : Registry.Reader} {sent₀ : List String} {acts₀ : List Registry.Action}

theorem writtenBy_eq (x : Stay) (l : Loop) :
    x.writtenBy l = x.deeds.filterMap (Deed.writtenBy? l) := by
  rw [writtenBy, writings]
  induction x.deeds with
  | nil => rfl
  | cons d ds ih =>
      cases d with
      | wrote k f =>
          by_cases same : k = l <;>
            simp [Deed.writing?, Deed.writtenBy?, same] at ih ⊢ <;> exact ih
      | _ => exact ih

theorem filterMap_toList {α β : Type} (o : Option α) (f : α → Option β) :
    o.toList.filterMap f = (o.bind f).toList := by
  cases o with
  | none => rfl
  | some a => cases same : f a <;> simp [same]

/-- What has been sent, and of what it is part. -/
structure Sends (r₀ : Registry) (p : Session.Seat) (acts₀ : List Registry.Action)
    (sent₀ : List String) (reader : Registry.Reader) (x : Stay) : Prop where
  sent : x.session.link.sent = sent₀ ++ x.writings.map (·.2.render)
  writers : ∀ w ∈ x.writings, w.1 ≠ .beating
  done : x.scene.done = x.deeds.filterMap Deed.effect?
  signals : ∃ heard, x.heard = heard ++ x.session.awaiting ∧
    Passed (signalFrames heard) (x.writtenBy .relaying) x.session.relaying.hands
  events : Passed (eventFrames (r₀.reads reader x.acts)) (x.writtenBy .forwarding)
    x.session.forwarding.hands
  mute : p.media = false → x.heard = []
  since : acts₀ <+: x.acts

/-- Nothing is sent when the session does nothing. -/
theorem Sends.rests (h : Sends r₀ p acts₀ sent₀ reader x) (rests : Rests x y)
    (signals : ∃ heard, y.heard = heard ++ y.session.awaiting ∧
      Passed (signalFrames heard) (x.writtenBy .relaying) y.session.relaying.hands)
    (acts : r₀.reads reader y.acts = r₀.reads reader x.acts)
    (mute : p.media = false → y.heard = []) (since : acts₀ <+: y.acts) :
    Sends r₀ p acts₀ sent₀ reader y := by
  have deeds := rests.looks.deeds
  constructor
  case sent => rw [rests.sent, h.sent, writings, writings, deeds]
  case writers => rw [writings, deeds]; exact h.writers
  case done => rw [rests.looks.done, h.done, deeds]
  case signals => rw [writtenBy_eq, deeds, ← writtenBy_eq]; exact signals
  case events =>
    rw [acts, writtenBy_eq, deeds, ← writtenBy_eq, rests.forwarding]
    exact h.events
  case mute => exact mute
  case since => exact since

/-- What a session does keeps the account. -/
theorem Sends.did (sound : Sound r₀ p before reader x)
    (did : Session.Did x.hub x.session deed act y.hub y.session)
    (acts : y.acts = x.acts ++ act.toList) (heard : y.heard = x.heard)
    (deeds : y.deeds = x.deeds ++ deed.toList)
    (done : y.scene.done = x.scene.done ++ (deed.bind Deed.effect?).toList)
    (h : Sends r₀ p acts₀ sent₀ reader x) : Sends r₀ p acts₀ sent₀ reader y := by
  have writings : y.writings = x.writings ++ (deed.bind Deed.writing?).toList := by
    rw [Stay.writings, deeds, List.filterMap_append, filterMap_toList, Stay.writings]
  have writtenBy : ∀ l,
      y.writtenBy l = x.writtenBy l ++ (deed.bind (Deed.writtenBy? l)).toList := by
    intro l
    rw [writtenBy_eq, writtenBy_eq, deeds, List.filterMap_append, filterMap_toList]
  constructor
  case sent => rw [did.sent, h.sent, writings, List.map_append, List.append_assoc]
  case writers =>
    intro w among
    rw [writings] at among
    exact (List.mem_append.1 among).elim (h.writers w) fun new =>
      did.writer w (Option.mem_toList.1 new)
  case done => rw [done, h.done, deeds, List.filterMap_append, filterMap_toList]
  case signals =>
    obtain ⟨received, whole, passed⟩ := h.signals
    obtain ⟨taken, rest, handles⟩ := did.relaying
    refine ⟨received ++ taken, ?_, ?_⟩
    · rw [heard, whole, List.append_assoc, rest]
    · have frames : signalFrames (received ++ taken) =
          signalFrames received ++ signalFrames taken := by
        simp [signalFrames]
      rw [frames, writtenBy]
      exact passed.turn handles
  case events =>
    have reads : r₀.reads reader y.acts = r₀.reads reader x.acts ++
        (act.bind (x.hub.registry.readBy? x.session.reader)).toList := by
      cases act with
      | none => simp [acts]
      | some a => rw [acts, sound.reader]; exact Registry.reads_snoc reader a sound.past
    have frames : eventFrames (r₀.reads reader y.acts) =
        eventFrames (r₀.reads reader x.acts) ++
          eventFrames (act.bind (x.hub.registry.readBy? x.session.reader)).toList := by
      simp [reads, eventFrames]
    rw [frames, writtenBy]
    exact h.events.turn did.forwarding
  case mute => rw [heard]; exact h.mute
  case since => rw [acts]; exact h.since.trans (List.prefix_append _ _)

theorem Sends.step (sound : Sound r₀ p before reader x) (step : Step x y)
    (h : Sends r₀ p acts₀ sent₀ reader x) : Sends r₀ p acts₀ sent₀ reader y := by
  cases step with
  | moves did acts heard deeds done => exact h.did sound did acts heard deeds done
  | hears a hub session acts heard looks =>
      obtain ⟨received, whole, passed⟩ := h.signals
      refine h.rests (.ofHears session looks) ⟨received, ?_, by rw [session]; exact passed⟩
        (by rw [acts]) ?_ (by rw [acts]; exact h.since)
      · rw [heard, whole, session]
        cases media : x.session.media <;> simp [Session.awaiting, media, Media.arrive]
      · intro mute
        have none : x.session.media = none := by
          rw [← Option.not_isSome_iff_eq_none, Bool.not_eq_true, ← mute, ← sound.kept.seat]
          rfl
        rw [heard, h.mute mute, none]
        rfl
  | bears bears registry acts heard looks =>
      obtain ⟨received, whole, passed⟩ := h.signals
      refine h.rests (.ofBears bears looks) ⟨received, ?_, ?_⟩ (by rw [acts])
        (by rw [heard]; exact h.mute) (by rw [acts]; exact h.since)
      · rw [heard, whole, Session.awaiting_congr (fun _ => rfl) bears.media]
      · rw [bears.loops.2.2.1]
        exact passed
  | others a did unused session acts heard looks =>
      obtain ⟨received, whole, passed⟩ := h.signals
      refine h.rests (.ofOthers session looks) ⟨received, ?_, by rw [session]; exact passed⟩ ?_
        (by rw [heard]; exact h.mute) ?_
      · rw [heard, whole, session]
      · rw [acts, Registry.reads_snoc reader a sound.past,
          Registry.readBy?_of_other (sound.reader ▸ unused), Option.toList_none, List.append_nil]
      · rw [acts]
        exact h.since.trans (List.prefix_append _ _)

end Stay

namespace Session

/-- A session that has not ended and can do nothing by itself. -/
structure Resting (r : Registry) (s : Session) : Prop where
  receiving : s.receiving = .waiting
  inbox : s.link.inbox = []
  relaying : s.media.isSome = true → s.relaying.hands = some []
  awaiting : s.awaiting = []
  forwarding : s.forwarding = .reading
  stuck : r.canResume s.reader = false

/-- The loop that receives has nothing to do when nothing has arrived. -/
theorem stepReceiving?_eq_none (fits : s.Fits) (stuck : s.stepReceiving? hub = none) :
    s.receiving = .ended ∨ s.receiving = .waiting ∧ s.link.inbox = [] := by
  cases due : s.receiving.pending with
  | cons e rest =>
      rw [stepReceiving?_of_pending hub fits due] at stuck
      cases stuck
  | nil =>
      cases phase : s.receiving with
      | passing | publishing | replying =>
          rw [phase] at due
          cases due
      | ended => exact .inl rfl
      | waiting =>
          rw [stepReceiving?_of_waiting phase, Option.map_eq_none_iff, Link.receive?] at stuck
          split at stuck
          case h_1 empty => exact .inr ⟨rfl, empty⟩
          case h_2 => cases stuck

/-- The loop that passes signals on has nothing to do when the media service has sent nothing. -/
theorem stepRelaying?_eq_none (stuck : s.stepRelaying? = none) :
    s.relaying = .ended ∨ s.relaying = .waiting ∧ s.awaiting = [] := by
  rw [stepRelaying?] at stuck
  split at stuck
  case h_1 phase =>
    refine .inr ⟨phase, ?_⟩
    cases channel : s.media with
    | none => simp [awaiting, channel]
    | some m =>
        rw [Option.map_eq_none_iff, channel, Option.bind_some, Media.receive?] at stuck
        split at stuck
        case h_1 empty => simp [awaiting, channel, empty]
        case h_2 => cases stuck
  case h_2 => cases stuck
  case h_3 phase => exact .inl phase

/-- The loop that passes events on has nothing to do while it waits for one. -/
theorem stepForwarding?_eq_none (untold : s.cancelled = false)
    (stuck : s.stepForwarding? hub = none) :
    s.forwarding = .ended ∨
      s.forwarding = .reading ∧ hub.registry.canResume s.reader = false := by
  rw [stepForwarding?] at stuck
  split at stuck
  case h_2 phase =>
    rw [withRead_of_untold untold] at stuck
    split_ifs at stuck with able
    exact .inr ⟨phase, by simpa using able⟩
  case h_4 phase => exact .inl phase
  all_goals cases stuck

theorem Stands.resting (stands : s.Stands) (fits : s.Fits) {now : Nat}
    (still : ∀ m, s.move? hub now m = none) (on : s.stage ≠ .ended) :
    Resting hub.registry s := by
  obtain ⟨serving, untold, loops⟩ | ended := stands.settled (fun l => still _) (still _)
  case inr => exact absurd ended on
  have step : ∀ l, s.stepLoop? hub now l = none := by
    intro l
    have stuck := still (.loop l)
    rwa [move?, if_pos serving] at stuck
  have receives : s.receiving ≠ .ended := by
    intro ended
    have relays := (loops .receiving).1 (hasEnded_receiving.2 ended)
    simp at relays
  have forwards : s.forwarding ≠ .ended := by
    intro ended
    have relays := (loops .forwarding).1 (hasEnded_forwarding.2 ended)
    simp at relays
  obtain ⟨waits, empty⟩ := (stepReceiving?_eq_none fits (step .receiving)).resolve_left receives
  obtain ⟨reads, stuck⟩ := (stepForwarding?_eq_none untold (step .forwarding)).resolve_left
    forwards
  have relaying := stepRelaying?_eq_none (Option.map_eq_none_iff.1 (step .relaying))
  refine ⟨waits, empty, fun channel => ?_, ?_, reads, stuck⟩
  · obtain ended | ⟨phase, _⟩ := relaying
    · have mute := ((loops .relaying).1 (hasEnded_relaying.2 ended)).2
      rw [mute] at channel
      cases channel
    · rw [phase]
      rfl
  · obtain ended | ⟨_, nothing⟩ := relaying
    · have mute := ((loops .relaying).1 (hasEnded_relaying.2 ended)).2
      rw [awaiting, mute]
      rfl
    · exact nothing

end Session

namespace Stay

variable {x y : Stay} {r₀ : Registry} {p : Session.Seat} {before : Option (List Signal)}
  {reader : Registry.Reader} {sent₀ : List String} {acts₀ : List Registry.Action}

/-- What a client has been sent when its session is at rest. -/
structure Complete (r₀ : Registry) (p : Session.Seat) (reader : Registry.Reader) (logged : Nat)
    (x : Stay) : Prop where
  /-- All that the client has sent has been taken, and all its requests have been answered. -/
  texts : x.scene.arrived = x.scene.taken.map (·.1)
  replies : x.writtenBy .receiving = (x.scene.due p).filterMap Effect.reply?
  /-- All signals of the media service have been sent. -/
  signals : x.writtenBy .relaying = signalFrames x.heard
  /-- All events that have been read have been sent, and the session waits for the next. -/
  events : x.writtenBy .forwarding = eventFrames (r₀.reads reader x.acts)
  waits : x.hub.registry.isReading reader = true ∧ x.hub.registry.canResume reader = false
  /-- If no event is on its way either, all those have been read that the log has got since the
  session began. -/
  log : (∀ room, Registry.Action.fault room .crash ∉ x.acts) →
    x.hub.registry.step? (.puller reader.stream) = none →
    ∃ start, start ≤ logged ∧
      r₀.reads reader x.acts = (x.hub.registry.store.fetch p.roomId).drop start

/-- What a client has been sent at any time. -/
structure Sent (r₀ : Registry) (p : Session.Seat) (reader : Registry.Reader)
    (sent₀ : List String) (logged : Nat) (x : Stay) : Prop where
  /-- It is the frames that three loops have sent, each in its own order. -/
  frames : x.session.link.sent = sent₀ ++ x.writings.map (·.2.render)
  writers : ∀ w ∈ x.writings, w.1 = .receiving ∨ w.1 = .relaying ∨ w.1 = .forwarding
  /-- The replies to the requests that have been accepted. Texts are taken as they arrive. -/
  texts : x.scene.arrived = x.scene.taken.map (·.1) ++ x.session.link.texts
  replies : x.writtenBy .receiving <+: (x.scene.due p).filterMap Effect.reply?
  /-- The signals that have been taken from the media channel. -/
  signals : ∃ heard, x.heard = heard ++ x.session.awaiting ∧
    x.writtenBy .relaying <+: signalFrames heard
  /-- The events that have been read. -/
  events : x.writtenBy .forwarding <+: eventFrames (r₀.reads reader x.acts)
  complete : ∀ now, (∀ m, x.session.move? x.hub now m = none) → x.session.stage ≠ .ended →
    x.Complete r₀ p reader logged

/-- What the loop that receives has sent are the answers among what has been done. -/
theorem Sends.replies (h : Sends r₀ p acts₀ sent₀ reader x) :
    x.writtenBy .receiving = x.scene.done.filterMap Effect.reply? := by
  have each : (fun d : Deed => d.effect?.bind Effect.reply?) = Deed.writtenBy? .receiving := by
    funext d
    cases d with
    | wrote l f => cases l <;> rfl
    | _ => rfl
  rw [h.done, writtenBy_eq, List.filterMap_filterMap, each]

variable {capacity channelCapacity : Nat} {hub₀ : Hub}

theorem Sends.complete
    (begins : Begins (.empty capacity channelCapacity) acts₀ hub₀ p.roomId reader)
    (sound : Sound (.empty capacity channelCapacity) p before reader x)
    (h : Sends (.empty capacity channelCapacity) p acts₀ sent₀ reader x)
    (rests : x.session.Resting x.hub.registry) :
    x.Complete (.empty capacity channelCapacity) p reader
      (hub₀.registry.store.fetch p.roomId).length := by
  obtain ⟨c, seats, _⟩ := sound.seated
  have reading : x.hub.registry.isReading reader = true := by
    have waits := seats.reading.2 rests.forwarding
    rw [← sound.reader, Registry.isReading_of_cursorOf? seats.found, waits]
  have stuck : x.hub.registry.canResume reader = false := by
    rw [← sound.reader]
    exact rests.stuck
  constructor
  case texts =>
    have none : x.session.link.texts = [] := by rw [Link.texts, rests.inbox]; rfl
    rw [sound.kept.inOrder, none, List.append_nil]
  case replies =>
    obtain ⟨missing, whole, _, pending⟩ := sound.kept.inTurn
    obtain rfl : missing = [] := by
      rw [pending (by simp [rests.receiving]), rests.receiving, Receiving.pending]
    rw [h.replies, ← whole, List.append_nil]
  case signals =>
    obtain ⟨heard, whole, passed⟩ := h.signals
    rw [rests.awaiting, List.append_nil] at whole
    cases media : p.media with
    | true =>
        rw [rests.relaying (by rw [← media, ← sound.kept.seat]; rfl)] at passed
        rw [passed.all, whole]
    | false =>
        have none := h.mute media
        rw [← whole, none] at passed
        rw [none]
        exact List.prefix_nil.1 passed.isPrefix
  case events =>
    have passed := h.events
    rw [rests.forwarding] at passed
    exact passed.all
  case waits => exact ⟨reading, stuck⟩
  case log =>
    intro calm idle
    obtain ⟨s, among, room, served⟩ := begins.served
    obtain ⟨start, bound, _, rest⟩ :=
      Registry.run?_stretch sound.past calm ⟨acts₀, h.since, begins.past⟩ among served
    rw [room] at bound rest
    exact ⟨start, bound, rest idle reading stuck⟩

variable {userId roomId : Uuid} {link : Link} {pace : Pace} {media : Option Media} {now : Nat}
  {ts : List Turn}

theorem start_sends (begins : Begins (.empty capacity channelCapacity) acts₀ hub₀ roomId reader) :
    Sends (.empty capacity channelCapacity) ⟨roomId, userId, media.isSome⟩ acts₀ link.sent reader
      (start acts₀ hub₀ (.connecting userId roomId link reader pace) media now) := by
  have unread := (Registry.run?_unused begins.past begins.unused).2
  have unwritten : ∀ w ∈ (start acts₀ hub₀ (.connecting userId roomId link reader pace) media
      now).writings, w.1 ≠ .beating := by simp [writings, start]
  refine ⟨(List.append_nil _).symm, unwritten, rfl, ⟨[], rfl, ?_⟩, ?_, ?_, List.prefix_rfl⟩
  · cases media <;> exact ⟨[], rfl, by simp [start, Scene.start, Session.serve, Relaying.hands]⟩
  · refine ⟨[], ?_, by simp [start, Scene.start, Session.serve, Session.connecting,
      Forwarding.hands]⟩
    show [] = eventFrames (Registry.reads _ reader acts₀)
    rw [unread]
    rfl
  · intro mute
    cases media with
    | none => rfl
    | some m => cases mute

/-- Whatever happens to a session, its client is sent three sequences of frames: the replies to its
requests, the signals that have been received, and the events that have been read, without those
that it does not understand. Of each it is sent a beginning at any time, and all of it when the
session is at rest. -/
theorem run?_sent (begins : Begins (.empty capacity channelCapacity) acts₀ hub₀ roomId reader)
    (ran : (start acts₀ hub₀ (.connecting userId roomId link reader pace) media now).run? ts =
      some x) :
    x.Sent (.empty capacity channelCapacity) ⟨roomId, userId, media.isSome⟩ reader link.sent
      (hub₀.registry.store.fetch roomId).length := by
  obtain ⟨sound, sends⟩ := run?_induction (start_sound begins) (start_sends begins)
    (fun _ _ sound _ step h => h.step sound step) ran
  constructor
  case frames => exact sends.sent
  case writers =>
    intro w among
    have other := sends.writers w among
    cases writer : w.1 <;> simp [writer] at other ⊢
  case texts => exact sound.kept.inOrder
  case replies =>
    obtain ⟨missing, whole, _⟩ := sound.kept.inTurn
    rw [sends.replies, ← whole, List.filterMap_append]
    exact List.prefix_append _ _
  case signals =>
    obtain ⟨heard, whole, passed⟩ := sends.signals
    exact ⟨heard, whole, passed.isPrefix⟩
  case events => exact sends.events.isPrefix
  case complete =>
    intro now still on
    exact sends.complete begins sound (sound.stands.resting sound.kept.fits still on)

/-- The client says something to the room, and the media service sends a signal after one that is
not understood. The event comes back before the reply is sent. -/
def chat : List Turn :=
  [.session (.arrives (.text (Frame.render
      ⟨some "7", none, { Frame.Body.empty with note := some ⟨"hi"⟩ }⟩))),
    .session (.moves (.loop .receiving) 0), .session (.moves (.loop .receiving) 0),
    .session (.signals (.error (.unknown "bye"))),
    .session (.signals (.ok (.offer ⟨.offer, "v=0"⟩))),
    .session (.moves (.loop .relaying) 0), .session (.moves (.loop .relaying) 0),
    .registry (.step (.puller 0)), .registry (.step (.puller 0)),
    .session (.moves (.loop .forwarding) 0), .session (.moves (.loop .forwarding) 0),
    .session (.moves (.loop .relaying) 0), .session (.moves (.loop .forwarding) 0),
    .session (.moves (.loop .receiving) 0), .session (.moves (.loop .forwarding) 0),
    .session (.moves (.loop .forwarding) 0), .session (.moves (.loop .beating) 0)]

/-- All three frames have been sent, and the session is at rest. -/
theorem run?_sent_chat : ∃ x, visitor.run? chat = some x ∧
    x.writings.map (·.1) = [.relaying, .forwarding, .receiving] ∧
    x.writtenBy .receiving <+: (x.scene.due ⟨.ofNat 7, .ofNat 1, true⟩).filterMap Effect.reply? ∧
    x.Complete (.empty 2 1) ⟨.ofNat 7, .ofNat 1, true⟩ ⟨0, 0⟩ 0 := by
  have possible : (visitor.run? chat).isSome = true := by decide +kernel
  obtain ⟨x, ran⟩ := Option.isSome_iff_exists.1 possible
  have facts : (visitor.run? chat).map (fun x => (x.writings.map (·.1),
      decide (x.session.stage = .ended), Session.loops.all fun l =>
        (x.session.move? x.hub 0 (.loop l)).isNone && (x.session.move? x.hub 0 (.quit l)).isNone,
      (x.session.move? x.hub 0 .finish).isNone)) =
      some ([.relaying, .forwarding, .receiving], false, true, true) := by decide +kernel
  have unlogged : (sharedHub.registry.store.fetch (.ofNat 7)).length = 0 := by decide +kernel
  rw [ran] at facts
  simp only [Option.map_some, Option.some.injEq, Prod.mk.injEq, decide_eq_false_iff_not,
    Session.loops, List.all_cons, List.all_nil, Bool.and_true, Bool.and_eq_true,
    Option.isNone_iff_eq_none] at facts
  obtain ⟨writers, on, ⟨⟨r, r'⟩, ⟨b, b'⟩, ⟨s, s'⟩, ⟨f, f'⟩⟩, finish⟩ := facts
  have sent := run?_sent (sharedHub_begins 0) ran
  rw [unlogged] at sent
  refine ⟨x, ran, writers, sent.replies, sent.complete 0 (fun m => ?_) on⟩
  cases m with
  | finish => exact finish
  | loop l => cases l <;> assumption
  | quit l => cases l <;> assumption

end Stay

end Roomcast.Peer

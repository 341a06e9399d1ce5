import Roomcast.Proofs.Parting
import Roomcast.Proofs.Requests

/-!
# What a session does for its client

The texts of a client have their effects one after the other, in the order in which they arrive. A
`Scene` notes the texts that have been taken and the effects that have been brought about. What has
been done and what is missing always make up what the texts ask for, and only for the last text
something may be missing. An effect that fails ends the session, and so does much else, so that an
event may have no answer; but there is never an answer without its event.
-/

namespace Roomcast.Peer

variable {hub' : Hub}

/-- A session, the hub, and what has passed between the session and its client. -/
structure Scene where
  hub : Hub
  session : Session
  /-- The texts that have arrived, first one first. -/
  arrived : List String
  /-- The texts that the session has taken, each with the stamp that a new event would have got. -/
  taken : List (String × Stamp)
  /-- What the session has done for its client, first thing first. -/
  done : List Effect

namespace Scene

variable {x y : Scene} {p : Session.Seat} {before : Option (List Signal)}

def start (hub : Hub) (s : Session) (media : Option Media) (now : Nat) : Scene :=
  { hub, session := s.serve media now, arrived := s.link.texts, taken := [], done := [] }

/-- What an occasion leads to, with a note of what has passed. -/
def next? (x : Scene) (o : Occasion) : Option Scene :=
  (o.next? x.hub x.session).map fun (hub, session) =>
    { hub, session
      arrived := x.arrived ++ o.text?.toList
      taken :=
        if o.receives then
          x.taken ++ (x.session.takes?.map fun t => (t, x.hub.stamps x.hub.stamped)).toList
        else x.taken
      done := if o.receives then x.done ++ (x.session.does? x.hub).toList else x.done }

def run? (x : Scene) (os : List Occasion) : Option Scene := os.foldlM next? x

/-- The effects that all texts which have been taken ask for. -/
def due (p : Session.Seat) (x : Scene) : List Effect := x.taken.flatMap fun t => p.reaction t.1 t.2

/-- The effects that the last of these texts asks for. -/
def lastDue (p : Session.Seat) (x : Scene) : List Effect :=
  (x.taken.getLast?.map fun t => p.reaction t.1 t.2).getD []

/-- What has been done and what is missing make up what the texts ask for. Only for the last text
something may be missing: what still is to be done, or what the end of the session has left
undone. -/
def InTurn (p : Session.Seat) (x : Scene) : Prop :=
  ∃ missing, x.done ++ missing = x.due p ∧ missing <:+ x.lastDue p ∧
    (x.session.receiving ≠ .ended → missing = x.session.receiving.pending)

/-- What a step of the loop that receives does to a scene. -/
inductive Receives (x y : Scene) : Prop
  /-- A text is taken. -/
  | takes {t : String} {rest : List Arrival} {q : Receiving}
      (waits : x.session.receiving = .waiting) (first : x.session.link.inbox = .text t :: rest)
      (takes : Session.Takes x.hub x.session t y.hub q)
      (session : y.session = { x.session.behead rest with receiving := q })
      (arrived : y.arrived = x.arrived) (done : y.done = x.done)
      (taken : y.taken = x.taken ++ [(t, x.hub.stamps x.hub.stamped)])
  /-- What comes next is done. -/
  | performs {e : Effect} {rest : List Effect} {s' : Session}
      (due : x.session.receiving.pending = e :: rest)
      (performed : e.perform? x.hub x.session = some (y.hub, s'))
      (session : y.session = { s' with receiving := x.session.receiving.next })
      (arrived : y.arrived = x.arrived) (taken : y.taken = x.taken) (done : y.done = x.done ++ [e])
  /-- Something else arrives, or what comes next fails. -/
  | rests (same : y.taken = x.taken ∧ y.done = x.done) (hub : y.hub = x.hub)
      (arrived : y.arrived = x.arrived ++ []) (apart : x.session.Apart y.session [])
      (sent : y.session.link.sent = x.session.link.sent)

theorem receives_of_next? {o : Occasion} (fits : x.session.Fits) (receives : o.receives = true)
    (happened : x.next? o = some y) : Receives x y := by
  obtain ⟨now, rfl⟩ : ∃ now, o = .moves (.loop .receiving) now := by
    unfold Occasion.receives at receives
    split at receives
    · exact ⟨_, rfl⟩
    · cases receives
  obtain ⟨⟨hub', s'⟩, next, rfl⟩ := Option.map_eq_some_iff.1 happened
  rw [Occasion.next?, Session.move?, Option.ite_none_right_eq_some, Session.stepLoop?] at next
  have stepped := next.2
  obtain ⟨t, rest, waits, first⟩ | ⟨e, rest, due⟩ | ⟨waits, nothing, rfl, apart, sent⟩ :=
    Session.stepReceiving?_cases stepped
  · obtain ⟨_, q, taken, takes⟩ := Session.stepReceiving?_of_text x.hub waits first
    rw [stepped] at taken
    cases taken
    refine .takes waits first takes rfl (List.append_nil _) ?_ ?_
    · simp [Session.does?, waits, Receiving.pending]
    · simp [receives, Session.takes?, waits, first]
  · have step := Session.stepReceiving?_of_pending x.hub fits due
    -- Something is pending, so the loop does not wait and takes no text.
    have nothing : x.session.takes? = none := by
      rw [Session.takes?]
      cases phase : x.session.receiving <;> simp_all [Receiving.pending]
    rw [stepped] at step
    cases performed : e.perform? x.hub x.session with
    | some result =>
        rw [performed] at step
        cases step
        refine .performs due performed rfl (List.append_nil _) ?_ ?_
        · simp [nothing]
        · simp [receives, Session.does?, due, performed]
    | none =>
        rw [performed] at step
        cases step
        refine .rests ⟨?_, ?_⟩ rfl rfl ?_ rfl
        · simp [nothing]
        · simp [Session.does?, due, performed]
        · exact ⟨rfl, (List.append_nil _).symm, rfl, .inr ⟨rfl, rfl⟩, fun _ => rfl, id, .inl⟩
  · refine .rests ⟨?_, ?_⟩ rfl rfl apart sent
    · simp [nothing]
    · simp [Session.does?, waits, Receiving.pending]

/-- What is preserved while a session lasts. -/
structure Kept (p : Session.Seat) (before : Option (List Signal)) (x : Scene) : Prop where
  seat : x.session.seat = p
  inOrder : x.arrived = x.taken.map (·.1) ++ x.session.link.texts
  inTurn : x.InTurn p
  signals : x.session.media.map (·.sent) = before.map (· ++ x.done.filterMap Effect.signal?)
  begun : x.session.hasBegun = true
  serving : x.session.stage = .serving ∨ x.session.receiving = .ended
  cancels : x.session.receiving = .ended → x.session.cancelled = true

theorem start_kept (hub : Hub) (userId roomId : Uuid) (link : Link) (reader : Registry.Reader)
    (pace : Pace) (media : Option Media) (now : Nat) :
    (start hub (.connecting userId roomId link reader pace) media now).Kept
      ⟨roomId, userId, media.isSome⟩ (media.map (·.sent)) := by
  constructor
  case inTurn => exact ⟨[], rfl, List.suffix_rfl, fun _ => rfl⟩
  case signals => cases media <;> simp [start, Session.serve]
  case serving => exact .inl rfl
  case cancels =>
    intro ended
    cases ended
  all_goals rfl

/-- What the loop that receives has no part in. -/
theorem Kept.apart (h : x.Kept p before) (same : y.taken = x.taken ∧ y.done = x.done)
    {new : List String} (arrived : y.arrived = x.arrived ++ new)
    (apart : x.session.Apart y.session new) : y.Kept p before := by
  obtain ⟨taken, done⟩ := same
  constructor
  case seat => rw [apart.seat, h.seat]
  case inOrder => rw [arrived, h.inOrder, taken, apart.texts, List.append_assoc]
  case inTurn =>
    obtain ⟨missing, whole, last, pending⟩ := h.inTurn
    refine ⟨missing, by rw [due, taken, done]; exact whole, by rw [lastDue, taken]; exact last, ?_⟩
    intro on
    -- The loop stands where it stood, for it has not ended.
    obtain stays | ⟨ended, _⟩ := apart.receiving
    · rw [stays] at on ⊢
      exact pending on
    · exact absurd ended on
  case signals => rw [apart.signals, h.signals, done]
  case begun => exact apart.begun h.begun
  case serving =>
    have stays : x.session.receiving = .ended → y.session.receiving = .ended := by
      intro ended
      obtain stays | ⟨ended', _⟩ := apart.receiving
      · rw [stays, ended]
      · exact ended'
    obtain serving | ended := h.serving
    · obtain serving' | ended := apart.serving serving
      · exact .inl serving'
      · exact .inr (stays ended)
    · exact .inr (stays ended)
  case cancels =>
    intro ended
    obtain stays | ⟨_, cancelled⟩ := apart.receiving
    · exact apart.cancelled (h.cancels (stays ▸ ended))
    · exact cancelled

/-- Signals are passed on only in a session that has a channel for them. -/
theorem Kept.fits (h : x.Kept p before) : x.session.Fits := by
  intro signal passing
  obtain ⟨missing, _, last, pending⟩ := h.inTurn
  obtain rfl : missing = [.relayed signal] := by
    rw [pending (by simp [passing]), passing, Receiving.pending]
  have among := last.subset (List.mem_singleton_self _)
  rw [lastDue] at among
  cases latest : x.taken.getLast? with
  | none => simp [latest] at among
  | some t =>
      rw [latest] at among
      have media := p.media_of_relayed among
      rw [← h.seat] at media
      exact media

/-- When a text is taken everything has been done for those before. -/
theorem Kept.take {t : String} {rest : List Arrival} {q : Receiving} (h : x.Kept p before)
    (waits : x.session.receiving = .waiting) (first : x.session.link.inbox = .text t :: rest)
    (takes : Session.Takes x.hub x.session t hub' q)
    (session : y.session = { x.session.behead rest with receiving := q })
    (arrived : y.arrived = x.arrived) (done : y.done = x.done)
    (taken : y.taken = x.taken ++ [(t, x.hub.stamps x.hub.stamped)]) : y.Kept p before := by
  have asked := takes.pending
  rw [h.seat] at asked
  constructor
  case seat => rw [session]; exact h.seat
  case inOrder =>
    rw [arrived, h.inOrder, taken, session, Link.texts, first]
    simp [Session.behead, Link.texts]
  case inTurn =>
    obtain ⟨missing, whole, _, pending⟩ := h.inTurn
    -- The loop waits, so nothing is missing for the texts before.
    obtain rfl : missing = [] := by rw [pending (by simp [waits]), waits, Receiving.pending]
    refine ⟨q.pending, ?_, ?_, fun _ => by rw [session]⟩
    · rw [due, taken, List.flatMap_append, done, ← due, ← whole, asked]
      simp
    · rw [lastDue, taken, asked]
      simp
  case signals => rw [session, done]; exact h.signals
  case begun => rw [session]; exact h.begun
  case serving =>
    rw [session]
    exact .inl (h.serving.resolve_right (by simp [waits]))
  case cancels =>
    intro ended
    rw [session] at ended
    exact absurd ended takes.goesOn

/-- What is done is what was missing first. -/
theorem Kept.perform {e : Effect} {rest : List Effect} {s' : Session} (h : x.Kept p before)
    (due : x.session.receiving.pending = e :: rest)
    (performed : e.perform? x.hub x.session = some (hub', s'))
    (session : y.session = { s' with receiving := x.session.receiving.next })
    (arrived : y.arrived = x.arrived) (taken : y.taken = x.taken)
    (done : y.done = x.done ++ [e]) : y.Kept p before := by
  have leaves := Effect.leaves performed
  have goesOn := Receiving.next_ne_ended due
  have on : x.session.receiving ≠ .ended := by
    intro ended
    rw [ended] at due
    cases due
  constructor
  case seat => rw [session]; exact leaves.seat.trans h.seat
  case inOrder =>
    rw [arrived, h.inOrder, taken, session]
    exact congrArg _ leaves.texts.symm
  case inTurn =>
    obtain ⟨missing, whole, last, pending⟩ := h.inTurn
    obtain rfl : missing = e :: rest := (pending on).trans due
    refine ⟨rest, ?_, ?_, fun _ => ?_⟩
    · rw [Scene.due, taken, done, List.append_assoc]
      exact whole
    · rw [lastDue, taken]
      exact (List.suffix_cons e rest).trans last
    · rw [session]
      show rest = x.session.receiving.next.pending
      rw [Receiving.next_pending, due, List.tail_cons]
  case signals =>
    have step := leaves.signals
    rw [h.signals, Option.map_map] at step
    rw [session, done]
    refine step.trans (congrArg (before.map ·) (funext fun sent => ?_))
    cases signal : e.signal? <;> simp [signal]
  case begun =>
    rw [session]
    exact (Session.hasBegun_congr leaves.stage).trans h.begun
  case serving =>
    rw [session]
    exact .inl (leaves.stage.trans (h.serving.resolve_right on))
  case cancels =>
    intro ended
    rw [session] at ended
    exact absurd ended goesOn

theorem Kept.next? {o : Occasion} (h : x.Kept p before) (happened : x.next? o = some y) :
    y.Kept p before := by
  cases receives : o.receives with
  | false =>
      obtain ⟨⟨hub', s'⟩, next, rfl⟩ := Option.map_eq_some_iff.1 happened
      exact h.apart ⟨by simp [receives], by simp [receives]⟩ rfl
        (Occasion.next?_apart receives next)
  | true =>
      cases receives_of_next? h.fits receives happened with
      | takes waits first takes session arrived done taken =>
          exact h.take waits first takes session arrived done taken
      | performs due performed session arrived taken done =>
          exact h.perform due performed session arrived taken done
      | rests same hub' arrived apart => exact h.apart same arrived apart

theorem Kept.run? {os : List Occasion} (h : x.Kept p before) (ran : x.run? os = some y) :
    y.Kept p before := by
  induction os generalizing x with
  | nil =>
      cases ran
      exact h
  | cons o os ih =>
      rw [Scene.run?, List.foldlM_cons] at ran
      obtain ⟨z, happened, ran⟩ := Option.bind_eq_some_iff.1 ran
      exact ih (h.next? happened) ran

/-- No event is published, no signal is passed on, and the loop that receives sends nothing. -/
structure Idle (o : Occasion) (x y : Scene) : Prop where
  store : ∀ m now, o = .moves m now → y.hub.registry.store = x.hub.registry.store
  signals : y.session.media.map (·.sent) = x.session.media.map (·.sent)
  sent : o.receives = true → y.session.link.sent = x.session.link.sent

/-- What is noted is what happens. -/
theorem Kept.noted {o : Occasion} (h : x.Kept p before) (happened : x.next? o = some y) :
    y.done = x.done ∧ Idle o x y ∨
      ∃ e, y.done = x.done ++ [e] ∧ e.perform? x.hub x.session =
        some (y.hub, { y.session with receiving := x.session.receiving }) := by
  cases receives : o.receives with
  | false =>
      obtain ⟨⟨hub', s'⟩, next, rfl⟩ := Option.map_eq_some_iff.1 happened
      refine .inl ⟨by simp [receives], ?_, (Occasion.next?_apart receives next).signals, ?_⟩
      · rintro m now rfl
        refine Session.move?_store ?_ next
        rintro rfl
        cases receives
      · intro now
        rw [receives] at now
        cases now
  | true =>
      cases receives_of_next? h.fits receives happened with
      | takes waits first takes session arrived done taken =>
          refine .inl ⟨done, ?_, by rw [session]; rfl, fun _ => by rw [session]; rfl⟩
          intro m now _
          obtain same | same := takes.stamped <;> rw [same]
      | performs due performed session arrived taken done =>
          refine .inr ⟨_, done, ?_⟩
          rw [performed, session, ← (Effect.leaves performed).receiving]
      | rests same hub' arrived apart sent =>
          exact .inl ⟨same.2, fun m now _ => by rw [hub'], apart.signals, fun _ => sent⟩

/-- What a session makes of what its client sends. -/
structure Serves (p : Session.Seat) (before : Option (List Signal)) (x : Scene) : Prop where
  /-- Texts are taken in the order in which they arrive, and none is left out. -/
  inOrder : x.arrived = x.taken.map (·.1) ++ x.session.link.texts
  /-- Each text has had just the effects it asks for when the next one is taken. -/
  inTurn : x.InTurn p
  /-- The signals that have been passed on are those among these effects. -/
  signals : x.session.media.map (·.sent) = before.map (· ++ x.done.filterMap Effect.signal?)
  /-- As long as the loop that receives has not ended, the session serves. -/
  serving : x.session.receiving ≠ .ended → x.session.stage = .serving
  /-- What is to be done can be done at once. -/
  reacts : x.session.Reacts x.hub
  /-- An effect is noted when it is brought about as it was asked for, and nothing else is done. -/
  noted : ∀ (o : Occasion) (y : Scene), x.next? o = some y →
    y.done = x.done ∧ Idle o x y ∨
      ∃ e, y.done = x.done ++ [e] ∧ e.perform? x.hub x.session =
        some (y.hub, { y.session with receiving := x.session.receiving })
  /-- The loop that receives does not end alone, but the session ends with it. -/
  ends : x.session.receiving = .ended → x.session.cancelled = true ∧
    ∀ now, (x.session.after x.hub now 7).2.stage = .ended

/-- A hub over an empty store, whose stamps are numbered and all of one time. -/
def quietHub : Hub :=
  .empty 1 1 fun n => ⟨.ofNat n, .midnight ⟨2026, 1, 1, by decide⟩⟩

/-- A client in a room without media. -/
def lonely : Scene :=
  start quietHub (.connecting (.ofNat 1) (.ofNat 2) (.fresh .silence) ⟨0, 0⟩ ⟨1, 1⟩) none 0

end Scene

end Roomcast.Peer

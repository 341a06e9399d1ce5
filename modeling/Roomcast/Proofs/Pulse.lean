import Roomcast.Proofs.Deeds
import Roomcast.Proofs.Pacing

/-!
# The heartbeat of a session

A `Pulse` is a session in time. It notes when pings are sent, and when and by whom the session is
told to end. Anything may happen to the session at any time, but no time passes while its heartbeat
can go on, nor while the session can that has been told to end. How the client reacts to each ping
is given, and the link shows it when the heartbeat looks and when time passes.

Whatever else happens, pings are sent when the reactions say, one after the other, and the heartbeat
ends the session at the moment at which the first ping that fails has ended, and never if there is
none. Nothing stops time: from whatever has happened any later moment can be reached.
-/

namespace Roomcast.Peer

variable {ω : Nat → Echo} {hub hub' : Hub} {s s' : Session}

/-- A session in time. -/
structure Pulse where
  hub : Hub
  session : Session
  now : Nat
  /-- When pings have been sent, first one first. -/
  sent : List Nat
  /-- When the session was told to end, and whether it was its heartbeat that told it. -/
  told : Option (Nat × Bool)

/-- What a session in time sees. -/
inductive Tick where
  | happens (o : Occasion)
  | passes

def Occasion.isAt (now : Nat) : Occasion → Bool
  | moves _ time => decide (time = now)
  | _ => true

namespace Pulse

variable {x y z : Pulse} {o : Occasion} {p : Pace} {start : Nat}

def begin (hub : Hub) (s : Session) (media : Option Media) (now : Nat) : Pulse :=
  { hub, session := s.serve media now, now, sent := [], told := none }

/-- Whether something is to be done before time passes. -/
def isBusy (x : Pulse) : Bool :=
  if x.session.cancelled then (x.session.step? x.hub x.now).isSome
  else (x.session.move? x.hub x.now (.loop .beating)).isSome

/-- The link shows how the client reacts to the last ping. -/
def Agrees (ω : Nat → Echo) (x : Pulse) : Prop :=
  x.session.heartbeat.Agrees ω x.now x.session.link

instance (ω : Nat → Echo) (x : Pulse) : Decidable (x.Agrees ω) :=
  inferInstanceAs (Decidable (∀ sent, x.session.heartbeat.since = some sent → _))

def note (x : Pulse) (o : Occasion) (hub : Hub) (s : Session) : Pulse :=
  { hub, session := s, now := x.now
    sent := if x.session.link.pings < s.link.pings then x.sent ++ [x.now] else x.sent
    told := x.told.or (if s.cancelled then some (x.now, o.beats) else none) }

/-- What a tick leads to, if it is possible. -/
def tick? (ω : Nat → Echo) (x : Pulse) : Tick → Option Pulse
  | .happens o =>
    if o.isAt x.now = true ∧ (o.beats = true → x.Agrees ω) then
      (o.next? x.hub x.session).map fun (hub, s) => x.note o hub s
    else none
  | .passes => if x.isBusy = false ∧ x.Agrees ω then some { x with now := x.now + 1 } else none

def run? (ω : Nat → Echo) (x : Pulse) (ts : List Tick) : Option Pulse := ts.foldlM (tick? ω) x

/-- What is known of a session that has been told to end. -/
structure Told (ω : Nat → Echo) (p : Pace) (start time : Nat) (beats : Bool) (x : Pulse) :
    Prop where
  cancelled : x.session.cancelled = true
  past : time ≤ x.now
  ends : time < x.now → x.session.stage = .ended
  early : ∀ k, p.succeeds (ω k) = false → time ≤ start + p.endsAt ω k
  prompt : ∀ k, start + p.sendsAt ω k < time → k < x.sent.length
  stopped : beats = true → x.session.heartbeat.ended = true ∧
    ∃ k, x.sent.length = k + 1 ∧ p.succeeds (ω k) = false ∧ time = start + p.endsAt ω k

/-- What is preserved while a session lasts. -/
structure Kept (ω : Nat → Echo) (p : Pace) (start : Nat) (x : Pulse) : Prop where
  begun : x.session.hasBegun = true
  pace : x.session.heartbeat.pace = p
  since : x.session.heartbeat.start = start
  sent : x.sent = (List.range x.sent.length).map fun k => start + p.sendsAt ω k
  reaches : p.Reaches ω (x.sent.length - 1)
  onTime : x.session.heartbeat.ended = false →
    x.session.stage = .serving ∧ x.session.heartbeat.OnTime ω x.now x.sent.length
  quits : x.session.heartbeat.ended = true → x.session.cancelled = true
  untold : x.told = none → x.session.cancelled = false
  told : ∀ time beats, x.told = some (time, beats) → x.Told ω p start time beats

theorem begin_kept (ω : Nat → Echo) (hub : Hub) (userId roomId : Uuid) (link : Link)
    (reader : Registry.Reader) (pace : Pace) (media : Option Media) (now : Nat) :
    (begin hub (.connecting userId roomId link reader pace) media now).Kept ω pace now where
  begun := rfl
  pace := rfl
  since := rfl
  sent := rfl
  reaches := fun k earlier => absurd earlier k.not_lt_zero
  onTime _ := ⟨rfl, Heartbeat.begin_onTime ω pace now⟩
  quits := nofun
  untold _ := rfl
  told _ _ none := nomatch none

/-- A session that has been told to end, has begun and does nothing more is over. -/
theorem ended_of_rests (told : x.session.cancelled = true) (begun : x.session.hasBegun = true)
    (rests : x.isBusy = false) : x.session.stage = .ended := by
  by_contra on
  rw [isBusy, if_pos told, Session.step?_isSome x.hub x.now told begun on] at rests
  cases rests

theorem isBusy_of_ended (ended : x.session.stage = .ended) : x.isBusy = false := by
  have still : ∀ m, x.session.move? x.hub x.now m = none := by
    intro m
    cases m <;> simp [Session.move?, Session.finish?, ended]
  rw [isBusy]
  split
  · simp [Session.step?, still]
  · rw [still]
    rfl

/-- A session whose heartbeat goes on has not been told to end, once nothing is to be done. -/
theorem Kept.rests (h : x.Kept ω p start) (on : x.session.heartbeat.ended = false)
    (rests : x.isBusy = false) :
    x.session.cancelled = false ∧ x.session.heartbeat.step? x.session.link x.now = none := by
  have serving := (h.onTime on).1
  cases told : x.session.cancelled with
  | true =>
      rw [ended_of_rests told h.begun rests] at serving
      cases serving
  | false =>
      refine ⟨rfl, ?_⟩
      rw [isBusy, told] at rests
      simpa [Session.move?, serving, Session.stepLoop?, Session.stepBeating?] using rests

theorem Kept.passes (h : x.Kept ω p start) (rests : x.isBusy = false) (agrees : x.Agrees ω) :
    Kept ω p start { x with now := x.now + 1 } where
  begun := h.begun
  pace := h.pace
  since := h.since
  sent := h.sent
  reaches := h.reaches
  onTime on := by
    obtain ⟨serving, onTime⟩ := h.onTime on
    exact ⟨serving, onTime.passes agrees (h.rests on rests).2⟩
  quits := h.quits
  untold := h.untold
  told time beats told := by
    obtain ⟨cancelled, past, _, early, prompt, stopped⟩ := h.told time beats told
    have ended := ended_of_rests cancelled h.begun rests
    exact ⟨cancelled, past.trans x.now.le_succ, fun _ => ended, early, prompt, stopped⟩

theorem Kept.untold_iff (h : x.Kept ω p start) :
    x.told = none ↔ x.session.cancelled = false := by
  refine ⟨h.untold, fun open' => ?_⟩
  by_contra noted
  obtain ⟨t, noted⟩ := Option.ne_none_iff_exists'.1 noted
  rw [(h.told _ _ noted).cancelled] at open'
  cases open'

/-- While nobody has told the session to end its heartbeat goes on. -/
theorem Kept.onTime_of_untold (h : x.Kept ω p start) (untold : x.told = none) :
    x.session.heartbeat.OnTime ω x.now x.sent.length := by
  refine (h.onTime ?_).2
  by_contra quit
  have told := h.quits (by simpa using quit)
  rw [h.untold untold] at told
  cases told

theorem untold_note (untold : (x.note o hub' s').told = none) : s'.cancelled = false := by
  rw [note, Option.or_eq_none_iff, ite_eq_right_iff] at untold
  simpa using untold.2

/-- What is known of a session that has been told to end is known from the moment at which it is
told. -/
theorem Kept.told_note (h : x.Kept ω p start)
    (cancelled : x.session.cancelled = true → s'.cancelled = true)
    (ended : x.session.stage = .ended → s'.stage = .ended)
    (more : x.sent.length ≤ (x.note o hub' s').sent.length)
    (still : x.session.heartbeat.ended = true →
      s'.heartbeat.ended = true ∧ (x.note o hub' s').sent.length = x.sent.length)
    (stops : x.session.cancelled = false → s'.cancelled = true → o.beats = true →
      s'.heartbeat.ended = true ∧ ∃ k, (x.note o hub' s').sent.length = k + 1 ∧
        p.succeeds (ω k) = false ∧ x.now = start + p.endsAt ω k)
    {time : Nat} {beats : Bool} (told : (x.note o hub' s').told = some (time, beats)) :
    (x.note o hub' s').Told ω p start time beats := by
  cases before : x.told with
  | some t =>
      rw [note, before] at told
      obtain rfl := Option.some.inj told
      obtain ⟨wasCancelled, past, ends, early, prompt, stopped⟩ := h.told _ _ before
      refine ⟨cancelled wasCancelled, past, fun later => ended (ends later), early,
        fun k late => (prompt k late).trans_le more, fun blamed => ?_⟩
      obtain ⟨quit, k, last, fails, when⟩ := stopped blamed
      obtain ⟨stays, same⟩ := still quit
      exact ⟨stays, k, same.trans last, fails, when⟩
  | none =>
      have onTime := h.onTime_of_untold before
      rw [note, before, Option.none_or, Option.ite_none_right_eq_some] at told
      obtain ⟨now, told⟩ := told
      cases told
      refine ⟨now, Nat.le_refl _, fun later => absurd later (Nat.lt_irrefl _), fun k fails => ?_,
        fun k late => ?_, stops (h.untold before) now⟩
      · rw [← h.pace] at fails ⊢
        rw [← h.since]
        exact onTime.early fails
      · rw [← h.pace, ← h.since] at late
        exact (onTime.prompt late).trans_le more

/-- What happens beside the heartbeat does not disturb it. -/
theorem Kept.steady (h : x.Kept ω p start) (other : o.beats = false)
    (steady : x.session.Steady s') : (x.note o hub' s').Kept ω p start := by
  have sent : (x.note o hub' s').sent = x.sent := by simp [note, steady.pings]
  have quit : x.session.heartbeat.ended = true → s'.heartbeat.ended = true := by
    intro ended
    obtain same | ⟨same, _⟩ := steady.heartbeat
    · rw [same, ended]
    · rw [same]
      rfl
  have told {time : Nat} {beats : Bool} (told : (x.note o hub' s').told = some (time, beats)) :
      (x.note o hub' s').Told ω p start time beats := by
    refine h.told_note steady.cancelled steady.ended (by rw [sent]) ?_ ?_ told
    · exact fun ended => ⟨quit ended, by rw [sent]⟩
    · intro _ _ beats
      rw [other] at beats
      cases beats
  constructor
  case begun => exact steady.begun h.begun
  case pace => exact steady.pace.1.trans h.pace
  case since => exact steady.pace.2.trans h.since
  case sent => rw [sent]; exact h.sent
  case reaches => rw [sent]; exact h.reaches
  case onTime =>
    intro on
    obtain same | ⟨same, _⟩ := steady.heartbeat
    · have on' : x.session.heartbeat.ended = false := same ▸ on
      obtain ⟨serving, onTime⟩ := h.onTime on'
      refine ⟨(steady.serving serving).resolve_right (by simp [on']), ?_⟩
      show s'.heartbeat.OnTime ω x.now _
      rw [sent, same]
      exact onTime
    · rw [note, same] at on
      cases on
  case quits =>
    intro ended
    obtain same | ⟨_, told⟩ := steady.heartbeat
    · exact steady.cancelled (h.quits (same ▸ ended))
    · exact steady.cancelled told
  case untold => exact untold_note
  case told => exact fun _ _ => told

/-- A heartbeat that goes on after a step is on time again, whether it has sent a ping or not. -/
theorem Kept.goes (h : x.Kept ω p start) (on : x.session.heartbeat.ended = false)
    (stage : s'.stage = x.session.stage) (cancelled : s'.cancelled = x.session.cancelled)
    (pace : s'.heartbeat.pace = x.session.heartbeat.pace)
    (since : s'.heartbeat.start = x.session.heartbeat.start)
    (onTime : s'.heartbeat.OnTime ω x.now (x.note o hub' s').sent.length)
    (sent : (x.note o hub' s').sent = x.sent ∨ (x.note o hub' s').sent = x.sent ++ [x.now] ∧
      x.now = start + p.sendsAt ω x.sent.length ∧ p.Reaches ω x.sent.length) :
    (x.note o hub' s').Kept ω p start := by
  have serving := (h.onTime on).1
  constructor
  case begun => exact (Session.hasBegun_congr stage).trans h.begun
  case pace => exact pace.trans h.pace
  case since => exact since.trans h.since
  case sent =>
    obtain same | ⟨more, when, _⟩ := sent
    · rw [same]
      exact h.sent
    · rw [more, List.length_append, List.length_singleton, List.range_succ, List.map_append,
        ← h.sent, List.map_singleton, ← when]
  case reaches =>
    obtain same | ⟨more, _, reaches⟩ := sent
    · rw [same]
      exact h.reaches
    · rw [more, List.length_append]
      exact reaches
  case onTime => exact fun _ => ⟨stage.trans serving, onTime⟩
  case quits => exact fun ended => absurd (onTime.on.symm.trans ended) nofun
  case untold => exact untold_note
  case told =>
    intro time beats
    refine h.told_note cancelled.trans ?_ ?_ ?_ ?_
    · rw [serving]
      nofun
    · obtain same | ⟨more, _⟩ := sent
      · rw [same]
      · simp [more]
    · rw [on]
      nofun
    · intro open' now
      rw [cancelled, open'] at now
      cases now

/-- A heartbeat that stops tells its session to end. -/
theorem Kept.stops (h : x.Kept ω p start) (on : x.session.heartbeat.ended = false)
    (last : x.sent.length = x.session.heartbeat.answered + 1)
    (fails : p.succeeds (ω x.session.heartbeat.answered) = false)
    (when : x.now = start + p.endsAt ω x.session.heartbeat.answered)
    (session : s' = { x.session with heartbeat := x.session.heartbeat.stop, cancelled := true }) :
    (x.note o hub' s').Kept ω p start := by
  have serving := (h.onTime on).1
  have sent : (x.note o hub' s').sent = x.sent := by simp [note, session]
  have stop : s'.heartbeat.ended = true := congrArg (·.heartbeat.ended) session
  have cancelled : s'.cancelled = true := congrArg (·.cancelled) session
  constructor
  case begun => exact (Session.hasBegun_congr (congrArg (·.stage) session)).trans h.begun
  case pace => exact (congrArg (·.heartbeat.pace) session).trans h.pace
  case since => exact (congrArg (·.heartbeat.start) session).trans h.since
  case sent => rw [sent]; exact h.sent
  case reaches => rw [sent]; exact h.reaches
  case onTime => exact fun goes => absurd (stop.symm.trans goes) nofun
  case quits => exact fun _ => cancelled
  case untold => exact untold_note
  case told =>
    intro time beats
    refine h.told_note (fun _ => cancelled) ?_ (by rw [sent]) ?_ ?_
    · rw [serving]
      nofun
    · rw [on]
      nofun
    · exact fun _ _ _ => ⟨stop, _, by rw [sent, last], fails, when⟩

/-- A step keeps the heartbeat on time, and if it stops it tells the session to end at the right
time. -/
theorem Kept.beats (h : x.Kept ω p start) (agrees : x.Agrees ω)
    (beaten : x.session.stepBeating? x.now = some s') : (x.note o hub' s').Kept ω p start := by
  obtain ⟨⟨g, l⟩, stepped, session⟩ := Option.map_eq_some_iff.1 beaten
  have on := (Heartbeat.step?_still stepped).1
  have onTime := (h.onTime on).2
  cases onTime.step? agrees stepped with
  | pings waits when onTime' =>
      have sent : (x.note o hub' s').sent = x.sent ++ [x.now] := by
        simp [note, ← session, Link.ping]
      refine h.goes on ?_ ?_ ?_ ?_ ?_ (.inr ⟨sent, ?_, ?_⟩)
      · rw [← session]
      · simp [← session, on]
      · rw [← session]
      · rw [← session]
      · rw [sent, List.length_append, ← session]
        exact onTime'
      · rw [← h.pace, ← h.since]
        exact when
      · rw [(onTime.waits waits).1, ← h.pace]
        exact onTime.reaches
  | learns _ onTime' =>
      have sent : (x.note o hub' s').sent = x.sent := by simp [note, ← session]
      refine h.goes on ?_ ?_ ?_ ?_ ?_ (.inl sent)
      · rw [← session]
      · simp [← session, on]
      · rw [← session]
      · rw [← session]
      · rw [sent, ← session]
        exact onTime'
  | stops last fails when =>
      rw [h.pace] at fails when
      rw [h.since] at when
      refine h.stops on last fails when ?_
      rw [← session]
      simp [Heartbeat.stop]

theorem Kept.tick? {t : Tick} (h : x.Kept ω p start) (ticked : x.tick? ω t = some y) :
    y.Kept ω p start := by
  cases t with
  | passes =>
      rw [Pulse.tick?, Option.ite_none_right_eq_some] at ticked
      obtain ⟨⟨rests, agrees⟩, same⟩ := ticked
      cases same
      exact h.passes rests agrees
  | happens o =>
      rw [Pulse.tick?, Option.ite_none_right_eq_some] at ticked
      obtain ⟨⟨fits, agrees⟩, happened⟩ := ticked
      obtain ⟨⟨hub', s'⟩, next, rfl⟩ := Option.map_eq_some_iff.1 happened
      cases beats : o.beats with
      | false => exact h.steady beats (Occasion.next?_steady beats next)
      | true =>
          obtain ⟨time, rfl⟩ := Occasion.eq_of_beats beats
          obtain rfl : time = x.now := by simpa [Occasion.isAt] using fits
          rw [Occasion.next?, Session.move?, Option.ite_none_right_eq_some,
            Session.stepLoop?] at next
          obtain ⟨s₁, beaten, same⟩ := Option.map_eq_some_iff.1 next.2
          cases same
          exact h.beats (agrees beats) beaten

theorem Kept.run? {ts : List Tick} (h : x.Kept ω p start) (ran : x.run? ω ts = some y) :
    y.Kept ω p start := by
  induction ts generalizing x with
  | nil =>
      cases ran
      exact h
  | cons t ts ih =>
      rw [Pulse.run?, List.foldlM_cons] at ran
      obtain ⟨z, ticked, ran⟩ := Option.bind_eq_some_iff.1 ran
      exact ih (h.tick? ticked) ran

/-- What can be reached while nobody tells the session to end but its heartbeat. -/
structure Leads (ω : Nat → Echo) (x y : Pulse) : Prop where
  run : ∃ ts, x.run? ω ts = some y
  told : y.told = x.told ∨ ∃ time, y.told = some (time, true)

theorem Leads.refl (x : Pulse) : x.Leads ω x := ⟨⟨[], rfl⟩, .inl rfl⟩

theorem Leads.trans (first : x.Leads ω y) (second : y.Leads ω z) : x.Leads ω z := by
  obtain ⟨⟨ts, ran⟩, told⟩ := first
  obtain ⟨⟨us, goesOn⟩, told'⟩ := second
  refine ⟨⟨ts ++ us, ?_⟩, ?_⟩
  · rw [run?] at ran goesOn ⊢
    rw [List.foldlM_append, ran]
    exact goesOn
  · obtain same | blamed := told'
    · rw [same]
      exact told
    · exact .inr blamed

theorem Leads.tick {t : Tick} (ticked : x.tick? ω t = some y)
    (told : y.told = x.told ∨ ∃ time, y.told = some (time, true)) : x.Leads ω y :=
  ⟨⟨[t], by simp [run?, ticked]⟩, told⟩

theorem Kept.leads (h : x.Kept ω p start) (leads : x.Leads ω y) : y.Kept ω p start := by
  obtain ⟨ts, ran⟩ := leads.run
  exact h.run? ran

/-- Who has told a session to end is noted once. -/
theorem Kept.told_eq (h : x.Kept ω p start)
    (same : s'.cancelled = true → x.session.cancelled = true) :
    (x.note o hub' s').told = x.told := by
  cases before : x.told with
  | some _ => rw [note, before, Option.some_or]
  | none =>
      have open' : s'.cancelled = false := by
        rw [← Bool.not_eq_true]
        intro cancelled
        have told := same cancelled
        rw [h.untold before] at told
        cases told
      simp [note, before, open']

/-- The link can come to show how the client reacts. -/
theorem Kept.agrees (h : x.Kept ω p start) : ∃ y, x.Leads ω y ∧ y.Agrees ω ∧ y.now = x.now ∧
    y.session.heartbeat = x.session.heartbeat ∧ y.session.stage = x.session.stage ∧
      y.session.cancelled = x.session.cancelled := by
  let shown := x.session.heartbeat.since.map fun sent => (ω x.session.heartbeat.answered).since sent
  let o : Occasion :=
    .link x.session.link.echo shown x.session.link.sendFailure x.session.link.closeFailure
  obtain ⟨⟨hub', s'⟩, happened⟩ : ∃ result, o.next? x.hub x.session = some result := ⟨_, rfl⟩
  have session : s' = { x.session with link := { x.session.link with awaited := shown } } := by
    cases happened
    rfl
  have ticked : x.tick? ω (.happens o) = some (x.note o hub' s') := by
    rw [Pulse.tick?, if_pos ⟨rfl, nofun⟩, happened]
    rfl
  have same : s'.cancelled = x.session.cancelled := congrArg (·.cancelled) session
  refine ⟨_, .tick ticked (.inl (h.told_eq same.symm.trans)), ?_, rfl, ?_, ?_, same⟩
  · intro sent last
    have last : x.session.heartbeat.since = some sent :=
      (congrArg (·.heartbeat.since) session).symm.trans last
    have known : s'.link.awaited = some ((ω x.session.heartbeat.answered).since sent) := by
      rw [session]
      show x.session.heartbeat.since.map _ = _
      rw [last, Option.map_some]
    show s'.link.echoed? x.now = ((ω s'.heartbeat.answered).since sent).by? x.now
    rw [Link.echoed?_eq, known, session]
    rfl
  · exact congrArg (·.heartbeat) session
  · exact congrArg (·.stage) session

/-- A session that has been told to end can do so. -/
theorem Kept.ends (h : x.Kept ω p start) (told : x.session.cancelled = true) :
    ∃ y, x.Leads ω y ∧ y.now = x.now ∧ y.session.stage = .ended := by
  induction steps : x.session.toGo using Nat.strong_induction_on generalizing x with
  | _ n ih =>
      by_cases ended : x.session.stage = .ended
      · exact ⟨x, .refl x, rfl, ended⟩
      · obtain ⟨⟨hub', s'⟩, stepped⟩ :=
          Option.isSome_iff_exists.1 (Session.step?_isSome x.hub x.now told h.begun ended)
        obtain ⟨less, told', _⟩ := Session.step?_toGo told h.begun stepped
        obtain ⟨m, among, moved⟩ := List.exists_of_findSome?_eq_some stepped
        rw [Session.moves, told] at among
        -- The loops of a session that has been told to end only quit.
        have other : (Occasion.moves m x.now).beats = false := by
          obtain ⟨l, _, rfl⟩ | rfl :
              (∃ l ∈ Session.loops, Session.Move.quit l = m) ∨ m = .finish := by
            simpa using among
          · rfl
          · rfl
        have ticked : x.tick? ω (.happens (.moves m x.now)) =
            some (x.note (.moves m x.now) hub' s') := by
          rw [Pulse.tick?, if_pos ⟨by simp [Occasion.isAt], by simp [other]⟩, Occasion.next?, moved]
          rfl
        have leads := Leads.tick ticked (.inl (h.told_eq fun _ => told))
        obtain ⟨y, goesOn, now, ended'⟩ := ih _ (steps ▸ less) (h.leads leads) told' rfl
        exact ⟨y, leads.trans goesOn, now, ended'⟩

/-- The heartbeat takes a step. It comes to its end, or closer to its rest. -/
theorem Kept.beat (h : x.Kept ω p start) (pauses : 0 < p.interval) (agrees : x.Agrees ω)
    (untold : x.session.cancelled = false)
    (moved : x.session.move? x.hub x.now (.loop .beating) = some (hub', s')) :
    ∃ y, x.Leads ω y ∧ y.now = x.now ∧ (y.session.cancelled = true ∨
      y.session.heartbeat.toGo y.now < x.session.heartbeat.toGo x.now) := by
  let o : Occasion := .moves (.loop .beating) x.now
  have ticked : x.tick? ω (.happens o) = some (x.note o hub' s') := by
    rw [Pulse.tick?, if_pos ⟨by simp [o, Occasion.isAt], fun _ => agrees⟩, Occasion.next?, moved]
    rfl
  cases told : s'.cancelled with
  | true =>
      have unnoted := h.untold_iff.2 untold
      refine ⟨_, .tick ticked (.inr ⟨x.now, ?_⟩), rfl, .inl told⟩
      rw [note, unnoted, told]
      rfl
  | false =>
      refine ⟨_, .tick ticked (.inl (h.told_eq ?_)), rfl, .inr ?_⟩
      · simp [told]
      · rw [Session.move?, Option.ite_none_right_eq_some, Session.stepLoop?] at moved
        obtain ⟨s₁, beaten, same⟩ := Option.map_eq_some_iff.1 moved.2
        cases same
        obtain ⟨⟨g, l⟩, stepped, rfl⟩ := Option.map_eq_some_iff.1 beaten
        have onTime := (h.onTime (Heartbeat.step?_still stepped).1).2
        exact (onTime.step? agrees stepped).toGo onTime (h.pace ▸ pauses)
          (Bool.or_eq_false_iff.1 told).2

/-- When a session that has been told to end has done so, nothing is to be done. -/
theorem Kept.settles_of_told (h : x.Kept ω p start) (told : x.session.cancelled = true) :
    ∃ y, x.Leads ω y ∧ y.now = x.now ∧ y.isBusy = false ∧ y.Agrees ω := by
  obtain ⟨y, ends, now, ended⟩ := h.ends told
  obtain ⟨z, shows', agrees, now', _, stage, _⟩ := (h.leads ends).agrees
  exact ⟨z, ends.trans shows', now'.trans now, isBusy_of_ended (stage.trans ended), agrees⟩

/-- Everything can be done that is to be done before time passes. -/
theorem Kept.settles (h : x.Kept ω p start) (pauses : 0 < p.interval) :
    ∃ y, x.Leads ω y ∧ y.now = x.now ∧ y.isBusy = false ∧ y.Agrees ω := by
  induction steps : x.session.heartbeat.toGo x.now using Nat.strong_induction_on generalizing x with
  | _ n ih =>
      obtain ⟨y, shows', agrees, now, heartbeat, _, _⟩ := h.agrees
      have kept := h.leads shows'
      -- Whatever can be settled from `y` can be settled from `x`.
      suffices settles : ∃ z, y.Leads ω z ∧ z.now = y.now ∧ z.isBusy = false ∧ z.Agrees ω by
        obtain ⟨z, leads, now', rest⟩ := settles
        exact ⟨z, shows'.trans leads, now'.trans now, rest⟩
      cases told : y.session.cancelled with
      | true => exact kept.settles_of_told told
      | false =>
          cases moved : y.session.move? y.hub y.now (.loop .beating) with
          | none =>
              refine ⟨y, .refl y, rfl, ?_, agrees⟩
              rw [isBusy, told, moved]
              rfl
          | some result =>
              obtain ⟨z, beats, now', told' | closer⟩ := kept.beat pauses agrees told moved
              · obtain ⟨w, settles, now'', rest⟩ := (kept.leads beats).settles_of_told told'
                exact ⟨w, beats.trans settles, now''.trans now', rest⟩
              · rw [heartbeat, now, steps] at closer
                obtain ⟨w, settles, now'', rest⟩ := ih _ closer (kept.leads beats) rfl
                exact ⟨w, beats.trans settles, now''.trans now', rest⟩

theorem Kept.goesOn {time : Nat} (h : x.Kept ω p start) (pauses : 0 < p.interval)
    (later : x.now ≤ time) : ∃ y, x.Leads ω y ∧ y.now = time := by
  induction time, later using Nat.le_induction with
  | base => exact ⟨x, .refl x, rfl⟩
  | succ time _ ih =>
      obtain ⟨y, leads, rfl⟩ := ih
      obtain ⟨z, settles, now, rests, agrees⟩ := (h.leads leads).settles pauses
      have ticked : z.tick? ω .passes = some { z with now := z.now + 1 } :=
        if_pos ⟨rests, agrees⟩
      exact ⟨_, (leads.trans settles).trans (.tick ticked (.inl rfl)), congrArg (· + 1) now⟩

/-- The moment up to which a session goes on. -/
def upTo (x : Pulse) : Nat := (x.told.map (·.1)).getD x.now

/-- A heartbeat keeps its schedule. -/
structure Keeps (ω : Nat → Echo) (p : Pace) (start : Nat) (x : Pulse) : Prop where
  /-- Pings are sent when the reactions say. -/
  sent : x.sent = (List.range x.sent.length).map fun k => start + p.sendsAt ω k
  /-- None is left out while the session goes on. -/
  prompt : ∀ k, start + p.sendsAt ω k < x.upTo → k < x.sent.length
  /-- A ping is sent only after the one before it has ended, with an answer. -/
  alone : ∀ k, k + 1 < x.sent.length →
    p.succeeds (ω k) = true ∧ p.endsAt ω k ≤ p.sendsAt ω (k + 1)
  /-- If the heartbeat ends the session, the last ping has failed and has ended just then. -/
  stops : ∀ time, x.told = some (time, true) → ∃ k, x.sent.length = k + 1 ∧
    p.succeeds (ω k) = false ∧ time = start + p.endsAt ω k
  /-- If a ping fails, the session goes on no longer than to its end. -/
  inTime : ∀ k, p.succeeds (ω k) = false → x.upTo ≤ start + p.endsAt ω k
  /-- If none does, the heartbeat does not end the session. -/
  spares : (∀ k, p.succeeds (ω k) = true) → ∀ time, x.told ≠ some (time, true)
  /-- It is noted whether the session has been told to end. -/
  untold : x.told = none ↔ x.session.cancelled = false
  /-- A session that is told to end does so at that moment. -/
  ends : ∀ time beats, x.told = some (time, beats) →
    x.session.cancelled = true ∧ time ≤ x.now ∧ (time < x.now → x.session.stage = .ended)
  /-- Every later moment can be reached, and nobody but the heartbeat has to end the session. -/
  goesOn : 0 < p.interval → ∀ time, x.now ≤ time → ∃ y, x.Leads ω y ∧ y.now = time

theorem Kept.keeps (h : x.Kept ω p start) : x.Keeps ω p start := by
  constructor
  case sent => exact h.sent
  case prompt =>
    intro k late
    cases told : x.told with
    | none =>
        rw [upTo, told] at late
        rw [← h.pace, ← h.since] at late
        exact (h.onTime_of_untold told).prompt late
    | some t =>
        rw [upTo, told] at late
        exact (h.told _ _ told).prompt k late
  case alone =>
    intro k more
    exact ⟨h.reaches k (by omega), p.endsAt_le_sendsAt ω k.lt_succ_self⟩
  case stops =>
    intro time told
    exact ((h.told _ _ told).stopped rfl).2
  case inTime =>
    intro k fails
    cases told : x.told with
    | none =>
        rw [upTo, told]
        rw [← h.pace] at fails ⊢
        rw [← h.since]
        exact (h.onTime_of_untold told).early fails
    | some t =>
        rw [upTo, told]
        exact (h.told _ _ told).early k fails
  case spares =>
    intro all time told
    obtain ⟨_, k, _, fails, _⟩ := (h.told _ _ told).stopped rfl
    rw [all k] at fails
    cases fails
  case untold => exact h.untold_iff
  case ends =>
    intro time beats told
    obtain ⟨cancelled, past, ends, _⟩ := h.told _ _ told
    exact ⟨cancelled, past, ends⟩
  case goesOn => exact fun pauses time later => h.goesOn pauses later

/-- Whatever happens to a session from its start on, its heartbeat keeps its schedule. -/
theorem run?_keeps {userId roomId : Uuid} {link : Link} {reader : Registry.Reader} {pace : Pace}
    {media : Option Media} {now : Nat} {ts : List Tick}
    (ran : (begin hub (.connecting userId roomId link reader pace) media now).run? ω ts = some x) :
    x.Keeps ω pace now :=
  ((begin_kept ω hub userId roomId link reader pace media now).run? ran).keeps

/-- A client whose first answer takes longer than two pings are apart. It answers two more pings and
is silent then. -/
def tardy : Nat → Echo
  | 0 => .answer 5
  | 1 => .answer 0
  | 2 => .answer 1
  | _ => .silence

/-- The heartbeat takes a number of steps. -/
def beating (now n : Nat) : List Tick := .replicate n (.happens (.moves (.loop .beating) now))

def waiting (n : Nat) : List Tick := .replicate n .passes

/-- The client changes the way in which it will react. -/
def changing (e : Echo) : Tick := .happens (.link e none none none)

/-- The session of such a client from its start at time 100. -/
def tardily : List Tick :=
  beating 100 1 ++ waiting 5 ++ beating 105 1 ++ [changing (.answer 0)] ++ beating 105 2 ++
    [changing (.answer 1)] ++ beating 105 1 ++ waiting 1 ++ beating 106 1 ++ [changing .silence] ++
    beating 106 1 ++ waiting 9 ++ beating 115 1 ++
    ([.quit .receiving, .quit .forwarding, .finish, .finish, .finish].map
      fun m => .happens (.moves m 115)) ++ waiting 1

/-- The session of a client that is pinged every two units of time and has nine to answer. -/
def slow : Pulse :=
  begin Scene.quietHub (.connecting (.ofNat 1) (.ofNat 2) (.fresh (.answer 5)) ⟨0, 0⟩ ⟨2, 9⟩)
    none 100

/-- The pings that come late catch up, the last one fails, and the session ends. -/
theorem run?_keeps_tardily : ∃ x, slow.run? tardy tardily = some x ∧
    x.sent = [100, 105, 105, 106] ∧ x.told = some (115, true) ∧ x.session.stage = .ended ∧
      (∃ k, x.sent.length = k + 1 ∧ Pace.succeeds ⟨2, 9⟩ (tardy k) = false ∧
        115 = 100 + Pace.endsAt ⟨2, 9⟩ tardy k) ∧
      ∃ y, x.Leads tardy y ∧ y.now = 1000 := by
  have possible : (slow.run? tardy tardily).isSome = true := by decide +kernel
  obtain ⟨x, ran⟩ := Option.isSome_iff_exists.1 possible
  have facts : (slow.run? tardy tardily).map (fun x => (x.sent, x.told, x.now)) =
      some ([100, 105, 105, 106], some (115, true), 116) := by decide +kernel
  rw [ran] at facts
  obtain ⟨sent, told, now⟩ : x.sent = [100, 105, 105, 106] ∧ x.told = some (115, true) ∧
      x.now = 116 := by simpa using facts
  have keeps := run?_keeps ran
  exact ⟨x, ran, sent, told, (keeps.ends _ _ told).2.2 (by omega), keeps.stops _ told,
    keeps.goesOn (by decide) _ (by omega)⟩

end Pulse

end Roomcast.Peer

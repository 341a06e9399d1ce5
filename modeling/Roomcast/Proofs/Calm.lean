import Roomcast.Proofs.Collection
import Roomcast.Proofs.Quiet
import Roomcast.Proofs.Readers
import Roomcast.Proofs.Sources

/-!
# When only time passes

After a moment in which nobody could go on, let nothing happen but what needs only time: parties go
on, the store opens feeds, feeds close, and the periods of collectors pass. Then nobody calls for a
shutdown, no puller has anything to do but to close, and so an open window is closed only by the
closer of an entry that a collector has reclaimed.
-/

namespace Roomcast.Registry

variable {r r' : Registry} {a : Action}

/-- Whether an action needs no more than that time passes. -/
def Action.passes : Action → Bool
  | .step _ | .watched _ none | .feedClosed _ | .elapsed _ => true
  | _ => false

/-- What passes uses no reader. -/
theorem Action.use?_of_passes (passes : a.passes = true) : a.use? = none := by
  cases a <;> first | rfl | cases passes

/-- A change that needs no more than that time passes, and in which nobody calls for a shutdown. -/
structure Drift (r : Registry) (a : Action) (r' : Registry) : Prop where
  move : Move r a r'
  passes : a.passes = true
  calls : r.shutdowns = #[] → r'.shutdowns = #[]

/-- Nobody shuts down without a call. -/
theorem Move.shutdowns (m : Move r a r') (other : a ≠ .shutdown) (apart : a.isPatrol = false)
    (none : r.shutdowns = #[]) : r'.shutdowns = #[] := by
  cases m with
  | shutdown called =>
      obtain rfl | patrols := called
      · exact absurd rfl other
      · rw [apart] at patrols
        cases patrols
  | goDown found | drain found | drained found | take found | stop found =>
      rw [none] at found
      cases found
  | reclaim here may =>
      rw [reclaim_eq here may]
      exact none
  | _ => exact none

/-- Whether a collector calls for no shutdown any more. -/
def Collecting.isOut : Collecting → Bool
  | .stopping _ | .done _ => true
  | _ => false

/-- Every collector that was told to end has called for its shutdown. -/
def Patrolled (r : Registry) : Prop :=
  ∀ (i : Nat) (c : Collector), r.collectors[i]? = some c → c.cancelled = true →
    c.phase.isOut = true

/-- Whatever needs only time is a sequence of such changes. -/
theorem perform?_drifts (patrolled : r.Patrolled) (fresh : r.Fresh) (passes : a.passes = true)
    (did : r.perform? a = some r') :
    Relation.ReflTransGen (fun r r' => Drift r a r') r r' := by
  by_cases collects : ∃ i, a = .step (.collector i)
  · obtain ⟨i, rfl⟩ := collects
    simp only [perform?, step?, stepCollector?] at did
    cases found : r.collectors[i]? with
    | none => simp [found] at did
    | some c =>
        simp only [found] at did
        cases phase : c.phase with
        | checking | scanning =>
            simp only [phase, Option.some.injEq] at did
            subst did
            exact .single ⟨.patrol _ rfl, rfl, id⟩
        | sleeping candidates =>
            simp only [phase] at did
            split_ifs at did with cancelled
            have out := patrolled i c found cancelled
            rw [phase] at out
            cases out
        | reclaiming candidates =>
            simp only [phase, Option.some.injEq] at did
            subst did
            refine (foldl_reclaim_chain (fun here may => ?_) r candidates).tail
              ⟨.patrol _ rfl, rfl, id⟩
            exact ⟨.reclaim here may rfl, rfl, fun none => by rw [reclaim_eq here may]; exact none⟩
        | stopping shutdown =>
            simp only [phase] at did
            split_ifs at did with done
            obtain rfl := Option.some.inj did
            exact .single ⟨.patrol _ rfl, rfl, id⟩
        | done result => simp [phase] at did
  · refine .single ⟨perform?_move fresh (fun i eq => collects ⟨i, eq⟩) did, passes, fun none => ?_⟩
    have other : a ≠ .shutdown := by
      rintro rfl
      cases passes
    by_cases patrols : a.isPatrol = true
    · cases a with
      | step p =>
          cases p with
          | collector i => exact absurd ⟨i, rfl⟩ collects
          | _ => cases patrols
      | elapsed i =>
          simp only [perform?, elapsed?] at did
          split at did
          · obtain rfl := Option.some.inj did
            exact none
          · cases did
      | collect | cancelCollector => cases passes
      | _ => cases patrols
    · exact (perform?_move fresh (fun i eq => collects ⟨i, eq⟩) did).shutdowns other
        (Bool.eq_false_iff.2 patrols) none

/-- No collector is told to end. -/
theorem Patrolled.perform (h : r.Patrolled) (fresh : r.Fresh) (passes : a.passes = true)
    (did : r.perform? a = some r') : r'.Patrolled := by
  -- One collector goes to another phase, and if it was told to end, it had called already.
  have turn : ∀ {i : Nat} {c : Collector} {q : Collecting} {r₁ : Registry},
      r.collectors[i]? = some c → r₁.collectors = r.collectors →
      (c.phase.isOut = true → q.isOut = true) → (r₁.setCollector i q).Patrolled := by
    intro i c q r₁ found same out k c' found' cancelled
    rw [setCollector, same] at found'
    obtain ⟨_, old⟩ | ⟨rfl, c₁, old, rfl⟩ := getElem?_modify_some.1 found'
    · exact h k c' old cancelled
    · obtain rfl : c = c₁ := Option.some.inj (found.symm.trans old)
      exact out (h i c old cancelled)
  by_cases patrols : a.isPatrol = true
  · cases a with
    | elapsed i =>
        simp only [perform?, elapsed?] at did
        split at did
        case h_1 found =>
          obtain rfl := Option.some.inj did
          exact turn found rfl fun out => by cases out
        case h_2 => cases did
    | step p =>
        cases p with
        | collector i =>
            simp only [perform?, step?, stepCollector?] at did
            cases found : r.collectors[i]? with
            | none => simp [found] at did
            | some c =>
                simp only [found] at did
                cases phase : c.phase with
                | checking | scanning =>
                    simp only [phase, Option.some.injEq] at did
                    subst did
                    exact turn found rfl (by rw [phase]; rintro ⟨⟩)
                | sleeping candidates =>
                    simp only [phase] at did
                    split_ifs at did with cancelled
                    have out := h i c found cancelled
                    rw [phase] at out
                    cases out
                | reclaiming candidates =>
                    simp only [phase, Option.some.injEq] at did
                    subst did
                    exact turn found (foldl_reclaim_collectors r candidates)
                      (by rw [phase]; rintro ⟨⟩)
                | stopping shutdown =>
                    simp only [phase] at did
                    split_ifs at did with done
                    obtain rfl := Option.some.inj did
                    exact turn found rfl fun _ => rfl
                | done result => simp [phase] at did
        | _ => cases patrols
    | collect | cancelCollector => cases passes
    | _ => cases patrols
  · have m := perform?_move fresh (fun i eq => by rw [eq] at patrols; exact patrols rfl) did
    intro k c found cancelled
    rw [m.collectors (Bool.eq_false_iff.2 patrols)] at found
    exact h k c found cancelled

/-- The puller of a stream waits for its feed, through which certain events are still to come. -/
structure Stream.Waits (store : Store) (st : Stream) (rest : List Event) : Prop where
  pulling : st.puller = .pulling
  sound : st.fault = none
  feed : st.feed.Awaits store rest

/-- A puller that waits while nothing is to come has nothing to do as long as the window is open. -/
theorem Stream.Waits.still {store : Store} {st st' : Stream} (waits : st.Waits store [])
    (sound : store.Sound) (running : st.room.isClosed = false) : ¬ st.Pull store st' := by
  have idle := waits.feed.poll_nil sound
  intro went
  cases went with
  | cut _ closed =>
      rw [running] at closed
      cases closed
  | crash _ _ fault | fail _ _ fault =>
      rw [waits.sound] at fault
      cases fault
  | item _ _ _ got | finish _ _ _ got =>
      rw [idle] at got
      cases got
  | push holding | refuse holding =>
      rw [waits.pulling] at holding
      cases holding
  | stop stopping =>
      rw [waits.pulling] at stopping
      cases stopping

/-- Nothing gets lost or comes through a feed while only time passes. -/
theorem Drift.awaits (d : Drift r a r') (sound : r.store.Sound) {f : Store.Feed}
    {rest : List Event} (h : f.Awaits r.store rest) : f.Awaits r'.store rest := by
  obtain ⟨m, passes, _⟩ := d
  cases m with
  | watched _ _ opened => exact (sound.watch?_awaits opened).2 f rest h
  | emit | endFeed => cases passes
  | reclaim here may =>
      rw [reclaim_eq here may]
      exact h
  | _ => exact h

/-- What becomes of stream `t` while only time passes. -/
inductive Stream.Drifts (r : Registry) (a : Action) (t : Nat) (st : Stream) : Stream → Prop
  | stay : Drifts r a t st st
  | join : Drifts r a t st (st.perform .join)
  | shut {j : Nat} {c : Closer} {p : Option Nat} (found : r.closers[j]? = some c)
      (phase : c.phase = .stopping p) (stream : r.streamOf? c.entry = some t) :
      Drifts r a t st (st.perform .close)
  | pull {st' : Stream} (mine : a = .step (.puller t)) (went : st.Pull r.store st') :
      Drifts r a t st st'
  | close (closing : st.puller = .closing) :
      Drifts r a t st { st with feed := st.feed.close, puller := .ended }

theorem Drift.stream (d : Drift r a r') {t : Nat} {st : Stream} (there : r.streams[t]? = some st) :
    ∃ st', r'.streams[t]? = some st' ∧ st.Drifts r a t st' := by
  obtain ⟨m, passes, _⟩ := d
  cases m with
  | join | start => exact getElem?_modify_keeps there .stay fun _ => .join
  | closeWindow found phase stream =>
      exact getElem?_modify_keeps there .stay fun same => .shut found phase (same ▸ stream)
  | use used =>
      rw [Action.use?_of_passes passes] at used
      cases used
  | watched => exact ⟨st, getElem?_push_some.2 (.inl there), .stay⟩
  | fault => cases passes
  | @pull t₁ st₁ st' there₁ went =>
      refine getElem?_modify_keeps there .stay fun here => ?_
      subst here
      obtain rfl : st = st₁ := Option.some.inj (there.symm.trans there₁)
      exact .pull rfl went
  | @close a t₁ st₁ there₁ closing =>
      refine getElem?_modify_keeps there .stay fun here => ?_
      subst here
      obtain rfl : st = st₁ := Option.some.inj (there.symm.trans there₁)
      exact .close closing
  | reclaim here may =>
      rw [reclaim_eq here may]
      exact ⟨st, there, .stay⟩
  | _ => exact ⟨st, there, .stay⟩

theorem Stream.isClosed_join {st : Stream} {v : Room.View Event} (valid : v.Valid)
    (laid : st.room = v.room) : (st.perform .join).room.isClosed = st.room.isClosed := by
  rw [perform, laid, Room.View.perform_room valid]
  show (v.perform .join).1.window.closed = v.window.closed
  rw [Room.View.perform_window]

/-- No closer is about to close the window of a stream. -/
def Untouched (r : Registry) (t : Nat) : Prop :=
  ∀ (j : Nat) (c : Closer) (p : Option Nat), r.closers[j]? = some c → c.phase = .stopping p →
    r.streamOf? c.entry ≠ some t

/-- A stream that no closer touches and whose puller has nothing to do keeps what it reads from, and
its window stays open. -/
theorem Stream.Waits.drifts {t : Nat} {st st' : Stream} (waits : st.Waits r.store [])
    (sound : r.store.Sound) (laid : r.Laid) (there : r.streams[t]? = some st)
    (running : st.room.isClosed = false) (goes : st.Drifts r a t st') :
    (st'.puller = st.puller ∧ st'.fault = st.fault ∧ st'.feed = st.feed) ∧
      (r.Untouched t → st'.room.isClosed = false) := by
  cases goes with
  | stay => exact ⟨⟨rfl, rfl, rfl⟩, fun _ => running⟩
  | join =>
      obtain ⟨v, valid, layout⟩ := laid t st there
      exact ⟨⟨rfl, rfl, rfl⟩, fun _ => (isClosed_join valid layout).trans running⟩
  | shut found phase stream =>
      exact ⟨⟨rfl, rfl, rfl⟩, fun untouched => absurd stream (untouched _ _ _ found phase)⟩
  | pull mine went => exact absurd went (waits.still sound running)
  | close closing =>
      rw [waits.pulling] at closing
      cases closing

/-- A registry in which no shutdown has begun or has been called for. -/
structure Steady (r : Registry) : Prop where
  books : r.Books
  sourced : r.Sourced
  up : r.down = false
  shutdowns : r.shutdowns = #[]

/-- Subscriptions are forbidden only by a shutdown that has been called for. -/
theorem Steady.move (h : r.Steady) (m : Move r a r') (uncalled : r'.shutdowns = #[]) :
    r'.Steady := by
  refine ⟨h.books.move m, h.sourced.move h.books.owned h.books.laid m, ?_, uncalled⟩
  cases m with
  | goDown found =>
      rw [h.shutdowns] at found
      cases found
  | reclaim here may =>
      rw [reclaim_eq here may]
      exact h.up
  | _ => exact h.up

/-- A registry in which no shutdown has begun and every stream with an open window waits. -/
structure Calm (r : Registry) : Prop extends Steady r where
  waiting : ∀ (t : Nat) (st : Stream), r.streams[t]? = some st → st.room.isClosed = false →
    st.Waits r.store []
  starting : ∀ (i e t : Nat) (s : Subscriber) (st : Stream), r.subscribers[i]? = some s →
    s.phase = .starting e t → r.streams[t]? = some st → st.room.isClosed = false

/-- The window of a stream that is being started is there, and open. -/
theorem Calm.isOpen_of_starting (h : r.Calm) {i e t : Nat} {s : Subscriber}
    (found : r.subscribers[i]? = some s) (phase : s.phase = .starting e t) :
    ∃ st, r.streams[t]? = some st ∧ st.room.isClosed = false := by
  have owned := h.books.owned
  obtain ⟨x, here, _, _, _, bare, pulls⟩ := owned.starts found phase
  have started : x.started = some t := by rw [Entry.started, bare, Option.none_or, pulls]
  have there := Array.getElem?_eq_getElem (owned.started_lt here started)
  exact ⟨_, there, h.starting i e t s _ found phase there⟩

/-- A closer closes no window of a stream that an entry hands out. -/
theorem Books.untouched_of_offers (h : r.Books) (up : r.down = false) {t : Nat}
    (offers : r.Offers t) : r.Untouched t := by
  obtain ⟨e, x, here, live, stream⟩ := offers
  intro j c p found _ same
  obtain ⟨y, here', stream'⟩ := Option.bind_eq_some_iff.1 same
  obtain rfl := h.owned.unshared _ _ x y t here here' (Entry.started_of_stream stream)
    (Entry.started_of_stream stream')
  rw [(h.withheld up).closing j c x found here] at live
  cases live

/-- A closer closes no window of a stream that is about to be started. -/
theorem Books.untouched_of_starting (h : r.Books) {i e t : Nat} {s : Subscriber}
    (found : r.subscribers[i]? = some s) (phase : s.phase = .starting e t) : r.Untouched t := by
  obtain ⟨x, here, _, _, _, bare, pulls⟩ := h.owned.starts found phase
  intro j c p _ _ same
  obtain ⟨y, here', stream⟩ := Option.bind_eq_some_iff.1 same
  have started : x.started = some t := by rw [Entry.started, bare, Option.none_or, pulls]
  obtain rfl := h.owned.unshared _ _ x y t here here' started (Entry.started_of_stream stream)
  obtain rfl := Option.some.inj (here.symm.trans here')
  rw [bare] at stream
  cases stream

/-- Whoever is about to start a stream was so before, or the stream is new. -/
theorem Move.starting (m : Move r a r') {i e t : Nat} {s : Subscriber}
    (found : r'.subscribers[i]? = some s) (phase : s.phase = .starting e t) :
    r.subscribers[i]? = some s ∨ t = r.streams.size := by
  have turned : ∀ {j : Nat} {q : Subscribing} {xs : Array Subscriber}, xs = r.subscribers →
      (q = .starting e t → t = r.streams.size) →
      (xs.modify j fun s => { s with phase := q })[i]? = some s →
      r.subscribers[i]? = some s ∨ t = r.streams.size := by
    rintro j q xs rfl new found
    obtain ⟨_, old⟩ | ⟨rfl, s', old, rfl⟩ := getElem?_modify_some.1 found
    · exact .inl old
    · exact .inr (new phase)
  cases m with
  | subscribe room =>
      obtain old | ⟨_, rfl⟩ := getElem?_push_some.1 found
      · exact .inl old
      · cases phase
  | walk _ walks =>
      refine turned rfl (fun eq => ?_) found
      subst eq
      cases walks
  | watched =>
      refine turned rfl (fun eq => ?_) found
      exact (Subscribing.starting.inj eq).2.symm
  | find | create | ask | turnAway | join | watch | fail | failClosed | start | startDead | remove
  | abort =>
      refine turned rfl ?_ found
      nofun
  | reclaim here may =>
      rw [reclaim_eq here may] at found
      exact .inl found
  | _ => exact .inl found

theorem Calm.drift (h : r.Calm) (d : Drift r a r') : r'.Calm := by
  have owned := h.books.owned
  have laid := h.books.laid
  refine ⟨h.toSteady.move d.move (d.calls h.shutdowns), ?_, ?_⟩
  · intro t st' there' running'
    by_cases old : t < r.streams.size
    · have there := Array.getElem?_eq_getElem old
      have running : r.streams[t].room.isClosed = false := by
        by_contra closed
        rw [Bool.not_eq_false] at closed
        have closed' := laid.still_closed owned d.move old (fun st same => by
          rw [← Option.some.inj (there.symm.trans same)]
          exact closed) there'
        rw [running'] at closed'
        cases closed'
      have waits := h.waiting t _ there running
      obtain ⟨st₁, there₁, goes⟩ := d.stream there
      obtain rfl := Option.some.inj (there'.symm.trans there₁)
      obtain ⟨⟨puller, fault, feed⟩, _⟩ := waits.drifts h.sourced.sound laid there running goes
      refine ⟨puller.trans waits.pulling, fault.trans waits.sound, ?_⟩
      rw [feed]
      exact d.awaits h.sourced.sound waits.feed
    · obtain ⟨m, passes, _⟩ := d
      have fresh : ∀ {ys : Array Stream}, ys.size = r.streams.size → ys[t]? ≠ some st' :=
        getElem?_ne_some (Nat.le_of_not_lt old)
      cases m with
      | watched _ _ opened =>
          obtain found | ⟨_, rfl⟩ := getElem?_push_some.1 there'
          · exact absurd found (fresh rfl)
          · exact ⟨rfl, rfl, (h.sourced.sound.watch?_awaits opened).1⟩
      | join | start | closeWindow | pull | close | use =>
          exact absurd there' (fresh Array.size_modify)
      | fault room f => exact absurd there' (fresh Array.size_map)
      | reclaim here may =>
          rw [reclaim_eq here may] at there'
          exact absurd there' (fresh rfl)
      | _ => exact absurd there' (fresh rfl)
  · intro i e t s st' found phase there'
    obtain before | rfl := d.move.starting found phase
    · have untouched := h.books.untouched_of_starting before phase
      obtain ⟨st, there, running⟩ := h.isOpen_of_starting before phase
      obtain ⟨st₁, there₁, goes⟩ := d.stream there
      obtain rfl := Option.some.inj (there'.symm.trans there₁)
      exact ((h.waiting t _ there running).drifts h.sourced.sound laid there running goes).2
        untouched
    · obtain ⟨_, room, feed, rfl⟩ := d.move.stream_new (Nat.le_refl _) there'
      rfl

/-- A collector that cannot go on has not been told to end, or has called for its shutdown. -/
theorem AtRest.patrolled (rest : r.AtRest) : r.Patrolled := by
  intro i c found cancelled
  have stuck : r.stepCollector? i = none := rest (.collector i)
  cases phase : c.phase with
  | stopping | done => rfl
  | sleeping candidates => simp [stepCollector?, found, phase, cancelled] at stuck
  | checking | scanning | reclaiming => simp [stepCollector?, found, phase] at stuck

/-- A registry in which nobody can go on is calm, if no shutdown has begun and no feed has taken its
puller down. -/
theorem AtRest.calm (rest : r.AtRest) (books : r.Books) (sourced : r.Sourced) (up : r.down = false)
    (whole : ∀ (t : Nat) (st : Stream), r.streams[t]? = some st → st.puller ≠ .crashed) :
    r.Calm := by
  refine ⟨⟨books, sourced, up, ?_⟩, ?_, ?_⟩
  · refine Array.ext_getElem? fun k => ?_
    cases found : r.shutdowns[k]? with
    | none => simp
    | some p =>
        have fits := books.attended.fit k p found
        have stuck : r.stepShutdown? k = none := rest (.shutdown k)
        cases p with
        | starting => simp [stepShutdown?, found] at stuck
        | draining =>
            rw [show r.down = true from fits] at up
            cases up
        | closing | taking | joining | done =>
            rw [fits.1] at up
            cases up
  · intro t st there running
    have stuck : st.step? r.store = none := by
      have stuck : r.stepPuller? t = none := rest (.puller t)
      simpa [stepPuller?, there] using stuck
    have source := sourced.streams t st there
    have closed : ¬ (st.puller = .closing ∨ st.puller = .ended) := fun ended => by
      rw [source.ended ended] at running
      cases running
    cases phase : st.puller with
    | pulling =>
        have live : st.isLive = true := by rw [Stream.isLive, phase]
        obtain ⟨p, place⟩ := source.place live
        simp only [Stream.step?, phase, Stream.pull?, running, Bool.false_eq_true,
          if_false] at stuck
        cases fault : st.fault with
        | some f => cases f <;> simp [fault] at stuck
        | none =>
            refine ⟨phase, fault, place.awaits (source.isOpen live) ?_⟩
            simp only [fault] at stuck
            split at stuck
            case h_1 idle => rw [idle]
            all_goals cases stuck
    | holding e | stopping => simp [Stream.step?, phase] at stuck
    | closing => exact absurd (.inl phase) closed
    | ended => exact absurd (.inr phase) closed
    | crashed => exact absurd phase (whole t st there)
  · intro i e t s st found phase there
    have stuck : r.stepSubscriber? i = none := rest (.subscriber i)
    simp [stepSubscriber?, found, phase] at stuck

end Roomcast.Registry

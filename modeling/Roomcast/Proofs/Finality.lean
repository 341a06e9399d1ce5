import Roomcast.Proofs.Endings

/-!
# What a shutdown ends

When a shutdown has ended every entry is dead and every window is closed: an entry that it found in
the registry has been closed by its closer, and so has one that was reclaimed, and an entry that a
subscriber removed was dead before. Nothing of this is ever undone. For a new window needs an entry
that is alive, and a new entry needs a registry that is up.

Two shutdowns may overlap. The one that comes second finds the registry empty and ends, while the
first one still waits for the entries that it has taken out. Until their closers are done such an
entry can get a window, and somebody who waits for its lock can get a reader. This is all that an
ended shutdown leaves open, and it is nothing once every shutdown has ended.
-/

namespace Roomcast

namespace Room.View

variable {α : Type} {v : View α} {i : Nat} {c : Reading α}

theorem look?_of_closed (closed : v.window.closed = true) (c : Reading α) (cancelled : Bool) :
    v.look? c cancelled = some (.error .closed) := by
  rw [look?, Window.poll?, if_pos (Window.lost_iff.2 (.inl closed)), ite_self]

theorem poll_of_closed (valid : v.Valid) (closed : v.window.closed = true)
    (found : v.readers[i]? = some c) (cancelled : Bool) :
    (v.room.poll i cancelled).2 = some (.error .closed) := by
  rw [room_poll valid, poll, found, Option.bind_some, look?_of_closed closed]

/-- A read that has just begun does not wait at a closed window either. -/
theorem resume_of_closed (valid : v.Valid) (closed : v.window.closed = true)
    (found : v.readers[i]? = some c) (cancelled : Bool) :
    ((v.room.beginRead i cancelled).resume i).2 = some (.error .closed) := by
  have begun : v.room.beginRead i cancelled = (v.perform (.beginRead i cancelled)).1.room :=
    congrArg Prod.fst (perform_room valid (.beginRead i cancelled))
  have found' : (v.perform (.beginRead i cancelled)).1.readers[i]? =
      some { c with wait := some ⟨false, cancelled⟩ } :=
    getElem?_modify_some.2 (.inr ⟨rfl, c, found, rfl⟩)
  have goes : (v.perform (.beginRead i cancelled)).1.goOn?
      { c with wait := some ⟨false, cancelled⟩ } = some (.error .closed) :=
    look?_of_closed closed { c with wait := some ⟨false, cancelled⟩ } cancelled
  rw [begun, room_resume (valid.perform _), resume, found', Option.bind_some, goes]

end Room.View

namespace Registry

variable {r r' : Registry} {a : Action}

/-- Whatever is read with a reader fails since its window is closed, also if its caller gave up. -/
def ReadsClosed (r : Registry) (h : Reader) : Prop :=
  ∀ cancelled, (r.poll h cancelled).2 = some (.error .closed) ∧
    ((r.beginRead h cancelled).resume h).2 = some (.error .closed)

theorem Laid.readsClosed (laid : r.Laid) {h : Reader}
    (closed : ∀ st, r.streams[h.stream]? = some st → st.room.isClosed = true)
    (stays : r.hasLeft h = false) : r.ReadsClosed h := by
  rw [Registry.hasLeft, roomOf?] at stays
  cases there : r.streams[h.stream]? with
  | none => simp [there] at stays
  | some st =>
      obtain ⟨v, valid, same⟩ := laid h.stream st there
      have ended := closed st there
      rw [same] at ended
      rw [there, Option.map_some, Option.all_some, same, Room.View.room_hasLeft] at stays
      cases found : v.readers[h.cursor]? with
      | none => simp [found] at stays
      | some c =>
          intro cancelled
          constructor
          · rw [poll, readWith, roomOf?, there]
            simp only [Option.map_some, same]
            exact Room.View.poll_of_closed valid ended found cancelled
          · have there' : (r.beginRead h cancelled).roomOf? h =
                some (v.room.beginRead h.cursor cancelled) := by
              rw [roomOf?, beginRead, onRoom, modifyRoom, modifyStream,
                getElem?_modify_of _ there, if_pos rfl, ← same]
              rfl
            rw [resume, readWith, there']
            exact Room.View.resume_of_closed valid ended found cancelled

/-- A shutdown that goes on still has to close an entry. -/
def IsLeft (r : Registry) (e : Nat) : Prop :=
  ∃ (j : Nat) (c : Closer), r.Awaits j ∧ r.closers[j]? = some c ∧ c.entry = e ∧
    c.phase.hasClosed = false

/-- A stream has been started for one of the entries `left`. -/
def IsStreamOf (r : Registry) (left : Nat → Prop) (t : Nat) : Prop :=
  ∃ (e : Nat) (x : Entry), r.entries[e]? = some x ∧ x.started = some t ∧ left e

variable {left : Nat → Prop}

theorem IsStreamOf.move {t : Nat} (h : r.IsStreamOf left t) (owned : r.Owned) (m : Move r a r') :
    r'.IsStreamOf left t := by
  obtain ⟨e, x, here, started, among⟩ := h
  obtain ⟨x', here', goes⟩ := m.entry owned here
  exact ⟨e, x', here', goes.started started, among⟩

/-- Nothing in the registry can be used any more, but what belongs to the entries `left`. -/
structure IsOver (left : Nat → Prop) (r : Registry) : Prop where
  down : r.down = true
  empty : r.registered = []
  dead : ∀ (e : Nat) (x : Entry), r.entries[e]? = some x → r.Dead x ∨ left e
  closed : ∀ (t : Nat) (st : Stream), r.streams[t]? = some st →
    st.room.isClosed = true ∨ r.IsStreamOf left t

/-- A dead entry is retired or has a stream. -/
theorem Dead.withheld {x : Entry} (dead : r.Dead x) (live : x.retired = false)
    (bare : x.stream = none) : False := by
  obtain gone | ⟨t, stream, _⟩ := dead
  · rw [live] at gone
    cases gone
  · rw [bare] at stream
    cases stream

/-- No stream is started for a dead entry. -/
theorem Dead.started {e t : Nat} {x x' : Entry} (dead : r.Dead x) (goes : x.Goes r r' e x')
    (started : x'.started = some t) : x.started = some t := by
  cases goes with
  | relock | reclaim => exact started
  | begin _ live bare | start _ _ live bare => exact (dead.withheld live bare).elim
  | retire =>
      obtain stream | ⟨_, none⟩ := Option.or_eq_some_iff.1 started
      · exact Entry.started_of_stream stream
      · cases none

theorem IsOver.move (h : r.IsOver left) (owned : r.Owned) (laid : r.Laid) (m : Move r a r') :
    r'.IsOver left := by
  have empty := m.registered_nil h.down h.empty
  -- No entry is new, for it would be registered.
  have back : ∀ (e : Nat) (x' : Entry), r'.entries[e]? = some x' →
      ∃ x, r.entries[e]? = some x ∧ x.Goes r r' e x' := by
    intro e x' here
    obtain old | ⟨_, _, current, _⟩ := m.entry_back owned here
    · exact old
    · rw [entryOf?, empty] at current
      cases current
  refine ⟨m.down h.down, empty, ?_, ?_⟩
  · intro e x' here
    obtain ⟨x, was, goes⟩ := back e x' here
    exact (h.dead e x was).imp_left fun dead => dead.move owned laid m was goes
  · intro t st' there
    obtain ⟨st, old, goes⟩ | ⟨rfl, _⟩ := m.stream_back owned there
    · obtain ⟨v, valid, same⟩ := laid t st old
      exact (h.closed t st old).imp (goes.isClosed valid same) fun mine => mine.move owned m
    · obtain ⟨e, x', here, started⟩ := (owned.move m).owner_of there
      obtain ⟨x, was, goes⟩ := back e x' here
      obtain dead | among := h.dead e x was
      · have before := owned.started_lt was (dead.started goes started)
        exact absurd before (Nat.lt_irrefl _)
      · exact .inr ⟨e, x', here, started, among⟩

/-- Whoever has a reader now had it before, or reads a stream of one of the entries `left`. -/
def Served (r₀ : Registry) (left : Nat → Prop) (r : Registry) : Prop :=
  ∀ (i : Nat) (s : Subscriber) (h : Reader), r.subscribers[i]? = some s →
    s.phase = .done (.ok h) →
    (∃ s₀, r₀.subscribers[i]? = some s₀ ∧ s₀.phase = .done (.ok h)) ∨ r.IsStreamOf left h.stream

theorem Served.move {r₀ : Registry} (h : r₀.Served left r) (isOver : r.IsOver left)
    (owned : r.Owned) (m : Move r a r') : r₀.Served left r' := by
  intro i s' g found serves
  obtain ⟨s, old, goes⟩ | checking := m.subscriber_back owned found
  · cases goes with
    | stay => exact (h i s' g old serves).imp_right fun mine => mine.move owned m
    | turn q unserved =>
        rw [show q = .done (.ok g) from serves] at unserved
        cases unserved
    | @serve t st there running =>
        obtain closed | mine := isOver.closed t st there
        · rw [closed] at running
          cases running
        · obtain rfl := Except.ok.inj (Subscribing.done.inj serves)
          exact .inr (mine.move owned m)
    | leave | refuse => cases serves
  · rw [checking] at serves
    cases serves

/-- When a shutdown has ended, every other closer that has not closed its window is one for which
another shutdown waits. -/
theorem Kept.left_of_closer (h : r.Kept) {k : Nat} (ended : r.shutdowns[k]? = some .done) {j : Nat}
    {c : Closer} (found : r.closers[j]? = some c) (running : c.phase.hasClosed = false) :
    r.IsLeft c.entry := by
  obtain ⟨_, _, taken⟩ : Stopping.Fits r .done := h.attended.fit k _ ended
  obtain done | among | waits := h.attended.awaited j c found
  · rw [done] at running
    cases running
  · rw [taken] at among
    cases among
  · exact ⟨j, c, waits, found, rfl, running⟩

/-- A shutdown that has ended leaves nothing to be used, but what other shutdowns still have to
close. -/
theorem Kept.isOver (h : r.Kept) {k : Nat} (ended : r.shutdowns[k]? = some .done) :
    r.IsOver r.IsLeft := by
  obtain ⟨down, empty, _⟩ : Stopping.Fits r .done := h.attended.fit k _ ended
  have dead : ∀ (e : Nat) (x : Entry), r.entries[e]? = some x → r.Dead x ∨ r.IsLeft e := by
    intro e x here
    obtain dead | current | ⟨j, c, found, rfl⟩ := h.current e x here
    · exact .inl dead
    · rw [entryOf?, empty] at current
      cases current
    · cases closed : c.phase.hasClosed with
      | true => exact .inl (.inl ((h.tended.took j c x found here).retired closed))
      | false => exact .inr (h.left_of_closer ended found closed)
  refine ⟨down, empty, dead, fun t st there => ?_⟩
  obtain ⟨e, x, here, started⟩ := h.owned.owner_of there
  obtain (gone | ⟨t', stream, shut⟩) | among := dead e x here
  · obtain ⟨j, c, found, rfl⟩ := h.sealed.closer e x here gone
    cases closed : c.phase.hasClosed with
    | true =>
        have stream := (h.tended.took j c x found here).stream closed started
        exact .inl (h.sealed.closed j t c x st found closed here stream there)
    | false => exact .inr ⟨_, x, here, started, h.left_of_closer ended found closed⟩
  · rw [Entry.started, stream] at started
    obtain rfl := Option.some.inj started
    exact .inl (shut st there)
  · exact .inr ⟨e, x, here, started, among⟩

/-- Nothing is left when every shutdown has ended. -/
theorem not_isLeft_of_done
    (all : ∀ (k : Nat) (p : Stopping), r.shutdowns[k]? = some p → p = .done) (e : Nat) :
    ¬ r.IsLeft e := by
  rintro ⟨j, c, ⟨k, p, found, among⟩, -⟩
  rw [all k p found] at among
  cases among

/-- A subscriber that has an answer has a reader, or was told that the registry is shutting down, or
has got the error with which its own feed could not be opened. -/
def Answers (acts : List Action) (r : Registry) : Prop :=
  ∀ (i : Nat) (s : Subscriber) (result : Except StreamError Reader),
    r.subscribers[i]? = some s → s.phase = .done result →
    (∃ h, result = .ok h) ∨ result = .error .shuttingDown ∨
      ∃ err, result = .error err ∧ .watched i (some err) ∈ acts

theorem Answers.move {acts : List Action} (h : Answers acts r) (among : a ∈ acts)
    (owned : r.Owned) (m : Move r a r') : Answers acts r' := by
  intro i s' result found done
  obtain ⟨s, old, goes⟩ | checking := m.subscriber_back owned found
  · cases goes with
    | stay => exact h i s' result old done
    | turn q _ _ answers =>
        cases result with
        | ok g => exact .inl ⟨g, rfl⟩
        | error err =>
            obtain ⟨rfl, _⟩ | rfl := answers err done
            · exact .inr (.inl rfl)
            · exact .inr (.inr ⟨err, rfl, among⟩)
    | serve =>
        obtain rfl := Subscribing.done.inj done
        exact .inl ⟨_, rfl⟩
    | leave | refuse => cases done
  · rw [checking] at done
    cases done

theorem run?_answers {capacity channelCapacity : Nat} {acts : List Action}
    (ran : (Registry.empty capacity channelCapacity).run? acts = some r) : Answers acts r := by
  refine (Owned.run (fun among owned h m => h.move among owned m) (empty_owned _ _) ?_ ran).2
  intro i s result found
  simp [Registry.empty] at found

/-- What is so for ever after a shutdown has ended in the state `r₀`, except for what belongs to the
entries `left`. -/
structure Final (r₀ : Registry) (left : Nat → Prop) (r : Registry) : Prop where
  /-- The registry is empty. -/
  empty : r.registered = []
  /-- Every window is closed. -/
  closed : ∀ (t : Nat) (st : Stream), r.streams[t]? = some st →
    st.room.isClosed = true ∨ r.IsStreamOf left t
  /-- Every reader that is not closed learns from its next read that its window is. -/
  told : ∀ h, r.hasLeft h = false → r.ReadsClosed h ∨ r.IsStreamOf left h.stream
  /-- Nobody waits for a feed. -/
  unwatched : ∀ (i e : Nat) (s : Subscriber), r.subscribers[i]? = some s →
    s.phase = .watching e → left e
  /-- Nobody gets a reader who had none. -/
  served : r₀.Served left r

/-- What shutdowns bring about in a run, and what subscribers are told. -/
structure ShutsDown (acts : List Action) (r : Registry) : Prop where
  /-- When a shutdown has ended, the end is final, except for the entries that another shutdown
  still has to close at that moment. -/
  final : ∀ (k : Nat), r.shutdowns[k]? = some .done →
    ∀ (more : List Action) (r' : Registry), r.run? more = some r' → r.Final r.IsLeft r'
  /-- Nothing is left to close when all shutdowns have ended. -/
  clean : (∀ (k : Nat) (p : Stopping), r.shutdowns[k]? = some p → p = .done) → ∀ e, ¬ r.IsLeft e
  /-- Nobody is told anything else than that there is a reader, a shutdown, or no feed. -/
  answers : Answers acts r

/-- In every run shutdowns are final, whatever subscribers, collectors and feeds do, as long as the
store refuses no feed as closed. A shutdown that comes while another one goes on does not wait for
what the other one has taken out of the registry, and only that can be used after it has ended. -/
theorem run?_shutsDown {capacity channelCapacity : Nat} {acts : List Action}
    (ran : (Registry.empty capacity channelCapacity).run? acts = some r)
    (granted : ∀ i, Action.watched i (some .closed) ∉ acts) : ShutsDown acts r := by
  have kept := run?_kept ran granted
  refine ⟨?_, not_isLeft_of_done, run?_answers ran⟩
  intro k ended more r' later
  have start : r.IsOver r.IsLeft ∧ r.Served r.IsLeft r :=
    ⟨kept.isOver ended, fun i s h found serves => .inl ⟨s, found, serves⟩⟩
  obtain ⟨books, isOver, served⟩ := kept.toBooks.run
    (P := fun r' => r'.IsOver r.IsLeft ∧ r.Served r.IsLeft r')
    (fun books h m => ⟨h.1.move books.owned books.laid m, h.2.move h.1 books.owned m⟩) start later
  constructor
  · exact isOver.empty
  · exact isOver.closed
  · intro h stays
    by_cases mine : r'.IsStreamOf r.IsLeft h.stream
    · exact .inr mine
    · exact .inl (books.laid.readsClosed
        (fun st there => (isOver.closed h.stream st there).resolve_right mine) stays)
  · intro i e s found phase
    obtain ⟨x, here, _, _, live, bare, _⟩ := books.owned.watches found phase
    exact (isOver.dead e x here).resolve_left fun dead => dead.withheld live bare
  · exact served

/-- A shutdown begins while one room has a reader of a feed that has taken its puller down, and a
subscriber of another room waits for a feed. -/
def lastReaders : List Action :=
  [.subscribe (.ofNat 7), .step (.subscriber 0), .step (.subscriber 0), .step (.subscriber 0),
    .step (.subscriber 0), .step (.subscriber 0), .watched 0 none, .step (.subscriber 0),
    .subscribe (.ofNat 8), .step (.subscriber 1), .step (.subscriber 1), .step (.subscriber 1),
    .step (.subscriber 1), .step (.subscriber 1), .fault (.ofNat 7) .crash, .step (.puller 0),
    .shutdown, .step (.shutdown 0), .step (.shutdown 0), .step (.closer 1), .step (.closer 1),
    .step (.closer 1), .step (.closer 1), .step (.closer 0), .watched 1 none,
    .step (.subscriber 1), .step (.closer 0), .step (.closer 0), .step (.puller 1),
    .step (.puller 1), .feedClosed 1, .step (.closer 0), .step (.shutdown 0), .step (.shutdown 0),
    .step (.shutdown 0)]

/-- The shutdown has ended, and the reader that the subscriber got meanwhile is told so. -/
theorem run?_shutsDown_lastReaders : ∃ r, (Registry.empty 2 1).run? lastReaders = some r ∧
    r.shutdowns[0]? = some .done ∧ r.registered = [] ∧ r.hasLeft ⟨1, 0⟩ = false ∧
    r.ReadsClosed ⟨1, 0⟩ := by
  have possible : ((Registry.empty 2 1).run? lastReaders).isSome = true := by decide +kernel
  obtain ⟨r, ran⟩ := Option.isSome_iff_exists.1 possible
  have granted : ∀ i, Action.watched i (some .closed) ∉ lastReaders := by simp [lastReaders]
  have facts : ((Registry.empty 2 1).run? lastReaders).map (fun r =>
      (r.shutdowns.size, r.shutdownDone 0, r.hasLeft ⟨1, 0⟩)) = some (1, true, false) := by
    decide +kernel
  rw [ran] at facts
  obtain ⟨only, ended, stays⟩ : r.shutdowns.size = 1 ∧ r.shutdownDone 0 = true ∧
      r.hasLeft ⟨1, 0⟩ = false := by simpa using facts
  have last := shutdownDone_iff.1 ended
  have shutsDown := run?_shutsDown ran granted
  have final := shutsDown.final 0 last [] r rfl
  refine ⟨r, ran, last, final.empty, stays, (final.told _ stays).resolve_right ?_⟩
  rintro ⟨e, _, _, _, remains⟩
  refine shutsDown.clean (fun k p found => ?_) e remains
  have first := lt_size_of_getElem? found
  obtain rfl : k = 0 := by omega
  exact Option.some.inj (found.symm.trans last)

/-- Somebody waits for a feed when two shutdowns begin. The one numbered `early` takes the entry out
of the registry, and the one numbered `late` comes after it. -/
def overtaken (early late : Nat) : List Action :=
  [.subscribe (.ofNat 7), .step (.subscriber 0), .step (.subscriber 0), .step (.subscriber 0),
    .step (.subscriber 0), .step (.subscriber 0), .shutdown, .shutdown,
    .step (.shutdown early), .step (.shutdown early), .step (.shutdown late),
    .step (.shutdown late), .step (.shutdown late), .step (.shutdown late), .step (.shutdown late)]

deriving instance DecidableEq for Subscribing

deriving instance DecidableEq for Subscriber

/-- When shutdown `k` has ended, somebody waits for a feed, and later has a reader and waits for
events with it. -/
def OutlivesShutdown (acts : List Action) (k : Nat) : Prop :=
  ∃ r r', (Registry.empty 2 1).run? acts = some r ∧ r.shutdowns[k]? = some .done ∧
    r.subscribers[0]? = some ⟨.ofNat 7, .watching 0⟩ ∧
    r.run? [.watched 0 none, .step (.subscriber 0)] = some r' ∧
    r'.subscribers[0]? = some ⟨.ofNat 7, .done (.ok ⟨0, 0⟩)⟩ ∧ (r'.poll ⟨0, 0⟩ false).2 = none

/-- Whichever of the two comes first, the other one has ended before the entry is closed. -/
theorem run?_shutsDown_overtaken :
    OutlivesShutdown (overtaken 0 1) 1 ∧ OutlivesShutdown (overtaken 1 0) 0 := by
  have outlives : ∀ {acts : List Action} {k : Nat},
      ((Registry.empty 2 1).run? acts).map (fun r => (r.shutdownDone k, r.subscribers[0]?,
        (r.run? [.watched 0 none, .step (.subscriber 0)]).map fun r' =>
          (r'.subscribers[0]?, (r'.poll ⟨0, 0⟩ false).2.isNone))) =
        some (true, some ⟨.ofNat 7, .watching 0⟩,
          some (some ⟨.ofNat 7, .done (.ok ⟨0, 0⟩)⟩, true)) → OutlivesShutdown acts k := by
    intro acts k facts
    obtain ⟨r, ran, facts⟩ := Option.map_eq_some_iff.1 facts
    simp only [Prod.mk.injEq] at facts
    obtain ⟨ended, waits, later⟩ := facts
    obtain ⟨r', later, facts⟩ := Option.map_eq_some_iff.1 later
    simp only [Prod.mk.injEq, Option.isNone_iff_eq_none] at facts
    exact ⟨r, r', ran, shutdownDone_iff.1 ended, waits, later, facts⟩
  exact ⟨outlives (by decide +kernel), outlives (by decide +kernel)⟩

end Registry

end Roomcast

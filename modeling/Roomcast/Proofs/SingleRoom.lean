import Roomcast.Proofs.Shutdown
import Roomcast.Proofs.Windows

/-!
# One entry for each room

A subscriber may hold an entry that is out of date at any time: another subscriber may have removed
it, a collector may have reclaimed it, and a third one may have made a new entry since. Still, until
a shutdown begins, the entry that is registered for a room is the only one from which anybody can
get a reader, and every reader that can still get an event belongs to it. For an entry leaves the
registry only when it is dead, it is reclaimed only when nobody reads it, and a dead entry neither
comes to life nor gets a reader again.
-/

namespace Roomcast.Registry

variable {r r' : Registry} {a : Action}

/-- What no entry hands out nobody reads: an entry has a closer only when it is retired, and a
stream is left by all before its entry is retired. -/
structure Withheld (r : Registry) : Prop where
  closing : ∀ (j : Nat) (c : Closer) (x : Entry), r.closers[j]? = some c →
    r.entries[c.entry]? = some x → x.retired = true
  unread : ∀ (e t : Nat) (x : Entry) (st : Stream), r.entries[e]? = some x →
    x.retired = true ∨ x.stream = none → x.started = some t → r.streams[t]? = some st →
    ∀ c, st.room.hasLeft c = true

/-- The books of a registry, and what is withheld until a shutdown begins. -/
structure Books (r : Registry) : Prop where
  owned : r.Owned
  tended : r.Tended
  attended : r.Attended
  laid : r.Laid
  sealed : r.Sealed
  withheld : r.down = false → r.Withheld

/-- Entries get out of the registry only when they are dead or have a closer. -/
structure Kept (r : Registry) : Prop extends Books r where
  current : ∀ (e : Nat) (x : Entry), r.entries[e]? = some x →
    r.Dead x ∨ r.entryOf? x.roomId = some e ∨
      ∃ (j : Nat) (c : Closer), r.closers[j]? = some c ∧ c.entry = e
  removing : ∀ (i e : Nat) (s : Subscriber) (x : Entry), r.subscribers[i]? = some s →
    s.phase = .removing e → r.entries[e]? = some x → r.Dead x

/-- What keeps a room in one piece until a shutdown begins: an entry is dead or registered, and
nobody reads what no entry hands out. -/
structure Intact (r : Registry) : Prop extends Withheld r where
  current : ∀ (e : Nat) (x : Entry), r.entries[e]? = some x →
    r.Dead x ∨ r.entryOf? x.roomId = some e

theorem Kept.intact (h : r.Kept) (up : r.down = false) : r.Intact where
  toWithheld := h.withheld up
  current e x here := by
    obtain dead | current | ⟨j, c, found, rfl⟩ := h.current e x here
    · exact .inl dead
    · exact .inr current
    · exact .inl (.inl ((h.withheld up).closing j c x found here))

theorem empty_books (capacity channelCapacity : Nat) :
    (Registry.empty capacity channelCapacity).Books := by
  refine ⟨empty_owned _ _, empty_tended _ _, empty_attended _ _, ?_, empty_sealed _ _, ?_⟩
  · simp [Laid, Registry.empty]
  · intro _
    constructor <;> simp [Registry.empty]

theorem empty_kept (capacity channelCapacity : Nat) :
    (Registry.empty capacity channelCapacity).Kept := by
  refine ⟨empty_books _ _, ?_, ?_⟩ <;> simp [Registry.empty]

/-- Who waits for closers has forbidden subscriptions. -/
theorem Attended.down_of_awaits (h : r.Attended) {j : Nat} (waits : r.Awaits j) :
    r.down = true := by
  obtain ⟨k, p, found, among⟩ := waits
  have fits := h.fit k p found
  cases p with
  | closing | joining => exact fits.1
  | starting | draining | taking | done => cases among

theorem removes?_eq_some {e : Nat} (removes : r.removes? a = some e) :
    ∃ (i : Nat) (s : Subscriber), r.subscribers[i]? = some s ∧ s.phase = .removing e := by
  unfold removes? at removes
  split at removes
  · obtain ⟨s, found, removes⟩ := Option.bind_eq_some_iff.1 removes
    split at removes
    case h_1 phase =>
      split_ifs at removes
      obtain rfl := Option.some.inj removes
      exact ⟨_, s, found, phase⟩
    case h_2 => cases removes
  · cases removes

/-- A stream that is withheld by its entry is offered by no other. -/
theorem Owned.unoffered (h : r.Owned) {e t : Nat} {x : Entry} (here : r.entries[e]? = some x)
    (withheld : x.retired = true ∨ x.stream = none) (started : x.started = some t) :
    ¬ r.Offers t := by
  rintro ⟨e₁, y, here₁, live, stream⟩
  have started₁ : y.started = some t := Entry.started_of_stream stream
  obtain rfl := h.unshared e e₁ x y t here here₁ started started₁
  obtain rfl : x = y := Option.some.inj (here.symm.trans here₁)
  obtain gone | bare := withheld
  · rw [gone] at live
    cases live
  · rw [bare] at stream
    cases stream

section

variable (h : r.Books) (up : r'.down = false) (m : Move r a r')

include h up m

theorem Books.still_withheld : r.Withheld := by
  refine h.withheld (Bool.eq_false_iff.2 fun down => ?_)
  rw [m.down down] at up
  cases up

/-- Closers come to entries that are retired already. -/
theorem Books.closing (j : Nat) (c' : Closer) (x' : Entry) (found : r'.closers[j]? = some c')
    (here : r'.entries[c'.entry]? = some x') : x'.retired = true := by
  obtain ⟨c, old, goes⟩ | new := m.closer_back found
  · obtain ⟨inside, _⟩ := h.tended.assigned j c old
    have was := Array.getElem?_eq_getElem inside
    rw [goes.entry] at here
    have became := m.entry_goes h.owned was here
    exact (became.retired ((h.still_withheld up m).closing j c _ old was)).1
  · obtain ⟨_, _, _, _, ⟨_, x, here', gone⟩ | waits⟩ := m.closer_new h.owned new found
    · obtain rfl : x' = x := Option.some.inj (here.symm.trans here')
      exact gone
    · rw [(h.attended.move h.owned m).down_of_awaits waits] at up
      cases up

/-- Nobody reads a stream that its entry does not offer. -/
theorem Books.unread (e t : Nat) (x' : Entry) (st' : Stream) (here : r'.entries[e]? = some x')
    (withheld : x'.retired = true ∨ x'.stream = none) (started : x'.started = some t)
    (there : r'.streams[t]? = some st') (c : Nat) : st'.room.hasLeft c = true := by
  have owned' := h.owned.move m
  have alone := owned'.unoffered here withheld started
  obtain ⟨st, old, went⟩ | ⟨_, room, feed, rfl⟩ := m.stream_back h.owned there
  · obtain ⟨v, valid, laid⟩ := h.laid t st old
    refine went.hasLeft valid laid alone ?_
    obtain ⟨e₁, x, was, started₁⟩ := h.owned.owner_of old
    obtain ⟨x'', here₁, goes⟩ := m.entry h.owned was
    obtain rfl := owned'.unshared e e₁ x' x'' t here here₁ started (goes.started started₁)
    obtain rfl : x' = x'' := Option.some.inj (here.symm.trans here₁)
    have before := (h.still_withheld up m).unread e t x st was
    cases goes with
    | relock => exact before withheld started₁ old c
    | begin _ live bare | start _ _ live bare => exact before (.inr bare) started₁ old c
    | retire lock bare closes =>
        obtain ⟨j, found⟩ := closes
        obtain ⟨c₁, old₁, went₁⟩ | new := m.closer_back found
        · obtain rfl : e = c₁.entry := went₁.entry
          exact before (.inl ((h.still_withheld up m).closing j c₁ x old₁ was)) started₁ old c
        · obtain ⟨arriving, _⟩ := m.closer_new h.owned new found
          cases arriving
    | reclaim live free unread =>
        cases stream : x.stream with
        | none => exact before (.inr stream) started₁ old c
        | some t₁ =>
            rw [Entry.started, stream] at started₁
            obtain rfl := Option.some.inj started₁
            exact h.laid.hasLeft was stream old unread c
  · rfl

end

theorem Books.move (h : r.Books) (m : Move r a r') : r'.Books where
  owned := h.owned.move m
  tended := h.tended.move h.owned m
  attended := h.attended.move h.owned m
  laid := h.laid.move h.owned m
  sealed := h.sealed.move h.owned h.tended h.laid m
  withheld up := ⟨h.closing up m, h.unread up m⟩

/-- What every move keeps while the books are in order is kept by a run. -/
theorem Books.run {P : Registry → Prop}
    (keeps : ∀ {r r' : Registry} {a : Action}, r.Books → P r → Move r a r' → P r') (h : r.Books)
    (start : P r) {acts : List Action} (ran : r.run? acts = some r') : r'.Books ∧ P r' := by
  refine (Owned.run (P := fun r => r.Books ∧ P r) ?_ h.owned ⟨h, start⟩ ran).2
  rintro r r' a _ _ ⟨books, kept⟩ m
  exact ⟨books.move m, keeps books kept m⟩

theorem run?_books {capacity channelCapacity : Nat} {acts : List Action}
    (ran : (Registry.empty capacity channelCapacity).run? acts = some r) : r.Books :=
  (Owned.run (fun _ _ books m => books.move m) (empty_owned _ _) (empty_books _ _) ran).2

/-- An entry leaves the registry only when it is dead or gets a closer. -/
theorem Kept.still_current (h : r.Kept) (m : Move r a r') (e : Nat) (x' : Entry)
    (here : r'.entries[e]? = some x') :
    r'.Dead x' ∨ r'.entryOf? x'.roomId = some e ∨
      ∃ (j : Nat) (c : Closer), r'.closers[j]? = some c ∧ c.entry = e := by
  obtain ⟨x, was, goes⟩ | ⟨_, _, current, _⟩ := m.entry_back h.owned here
  · obtain dead | current | ⟨j, c, found, same⟩ := h.current e x was
    · exact .inl (dead.move h.owned h.laid m was goes)
    · rw [goes.roomId]
      obtain current' | closes | removes := m.leaves current
      · exact .inr (.inl current')
      · exact .inr (.inr closes)
      · obtain ⟨i, s, found, phase⟩ := removes?_eq_some removes
        exact .inl ((h.removing i e s x found phase was).move h.owned h.laid m was goes)
    · obtain ⟨c', found', went⟩ := m.closer found
      exact .inr (.inr ⟨j, c', found', went.entry.trans same⟩)
  · exact .inr (.inl current)

/-- A subscriber removes an entry only when it is dead, unless the store refuses feeds as closed. -/
theorem Kept.still_removing (h : r.Kept) (granted : ∀ i, a ≠ .watched i (some .closed))
    (m : Move r a r') (i e : Nat) (s' : Subscriber) (x' : Entry)
    (found : r'.subscribers[i]? = some s') (phase : s'.phase = .removing e)
    (here : r'.entries[e]? = some x') : r'.Dead x' := by
  obtain ⟨s, old, goes⟩ | checking := m.subscriber_back h.owned found
  · cases goes with
    | stay =>
        obtain ⟨x, was, _⟩ := (h.owned.placed i s' old).named e (by rw [phase]; rfl)
        have dead := h.removing i e s' x old phase was
        exact dead.move h.owned h.laid m was (m.entry_goes h.owned was here)
    | turn q _ keeps => exact absurd phase (keeps e)
    | serve => cases phase
    | leave here' dead =>
        obtain rfl := Subscribing.removing.inj phase
        obtain rfl := Option.some.inj (here.symm.trans here')
        exact dead
    | refuse e' refused => exact absurd refused (granted i)
  · rw [checking] at phase
    cases phase

theorem Kept.move (h : r.Kept) (granted : ∀ i, a ≠ .watched i (some .closed))
    (m : Move r a r') : r'.Kept where
  toBooks := h.toBooks.move m
  current := h.still_current m
  removing := h.still_removing granted m

/-- Entries get lost in no run, unless the store refuses feeds as closed. -/
theorem run?_kept {capacity channelCapacity : Nat} {acts : List Action}
    (ran : (Registry.empty capacity channelCapacity).run? acts = some r)
    (granted : ∀ i, Action.watched i (some .closed) ∉ acts) : r.Kept := by
  refine (Owned.run ?_ (empty_owned _ _) (empty_kept _ _) ran).2
  rintro r r' a among _ kept m
  refine kept.move (fun i eq => granted i ?_) m
  rw [← eq]
  exact among

/-- While a subscriber waits for a feed, its entry is alive. -/
theorem Owned.alive (h : r.Owned) {i e : Nat} {s : Subscriber} (found : r.subscribers[i]? = some s)
    (phase : s.phase = .watching e) :
    ∃ x, r.entries[e]? = some x ∧ x.roomId = s.roomId ∧ ¬ r.Dead x ∧
      x.lock.head? = some (.subscriber i) := by
  obtain ⟨x, here, room, head, live, bare, _⟩ := h.watches found phase
  refine ⟨x, here, room, not_dead live fun t stream => ?_, head⟩
  rw [bare] at stream
  cases stream

/-- Two subscribers do not wait for feeds of one room at once. -/
theorem Kept.single (h : r.Kept) (up : r.down = false) {i j e e' : Nat} {s s' : Subscriber}
    (found : r.subscribers[i]? = some s) (found' : r.subscribers[j]? = some s')
    (phase : s.phase = .watching e) (phase' : s'.phase = .watching e')
    (same : s.roomId = s'.roomId) : i = j := by
  obtain ⟨x, here, room, alive, head⟩ := h.owned.alive found phase
  obtain ⟨x', here', room', alive', head'⟩ := h.owned.alive found' phase'
  have current := ((h.intact up).current e x here).resolve_left alive
  have current' := ((h.intact up).current e' x' here').resolve_left alive'
  rw [room, same, ← room', current'] at current
  obtain rfl := Option.some.inj current
  obtain rfl : x = x' := Option.some.inj (here.symm.trans here')
  exact Holder.subscriber.inj (Option.some.inj (head.symm.trans head'))

/-- An entry that is not retired is the registered one of its room as long as its window is open. -/
theorem Kept.current_of_open (h : r.Kept) (up : r.down = false) {e t : Nat} {x : Entry}
    {st : Stream} (here : r.entries[e]? = some x) (live : x.retired = false)
    (stream : x.stream = some t) (there : r.streams[t]? = some st)
    (running : st.room.isClosed = false) : r.entryOf? st.roomId = some e := by
  rw [h.owned.stream_roomId here (Entry.started_of_stream stream) there]
  refine ((h.intact up).current e x here).resolve_left (not_dead live fun t' stream' => ?_)
  obtain rfl := Option.some.inj (stream.symm.trans stream')
  exact ⟨st, there, running⟩

/-- Every reader that can still get an event belongs to the registered entry of its room. -/
theorem Kept.reading (h : r.Kept) (up : r.down = false) {t c : Nat} {st : Stream}
    (there : r.streams[t]? = some st) (running : st.room.isClosed = false)
    (reads : st.room.hasLeft c = false) :
    ∃ (e : Nat) (x : Entry), r.entries[e]? = some x ∧ x.stream = some t ∧
      r.entryOf? st.roomId = some e := by
  obtain ⟨e, x, here, started⟩ := h.owned.owner_of there
  have offered : ¬ (x.retired = true ∨ x.stream = none) := by
    intro withheld
    rw [(h.intact up).unread e t x st here withheld started there c] at reads
    cases reads
  obtain ⟨live, bare⟩ := not_or.1 offered
  obtain ⟨t', stream⟩ := Option.ne_none_iff_exists'.1 bare
  obtain rfl := Option.some.inj (started.symm.trans (Entry.started_of_stream stream))
  exact ⟨e, x, here, stream,
    h.current_of_open up here (Bool.eq_false_iff.2 live) stream there running⟩

/-- What stays so once entry `e` is retired: it keeps its stream, and nobody gets a reader from it
who had none. -/
structure Silent (r₀ : Registry) (e : Nat) (stream : Option Nat) (r : Registry) : Prop where
  retired : ∃ x, r.entries[e]? = some x ∧ x.retired = true ∧ x.stream = stream
  served : ∀ (i : Nat) (s : Subscriber) (h : Reader), r.subscribers[i]? = some s →
    s.phase = .done (.ok h) → stream = some h.stream →
    ∃ s₀, r₀.subscribers[i]? = some s₀ ∧ s₀.phase = .done (.ok h)

theorem Silent.move {r₀ : Registry} {e : Nat} {stream : Option Nat}
    (silent : r₀.Silent e stream r) (owned : r.Owned) (m : Move r a r') :
    r₀.Silent e stream r' := by
  obtain ⟨x, here, gone, same⟩ := silent.retired
  obtain ⟨x', here', goes⟩ := m.entry owned here
  obtain ⟨gone', same', _⟩ := goes.retired gone
  refine ⟨⟨x', here', gone', same'.trans same⟩, ?_⟩
  intro i s' g found serves from?
  obtain ⟨s, old, went⟩ | checking := m.subscriber_back owned found
  · cases went with
    | stay => exact silent.served i s' g old serves from?
    | turn q unserved =>
        rw [show q = .done (.ok g) from serves] at unserved
        cases unserved
    | serve there running offers =>
        -- The stream of a retired entry is offered by no other.
        obtain ⟨e₁, y, here₁, live, stream₁⟩ := offers
        obtain rfl := Except.ok.inj (Subscribing.done.inj serves)
        have mine : x'.stream = some _ := (same'.trans same).trans from?
        obtain rfl := (owned.move m).unshared e e₁ x' y _ here' here₁
          (Entry.started_of_stream mine) (Entry.started_of_stream stream₁)
        obtain rfl : x' = y := Option.some.inj (here'.symm.trans here₁)
        rw [gone'] at live
        cases live
    | leave | refuse => cases serves
  · rw [checking] at serves
    cases serves

theorem Owned.silent {r₀ : Registry} (owned : r₀.Owned) {e : Nat} {x : Entry}
    (here : r₀.entries[e]? = some x) (gone : x.retired = true) {more : List Action}
    (ran : r₀.run? more = some r) : r₀.Silent e x.stream r := by
  refine (Owned.run (fun _ owned silent m => silent.move owned m) owned ?_ ran).2
  exact ⟨⟨x, here, gone, rfl⟩, fun i s g found serves _ => ⟨s, found, serves⟩⟩

/-- The entry for which an action opens a feed. -/
def opens? (r : Registry) : Action → Option Nat
  | .watched i none => (r.subscribers[i]?).bind fun s =>
    match s.phase with
    | .watching e => some e
    | _ => none
  | _ => none

def opened (r : Registry) (acts : List Action) : List Nat := seen opens? r acts

def IsStarted (r : Registry) (e : Nat) : Prop :=
  ∃ x t, r.entries[e]? = some x ∧ x.started = some t

theorem IsStarted.move {e : Nat} (h : r.IsStarted e) (owned : r.Owned) (m : Move r a r') :
    r'.IsStarted e := by
  obtain ⟨x, t, here, started⟩ := h
  obtain ⟨x', here', goes⟩ := m.entry owned here
  exact ⟨x', t, here', goes.started started⟩

/-- A feed is opened only for an entry that has no stream, and then it has one. -/
theorem opens?_fresh (owned : r.Owned) {e : Nat} (opens : r.opens? a = some e)
    (did : r.perform? a = some r') : ¬ r.IsStarted e ∧ r'.IsStarted e := by
  unfold opens? at opens
  split at opens
  case h_2 => cases opens
  case h_1 i =>
    obtain ⟨s, found, opens⟩ := Option.bind_eq_some_iff.1 opens
    split at opens
    case h_2 => cases opens
    case h_1 phase =>
      obtain rfl := Option.some.inj opens
      obtain ⟨x, here, _, _, _, bare, idle⟩ := owned.watches found phase
      constructor
      · rintro ⟨y, t, here', started⟩
        obtain rfl : x = y := Option.some.inj (here.symm.trans here')
        rw [Entry.started, bare, idle] at started
        cases started
      · simp only [perform?, watched?, found, phase] at did
        obtain ⟨⟨store, feed⟩, _, rfl⟩ := Option.map_eq_some_iff.1 did
        refine ⟨_, r.streams.size, getElem?_modify_some.2 (.inr ⟨rfl, x, here, rfl⟩), ?_⟩
        rw [Entry.started, bare]
        rfl

/-- No feed has been opened twice for an entry. -/
theorem run?_openedOnce {capacity channelCapacity : Nat} {acts : List Action}
    (ran : (Registry.empty capacity channelCapacity).run? acts = some r) :
    Once r.IsStarted ((Registry.empty capacity channelCapacity).opened acts) :=
  run?_once (P := IsStarted) (fun owned started m => started.move owned m)
    (fun owned opens did => opens?_fresh owned opens did) ran

/-- No room is split in the state `r` to which a run leads. -/
structure Undivided (r₀ : Registry) (acts : List Action) (r : Registry) : Prop where
  /-- An entry from which anybody can get a reader is the registered one of its room. -/
  current : ∀ (e : Nat) (x : Entry), r.entries[e]? = some x → ¬ r.Dead x →
    r.entryOf? x.roomId = some e
  /-- An open reader of an open window belongs to the registered entry of its room. -/
  reading : ∀ (t c : Nat) (st : Stream), r.streams[t]? = some st → st.room.isClosed = false →
    st.room.hasLeft c = false → ∃ (e : Nat) (x : Entry), r.entries[e]? = some x ∧
      x.stream = some t ∧ r.entryOf? st.roomId = some e
  /-- Whatever happens later, nobody gets a reader from an entry that is retired. -/
  silent : ∀ (e : Nat) (x : Entry) (more : List Action) (r' : Registry),
    r.entries[e]? = some x → x.retired = true → r.run? more = some r' →
    r.Silent e x.stream r'
  /-- At most one feed has been opened for each entry. -/
  opened : (r₀.opened acts).Nodup
  /-- At most one subscriber of a room waits for a feed. -/
  single : ∀ (i j e e' : Nat) (s s' : Subscriber), r.subscribers[i]? = some s →
    r.subscribers[j]? = some s' → s.phase = .watching e → s'.phase = .watching e' →
    s.roomId = s'.roomId → i = j

/-- No run splits a room before a shutdown begins, whoever subscribes, gives up or reclaims in
whatever order, and whatever feeds fail, as long as the store refuses no feed as closed. -/
theorem run?_undivided {capacity channelCapacity : Nat} {acts : List Action}
    (ran : (Registry.empty capacity channelCapacity).run? acts = some r)
    (granted : ∀ i, Action.watched i (some .closed) ∉ acts) (up : r.down = false) :
    (Registry.empty capacity channelCapacity).Undivided acts r := by
  have kept := run?_kept ran granted
  constructor
  · intro e x here alive
    exact ((kept.intact up).current e x here).resolve_left alive
  · intro t c st there running reads
    exact kept.reading up there running reads
  · intro e x more r' here gone later
    exact kept.owned.silent here gone later
  · exact (run?_openedOnce ran).nodup
  · intro i j e e' s s' found found' phase phase' same
    exact kept.single up found found' phase phase' same

/-- A feed ends while its room has a reader. The next subscriber removes the entry, makes another
and opens another feed. -/
def replacement : List Action :=
  [.subscribe (.ofNat 7), .step (.subscriber 0), .step (.subscriber 0), .step (.subscriber 0),
    .step (.subscriber 0), .step (.subscriber 0), .watched 0 none, .step (.subscriber 0),
    .endFeed (.ofNat 7), .step (.puller 0), .step (.puller 0),
    .subscribe (.ofNat 7), .step (.subscriber 1), .step (.subscriber 1), .step (.subscriber 1),
    .step (.subscriber 1), .step (.subscriber 1), .step (.subscriber 1), .step (.subscriber 1),
    .step (.subscriber 1), .step (.subscriber 1), .step (.subscriber 1), .watched 1 none,
    .step (.subscriber 1)]

/-- The new entry is alive, so it is the registered one. -/
theorem run?_undivided_replacement : ∃ r x, (Registry.empty 2 1).run? replacement = some r ∧
    r.down = false ∧ r.entries[1]? = some x ∧ ¬ r.Dead x ∧ r.entryOf? x.roomId = some 1 ∧
    ((Registry.empty 2 1).opened replacement).Nodup := by
  have possible : ((Registry.empty 2 1).run? replacement).isSome = true := by decide +kernel
  obtain ⟨r, ran⟩ := Option.isSome_iff_exists.1 possible
  have granted : ∀ i, Action.watched i (some .closed) ∉ replacement := by simp [replacement]
  have facts : ((Registry.empty 2 1).run? replacement).map (fun r =>
      (r.down, r.entries[1]?.map fun x => (x.retired, x.stream),
        r.streams[1]?.map (·.room.isClosed))) =
      some (false, some (false, some 1), some false) := by decide +kernel
  rw [ran] at facts
  obtain ⟨up, entry, window⟩ : r.down = false ∧
      r.entries[1]?.map (fun x => (x.retired, x.stream)) = some (false, some 1) ∧
      r.streams[1]?.map (·.room.isClosed) = some false := by simpa using facts
  obtain ⟨x, here, same⟩ := Option.map_eq_some_iff.1 entry
  obtain ⟨live, stream⟩ := Prod.mk.inj same
  obtain ⟨st, there, running⟩ := Option.map_eq_some_iff.1 window
  have alive : ¬ r.Dead x := not_dead live fun t stream' => by
    obtain rfl := Option.some.inj (stream.symm.trans stream')
    exact ⟨st, there, running⟩
  have whole := run?_undivided ran granted up
  exact ⟨r, x, ran, up, here, alive, whole.current 1 x here alive, whole.opened⟩

end Roomcast.Registry

import Roomcast.Proofs.Closing

/-!
# Shutting down

A shutdown waits for the closers of the entries that it finds in the registry, and for those of the
entries that were reclaimed. But a subscriber that removes an entry gives it to nobody. When a
shutdown has ended, the feeds of such entries may still be open, and apart from those for which
another shutdown waits they are the only ones.
-/

namespace Roomcast.Registry

variable {r r' : Registry} {a : Action}

def Stopping.Fits (r : Registry) : Stopping → Prop
  | .starting => True
  | .draining => r.down = true
  | .closing _ | .taking => r.down = true ∧ r.registered = []
  | .joining _ | .done => r.down = true ∧ r.registered = [] ∧ r.reclaims = []

/-- Subscriptions stay forbidden. -/
theorem Move.down (m : Move r a r') (down : r.down = true) : r'.down = true := by
  cases m with
  | goDown => rfl
  | reclaim here may =>
      rw [reclaim_eq here may]
      exact down
  | _ => exact down

/-- Nothing gets into the registry once subscriptions are forbidden. -/
theorem Move.registered_nil (m : Move r a r') (down : r.down = true) (none : r.registered = []) :
    r'.registered = [] := by
  cases m with
  | create found phase up =>
      rw [down] at up
      cases up
  | remove found phase current =>
      rw [entryOf?, none] at current
      cases current
  | reclaim here may =>
      obtain ⟨current, _⟩ := (reclaimable_iff here).1 may
      rw [entryOf?, none] at current
      cases current
  | drain => rfl
  | _ => exact none

/-- No entry is reclaimed once the registry is empty. -/
theorem Move.reclaims_nil (m : Move r a r') (none : r.registered = []) (taken : r.reclaims = []) :
    r'.reclaims = [] := by
  cases m with
  | reclaim here may =>
      obtain ⟨current, _⟩ := (reclaimable_iff here).1 may
      rw [entryOf?, none] at current
      cases current
  | take => rfl
  | _ => exact taken

theorem Stopping.Fits.move {p : Stopping} (fits : p.Fits r) (m : Move r a r') : p.Fits r' := by
  cases p with
  | starting => trivial
  | draining => exact m.down fits
  | closing | taking => exact ⟨m.down fits.1, m.registered_nil fits.1 fits.2⟩
  | joining | done =>
      exact ⟨m.down fits.1, m.registered_nil fits.1 fits.2.1, m.reclaims_nil fits.2.1 fits.2.2⟩

/-- A shutdown is where it was, or its move has brought about what its phase says. -/
theorem Move.stopping (m : Move r a r') (fit : ∀ (k : Nat) (p : Stopping),
    r.shutdowns[k]? = some p → p.Fits r) {k : Nat} {p : Stopping}
    (found : r'.shutdowns[k]? = some p) : r.shutdowns[k]? = some p ∨ p.Fits r' := by
  cases m with
  | shutdown =>
      obtain old | ⟨_, rfl⟩ := getElem?_push_some.1 found
      · exact .inl old
      · exact .inr trivial
  | goDown =>
      obtain ⟨_, old⟩ | ⟨_, _, _, rfl⟩ := getElem?_modify_some.1 found
      · exact .inl old
      · exact .inr rfl
  | drain phase =>
      obtain ⟨_, old⟩ | ⟨_, _, _, rfl⟩ := getElem?_modify_some.1 found
      · exact .inl old
      · exact .inr ⟨fit _ _ phase, rfl⟩
  | drained phase | stop phase =>
      obtain ⟨_, old⟩ | ⟨_, _, _, rfl⟩ := getElem?_modify_some.1 found
      · exact .inl old
      · exact .inr (fit _ _ phase)
  | take phase =>
      obtain ⟨_, old⟩ | ⟨_, _, _, rfl⟩ := getElem?_modify_some.1 found
      · exact .inl old
      · obtain ⟨down, none⟩ : Stopping.Fits r .taking := fit _ _ phase
        exact .inr ⟨down, none, rfl⟩
  | reclaim here may =>
      rw [reclaim_eq here may] at found
      exact .inl found
  | _ => exact .inl found

/-- A shutdown goes on waiting for a closer until that is done. -/
theorem Move.waitsFor (m : Move r a r') {j k : Nat} {p : Stopping}
    (found : r.shutdowns[k]? = some p) (among : j ∈ p.waitsFor) :
    (∃ p', r'.shutdowns[k]? = some p' ∧ j ∈ p'.waitsFor) ∨ r.closerDone j = true := by
  have turn : ∀ {k₁ : Nat} {p₁ : Stopping} (q : Stopping), r.shutdowns[k₁]? = some p₁ →
      (j ∈ p₁.waitsFor → r.closerDone j = true) →
      (∃ p', (r.shutdowns.modify k₁ fun _ => q)[k]? = some p' ∧ j ∈ p'.waitsFor) ∨
        r.closerDone j = true := by
    intro k₁ p₁ q found₁ left
    by_cases here : k₁ = k
    · subst here
      obtain rfl : p = p₁ := Option.some.inj (found.symm.trans found₁)
      exact .inr (left among)
    · exact .inl ⟨p, getElem?_modify_some.2 (.inl ⟨here, found⟩), among⟩
  cases m with
  | shutdown => exact .inl ⟨p, getElem?_push_some.2 (.inl found), among⟩
  | goDown found₁ | drain found₁ | take found₁ =>
      exact turn _ found₁ fun none => absurd none (List.not_mem_nil)
  | drained found₁ all | stop found₁ all => exact turn _ found₁ (List.all_eq_true.1 all j)
  | reclaim here may =>
      rw [reclaim_eq here may]
      exact .inl ⟨p, found, among⟩
  | _ => exact .inl ⟨p, found, among⟩

/-- Somebody goes on waiting for a closer until that is done. -/
theorem Move.awaits (m : Move r a r') {j : Nat} (waits : r.Awaits j) :
    r'.Awaits j ∨ r.closerDone j = true := by
  obtain ⟨k, p, found, among⟩ := waits
  refine (m.waitsFor found among).imp_left ?_
  rintro ⟨p', found', among'⟩
  exact ⟨k, p', found', among'⟩

/-- A closer of a reclaimed entry is left there until a shutdown waits for it. -/
theorem Move.reclaims (m : Move r a r') {j : Nat} (among : j ∈ r.reclaims) :
    j ∈ r'.reclaims ∨ r'.Awaits j := by
  cases m with
  | @take a k found =>
      exact .inr ⟨k, _, getElem?_modify_some.2 (.inr ⟨rfl, _, found, rfl⟩), among⟩
  | reclaim here may =>
      rw [reclaim_eq here may]
      exact .inl (List.mem_append_left _ among)
  | _ => exact .inl among

/-- Each shutdown has brought about what its phase says, and no closer is forgotten. -/
structure Attended (r : Registry) : Prop where
  fit : ∀ (k : Nat) (p : Stopping), r.shutdowns[k]? = some p → p.Fits r
  awaited : ∀ (j : Nat) (c : Closer), r.closers[j]? = some c →
    c.phase = .done ∨ j ∈ r.reclaims ∨ r.Awaits j

theorem empty_attended (capacity channelCapacity : Nat) :
    (Registry.empty capacity channelCapacity).Attended := by
  constructor <;> simp [Registry.empty]

theorem closerDone_iff {j : Nat} {c : Closer} (found : r.closers[j]? = some c) :
    r.closerDone j = true ↔ c.phase = .done := by
  obtain ⟨e, phase⟩ := c
  rw [closerDone, found]
  cases phase <;> simp

theorem Attended.move (h : r.Attended) (owned : r.Owned) (m : Move r a r') : r'.Attended := by
  constructor
  · intro k p found
    obtain old | fits := m.stopping h.fit found
    · exact (h.fit k p old).move m
    · exact fits
  · intro j c' found
    obtain ⟨c, old, goes⟩ | new := m.closer_back found
    · obtain done | among | waits := h.awaited j c old
      · exact .inl (goes.done done)
      · exact .inr (m.reclaims among)
      · obtain waits' | done := m.awaits waits
        · exact .inr (.inr waits')
        · exact .inl (goes.done ((closerDone_iff old).1 done))
    · obtain ⟨_, _, _, _, waits⟩ := m.closer_new owned new found
      exact .inr (waits.imp_left And.left)

/-- The entry that an action takes out of the registry without a closer. -/
def removes? (r : Registry) : Action → Option Nat
  | .step (.subscriber i) => (r.subscribers[i]?).bind fun s =>
    match s.phase with
    | .removing e => if r.entryOf? s.roomId = some e then some e else none
    | _ => none
  | _ => none

def removed (r : Registry) (acts : List Action) : List Nat := seen removes? r acts

/-- Every entry is in the registry, or has a closer, or is one of these. -/
def Accounted (r : Registry) (gone : List Nat) : Prop :=
  ∀ (e : Nat) (x : Entry), r.entries[e]? = some x →
    r.entryOf? x.roomId = some e ∨
      (∃ (j : Nat) (c : Closer), r.closers[j]? = some c ∧ c.entry = e) ∨ e ∈ gone

/-- An entry stays in the registry until it has a closer or a subscriber removes it. -/
theorem Move.leaves (m : Move r a r') {e : Nat} {room : Uuid}
    (current : r.entryOf? room = some e) :
    r'.entryOf? room = some e ∨ (∃ (j : Nat) (c : Closer), r'.closers[j]? = some c ∧ c.entry = e) ∨
      r.removes? a = some e := by
  cases m with
  | @create i s found phase up none =>
      refine .inl ((entryOf?_register r s.roomId room).trans ?_)
      rw [if_neg, current]
      rintro rfl
      rw [none] at current
      cases current
  | @remove i e' s found phase here =>
      by_cases same : room = s.roomId
      · subst same
        obtain rfl : e' = e := Option.some.inj (here.symm.trans current)
        exact .inr (.inr (by simp [removes?, found, phase, here]))
      · exact .inl ((entryOf?_unregister r s.roomId room).trans (by rw [if_neg same, current]))
  | @reclaim a e' x here may =>
      rw [reclaim_eq here may]
      obtain ⟨current', _⟩ := (reclaimable_iff here).1 may
      by_cases same : room = x.roomId
      · subst same
        obtain rfl : e' = e := Option.some.inj (current'.symm.trans current)
        exact .inr (.inl ⟨_, _, (addClosers_some _ [e']).2 (.inr ⟨0, e', rfl, rfl, rfl⟩), rfl⟩)
      · exact .inl ((entryOf?_unregister r x.roomId room).trans (by rw [if_neg same, current]))
  | drain =>
      have listed : e ∈ r.registered.map (·.2) :=
        List.mem_map.2 ⟨(room, e), mem_of_entryOf? current, rfl⟩
      obtain ⟨n, there⟩ := List.mem_iff_getElem?.1 listed
      exact .inr (.inl ⟨_, _, (addClosers_some _ _).2 (.inr ⟨n, e, rfl, there, rfl⟩), rfl⟩)
  | _ => exact .inl current

theorem Accounted.move {gone : List Nat} (h : r.Accounted gone) (owned : r.Owned)
    (m : Move r a r') : r'.Accounted (gone ++ (r.removes? a).toList) := by
  intro e x' here
  obtain ⟨x, was, goes⟩ | ⟨_, _, current, _⟩ := m.entry_back owned here
  · obtain current | ⟨j, c, found, same⟩ | left := h e x was
    · rw [goes.roomId]
      obtain current' | closes | removes := m.leaves current
      · exact .inl current'
      · exact .inr (.inl closes)
      · exact .inr (.inr (List.mem_append_right _ (by simp [removes])))
    · obtain ⟨c', found', goes'⟩ := m.closer found
      exact .inr (.inl ⟨j, c', found', goes'.entry.trans same⟩)
    · exact .inr (.inr (List.mem_append_left _ left))
  · exact .inl current

/-- The puller of a stream has ended and its feed is closed. -/
def Stream.IsShut (st : Stream) : Prop := st.puller = .ended ∧ st.feed.closed = true

/-- A puller that has ended has closed its feed. -/
def Shuts (r : Registry) : Prop :=
  ∀ (t : Nat) (st : Stream), r.streams[t]? = some st → st.puller = .ended → st.IsShut

theorem Shuts.move (h : r.Shuts) (owned : r.Owned) (m : Move r a r') : r'.Shuts := by
  intro t st' there ended
  obtain ⟨st, old, goes⟩ | ⟨_, room, feed, rfl⟩ := m.stream_back owned there
  · have was := h t st old
    cases goes with
    | stay => exact was ended
    | join | perform | fault => exact ⟨ended, (was ended).2⟩
    | close => exact ⟨rfl, rfl⟩
    | pull went => cases went <;> simp_all
  · cases ended

/-- What a run brings about. -/
structure Closes (r : Registry) (gone : List Nat) : Prop where
  owned : r.Owned
  tended : r.Tended
  attended : r.Attended
  shuts : r.Shuts
  accounted : r.Accounted gone

theorem Closes.move {gone : List Nat} (h : r.Closes gone) (m : Move r a r') :
    r'.Closes (gone ++ (r.removes? a).toList) where
  owned := h.owned.move m
  tended := h.tended.move h.owned m
  attended := h.attended.move h.owned m
  shuts := h.shuts.move h.owned m
  accounted := h.accounted.move h.owned m

theorem run?_closes {capacity channelCapacity : Nat} {acts : List Action}
    (ran : (Registry.empty capacity channelCapacity).run? acts = some r) :
    r.Closes ((Registry.empty capacity channelCapacity).removed acts) := by
  refine run?_account (fun r i => rfl) (fun _ h m => h.move m) ?_ ran
  refine ⟨empty_owned _ _, empty_tended _ _, empty_attended _ _, ?_, ?_⟩
  · intro t st there
    simp [Registry.empty] at there
  · intro e x here
    simp [Registry.empty] at here

theorem shutdownDone_iff {k : Nat} : r.shutdownDone k = true ↔ r.shutdowns[k]? = some .done := by
  rw [shutdownDone]
  cases r.shutdowns[k]? with
  | none => simp
  | some p => cases p <;> simp

/-- When a shutdown has ended, a stream may go on only if a subscriber has removed its entry, or if
another shutdown still waits for its closer. -/
theorem Closes.shut {gone : List Nat} (h : r.Closes gone)
    (calm : ∀ (t : Nat) (st : Stream), r.streams[t]? = some st → st.puller ≠ .crashed) {k : Nat}
    (ended : r.shutdowns[k]? = some .done) {e t : Nat} {x : Entry} {st : Stream}
    (here : r.entries[e]? = some x) (started : x.started = some t)
    (there : r.streams[t]? = some st) :
    st.IsShut ∨ e ∈ gone ∨
      ∃ (j : Nat) (c : Closer), r.closers[j]? = some c ∧ c.entry = e ∧ r.Awaits j := by
  obtain ⟨_, cleared, taken⟩ : Stopping.Fits r .done := h.attended.fit k _ ended
  obtain current | ⟨j, c, found, rfl⟩ | left := h.accounted e x here
  · rw [entryOf?, cleared] at current
    cases current
  · obtain done | among | waits := h.attended.awaited j c found
    · have took := h.tended.took j c x found here
      rw [done] at took
      obtain ⟨_, none, joined⟩ := took
      rw [Entry.started, none, Option.or_none] at started
      obtain ⟨st', there', phase⟩ := pullerEnded_iff.1 (joined t started)
      obtain rfl : st = st' := Option.some.inj (there.symm.trans there')
      exact .inl (h.shuts t st there (phase.resolve_right (calm t st there)))
    · rw [taken] at among
      cases among
    · exact .inr (.inr ⟨j, c, found, rfl, waits⟩)
  · exact .inr (.inl left)

/-- When a shutdown has ended, every puller has ended and every feed is closed if and only if this
is so for the entries that subscribers have removed and for those whose closers another shutdown
still waits for. -/
theorem shutdown_closes_iff {capacity channelCapacity : Nat} {acts : List Action}
    (ran : (Registry.empty capacity channelCapacity).run? acts = some r)
    (calm : ∀ room, Action.fault room .crash ∉ acts) {k : Nat}
    (ended : r.shutdowns[k]? = some .done) :
    (∀ (t : Nat) (st : Stream), r.streams[t]? = some st → st.IsShut) ↔
      ∀ (e t : Nat) (x : Entry) (st : Stream), r.entries[e]? = some x → x.started = some t →
        r.streams[t]? = some st →
        (e ∈ (Registry.empty capacity channelCapacity).removed acts ∨
          ∃ (j : Nat) (c : Closer), r.closers[j]? = some c ∧ c.entry = e ∧ r.Awaits j) →
        st.IsShut := by
  have closes := run?_closes ran
  obtain ⟨l, history⟩ := run?_history ran calm
  constructor
  · intro all e t x st _ _ there _
    exact all t st there
  · intro left t st there
    obtain ⟨e, x, here, started⟩ := closes.owned.owner_of there
    have whole : ∀ (t : Nat) (st : Stream), r.streams[t]? = some st → st.puller ≠ .crashed :=
      fun t st there => (history.describes.fed t st there).whole.2
    obtain shut | others := closes.shut whole ended here started there
    · exact shut
    · exact left e t x st here started there others

/-- A subscriber has a reader, and a shutdown closes the feed. -/
def oneShutdown : List Action :=
  [.subscribe (.ofNat 7), .step (.subscriber 0), .step (.subscriber 0), .step (.subscriber 0),
    .step (.subscriber 0), .step (.subscriber 0), .watched 0 none, .step (.subscriber 0),
    .shutdown, .step (.shutdown 0), .step (.shutdown 0), .step (.closer 0), .step (.closer 0),
    .step (.closer 0), .step (.puller 0), .step (.puller 0), .feedClosed 0, .step (.closer 0),
    .step (.shutdown 0), .step (.shutdown 0), .step (.shutdown 0)]

/-- Nobody has removed an entry and nobody waits any more, so the feed is closed. -/
theorem shutdown_closes_one : ∃ r st, (Registry.empty 2 1).run? oneShutdown = some r ∧
    r.shutdowns[0]? = some .done ∧ r.streams[0]? = some st ∧ st.IsShut := by
  have possible : ((Registry.empty 2 1).run? oneShutdown).isSome = true := by decide +kernel
  obtain ⟨r, ran⟩ := Option.isSome_iff_exists.1 possible
  have calm : ∀ room, Action.fault room .crash ∉ oneShutdown := by simp [oneShutdown]
  have facts : ((Registry.empty 2 1).run? oneShutdown).map (fun r =>
      (r.shutdowns.size, r.shutdownDone 0, r.streams.size)) = some (1, true, 1) := by
    decide +kernel
  have none : (Registry.empty 2 1).removed oneShutdown = [] := by decide +kernel
  rw [ran] at facts
  obtain ⟨shutdowns, ended, streams⟩ : r.shutdowns.size = 1 ∧ r.shutdownDone 0 = true ∧
      r.streams.size = 1 := by simpa using facts
  have last := shutdownDone_iff.1 ended
  have there : r.streams[0]? = some r.streams[0] := Array.getElem?_eq_getElem (by omega)
  refine ⟨r, _, ran, last, there, (shutdown_closes_iff ran calm last).2 ?_ 0 _ there⟩
  intro e t x st _ _ _ others
  obtain left | ⟨j, c, _, _, k, p, found, among⟩ := others
  · rw [none] at left
    cases left
  · have first := lt_size_of_getElem? found
    obtain rfl : k = 0 := by omega
    obtain rfl := Option.some.inj (found.symm.trans last)
    cases among

/-- A feed ends while its room has a reader. The next subscriber removes the entry, whose feed takes
its time to close, and cannot open another feed. Then a shutdown ends. -/
def slowFeed : List Action :=
  [.subscribe (.ofNat 7), .step (.subscriber 0), .step (.subscriber 0), .step (.subscriber 0),
    .step (.subscriber 0), .step (.subscriber 0), .watched 0 none, .step (.subscriber 0),
    .endFeed (.ofNat 7), .step (.puller 0), .step (.puller 0),
    .subscribe (.ofNat 7), .step (.subscriber 1), .step (.subscriber 1), .step (.subscriber 1),
    .step (.subscriber 1), .step (.subscriber 1), .step (.subscriber 1), .step (.subscriber 1),
    .step (.subscriber 1), .step (.subscriber 1), .step (.subscriber 1),
    .watched 1 (some (.feed "store unavailable")),
    .shutdown, .step (.shutdown 0), .step (.shutdown 0), .step (.closer 0), .step (.closer 0),
    .step (.closer 0), .step (.closer 0), .step (.shutdown 0), .step (.shutdown 0),
    .step (.shutdown 0)]

/-- The shutdown has ended, but the puller has not, and the feed is still open. -/
theorem shutdown_leaves_feed_open : ∃ r st, (Registry.empty 2 1).run? slowFeed = some r ∧
    (∀ room, Action.fault room .crash ∉ slowFeed) ∧ r.shutdowns[0]? = some .done ∧
    r.streams[0]? = some st ∧ r.pullerEnded 0 = false ∧ st.feed.closed = false := by
  have possible : ((Registry.empty 2 1).run? slowFeed).isSome = true := by decide +kernel
  obtain ⟨r, ran⟩ := Option.isSome_iff_exists.1 possible
  have facts : ((Registry.empty 2 1).run? slowFeed).map (fun r =>
      (r.shutdownDone 0, r.pullerEnded 0, r.streams[0]?.map (·.feed.closed))) =
      some (true, false, some false) := by
    decide +kernel
  rw [ran] at facts
  obtain ⟨ended, pulls, feed⟩ : r.shutdownDone 0 = true ∧ r.pullerEnded 0 = false ∧
      r.streams[0]?.map (·.feed.closed) = some false := by simpa using facts
  obtain ⟨st, there, left⟩ := Option.map_eq_some_iff.1 feed
  exact ⟨r, st, ran, by simp [slowFeed], shutdownDone_iff.1 ended, there, pulls, left⟩

end Roomcast.Registry

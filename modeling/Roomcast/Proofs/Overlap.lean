import Roomcast.Proofs.SingleRoom

/-!
# Overlapping shutdowns

A shutdown takes all entries out of the registry, and all closers of reclaimed entries, before it
waits for them. Another shutdown that comes while the first one waits finds nothing, and ends at
once. So what a call of a shutdown says when it returns is only about the entries that it has taken
itself: those are finished. Any other entry that was registered before may still be closing, either
because another shutdown waits for its closer or because a subscriber has removed it.
-/

namespace Roomcast.Registry

variable {r r' : Registry} {a : Action}

/-- An entry hands out no more readers, its window is closed and its puller has ended. -/
def IsFinished (r : Registry) (e : Nat) : Prop :=
  ∃ x, r.entries[e]? = some x ∧ x.retired = true ∧
    ∀ t, x.started = some t → r.pullerEnded t = true ∧
      ∀ st, r.streams[t]? = some st → st.room.isClosed = true

/-- An entry is finished once its closer has ended. -/
theorem Books.isFinished (h : r.Books) {j : Nat} {c : Closer} (found : r.closers[j]? = some c)
    (done : c.phase = .done) : r.IsFinished c.entry := by
  obtain ⟨inside, _⟩ := h.tended.assigned j c found
  have here := Array.getElem?_eq_getElem inside
  have closed : c.phase.hasClosed = true := by rw [done]; rfl
  have took := h.tended.took j c _ found here
  refine ⟨_, here, took.retired closed, fun t started => ?_⟩
  have stream := took.stream closed started
  rw [done] at took
  obtain ⟨_, _, ended⟩ := took
  exact ⟨ended t stream, fun st there => h.sealed.closed j t c _ st found closed here stream there⟩

/-- A shutdown waits for the closer of an entry, or that has ended. -/
def HasTaken (r : Registry) (k e : Nat) : Prop :=
  ∃ (j : Nat) (c : Closer), r.closers[j]? = some c ∧ c.entry = e ∧
    (c.phase = .done ∨ ∃ p, r.shutdowns[k]? = some p ∧ j ∈ p.waitsFor)

theorem HasTaken.move {k e : Nat} (taken : r.HasTaken k e) (m : Move r a r') : r'.HasTaken k e := by
  obtain ⟨j, c, found, same, state⟩ := taken
  obtain ⟨c', found', goes⟩ := m.closer found
  refine ⟨j, c', found', goes.entry.trans same, ?_⟩
  obtain done | ⟨p, waits, among⟩ := state
  · exact .inl (goes.done done)
  · obtain waits' | done := m.waitsFor waits among
    · exact .inr waits'
    · exact .inl (goes.done ((closerDone_iff found).1 done))

/-- A shutdown that drains the registry takes every entry that it finds there. -/
theorem hasTaken_of_drain {k e : Nat} {room : Uuid} (draining : r.shutdowns[k]? = some .draining)
    (current : r.entryOf? room = some e) (did : r.perform? (.step (.shutdown k)) = some r') :
    r'.HasTaken k e := by
  simp only [perform?, step?, stepShutdown?, draining, Option.some.injEq] at did
  subst did
  have listed : e ∈ r.registered.map (·.2) :=
    List.mem_map.2 ⟨(room, e), mem_of_entryOf? current, rfl⟩
  obtain ⟨n, there⟩ := List.mem_iff_getElem?.1 listed
  have inside := (List.getElem?_eq_some_iff.1 there).1
  refine ⟨r.closers.size + n, ⟨e, .arriving⟩,
    (addClosers_some _ _).2 (.inr ⟨n, e, rfl, there, rfl⟩), rfl, .inr ⟨.closing
      ((List.range (r.registered.map (·.2)).length).map (r.closers.size + ·)), ?_, ?_⟩⟩
  · exact getElem?_modify_some.2 (.inr ⟨rfl, _, draining, rfl⟩)
  · exact List.mem_map.2 ⟨n, List.mem_range.2 inside, rfl⟩

/-- What a shutdown has taken is finished when it ends. -/
theorem Books.finished_of_taken (h : r.Books) {k e : Nat} (taken : r.HasTaken k e)
    (ended : r.shutdowns[k]? = some .done) : r.IsFinished e := by
  obtain ⟨j, c, found, rfl, done | ⟨p, waits, among⟩⟩ := taken
  · exact h.isFinished found done
  · obtain rfl := Option.some.inj (ended.symm.trans waits)
    cases among

/-- A shutdown other than `k` waits for the closer of an entry. -/
def IsAwaitedBeside (r : Registry) (k e : Nat) : Prop :=
  ∃ (j k' : Nat) (c : Closer) (p : Stopping), r.closers[j]? = some c ∧ c.entry = e ∧
    c.phase ≠ .done ∧ k' ≠ k ∧ r.shutdowns[k']? = some p ∧ j ∈ p.waitsFor

/-- When a shutdown has ended, an entry that is not finished has been removed by a subscriber, or
another shutdown still waits for its closer. -/
theorem Books.finished_or (h : r.Books) {gone : List Nat} (accounted : r.Accounted gone) {k e : Nat}
    {x : Entry} (ended : r.shutdowns[k]? = some .done) (here : r.entries[e]? = some x) :
    r.IsFinished e ∨ e ∈ gone ∨ r.IsAwaitedBeside k e := by
  obtain ⟨_, cleared, taken⟩ : Stopping.Fits r .done := h.attended.fit k _ ended
  obtain current | ⟨j, c, found, rfl⟩ | left := accounted e x here
  · rw [entryOf?, cleared] at current
    cases current
  · by_cases done : c.phase = .done
    · exact .inl (h.isFinished found done)
    obtain among | ⟨k', p, waits, among⟩ := (h.attended.awaited j c found).resolve_left done
    · rw [taken] at among
      cases among
    · refine .inr (.inr ⟨j, k', c, p, found, rfl, done, ?_, waits, among⟩)
      rintro rfl
      obtain rfl := Option.some.inj (ended.symm.trans waits)
      cases among
  · exact .inr (.inl left)

/-- What is true of the entries that have been registered in a run when shutdown `k` has ended. -/
structure Overlapped (r₀ : Registry) (acts : List Action) (r : Registry) (k : Nat) : Prop where
  /-- What the shutdown has taken out of the registry itself is finished. -/
  own : ∀ (before after : List Action) (r₁ : Registry) (room : Uuid) (e : Nat),
    acts = before ++ .step (.shutdown k) :: after → r₀.run? before = some r₁ →
    r₁.shutdowns[k]? = some .draining → r₁.entryOf? room = some e → r.IsFinished e
  /-- What was registered at any time is finished, unless a subscriber has removed it or another
  shutdown still waits for its closer. -/
  others : ∀ (r₁ : Registry) (room : Uuid) (e : Nat), r₀.Passes acts r₁ →
    r₁.entryOf? room = some e →
    r.IsFinished e ∨ e ∈ r₀.removed acts ∨ r.IsAwaitedBeside k e

/-- However many shutdowns overlap, each one that has ended has waited for what it has taken, and
leaves unfinished only what others have taken or a subscriber has removed. -/
theorem run?_overlapped {capacity channelCapacity : Nat} {acts : List Action}
    (ran : (Registry.empty capacity channelCapacity).run? acts = some r) {k : Nat}
    (ended : r.shutdowns[k]? = some .done) :
    (Registry.empty capacity channelCapacity).Overlapped acts r k := by
  have books := run?_books ran
  constructor
  · rintro before after r₁ room e rfl reached draining current
    rw [run?_append, reached, Option.bind_some] at ran
    obtain ⟨r₂, did, later⟩ := Option.bind_eq_some_iff.1 ran
    have taken := hasTaken_of_drain draining current did
    have owned := (run?_owned reached).perform did
    have kept := (owned.run (P := fun r => r.HasTaken k e)
      (fun _ _ taken m => taken.move m) taken later).2
    exact books.finished_of_taken kept ended
  · rintro r₁ room e ⟨before, ⟨after, rfl⟩, reached⟩ current
    have accounted := (run?_closes ran).accounted
    rw [run?_append, reached] at ran
    have owned := run?_owned reached
    obtain ⟨x, here, _⟩ := owned.entry_of_current current
    have stays := (owned.run (P := fun r => ∃ x, r.entries[e]? = some x)
      (fun _ owned known m => by
        obtain ⟨x, here⟩ := known
        obtain ⟨x', here', _⟩ := m.entry owned here
        exact ⟨x', here'⟩) ⟨x, here⟩ ran).2
    obtain ⟨x', here'⟩ := stays
    exact books.finished_or accounted ended here'

def oneReader : List Action :=
  [.subscribe (.ofNat 7), .step (.subscriber 0), .step (.subscriber 0), .step (.subscriber 0),
    .step (.subscriber 0), .step (.subscriber 0), .watched 0 none, .step (.subscriber 0)]

/-- A shutdown waits for a feed that takes its time to close, while another one comes and goes. -/
def overtaking : List Action :=
  [.shutdown, .step (.shutdown 0), .step (.shutdown 0), .step (.closer 0), .step (.closer 0),
    .step (.closer 0), .step (.puller 0), .step (.puller 0),
    .shutdown, .step (.shutdown 1), .step (.shutdown 1), .step (.shutdown 1), .step (.shutdown 1),
    .step (.shutdown 1)]

/-- The feed closes, and the shutdown that has waited for it ends. -/
def catchingUp : List Action :=
  [.feedClosed 0, .step (.closer 0), .step (.shutdown 0), .step (.shutdown 0), .step (.shutdown 0)]

/-- Whether it is about to take all entries out of the registry. -/
def Stopping.isDraining : Stopping → Bool
  | .draining => true
  | _ => false

theorem Stopping.eq_draining {p : Stopping} (draining : p.isDraining = true) : p = .draining := by
  cases p with
  | draining => rfl
  | _ => cases draining

/-- The shutdown that has taken the entry of the room has ended, so the entry is finished. -/
theorem run?_overlapped_last :
    ∃ r, (Registry.empty 2 1).run? (oneReader ++ overtaking ++ catchingUp) = some r ∧
      r.shutdowns[0]? = some .done ∧ r.IsFinished 0 := by
  have possible :
      ((Registry.empty 2 1).run? (oneReader ++ overtaking ++ catchingUp)).isSome = true := by
    decide +kernel
  obtain ⟨r, ran⟩ := Option.isSome_iff_exists.1 possible
  have facts : ((Registry.empty 2 1).run? (oneReader ++ overtaking ++ catchingUp)).map
      (·.shutdownDone 0) = some true := by decide +kernel
  rw [ran] at facts
  have last := shutdownDone_iff.1 (Option.some.inj facts)
  -- The state in which the first shutdown drains the registry.
  have before : ((Registry.empty 2 1).run? (oneReader ++ overtaking.take 2)).isSome = true := by
    decide +kernel
  obtain ⟨r₁, reached⟩ := Option.isSome_iff_exists.1 before
  have there : ((Registry.empty 2 1).run? (oneReader ++ overtaking.take 2)).map (fun r =>
      (r.shutdowns[0]?.any (·.isDraining), r.entryOf? (.ofNat 7))) =
      some (true, some 0) := by decide +kernel
  rw [reached] at there
  obtain ⟨phase, current⟩ := Prod.mk.inj (Option.some.inj there)
  have draining : r₁.shutdowns[0]? = some .draining := by
    obtain ⟨p, found, phase⟩ := (Option.any_eq_true _ _).1 phase
    rw [found, Stopping.eq_draining phase]
  exact ⟨r, ran, last, (run?_overlapped ran last).own _ _ r₁ _ 0 rfl reached draining current⟩

/-- The second shutdown has ended, but the room that was registered when the first one began is not
finished: its puller has not ended. -/
theorem shutdown_overtakes : ∃ r₁ r, (Registry.empty 2 1).run? oneReader = some r₁ ∧
    r₁.run? overtaking = some r ∧ r₁.entryOf? (.ofNat 7) = some 0 ∧
    r.shutdowns[1]? = some .done ∧ r.pullerEnded 0 = false ∧ ¬ r.IsFinished 0 := by
  have possible : ((Registry.empty 2 1).run? oneReader).isSome = true := by decide +kernel
  obtain ⟨r₁, reached⟩ := Option.isSome_iff_exists.1 possible
  have facts : ((Registry.empty 2 1).run? oneReader).map (fun r₁ =>
      (r₁.entryOf? (.ofNat 7), (r₁.run? overtaking).map fun r =>
        (r.shutdownDone 1, r.pullerEnded 0, r.entries[0]?.map (·.started)))) =
      some (some 0, some (true, false, some (some 0))) := by decide +kernel
  rw [reached] at facts
  obtain ⟨current, later⟩ := Prod.mk.inj (Option.some.inj facts)
  obtain ⟨r, ran, facts⟩ := Option.map_eq_some_iff.1 later
  obtain ⟨ended, pulls, started⟩ : r.shutdownDone 1 = true ∧ r.pullerEnded 0 = false ∧
      r.entries[0]?.map (·.started) = some (some 0) := by simpa using facts
  refine ⟨r₁, r, reached, ran, current, shutdownDone_iff.1 ended, pulls, ?_⟩
  rintro ⟨x, here, _, finished⟩
  rw [here] at started
  rw [(finished 0 (Option.some.inj started)).1] at pulls
  cases pulls

end Roomcast.Registry

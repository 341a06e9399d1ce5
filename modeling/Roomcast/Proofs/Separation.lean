import Roomcast.Proofs.Unaided
import Roomcast.Proofs.Unhindered

/-!
# Rooms do not disturb each other

Rooms share the registry, the store and the collectors, but an action for one room leaves whatever
belongs to another as it is. So nobody waits for a room that is not its own, and a subscriber gets
its answer by what its own room does. As long as the store opens or closes a feed of one room,
others can do just what they could do if it were over, and they get the same results: whoever
subscribes elsewhere, whoever reads elsewhere, and collectors, which pass by the entry that is
locked and deal with all others.
-/

namespace Roomcast.Registry

variable {r r₁ r' r₁' : Registry} {a a₁ : Action} {room other : Uuid} {g : Reader}

/-- The same action, or a step of a closer: closers may have other numbers elsewhere. -/
inductive Action.Like : Action → Action → Prop
  | same (a : Action) : Like a a
  | closer (j j₁ : Nat) : Like (.step (.closer j)) (.step (.closer j₁))

/-- Whether an action is a step of a shutdown, which concerns all rooms. -/
def Action.shuts : Action → Bool
  | .step (.shutdown _) => true
  | _ => false

def Action.calls : Action → Bool
  | .subscribe _ => true
  | _ => false

/-- Whether an action is done for a room, and is no call of a new subscriber of it. -/
def ActsFor (room : Uuid) (r : Registry) (a : Action) : Prop :=
  r.concern? a = some room ∧ a.calls = false

instance (room : Uuid) (r : Registry) (a : Action) : Decidable (r.ActsFor room a) :=
  inferInstanceAs (Decidable (_ ∧ _))

def told? (r : Registry) (g : Reader) : Action → Option (Option (Except StreamError Event))
  | .poll g' cancelled => if g' = g then some (r.poll g cancelled).2 else none
  | .resume g' => if g' = g then some (r.resume g).2 else none
  | _ => none

theorem concern?_use {op : Room.Op Event} (used : a.use? = some (g, op)) :
    r.concern? a = (r.streams[g.stream]?).map (·.roomId) := by
  cases a <;> cases used <;> rfl

/-- No action for a room tells a reader of another room anything. -/
theorem told?_of_concern? (own : r.concern? a = some room)
    (elsewhere : ∀ st, r.streams[g.stream]? = some st → st.roomId ≠ room) : r.told? g a = none := by
  have other : ∀ {g' : Reader} {op : Room.Op Event}, a.use? = some (g', op) → g' ≠ g := by
    rintro g' op used rfl
    rw [concern?_use used] at own
    obtain ⟨st, there, same⟩ := Option.map_eq_some_iff.1 own
    exact elsewhere st there same
  cases a with
  | poll | resume => exact if_neg (other rfl)
  | _ => rfl

/-- Only a subscriber that is there does anything. -/
theorem subscriber_of_acts {i : Nat} (acts : r.stepSubscriber? i = some r' ∨ r.abort? i = some r' ∨
    ∃ failure, r.watched? i failure = some r') : ∃ s, r.subscribers[i]? = some s := by
  cases found : r.subscribers[i]? with
  | some s => exact ⟨s, rfl⟩
  | none =>
      obtain did | did | ⟨failure, did⟩ := acts
      · simp [stepSubscriber?, found] at did
      · simp [abort?, found] at did
      · simp [watched?, found] at did

namespace Alike

/-- Readers of other rooms are told the same. -/
theorem told? (h : r.Alike room r₁)
    (elsewhere : ∀ st, r.streams[g.stream]? = some st → st.roomId ≠ room) (like : a.Like a₁) :
    r₁.told? g a₁ = r.told? g a := by
  have same : r₁.roomOf? g = r.roomOf? g := by
    rw [roomOf?, roomOf?]
    cases there : r.streams[g.stream]? with
    | none => rw [h.streams_none there]
    | some st => rw [h.stream there (elsewhere st there)]
  have read : ∀ f, (r₁.readWith g f).2 = (r.readWith g f).2 := by
    intro f
    rw [readWith, readWith, same]
    cases r.roomOf? g <;> rfl
  cases like with
  | closer => rfl
  | same =>
      cases a with
      | poll | resume => simp only [Registry.told?, Registry.poll, Registry.resume, read]
      | _ => rfl

/-- What is possible elsewhere is possible in all registries that are alike. -/
theorem perform? (h : r.Alike room r₁) (tidy : r.Tidy) (tidy₁ : r₁.Tidy)
    (elsewhere : ¬ r.ActsFor room a) (still : a.shuts = false)
    (did : r.perform? a = some r') :
    ∃ a₁ r₁', a.Like a₁ ∧ r₁.perform? a₁ = some r₁' ∧ r'.Alike room r₁' := by
  have owned := tidy.books.owned
  -- The action itself is possible.
  suffices itself : (∃ r₁', r₁.perform? a = some r₁' ∧ r'.Alike room r₁') ∨
      ∃ a₁ r₁', a.Like a₁ ∧ r₁.perform? a₁ = some r₁' ∧ r'.Alike room r₁' by
    obtain ⟨r₁', did₁, alike⟩ | found := itself
    · exact ⟨a, r₁', .same a, did₁, alike⟩
    · exact found
  cases used : a.use? with
  | some use =>
      obtain ⟨g, op⟩ := use
      rw [perform?_use used] at did
      obtain rfl := Option.some.inj did
      refine .inl ⟨_, perform?_use used, h.perform op fun st there own => elsewhere ⟨?_, ?_⟩⟩
      · rw [concern?_use used, there, Option.map_some, own]
      · cases a <;> cases used <;> rfl
  | none =>
      cases a with
      | step p =>
          cases p with
          | puller t =>
              refine .inl (h.stepPuller? (fun st there own => elsewhere ⟨?_, rfl⟩) did)
              rw [concern?, there, Option.map_some, own]
          | subscriber i =>
              obtain ⟨s, found⟩ := subscriber_of_acts (.inl did)
              refine .inl (h.stepSubscriber? owned found (fun own => elsewhere ⟨?_, rfl⟩) did)
              rw [concern?, found, Option.map_some, own]
          | closer j =>
              cases found : r.closers[j]? with
              | none => simp [Registry.perform?, step?, Registry.stepCloser?, found] at did
              | some c =>
                  obtain ⟨x, here⟩ : ∃ x, r.entries[c.entry]? = some x :=
                    ⟨_, Array.getElem?_eq_getElem (tidy.books.tended.assigned j c found).1⟩
                  have apart : x.roomId ≠ room := by
                    intro own
                    refine elsewhere ⟨?_, rfl⟩
                    rw [concern?, found, Option.bind_some, here, Option.map_some, own]
                  obtain ⟨j₁, r₁', did₁, alike⟩ :=
                    h.stepCloser? tidy.toSane tidy₁.toSane found here apart did
                  exact .inr ⟨_, r₁', .closer j j₁, did₁, alike⟩
          | shutdown k => cases still
          | collector i => exact .inl (h.stepCollector? tidy tidy₁ did)
      | subscribe other =>
          obtain rfl := Option.some.inj did
          exact .inl ⟨_, rfl, h.subscribe other⟩
      | abort i =>
          obtain ⟨s, found⟩ := subscriber_of_acts (.inr (.inl did))
          refine .inl (h.abort? found (fun own => elsewhere ⟨?_, rfl⟩) did)
          rw [concern?, found, Option.map_some, own]
      | watched i failure =>
          obtain ⟨s, found⟩ := subscriber_of_acts (.inr (.inr ⟨failure, did⟩))
          refine .inl (h.watched? found (fun own => elsewhere ⟨?_, rfl⟩) did)
          rw [concern?, found, Option.map_some, own]
      | feedClosed t =>
          refine .inl (h.feedClosed? (fun st there own => elsewhere ⟨?_, rfl⟩) did)
          rw [concern?, there, Option.map_some, own]
      | emit e => exact .inl (h.emit? (fun own => elsewhere ⟨congrArg some own, rfl⟩) did)
      | endFeed other =>
          obtain rfl := Option.some.inj did
          exact .inl ⟨_, rfl, h.endFeed fun own => elsewhere ⟨congrArg some own, rfl⟩⟩
      | fault other f =>
          obtain rfl := Option.some.inj did
          exact .inl ⟨_, rfl, h.injectFault other f⟩
      | shutdown =>
          obtain rfl := Option.some.inj did
          exact .inl ⟨_, rfl, { h with shutdowns := congrArg (·.push .starting) h.shutdowns }⟩
      | collect period cancelled =>
          obtain rfl := Option.some.inj did
          exact .inl ⟨_, rfl, h.collect period cancelled⟩
      | cancelCollector i =>
          obtain rfl := Option.some.inj did
          exact .inl ⟨_, rfl, h.cancelCollector i⟩
      | elapsed i => exact .inl (h.elapsed? did)
      | _ => cases used

/-- What is done for the room itself, and makes no new rows, leads away from nothing. -/
theorem apart (h : r.Alike room r₁) (tidy : r.Tidy) (own : r.concern? a = some room)
    (level : r'.extent = r.extent) (did : r.perform? a = some r') : r'.Alike room r₁ := by
  have owned := tidy.books.owned
  have confined := (perform?_confined owned own did).alike tidy.toSane (tidy.toSane.perform did)
    (perform?_store owned own did) level
  exact confined.symm.trans h

end Alike

/-- A run in which no shutdown acts, and in which nothing that is done for a room makes new rows,
apart from those of new subscribers. -/
def Apart (room : Uuid) (r : Registry) : List Action → Prop
  | [] => True
  | a :: more => a.shuts = false ∧ ∀ r' ∈ r.perform? a,
      (r.ActsFor room a → r'.extent = r.extent) ∧ r'.Apart room more

instance Apart.decide (room : Uuid) (r : Registry) :
    (more : List Action) → Decidable (r.Apart room more)
  | [] => .isTrue trivial
  | a :: more =>
      have : DecidablePred fun r' : Registry =>
          (r.ActsFor room a → r'.extent = r.extent) ∧ r'.Apart room more :=
        fun r' => have := Apart.decide room r' more; inferInstance
      inferInstanceAs (Decidable (_ ∧ _))

def others (room : Uuid) (r : Registry) (acts : List Action) : List Action :=
  seen (fun r a => if r.ActsFor room a then none else some a) r acts

def told (r : Registry) (g : Reader) (acts : List Action) :
    List (Option (Except StreamError Event)) :=
  seen (fun r a => r.told? g a) r acts

/-- A stream is always one of the same room. -/
theorem Owned.still_of (owned : r.Owned) {acts : List Action} (ran : r.run? acts = some r')
    {t : Nat} (elsewhere : ∀ st, r'.streams[t]? = some st → st.roomId ≠ room) :
    ∀ st, r.streams[t]? = some st → st.roomId ≠ room := by
  intro st there own
  obtain ⟨st', there', same⟩ : ∃ st', r'.streams[t]? = some st' ∧ st'.roomId = room := by
    refine (owned.run (P := fun r => ∃ st, r.streams[t]? = some st ∧ st.roomId = room) ?_
      ⟨st, there, own⟩ ran).2
    rintro r r' a _ owned ⟨st, there, own⟩ m
    obtain ⟨st', there', goes⟩ := m.stream owned there
    exact ⟨st', there', goes.roomId.trans own⟩
  exact elsewhere st' there' same

/-- Whatever others do in one registry, they can do in another with the same results, while nobody
does anything for the room there. -/
def Allows (room : Uuid) (r r₁ : Registry) : Prop :=
  ∀ (more : List Action) (r' : Registry), r.Apart room more → r.run? more = some r' →
    ∃ (more₁ : List Action) (r₁' : Registry), List.Forall₂ Action.Like (r.others room more) more₁ ∧
      r₁.run? more₁ = some r₁' ∧ r'.Alike room r₁' ∧
      ∀ g, (∀ st, r'.streams[g.stream]? = some st → st.roomId ≠ room) →
        r₁.told g more₁ = r.told g more

theorem Alike.allows (h : r.Alike room r₁) (tidy : r.Tidy) (tidy₁ : r₁.Tidy) :
    r.Allows room r₁ := by
  intro more r' apart ran
  induction more generalizing r r₁ with
  | nil =>
      obtain rfl := Option.some.inj ran
      exact ⟨[], r₁, .nil, rfl, h, fun _ _ => rfl⟩
  | cons a more ih =>
      obtain ⟨r₂, did, rest⟩ := Option.bind_eq_some_iff.1 ran
      obtain ⟨still, later⟩ := apart
      obtain ⟨level, apart⟩ := later r₂ did
      have tidy₂ := tidy.perform did
      by_cases own : r.ActsFor room a
      · -- An action for the room is left out.
        have skipped := h.apart tidy own.1 (level own) did
        obtain ⟨more₁, r₁', like, ran₁, alike, tells⟩ := ih skipped tidy₂ tidy₁ apart rest
        refine ⟨more₁, r₁', ?_, ran₁, alike, fun g elsewhere => ?_⟩
        · rw [others, seen, if_pos own, did]
          exact like
        · have silent := told?_of_concern? own.1 (tidy.books.owned.still_of ran elsewhere)
          rw [tells g elsewhere, told, told, seen, silent, did]
          rfl
      · obtain ⟨a₁, r₁₂, like₁, did₁, alike⟩ := h.perform? tidy tidy₁ own still did
        obtain ⟨more₁, r₁', like, ran₁, alike', tells⟩ :=
          ih alike tidy₂ (tidy₁.perform did₁) apart rest
        refine ⟨a₁ :: more₁, r₁', ?_, ?_, alike', fun g elsewhere => ?_⟩
        · rw [others, seen, if_neg own, did]
          exact .cons like₁ like
        · rw [run?, did₁]
          exact ran₁
        · have both := h.told? (tidy.books.owned.still_of ran elsewhere) like₁
          rw [told, told, seen, seen, did, did₁, both]
          exact congrArg _ (tells g elsewhere)

@[simp]
theorem extent_setSubscriber (i : Nat) (q : Subscribing) :
    (r.setSubscriber i q).extent = r.extent := by
  simp [extent, setSubscriber]

@[simp]
theorem extent_release (e : Nat) (who : Holder) : (r.release e who).extent = r.extent := by
  simp [extent, release, modifyEntry]

/-- When a wait for the store ends without a feed, there are no new rows. -/
theorem extent_of_ends (i t : Nat) (err : StreamError)
    (ends : a = .abort i ∨ a = .watched i (some err) ∨ a = .feedClosed t)
    (did : r.perform? a = some r') : r'.extent = r.extent := by
  obtain rfl | rfl | rfl := ends
  · simp only [Registry.perform?, abort?] at did
    split at did
    · cases did
    · split at did
      case h_1 | h_2 | h_6 =>
        obtain rfl := Option.some.inj did
        simp
      case h_3 | h_4 | h_5 => cases did
  · simp only [Registry.perform?, watched?] at did
    split at did
    · cases did
    · split at did
      case h_1 =>
        obtain rfl := Option.some.inj did
        unfold conclude
        split <;> simp
      case h_2 same => cases same
      case h_3 => cases did
  · simp only [Registry.perform?, feedClosed?] at did
    split at did
    · obtain rfl := Option.some.inj did
      simp [extent, modifyStream]
    · cases did

/-- Nothing that belongs to a room has changed: neither its entry, nor any other entry of it, nor
its windows with their readers and feeds, nor its subscribers and closers, nor its log, nor what its
feeds have left to read. -/
structure Undisturbed (room : Uuid) (r r' : Registry) : Prop where
  current : r'.entryOf? room = r.entryOf? room
  entries : ∀ (e : Nat) (x : Entry), x.roomId = room →
    (r'.entries[e]? = some x ↔ r.entries[e]? = some x)
  streams : ∀ (t : Nat) (st : Stream), st.roomId = room →
    (r'.streams[t]? = some st ↔ r.streams[t]? = some st)
  openReaders : r'.openReaders room = r.openReaders room
  subscribers : ∀ (i : Nat) (s : Subscriber), s.roomId = room →
    (r'.subscribers[i]? = some s ↔ r.subscribers[i]? = some s)
  closers : ∀ (j : Nat) (c : Closer), r.IsOf room c.entry →
    (r'.closers[j]? = some c ↔ r.closers[j]? = some c)
  log : r'.store.log? room = r.store.log? room
  fetch : r'.store.fetch room = r.store.fetch room
  channels : ∀ (t : Nat) (st : Stream), r.streams[t]? = some st → st.roomId = room →
    r'.store.channels[st.feed.channel]? = r.store.channels[st.feed.channel]?

/-- An action that concerns a room leaves others undisturbed. -/
theorem Sane.undisturbed (sane : r.Sane) (own : r.concern? a = some room) (elsewhere : other ≠ room)
    (did : r.perform? a = some r') : r.Undisturbed other r' := by
  have owned := sane.books.owned
  have confined := perform?_confined owned own did
  have store := perform?_store owned own did
  have apart : ∀ {k : Uuid}, k = other → k ≠ room := fun same => same ▸ elsewhere
  have log := store.log other elsewhere
  constructor
  case current => exact confined.current other elsewhere
  case entries => exact fun e x same => confined.entries e x (apart same)
  case streams => exact fun t st same => confined.streams t st (apart same)
  case openReaders =>
    rw [openReaders, openReaders, confined.current other elsewhere]
    cases current : r.entryOf? other with
    | none => rfl
    | some e =>
        obtain ⟨x, here, same⟩ := owned.entry_of_current current
        have here' := (confined.entries e x (apart same)).2 here
        rw [Option.map_some, Option.map_some, readersOf, readersOf, streamOf?, streamOf?, here,
          here', Option.bind_some]
        cases stream : x.stream with
        | none => rfl
        | some t =>
            have started := Entry.started_of_stream stream
            have there := Array.getElem?_eq_getElem (owned.started_lt here started)
            have its := (owned.stream_roomId here started there).trans same
            rw [Option.bind_some, Option.bind_some, there,
              (confined.streams t _ (apart its)).2 there]
  case subscribers => exact fun i s same => confined.subscribers i s (apart same)
  case closers =>
    rintro j c ⟨x, here, same⟩
    exact confined.closers j c x here (apart same)
  case log => exact log
  case fetch => rw [Store.fetch, Store.fetch, log]
  case channels =>
    intro t st there same
    obtain ⟨inside, only⟩ := sane.channel there
    exact store.channel _ inside fun uses => elsewhere ((only room uses).trans same).symm

/-- Others can do the same in two registries, and with the same results. -/
structure Unhindered (room : Uuid) (r r₁ : Registry) : Prop where
  here : r.Allows room r₁
  there : r₁.Allows room r

/-- What rooms have to do with each other in the state `r` to which a run leads. -/
structure Separate (r : Registry) : Prop where
  /-- An action that concerns one room leaves any other undisturbed. -/
  undisturbed : ∀ (a : Action) (room other : Uuid) (r' : Registry), r.concern? a = some room →
    other ≠ room → r.perform? a = some r' → r.Undisturbed other r'
  /-- It is all the same to others whether it has happened, unless it makes new rows. -/
  indifferent : ∀ (a : Action) (room : Uuid) (r' : Registry), r.concern? a = some room →
    r'.extent = r.extent → r.perform? a = some r' → r.Unhindered room r'
  /-- So nobody else is hindered as long as the store opens a feed for a room: others can do the
  same as if the caller had given up, or the store had refused the feed. -/
  opening : ∀ (i e : Nat) (s : Subscriber) (err : StreamError) (a : Action),
    r.subscribers[i]? = some s → s.phase = .watching e →
    a = .abort i ∨ a = .watched i (some err) →
    ∃ r₁, r.perform? a = some r₁ ∧ r.Unhindered s.roomId r₁
  /-- Nor is anybody as long as the store closes a feed of a room. -/
  closing : ∀ (t : Nat) (st : Stream), r.streams[t]? = some st → st.puller = .closing →
    ∃ r₁, r.perform? (.feedClosed t) = some r₁ ∧ r.Unhindered st.roomId r₁
  /-- Whoever subscribes and does not give up gets an answer by what the subscribers and closers of
  its own room do, while the store answers them, with a feed or any refusal but the mark of a closed
  window. -/
  completes : ∀ (i : Nat) (s : Subscriber) (answer : Option StreamError),
    r.subscribers[i]? = some s → s.phase ≠ .aborted → answer ≠ some .closed →
    (answer = none → 0 < r.store.capacity) → Ends answer s.roomId i r
  /-- A collector at the end of its period waits for no lock. It passes by an entry whose lock
  somebody has, and reclaims those of its candidates that may be. -/
  collecting : ∀ (i : Nat) (c : Collector) (candidates : List Nat), r.collectors[i]? = some c →
    c.phase = .reclaiming candidates → ∃ r', r.perform? (.step (.collector i)) = some r' ∧
      (∀ (e : Nat) (x : Entry), r.entries[e]? = some x → x.lock ≠ [] →
        r'.entries[e]? = some x ∧ (r.entryOf? x.roomId = some e → r'.entryOf? x.roomId = some e)) ∧
      ∀ (e : Nat) (x : Entry), e ∈ candidates → r.Spare e x →
        r'.entries[e]? = some { x with retired := true } ∧ r'.entryOf? x.roomId = none

theorem run?_tidy {capacity channelCapacity : Nat} {acts : List Action}
    (ran : (Registry.empty capacity channelCapacity).run? acts = some r) : r.Tidy :=
  run?_induction (P := fun _ r => r.Tidy) (empty_tidy _ _)
    (fun _ _ _ _ _ h did => h.perform did) ran

/-- What is done for a room and makes no new rows hinders nobody else. -/
theorem Tidy.unhindered (tidy : r.Tidy) (own : r.concern? a = some room)
    (level : r₁.extent = r.extent) (did : r.perform? a = some r₁) : r.Unhindered room r₁ := by
  have itself := (Confined.refl room r).alike tidy.toSane tidy.toSane (.refl _ _) rfl
  have alike : r₁.Alike room r := itself.apart tidy own level did
  exact ⟨alike.symm.allows tidy (tidy.perform did), alike.allows (tidy.perform did) tidy⟩

/-- In every state, an action for one room leaves all others as they are, and as long as the store
is busy with a feed of one room, others can do what they could do otherwise, with the same results.
-/
theorem run?_separate {capacity channelCapacity : Nat} {acts : List Action}
    (ran : (Registry.empty capacity channelCapacity).run? acts = some r) : Separate r := by
  have tidy := run?_tidy ran
  have owned := tidy.books.owned
  constructor
  case undisturbed =>
    exact fun a room other r' own elsewhere did => tidy.toSane.undisturbed own elsewhere did
  case indifferent => exact fun a room r' own level did => tidy.unhindered own level did
  case opening =>
    intro i e s err a found phase ends
    have own : r.concern? a = some s.roomId := by
      obtain rfl | rfl := ends <;> rw [concern?, found, Option.map_some]
    have possible : (r.perform? a).isSome = true := by
      obtain rfl | rfl := ends
      · simp [perform?, abort?, found, phase]
      · simp [perform?, watched?, found, phase]
    obtain ⟨r₁, did⟩ := Option.isSome_iff_exists.1 possible
    have level : r₁.extent = r.extent := by
      exact extent_of_ends i 0 err (ends.imp_right .inl) did
    exact ⟨r₁, did, tidy.unhindered own level did⟩
  case closing =>
    intro t st there phase
    obtain ⟨roomId, window, feed, fault, _⟩ := st
    obtain rfl : _ = Puller.closing := phase
    have did : r.perform? (.feedClosed t) = some (r.modifyStream t fun st =>
        { st with feed := st.feed.close, puller := .ended }) := by
      rw [perform?, feedClosed?, there]
    refine ⟨_, did, tidy.unhindered ?_ ?_ did⟩
    · rw [concern?, there, Option.map_some]
    · exact extent_of_ends 0 t .closed (.inr (.inr rfl)) did
  case completes =>
    intro i s answer found stays told slots
    exact Answerable.ends ⟨tidy.toSane, told, slots⟩ found rfl stays
  case collecting =>
    intro i c candidates found phase
    have went := foldl_reclaim owned (tidy.noted i c candidates found (by rw [phase]; rfl))
    refine ⟨(candidates.foldl reclaim r).setCollector i .checking, ?_, ?_, ?_⟩
    · simp only [perform?, step?, stepCollector?, found, phase]
    · intro e x here locked
      have kept : e ∉ candidates.filter r.reclaimable := by
        rw [List.mem_filter]
        rintro ⟨_, may⟩
        exact locked ((reclaimable_iff here).1 may).2.1
      refine ⟨(went.entries e).trans ?_, fun current => (went.registered _ e).2 ⟨current, kept⟩⟩
      rw [here, Option.map_some, if_neg kept]
    · intro e x among spare
      have gone : e ∈ candidates.filter r.reclaimable :=
        List.mem_filter.2 ⟨among, reclaimable_iff_spare.2 ⟨x, spare⟩⟩
      refine ⟨(went.entries e).trans ?_, Option.eq_none_iff_forall_ne_some.2 fun k current => ?_⟩
      · rw [spare.here, Option.map_some, if_pos gone]
      · obtain ⟨old, kept⟩ := (went.registered _ k).1 current
        obtain rfl := Option.some.inj (spare.current.symm.trans old)
        exact kept gone

/-- The store opens a feed for one room, and somebody reads another. -/
def slowOpening : List Action :=
  [.subscribe (.ofNat 8), .step (.subscriber 0), .step (.subscriber 0), .step (.subscriber 0),
    .step (.subscriber 0), .step (.subscriber 0), .subscribe (.ofNat 7), .step (.subscriber 1),
    .step (.subscriber 1), .step (.subscriber 1), .step (.subscriber 1), .step (.subscriber 1),
    .watched 1 none, .step (.subscriber 1)]

/-- Meanwhile the reader of the other room gets an event, somebody else subscribes there, both
readers leave, and a collector finds the entry without readers. -/
def lifeElsewhere : List Action :=
  [.emit (Store.anyEvent 1), .step (.puller 0), .step (.puller 0), .poll ⟨0, 0⟩ false,
    .subscribe (.ofNat 7), .step (.subscriber 2), .step (.subscriber 2), .step (.subscriber 2),
    .step (.subscriber 2), .leave ⟨0, 0⟩, .leave ⟨0, 1⟩, .collect 1000 false, .step (.collector 0),
    .step (.collector 0), .elapsed 0, .step (.collector 0)]

/-- All this happens just as well if the store has refused the feed before. -/
theorem run?_separate_slowOpening : ∃ r r₁ r' more₁ r₁',
    (Registry.empty 2 1).run? slowOpening = some r ∧
    r.perform? (.watched 0 (some .cancelled)) = some r₁ ∧ r.run? lifeElsewhere = some r' ∧
    r₁.run? more₁ = some r₁' ∧ r'.Alike (.ofNat 8) r₁' ∧
    (r₁.told ⟨0, 0⟩ more₁).map (·.bind fun got => got.toOption.map (·.id)) = [some (.ofNat 1)] ∧
    r'.readerOf? 2 = some ⟨0, 1⟩ ∧ r'.entryOf? (.ofNat 7) = none ∧
    r'.entryOf? (.ofNat 8) = some 0 := by
  have possible : ((Registry.empty 2 1).run? (slowOpening ++ lifeElsewhere)).isSome = true := by
    decide +kernel
  obtain ⟨r', whole⟩ := Option.isSome_iff_exists.1 possible
  rw [run?_append] at whole
  obtain ⟨r, ran, later⟩ := Option.bind_eq_some_iff.1 whole
  have waits : ((Registry.empty 2 1).run? slowOpening).map (fun r =>
      (r.subscribers[0]?).map fun s => (s.roomId, s.phase.works?)) =
      some (some (.ofNat 8, some (0, none))) := by decide +kernel
  have during : ((Registry.empty 2 1).run? slowOpening).map (fun r =>
      (decide (r.Apart (.ofNat 8) lifeElsewhere),
        (r.told ⟨0, 0⟩ lifeElsewhere).map (·.bind fun got => got.toOption.map (·.id)))) =
      some (true, [some (.ofNat 1)]) := by decide +kernel
  have after : ((Registry.empty 2 1).run? (slowOpening ++ lifeElsewhere)).map (fun r' =>
      (r'.readerOf? 2, r'.entryOf? (.ofNat 7), r'.entryOf? (.ofNat 8),
        (r'.streams[0]?).map (·.roomId))) =
      some (some ⟨0, 1⟩, none, some 0, some (.ofNat 7)) := by decide +kernel
  rw [ran, Option.map_some, Option.some.injEq] at waits during
  rw [run?_append, ran, Option.bind_some, later, Option.map_some, Option.some.injEq] at after
  obtain ⟨apart, told⟩ := Prod.mk.inj during
  obtain ⟨reader, gone, still, owner⟩ := by simpa only [Prod.mk.injEq] using after
  obtain ⟨s, found, slow⟩ := Option.map_eq_some_iff.1 waits
  obtain ⟨own, works⟩ := Prod.mk.inj slow
  have phase : s.phase = .watching 0 := by
    cases phase : s.phase <;> simp_all [Subscribing.works?]
  obtain ⟨r₁, did, unhindered⟩ :=
    (run?_separate ran).opening 0 0 s .cancelled _ found phase (.inr rfl)
  rw [own] at unhindered
  obtain ⟨more₁, r₁', _, ran₁, alike, tells⟩ :=
    unhindered.here lifeElsewhere r' (of_decide_eq_true apart) later
  refine ⟨r, r₁, r', more₁, r₁', ran, did, later, ran₁, alike, ?_, reader, gone, still⟩
  rw [tells ⟨0, 0⟩, told]
  intro st there
  rw [there, Option.map_some, Option.some.injEq] at owner
  rw [owner]
  decide

end Roomcast.Registry

import Roomcast.Proofs.Accounts
import Roomcast.Proofs.Replies
import Roomcast.Proofs.Sources

/-!
# What stays within a room

Most actions concern one room: the room of a subscriber, of a stream, of a reader, of the entry that
a closer closes, or the room that is named. All rooms share the tables of the registry and the
channels of the store. Nevertheless such an action changes nothing that belongs to any other room:
neither its entry, nor its windows with their readers, nor its subscribers and closers, nor its log,
nor the channels that its feeds read from.
-/

namespace Roomcast

section Rows

variable {β : Type} {own : β → Prop} {xs ys zs : Array β} {i : Nat}

/-- Two tables have the same rows, apart from the rows of an owner. -/
def SameRows (own : β → Prop) (xs ys : Array β) : Prop :=
  ∀ (i : Nat) (x : β), ¬ own x → (ys[i]? = some x ↔ xs[i]? = some x)

theorem SameRows.refl (own : β → Prop) (xs : Array β) : SameRows own xs xs :=
  fun _ _ _ => Iff.rfl

theorem SameRows.trans (h : SameRows own xs ys) (h' : SameRows own ys zs) : SameRows own xs zs :=
  fun i x other => (h' i x other).trans (h i x other)

/-- A new row of the owner. -/
theorem SameRows.push (xs : Array β) {x : β} (mine : own x) : SameRows own xs (xs.push x) := by
  intro i y other
  rw [getElem?_push_some]
  refine ⟨?_, .inl⟩
  rintro (old | ⟨_, rfl⟩)
  · exact old
  · exact absurd mine other

/-- A row of the owner is changed and remains the owner's. -/
theorem SameRows.modify {f : β → β} (mine : ∀ x, xs[i]? = some x → own x)
    (still : ∀ x, own x → own (f x)) : SameRows own xs (xs.modify i f) := by
  intro j y other
  rw [getElem?_modify_some]
  constructor
  · rintro (⟨_, old⟩ | ⟨rfl, x, old, rfl⟩)
    · exact old
    · exact absurd (still x (mine x old)) other
  · intro old
    refine .inl ⟨?_, old⟩
    rintro rfl
    exact other (mine y old)

/-- All rows of the owner are changed and remain the owner's. -/
theorem SameRows.map {f : β → β} (still : ∀ x, own x → own (f x)) (same : ∀ x, ¬ own x → f x = x) :
    SameRows own xs (xs.map f) := by
  intro i y other
  rw [Array.getElem?_map, Option.map_eq_some_iff]
  constructor
  · rintro ⟨x, old, rfl⟩
    by_cases mine : own x
    · exact absurd (still x mine) other
    · rw [same x mine]
      exact old
  · exact fun old => ⟨y, old, same y other⟩

end Rows

namespace Store

variable {s s' : Store} {room : Uuid}

/-- Two stores differ in what they keep of a room, and in no channel but those that this room uses
and those that are new. -/
structure Confined (room : Uuid) (s s' : Store) : Prop where
  capacity : s'.capacity = s.capacity
  log : ∀ other, other ≠ room → s'.log? other = s.log? other
  channel : ∀ c, c < s.channels.size → (s.log? room).bind (·.channel) ≠ some c →
    s'.channels[c]? = s.channels[c]?

theorem Confined.refl (room : Uuid) (s : Store) : s.Confined room s :=
  ⟨rfl, fun _ _ => rfl, fun _ _ _ => rfl⟩

theorem confined_emit? {e : Event} (stored : s.emit? e = some s') : s.Confined e.roomId s' where
  capacity := emit?_capacity stored
  log other elsewhere := by
    obtain ⟨⟨s₁, log⟩, got, rfl⟩ := Option.map_eq_some_iff.1 stored
    show (s₁.push e.roomId log e).log? other = s.log? other
    rw [push_log?, if_neg elsewhere]
    obtain ⟨rfl, _⟩ | ⟨_, rfl, _⟩ := logOf?_eq got <;> rfl
  channel c old apart := by rw [emit?_channel? stored old, if_neg apart]

theorem confined_watch? {f : Feed} (opened : s.watch? room = some (s', f)) :
    s.Confined room s' where
  capacity := watch?_capacity opened
  log := (watch?_log opened).2.2.1
  channel _ old _ := watch?_channel? opened old

theorem confined_closeRoom (s : Store) (room : Uuid) : s.Confined room (s.closeRoom room) where
  capacity := closeRoom_capacity s room
  log other elsewhere := by
    cases known : s.log? room with
    | none => simp [closeRoom, known]
    | some log => rw [closeRoom_log? known, if_neg elsewhere]
  channel c _ apart := by rw [closeRoom_channels?, if_neg apart]

theorem poll_channel (s : Store) (f : Feed) : (s.poll f).1.channel = f.channel := by
  rw [poll]
  split_ifs
  · rfl
  · cases s.channels[f.channel]? with
    | none => rfl
    | some c =>
        dsimp only
        split <;> rfl

/-- What a feed reads depends only on its channel. -/
theorem poll_congr {f : Feed} (same : s'.channels[f.channel]? = s.channels[f.channel]?) :
    s'.poll f = s.poll f := by
  rw [poll, same, poll]

/-- A feed that stands somewhere has stood at the beginning of what its channel carries. -/
theorem Feed.At.rewind {f : Feed} {p : Nat} (h : f.At s p) :
    ∃ q, Feed.At { f with next := 0, closed := false } s q := by
  obtain ⟨base, values, live, inside, there, stretch, _, _, current⟩ := h.carries
  exact ⟨base, ⟨base, values, live, inside, there, stretch, Nat.zero_le _, rfl, current⟩, h.own⟩

end Store

namespace Registry

open Store (Feed)

variable {r r' r'' : Registry} {a : Action} {room : Uuid}

/-- The feed of a stream, as if nothing had been read from it. -/
def Stream.source (st : Stream) : Feed := { st.feed with next := 0, closed := false }

/-- Every stream has its source in the store, also when its puller does not read any more. -/
def Tuned (r : Registry) : Prop :=
  ∀ (t : Nat) (st : Stream), r.streams[t]? = some st → ∃ q, st.source.At r.store q

theorem Stream.Goes.source {store : Store} {offers : Prop} {st st' : Stream}
    (goes : st.Goes store offers st') : st'.source = st.source := by
  have polled : ∀ {feed : Feed} {got : Option (Except StreamError Event)},
      store.poll st.feed = (feed, got) →
        ({ feed with next := 0, closed := false } : Feed) = st.source := by
    intro feed got polled
    have same := store.poll_roomId st.feed
    have channel := store.poll_channel st.feed
    rw [polled] at same channel
    rw [Stream.source, ← same, ← channel]
  cases goes with
  | stay | join | perform | close | fault => rfl
  | pull went =>
      cases went with
      | item _ _ _ got | finish _ _ _ got => exact polled got
      | _ => rfl

theorem Stream.Goes.roomId {store : Store} {offers : Prop} {st st' : Stream}
    (goes : st.Goes store offers st') : st'.roomId = st.roomId := by
  cases goes with
  | pull went => exact went.roomId
  | _ => rfl

theorem Tuned.move (h : r.Tuned) (owned : r.Owned) (sound : r.store.Sound) (m : Move r a r') :
    r'.Tuned := by
  have keeps := m.keeps sound
  intro t st' there
  obtain ⟨st, old, goes⟩ | ⟨new, _⟩ := m.stream_back owned there
  · obtain ⟨q, stands⟩ := h t st old
    rw [goes.source]
    exact ⟨q, keeps.feeds _ q stands⟩
  · have fresh : ∀ {ys : Array Stream}, ys.size = r.streams.size → ys[t]? ≠ some st' :=
      getElem?_ne_some new.ge
    cases m with
    | watched _ _ opened =>
        obtain found | ⟨_, rfl⟩ := getElem?_push_some.1 there
        · exact absurd found (fresh rfl)
        · exact (sound.watch? opened).2.2.2.2.rewind
    | join | start | closeWindow | pull | close | use =>
        exact absurd there (fresh Array.size_modify)
    | fault room f => exact absurd there (fresh Array.size_map)
    | reclaim here may =>
        rw [reclaim_eq here may] at there
        exact absurd there (fresh rfl)
    | _ => exact absurd there (fresh rfl)

/-- What is known of a registry that began empty when its rooms are told apart. -/
structure Sane (r : Registry) : Prop where
  books : r.Books
  locked : r.Locked
  sourced : r.Sourced
  tuned : r.Tuned

theorem empty_sane (capacity channelCapacity : Nat) :
    (Registry.empty capacity channelCapacity).Sane := by
  refine ⟨empty_books _ _, empty_locked _ _, empty_sourced _ _, ?_⟩
  simp [Tuned, Registry.empty]

theorem Sane.move (h : r.Sane) (m : Move r a r') : r'.Sane where
  books := h.books.move m
  locked := h.locked.move h.books.owned h.books.tended m
  sourced := h.sourced.move h.books.owned h.books.laid m
  tuned := h.tuned.move h.books.owned h.sourced.sound m

theorem Sane.perform (h : r.Sane) (did : r.perform? a = some r') : r'.Sane :=
  Moves.preserve Sane.move h (perform?_moves h.books.owned.fresh did)

/-- No room but its own uses the channel of a stream. -/
theorem Sane.channel (h : r.Sane) {t : Nat} {st : Stream} (there : r.streams[t]? = some st) :
    st.feed.channel < r.store.channels.size ∧
      ∀ other, (r.store.log? other).bind (·.channel) = some st.feed.channel →
        other = st.roomId := by
  obtain ⟨q, stands⟩ := h.tuned t st there
  refine ⟨stands.channel_lt, fun other uses => ?_⟩
  obtain ⟨log, found, uses⟩ := Option.bind_eq_some_iff.1 uses
  exact (stands.own other log found uses).trans (h.sourced.streams t st there).roomId

/-- The room that an action concerns, if it concerns one room only. -/
def concern? (r : Registry) : Action → Option Uuid
  | .subscribe room | .endFeed room | .fault room _ => some room
  | .emit e => some e.roomId
  | .step (.subscriber i) | .abort i | .watched i _ => (r.subscribers[i]?).map (·.roomId)
  | .step (.puller t) | .feedClosed t => (r.streams[t]?).map (·.roomId)
  | .step (.closer j) => (r.closers[j]?).bind fun c => (r.entries[c.entry]?).map (·.roomId)
  | a => a.use?.bind fun use => (r.streams[use.1.stream]?).map (·.roomId)

/-- Two registries differ in what belongs to a room. Nothing else has changed. -/
structure Confined (room : Uuid) (r r' : Registry) : Prop where
  capacity : r'.capacity = r.capacity
  down : r'.down = r.down
  reclaims : r'.reclaims = r.reclaims
  shutdowns : r'.shutdowns = r.shutdowns
  collectors : r'.collectors = r.collectors
  current : ∀ other, other ≠ room → r'.entryOf? other = r.entryOf? other
  entries : SameRows (fun x : Entry => x.roomId = room) r.entries r'.entries
  streams : SameRows (fun st : Stream => st.roomId = room) r.streams r'.streams
  subscribers : SameRows (fun s : Subscriber => s.roomId = room) r.subscribers r'.subscribers
  closers : ∀ (j : Nat) (c : Closer) (x : Entry), r.entries[c.entry]? = some x →
    x.roomId ≠ room → (r'.closers[j]? = some c ↔ r.closers[j]? = some c)

namespace Confined

/-- Registries that differ in one row of their tables at most. -/
theorem refl (room : Uuid) (r : Registry) : r.Confined room r where
  capacity := rfl
  down := rfl
  reclaims := rfl
  shutdowns := rfl
  collectors := rfl
  current _ _ := rfl
  entries := .refl _ _
  streams := .refl _ _
  subscribers := .refl _ _
  closers _ _ _ _ _ := Iff.rfl

theorem trans (h : r.Confined room r') (h' : r'.Confined room r'') : r.Confined room r'' where
  capacity := h'.capacity.trans h.capacity
  down := h'.down.trans h.down
  reclaims := h'.reclaims.trans h.reclaims
  shutdowns := h'.shutdowns.trans h.shutdowns
  collectors := h'.collectors.trans h.collectors
  current other elsewhere := (h'.current other elsewhere).trans (h.current other elsewhere)
  entries := h.entries.trans h'.entries
  streams := h.streams.trans h'.streams
  subscribers := h.subscribers.trans h'.subscribers
  closers j c x here elsewhere :=
    (h'.closers j c x ((h.entries _ x elsewhere).2 here) elsewhere).trans
      (h.closers j c x here elsewhere)

theorem setSubscriber {i : Nat} (q : Subscribing)
    (mine : ∀ s, r.subscribers[i]? = some s → s.roomId = room) :
    r.Confined room (r.setSubscriber i q) :=
  { Confined.refl room r with subscribers := .modify mine fun _ same => same }

theorem setCloser {j : Nat} {c : Closer} (q : Closing) (found : r.closers[j]? = some c)
    (mine : ∀ x, r.entries[c.entry]? = some x → x.roomId = room) :
    r.Confined room (r.setCloser j q) where
  __ := Confined.refl room r
  closers k c' x here elsewhere := by
    refine getElem?_modify_some.trans ⟨?_, fun old => .inl ⟨?_, old⟩⟩
    · rintro (⟨_, old⟩ | ⟨rfl, c₁, old, rfl⟩)
      · exact old
      · obtain rfl := Option.some.inj (found.symm.trans old)
        exact absurd (mine x here) elsewhere
    · rintro rfl
      obtain rfl := Option.some.inj (found.symm.trans old)
      exact elsewhere (mine x here)

theorem modifyEntry {e : Nat} (f : Entry → Entry) (still : ∀ x, (f x).roomId = x.roomId)
    (mine : ∀ x, r.entries[e]? = some x → x.roomId = room) :
    r.Confined room (r.modifyEntry e f) :=
  { Confined.refl room r with entries := .modify mine fun x same => (still x).trans same }

theorem modifyStream {t : Nat} {f : Stream → Stream}
    (still : ∀ st, st.roomId = room → (f st).roomId = room)
    (mine : ∀ st, r.streams[t]? = some st → st.roomId = room) :
    r.Confined room (r.modifyStream t f) :=
  { Confined.refl room r with streams := .modify mine still }

theorem enqueue {e : Nat} (who : Holder) (mine : ∀ x, r.entries[e]? = some x → x.roomId = room) :
    r.Confined room (r.enqueue e who) :=
  modifyEntry (fun x => { x with lock := x.lock ++ [who] }) (fun _ => rfl) mine

theorem release {e : Nat} (who : Holder) (mine : ∀ x, r.entries[e]? = some x → x.roomId = room) :
    r.Confined room (r.release e who) :=
  modifyEntry (fun x => { x with lock := x.lock.filter (· ≠ who) }) (fun _ => rfl) mine

theorem register (r : Registry) (room : Uuid) : r.Confined room (r.register room) where
  __ := Confined.refl room r
  current other elsewhere := by rw [entryOf?_register, if_neg elsewhere]
  entries := .push _ rfl

theorem unregister (r : Registry) (room : Uuid) : r.Confined room (r.unregister room) where
  __ := Confined.refl room r
  current other elsewhere := by rw [entryOf?_unregister, if_neg elsewhere]

theorem withStore (room : Uuid) (r : Registry) (store : Store) :
    r.Confined room { r with store } :=
  { Confined.refl room r with }

theorem openStream (r : Registry) (room : Uuid) (store : Store) (feed : Feed) :
    r.Confined room (r.openStream room store feed) :=
  { Confined.refl room r with streams := .push _ rfl }

end Confined

/-- A subscriber gives the lock of its entry back, and goes on. -/
theorem Confined.conclude {i e : Nat} (result : Except StreamError Reader)
    (mine : ∀ s, r.subscribers[i]? = some s → s.roomId = room)
    (own : ∀ x, r.entries[e]? = some x → x.roomId = room) :
    r.Confined room (r.conclude i e result) := by
  have left := Confined.release (r := r) (.subscriber i) own
  unfold Registry.conclude
  split <;> exact left.trans (.setSubscriber _ mine)

/-- A stream has a reader more. -/
theorem Confined.perform {t : Nat} (op : Room.Op Event)
    (mine : ∀ st, r.streams[t]? = some st → st.roomId = room) :
    r.Confined room (r.modifyStream t (·.perform op)) :=
  .modifyStream (fun _ same => same) mine

section Subscribers

variable {i e : Nat} {s : Subscriber}

theorem Owned.entry_own (owned : r.Owned) (found : r.subscribers[i]? = some s)
    (at? : s.phase.entry? = some e) (x : Entry) (here : r.entries[e]? = some x) :
    x.roomId = s.roomId := by
  obtain ⟨y, here', room⟩ := (owned.placed i s found).named e at?
  obtain rfl := Option.some.inj (here.symm.trans here')
  exact room

theorem enter_confined (owned : r.Owned) {x : Entry} (found : r.subscribers[i]? = some s)
    (phase : s.phase = .queued e) (here : r.entries[e]? = some x) :
    r.Confined s.roomId (r.enter i e x) := by
  have mine : ∀ s', r.subscribers[i]? = some s' → s'.roomId = s.roomId := fun s' found' => by
    rw [Option.some.inj (found.symm.trans found')]
  have own := owned.entry_own found (e := e) (by rw [phase]; rfl)
  rw [enter]
  split_ifs with gone
  · exact .conclude _ mine own
  · split
    · next t stream =>
      obtain ⟨st, there, _, eq⟩ | ⟨_, eq⟩ := joinStream_eq r t
      · have same : ∀ st', r.streams[t]? = some st' → st'.roomId = s.roomId := fun st' there' =>
          (owned.stream_roomId here (Entry.started_of_stream stream) there').trans (own x here)
        rw [eq]
        exact (Confined.perform .join same).trans (.conclude _ mine own)
      · rw [eq]
        exact .conclude _ mine own
    · exact .setSubscriber _ mine

theorem complete_confined (owned : r.Owned) {t : Nat} (found : r.subscribers[i]? = some s)
    (phase : s.phase = .starting e t) : r.Confined s.roomId (r.complete i e t) := by
  have mine : ∀ s', r.subscribers[i]? = some s' → s'.roomId = s.roomId := fun s' found' => by
    rw [Option.some.inj (found.symm.trans found')]
  obtain ⟨x, here, room, _, _, bare, pulls⟩ := owned.starts found phase
  have own : ∀ y, r.entries[e]? = some y → y.roomId = s.roomId := fun y here' => by
    rw [← Option.some.inj (here.symm.trans here'), room]
  have started : x.started = some t := by rw [Entry.started, bare, pulls, Option.none_or]
  let start (x : Entry) : Entry := { x with stream := some t }
  -- Whether the entry keeps the stream or not, only the room is concerned.
  have ends : ∀ {r₁ : Registry} (result result' : Except StreamError Reader),
      r.Confined s.roomId r₁ → r₁.entries = r.entries → r₁.subscribers = r.subscribers →
      r.Confined s.roomId (r₁.conclude i e result') ∧
        r.Confined s.roomId ((r₁.modifyEntry e start).conclude i e result) := by
    intro r₁ result result' before entries subscribers
    have own₁ : ∀ y, r₁.entries[e]? = some y → y.roomId = s.roomId := by
      rw [entries]
      exact own
    have mine₁ : ∀ s', r₁.subscribers[i]? = some s' → s'.roomId = s.roomId := by
      rw [subscribers]
      exact mine
    refine ⟨before.trans (.conclude _ mine₁ own₁), ?_⟩
    refine (before.trans (.modifyEntry start (fun _ => rfl) own₁)).trans
      (.conclude (r := r₁.modifyEntry e start) result mine₁ fun y here' => ?_)
    obtain ⟨_, old⟩ | ⟨_, y, old, rfl⟩ := getElem?_modify_some.1 here'
    · exact own₁ _ old
    · exact own₁ y old
  rw [complete]
  obtain ⟨st, there, _, eq⟩ | ⟨_, eq⟩ := joinStream_eq r t
  · have same : ∀ st', r.streams[t]? = some st' → st'.roomId = s.roomId := fun st' there' =>
      (owned.stream_roomId here started there').trans room
    obtain ⟨twice, once⟩ := ends _ _ (Confined.perform .join same) rfl rfl
    rw [eq]
    dsimp only
    split
    · exact twice
    · exact once
  · obtain ⟨twice, once⟩ := ends _ _ (.refl _ r) rfl rfl
    rw [eq]
    dsimp only
    split
    · exact twice
    · exact once

theorem stepSubscriber?_confined (owned : r.Owned) (found : r.subscribers[i]? = some s)
    (went : r.stepSubscriber? i = some r') : r.Confined s.roomId r' := by
  have mine : ∀ s', r.subscribers[i]? = some s' → s'.roomId = s.roomId := fun s' found' => by
    rw [Option.some.inj (found.symm.trans found')]
  have own : ∀ {e}, s.phase.entry? = some e → ∀ x, r.entries[e]? = some x → x.roomId = s.roomId :=
    owned.entry_own found
  rw [stepSubscriber?, found] at went
  simp only at went
  cases phase : s.phase with
  | checking =>
      simp only [phase, Option.some.injEq] at went
      subst went
      exact .setSubscriber _ mine
  | looking =>
      simp only [phase] at went
      split at went <;> obtain rfl := Option.some.inj went <;> exact .setSubscriber _ mine
  | creating =>
      simp only [phase] at went
      split_ifs at went
      · obtain rfl := Option.some.inj went
        exact .setSubscriber _ mine
      · split at went <;> obtain rfl := Option.some.inj went
        · exact .setSubscriber _ mine
        · exact (Confined.register r _).trans (.setSubscriber _ mine)
  | arriving e =>
      simp only [phase, Option.some.injEq] at went
      subst went
      exact (Confined.enqueue _ (own (by rw [phase]; rfl))).trans (.setSubscriber _ mine)
  | queued e =>
      simp only [phase] at went
      split_ifs at went with holds
      obtain ⟨x, here, rfl⟩ := Option.map_eq_some_iff.1 went
      exact enter_confined owned found phase here
  | starting e t =>
      simp only [phase, Option.some.injEq] at went
      subst went
      exact complete_confined owned found phase
  | removing e =>
      simp only [phase, Option.some.injEq] at went
      subst went
      split_ifs
      · exact (Confined.unregister r _).trans (.setSubscriber _ mine)
      · exact .setSubscriber _ mine
  | watching e | done result | aborted => simp [phase] at went

theorem watched?_confined (owned : r.Owned) {failure : Option StreamError}
    (found : r.subscribers[i]? = some s) (went : r.watched? i failure = some r') :
    r.Confined s.roomId r' := by
  have mine : ∀ s', r.subscribers[i]? = some s' → s'.roomId = s.roomId := fun s' found' => by
    rw [Option.some.inj (found.symm.trans found')]
  rw [watched?, found] at went
  simp only at went
  split at went
  case h_1 e err phase =>
    obtain rfl := Option.some.inj went
    exact .conclude _ mine (owned.entry_own found (by rw [phase]; rfl))
  case h_2 e phase =>
    obtain ⟨⟨store, feed⟩, opened, rfl⟩ := Option.map_eq_some_iff.1 went
    have own := owned.entry_own found (e := e) (by rw [phase]; rfl)
    exact ((Confined.openStream r s.roomId store feed).trans (.modifyEntry
      (fun x => { x with puller := some r.streams.size }) (fun _ => rfl) own)).trans
      (.setSubscriber _ mine)
  case h_3 => cases went

theorem abort?_confined (owned : r.Owned) (found : r.subscribers[i]? = some s)
    (went : r.abort? i = some r') : r.Confined s.roomId r' := by
  have mine : ∀ s', r.subscribers[i]? = some s' → s'.roomId = s.roomId := fun s' found' => by
    rw [Option.some.inj (found.symm.trans found')]
  have leaves : ∀ {e}, s.phase.entry? = some e →
      r.Confined s.roomId ((r.release e (.subscriber i)).setSubscriber i .aborted) := fun at? =>
    (Confined.release _ (owned.entry_own found at?)).trans (.setSubscriber _ mine)
  rw [abort?, found] at went
  simp only at went
  cases phase : s.phase with
  | queued e | watching e =>
      simp only [phase, Option.some.injEq] at went
      subst went
      exact leaves (by rw [phase]; rfl)
  | starting e t | done result | aborted => simp [phase] at went
  | checking | looking | creating | arriving e | removing e =>
      simp only [phase, Option.some.injEq] at went
      subst went
      exact .setSubscriber _ mine

end Subscribers

theorem stepCloser?_confined (owned : r.Owned) {j : Nat} {c : Closer} {x : Entry}
    (found : r.closers[j]? = some c) (here : r.entries[c.entry]? = some x)
    (went : r.stepCloser? j = some r') : r.Confined x.roomId r' := by
  have own : ∀ y, r.entries[c.entry]? = some y → y.roomId = x.roomId := fun y here' => by
    rw [Option.some.inj (here.symm.trans here')]
  -- The room of the entry is the same after its row has changed.
  have still : ∀ f : Entry → Entry, (∀ x, (f x).roomId = x.roomId) → ∀ y,
      (r.modifyEntry c.entry f).entries[c.entry]? = some y → y.roomId = x.roomId := by
    intro f keeps y here'
    obtain ⟨_, old⟩ | ⟨_, y, old, rfl⟩ := getElem?_modify_some.1 here'
    · exact own _ old
    · exact (keeps y).trans (own y old)
  rw [stepCloser?, found] at went
  simp only at went
  cases phase : c.phase with
  | arriving =>
      simp only [phase, Option.some.injEq] at went
      subst went
      exact (Confined.enqueue (.closer j) own).trans
        (.setCloser _ found (still _ fun _ => rfl))
  | queued =>
      simp only [phase] at went
      split_ifs at went
      obtain ⟨y, here', rfl⟩ := Option.map_eq_some_iff.1 went
      let gone (x : Entry) : Entry := { x with retired := true, puller := none }
      have retired : r.Confined x.roomId (r.modifyEntry c.entry gone) :=
        .modifyEntry gone (fun _ => rfl) own
      have released := retired.trans (.release (.closer j) (still gone fun _ => rfl))
      refine released.trans (.setCloser _ found fun z there => ?_)
      obtain ⟨_, old⟩ | ⟨_, z, old, rfl⟩ := getElem?_modify_some.1 there
      · exact still gone (fun _ => rfl) _ old
      · exact still gone (fun _ => rfl) z old
  | stopping p =>
      simp only [phase, Option.some.injEq] at went
      subst went
      split
      · next t stream =>
        have started : x.started = some t :=
          Entry.started_of_stream (by simpa [streamOf?, here] using stream)
        have same : ∀ st, r.streams[t]? = some st → st.roomId = x.roomId := fun st there =>
          owned.stream_roomId here started there
        exact (Confined.perform .close same).trans (.setCloser _ found own)
      · exact .setCloser _ found own
  | joining p =>
      cases p with
      | none =>
          simp only [phase, Option.some.injEq] at went
          subst went
          exact .setCloser _ found own
      | some t =>
          simp only [phase] at went
          split_ifs at went
          obtain rfl := Option.some.inj went
          exact .setCloser _ found own
  | done => simp [phase] at went

/-- An action that concerns a room changes nothing in the tables that belongs to another room. -/
theorem perform?_confined (owned : r.Owned) (own : r.concern? a = some room)
    (did : r.perform? a = some r') : r.Confined room r' := by
  cases used : a.use? with
  | some use =>
      obtain ⟨h, op⟩ := use
      rw [perform?_use used] at did
      obtain rfl := Option.some.inj did
      have own' : (r.streams[h.stream]?).map (·.roomId) = some room := by
        cases a <;> cases used <;> exact own
      refine .perform op fun st there => ?_
      rw [there] at own'
      exact Option.some.inj own'
  | none =>
      cases a with
      | step p =>
          cases p with
          | puller t =>
              obtain ⟨st', stepped, rfl⟩ := Option.map_eq_some_iff.1 did
              obtain ⟨st, there, stepped⟩ := Option.bind_eq_some_iff.1 stepped
              simp only [concern?, there, Option.map_some, Option.some.injEq] at own
              refine .modifyStream (fun _ _ => (Stream.step?_pull stepped).roomId.trans own) ?_
              intro st₁ there₁
              rw [← Option.some.inj (there.symm.trans there₁), own]
          | subscriber i =>
              obtain ⟨s, found, rfl⟩ := Option.map_eq_some_iff.1 own
              exact stepSubscriber?_confined owned found did
          | closer j =>
              obtain ⟨c, found, own⟩ := Option.bind_eq_some_iff.1 own
              obtain ⟨x, here, rfl⟩ := Option.map_eq_some_iff.1 own
              exact stepCloser?_confined owned found here did
          | shutdown k | collector i => cases own
      | abort i =>
          obtain ⟨s, found, rfl⟩ := Option.map_eq_some_iff.1 own
          exact abort?_confined owned found did
      | watched i failure =>
          obtain ⟨s, found, rfl⟩ := Option.map_eq_some_iff.1 own
          exact watched?_confined owned found did
      | feedClosed t =>
          rw [perform?, feedClosed?] at did
          split at did
          case h_1 st there =>
            obtain rfl := Option.some.inj did
            simp only [concern?, there, Option.map_some, Option.some.injEq] at own
            refine .modifyStream (fun _ same => same) fun st₁ there₁ => ?_
            rw [← Option.some.inj (there.symm.trans there₁), own]
          case h_2 => cases did
      | subscribe room' =>
          obtain rfl := Option.some.inj own
          obtain rfl := Option.some.inj did
          exact { Confined.refl room' r with subscribers := .push _ rfl }
      | emit e =>
          obtain ⟨store, _, rfl⟩ := Option.map_eq_some_iff.1 did
          exact .withStore room r store
      | endFeed room' =>
          obtain rfl := Option.some.inj did
          exact .withStore room r _
      | fault room' f =>
          obtain rfl := Option.some.inj own
          obtain rfl := Option.some.inj did
          refine { Confined.refl room' r with
            streams := .map (fun st same => ?_) fun st other => ?_ }
          · split_ifs <;> exact same
          · rw [if_neg fun both => other both.1]
      | shutdown | collect | cancelCollector | elapsed => cases own
      | _ => cases used

/-- An action that concerns a room changes what the store keeps of that room, and no channels that
another room uses. -/
theorem perform?_store (owned : r.Owned) (own : r.concern? a = some room)
    (did : r.perform? a = some r') : r.store.Confined room r'.store := by
  have other : ∀ i, a ≠ .step (.collector i) := by
    rintro i rfl
    cases own
  cases perform?_move owned.fresh other did with
  | watched found _ opened =>
      rw [concern?, found] at own
      obtain rfl := Option.some.inj own
      exact Store.confined_watch? opened
  | emit stored =>
      obtain rfl := Option.some.inj own
      exact Store.confined_emit? stored
  | endFeed room' =>
      obtain rfl := Option.some.inj own
      exact Store.confined_closeRoom _ _
  | reclaim here may =>
      rw [reclaim_eq here may]
      exact .refl _ _
  | _ => exact .refl _ _

end Registry

end Roomcast

import Roomcast.Proofs.Moves

/-!
# Who owns what

A room has at most one entry in the registry, and every stream belongs to one entry. Only the
subscriber that has the lock of an entry opens a feed for it, so a stream is started for an entry
that has none, and nobody else can start one or retire the entry before that is done. `Owned` is
this bookkeeping; every move keeps it.
-/

namespace Roomcast.Registry

/-- The stream of an entry, or the one that is being started for it. -/
def Entry.started (x : Entry) : Option Nat := x.stream.or x.puller

/-- The stream of an entry has been started for it. -/
theorem Entry.started_of_stream {x : Entry} {t : Nat} (stream : x.stream = some t) :
    x.started = some t := by
  rw [Entry.started, stream]
  rfl

def rooms (r : Registry) : Array Uuid := r.streams.map (·.roomId)

/-- The entry for which a subscriber opens a feed, with the stream that it has started for it. -/
def Subscribing.works? : Subscribing → Option (Nat × Option Nat)
  | .watching entry => some (entry, none)
  | .starting entry stream => some (entry, some stream)
  | _ => none

/-- A subscriber has an entry of its room. While it opens a feed it has the lock, and the entry has
no stream but the one that it has started. -/
structure Placed (r : Registry) (i : Nat) (s : Subscriber) : Prop where
  named : ∀ e, s.phase.entry? = some e → ∃ x, r.entries[e]? = some x ∧ x.roomId = s.roomId
  working : ∀ e p, s.phase.works? = some (e, p) → ∃ x, r.entries[e]? = some x ∧
    x.lock.head? = some (.subscriber i) ∧ x.retired = false ∧ x.stream = none ∧ x.puller = p

/-- The bookkeeping of a registry. -/
structure Owned (r : Registry) : Prop where
  placed : ∀ (i : Nat) (s : Subscriber), r.subscribers[i]? = some s → r.Placed i s
  listed : ∀ room e, (room, e) ∈ r.registered → ∃ x, r.entries[e]? = some x ∧ x.roomId = room
  single : (r.registered.map (·.1)).Nodup
  pending : ∀ (e : Nat) (x : Entry) (t : Nat), r.entries[e]? = some x → x.stream = none →
    x.puller = some t → ∃ (i : Nat) (s : Subscriber), r.subscribers[i]? = some s ∧
      s.phase = .starting e t
  pulled : ∀ (e : Nat) (x : Entry) (t p : Nat), r.entries[e]? = some x → x.stream = some t →
    x.puller = some p → p = t
  streamed : ∀ (e : Nat) (x : Entry) (t : Nat), r.entries[e]? = some x → x.started = some t →
    r.rooms[t]? = some x.roomId
  unshared : ∀ (e e' : Nat) (x x' : Entry) (t : Nat), r.entries[e]? = some x →
    r.entries[e']? = some x' → x.started = some t → x'.started = some t → e = e'
  owner : ∀ t, t < r.rooms.size → ∃ (e : Nat) (x : Entry), r.entries[e]? = some x ∧
    x.started = some t

variable {r r' : Registry}

theorem empty_owned (capacity channelCapacity : Nat) :
    (Registry.empty capacity channelCapacity).Owned := by
  constructor <;> simp [Registry.empty, rooms]

theorem Subscribing.entry?_of_works? {p : Subscribing} {e : Nat} {t : Option Nat}
    (works : p.works? = some (e, t)) : p.entry? = some e := by
  cases p <;> simp_all [works?, entry?]

/-- The entry for which a subscriber opens a feed, with what it keeps until that is done. -/
theorem Owned.works (h : r.Owned) {i e : Nat} {s : Subscriber} {p : Option Nat}
    (found : r.subscribers[i]? = some s) (works : s.phase.works? = some (e, p)) :
    ∃ x, r.entries[e]? = some x ∧ x.roomId = s.roomId ∧ x.lock.head? = some (.subscriber i) ∧
      x.retired = false ∧ x.stream = none ∧ x.puller = p := by
  obtain ⟨x, here, rest⟩ := (h.placed i s found).working e p works
  obtain ⟨y, here', room⟩ := (h.placed i s found).named e (Subscribing.entry?_of_works? works)
  obtain rfl : x = y := Option.some.inj (here.symm.trans here')
  exact ⟨x, here, room, rest⟩

theorem Owned.watches (h : r.Owned) {i e : Nat} {s : Subscriber}
    (found : r.subscribers[i]? = some s) (phase : s.phase = .watching e) :
    ∃ x, r.entries[e]? = some x ∧ x.roomId = s.roomId ∧ x.lock.head? = some (.subscriber i) ∧
      x.retired = false ∧ x.stream = none ∧ x.puller = none :=
  h.works found (by rw [phase]; rfl)

theorem Owned.starts (h : r.Owned) {i e t : Nat} {s : Subscriber}
    (found : r.subscribers[i]? = some s) (phase : s.phase = .starting e t) :
    ∃ x, r.entries[e]? = some x ∧ x.roomId = s.roomId ∧ x.lock.head? = some (.subscriber i) ∧
      x.retired = false ∧ x.stream = none ∧ x.puller = some t :=
  h.works found (by rw [phase]; rfl)

/-- Every stream has been started for an entry. -/
theorem Owned.owner_of (h : r.Owned) {t : Nat} {st : Stream} (there : r.streams[t]? = some st) :
    ∃ (e : Nat) (x : Entry), r.entries[e]? = some x ∧ x.started = some t := by
  apply h.owner
  rw [rooms, Array.size_map]
  exact lt_size_of_getElem? there

/-- Every stream that has been started for an entry is there. -/
theorem Owned.started_lt (h : r.Owned) {e t : Nat} {x : Entry} (here : r.entries[e]? = some x)
    (started : x.started = some t) : t < r.streams.size := by
  have inside := lt_size_of_getElem? (h.streamed e x t here started)
  rwa [rooms, Array.size_map] at inside

/-- A stream that was started for an entry is one of the room of the entry. -/
theorem Owned.stream_roomId (h : r.Owned) {e t : Nat} {x : Entry} {st : Stream}
    (here : r.entries[e]? = some x) (started : x.started = some t)
    (there : r.streams[t]? = some st) : st.roomId = x.roomId := by
  have same := h.streamed e x t here started
  rw [rooms, Array.getElem?_map, there] at same
  exact Option.some.inj same

/-- An entry whose stream is being started has no other. -/
theorem Owned.fresh (h : r.Owned) : r.Fresh := by
  intro i s e t found phase
  obtain ⟨x, here, _, _, _, bare, _⟩ := h.starts found phase
  simp [streamOf?, here, bare]

/-- Nobody starts a stream for an entry whose lock somebody else has. -/
theorem Owned.settled (h : r.Owned) {e : Nat} {x : Entry} (here : r.entries[e]? = some x)
    (bare : x.stream = none)
    (away : ∀ (i : Nat) (s : Subscriber) (t : Nat), r.subscribers[i]? = some s →
      s.phase = .starting e t → x.lock.head? ≠ some (.subscriber i)) : x.puller = none := by
  cases pulls : x.puller with
  | none => rfl
  | some t =>
      obtain ⟨i, s, found, phase⟩ := h.pending e x t here bare pulls
      obtain ⟨x', here', _, head, _⟩ := h.starts found phase
      obtain rfl : x = x' := Option.some.inj (here.symm.trans here')
      exact absurd head (away i s t found phase)

/-- Tables of entries that differ in their locks alone. Subscribers that have not moved keep the
locks they have. -/
structure Relocked (moved : Nat → Prop) (xs xs' : Array Entry) : Prop where
  size : xs'.size = xs.size
  row : ∀ (e : Nat) (x : Entry), xs[e]? = some x → ∃ lock, xs'[e]? = some { x with lock } ∧
    ∀ j, ¬ moved j → x.lock.head? = some (.subscriber j) → lock.head? = some (.subscriber j)

namespace Relocked

variable {moved : Nat → Prop} {xs xs' : Array Entry}

theorem refl (moved : Nat → Prop) (xs : Array Entry) : Relocked moved xs xs :=
  ⟨rfl, fun _ x here => ⟨x.lock, here, fun _ _ head => head⟩⟩

theorem old (h : Relocked moved xs xs') {e : Nat} {x' : Entry} (here : xs'[e]? = some x') :
    ∃ x lock, xs[e]? = some x ∧ x' = { x with lock } ∧
      ∀ j, ¬ moved j → x.lock.head? = some (.subscriber j) →
        lock.head? = some (.subscriber j) := by
  have inside : e < xs.size := h.size ▸ lt_size_of_getElem? here
  obtain ⟨lock, there, kept⟩ := h.row e xs[e] (Array.getElem?_eq_getElem inside)
  exact ⟨xs[e], lock, Array.getElem?_eq_getElem inside,
    Option.some.inj (here.symm.trans there), kept⟩

/-- The lock of one entry changes. -/
theorem modify (e : Nat) (f : List Holder → List Holder)
    (kept : ∀ lock j, ¬ moved j → lock.head? = some (.subscriber j) →
      (f lock).head? = some (.subscriber j)) :
    Relocked moved xs (xs.modify e fun x => { x with lock := f x.lock }) := by
  refine ⟨Array.size_modify, ?_⟩
  intro e' x here
  rw [Array.getElem?_modify]
  by_cases same : e = e'
  · exact ⟨f x.lock, by simp [same, here], kept x.lock⟩
  · exact ⟨x.lock, by simp [same, here], fun j _ head => head⟩

end Relocked

/-- Who asks for a lock takes it from nobody. -/
theorem relocked_enqueue (r : Registry) (e : Nat) (who : Holder) (moved : Nat → Prop) :
    Relocked moved r.entries (r.enqueue e who).entries := by
  refine Relocked.modify e (· ++ [who]) fun lock j _ head => ?_
  simp [head]

/-- Who gives a lock back takes it from nobody else. -/
theorem relocked_release (r : Registry) (e : Nat) (who : Holder) (moved : Nat → Prop)
    (own : ∀ j, who = .subscriber j → moved j) :
    Relocked moved r.entries (r.release e who).entries := by
  refine Relocked.modify e (·.filter (· ≠ who)) fun lock j stays head => ?_
  cases lock with
  | nil => cases head
  | cons first rest =>
      obtain rfl := Option.some.inj head
      have other : Holder.subscriber j ≠ who := fun eq => stays (own j eq.symm)
      simp [other]

theorem Placed.relocked {i : Nat} {s : Subscriber} (h : r.Placed i s) (moved : Nat → Prop)
    (entries : Relocked moved r.entries r'.entries) (stays : ¬ moved i) : r'.Placed i s where
  named e asked := by
    obtain ⟨x, here, room⟩ := h.named e asked
    obtain ⟨lock, here', _⟩ := entries.row e x here
    exact ⟨_, here', room⟩
  working e p works := by
    obtain ⟨x, here, head, rest⟩ := h.working e p works
    obtain ⟨lock, here', kept⟩ := entries.row e x here
    exact ⟨_, here', kept i stays head, rest⟩

/-- The books stay in order when locks change, entries leave the registry, and subscribers that have
not started a stream go on. -/
theorem Owned.change (h : r.Owned) (moved : Nat → Prop)
    (entries : Relocked moved r.entries r'.entries)
    (registered : r'.registered.Sublist r.registered) (rooms : r'.rooms = r.rooms)
    (subscribers : ∀ (j : Nat) (s : Subscriber), r'.subscribers[j]? = some s →
      (¬ moved j ∧ r.subscribers[j]? = some s) ∨ r'.Placed j s)
    (starting : ∀ (j : Nat) (s : Subscriber) (e t : Nat), r.subscribers[j]? = some s →
      s.phase = .starting e t → r'.subscribers[j]? = some s) : r'.Owned where
  placed j s found := by
    obtain ⟨stays, old⟩ | placed := subscribers j s found
    · exact (h.placed j s old).relocked moved entries stays
    · exact placed
  listed room e there := by
    obtain ⟨x, here, same⟩ := h.listed room e (registered.subset there)
    obtain ⟨lock, here', _⟩ := entries.row e x here
    exact ⟨_, here', same⟩
  single := h.single.sublist (registered.map _)
  pending e x' t here' bare pulls := by
    obtain ⟨x, lock, here, rfl, _⟩ := entries.old here'
    obtain ⟨i, s, found, phase⟩ := h.pending e x t here bare pulls
    exact ⟨i, s, starting i s e t found phase, phase⟩
  pulled e x' t p here' := by
    obtain ⟨x, lock, here, rfl, _⟩ := entries.old here'
    exact h.pulled e x t p here
  streamed e x' t here' started := by
    obtain ⟨x, lock, here, rfl, _⟩ := entries.old here'
    rw [rooms]
    exact h.streamed e x t here started
  unshared e e' y y' t here here' started started' := by
    obtain ⟨x, lock, old, rfl, _⟩ := entries.old here
    obtain ⟨x', lock', old', rfl, _⟩ := entries.old here'
    exact h.unshared e e' x x' t old old' started started'
  owner t inside := by
    rw [rooms] at inside
    obtain ⟨e, x, here, started⟩ := h.owner t inside
    obtain ⟨lock, here', _⟩ := entries.row e x here
    exact ⟨e, _, here', started⟩

/-- What the books are about has not changed. -/
theorem Owned.frame (h : r.Owned) (entries : r'.entries = r.entries)
    (registered : r'.registered = r.registered) (rooms : r'.rooms = r.rooms)
    (subscribers : r'.subscribers = r.subscribers) : r'.Owned := by
  refine h.change (fun _ => False) ?_ (by rw [registered]) rooms ?_ ?_
  · rw [entries]
    exact Relocked.refl _ _
  · intro j s found
    rw [subscribers] at found
    exact .inl ⟨id, found⟩
  · intro j s e t found phase
    rw [subscribers]
    exact found

/-- A subscriber without an entry has nothing to keep in order. -/
theorem placed_nowhere {i : Nat} {s : Subscriber} (nowhere : s.phase.entry? = none) :
    r.Placed i s where
  named e asked := by
    rw [nowhere] at asked
    cases asked
  working e p works := by
    rw [Subscribing.entry?_of_works? works] at nowhere
    cases nowhere

/-- A subscriber that opens no feed needs an entry of its room. -/
theorem placed_named {i e : Nat} {s : Subscriber} {x : Entry} (asked : s.phase.entry? = some e)
    (lazy : s.phase.works? = none) (here : r.entries[e]? = some x) (room : x.roomId = s.roomId) :
    r.Placed i s where
  named e' asked' := by
    rw [asked] at asked'
    obtain rfl := Option.some.inj asked'
    exact ⟨x, here, room⟩
  working e p works := by
    rw [lazy] at works
    cases works

/-- A subscriber that has not started a stream goes on. -/
theorem Owned.turn (h : r.Owned) {i : Nat} {s : Subscriber} {q : Subscribing}
    (found : r.subscribers[i]? = some s) (idle : ∀ e t, s.phase ≠ .starting e t)
    (entries : Relocked (· = i) r.entries r'.entries)
    (registered : r'.registered.Sublist r.registered) (rooms : r'.rooms = r.rooms)
    (subscribers : r'.subscribers = r.subscribers.modify i fun s => { s with phase := q })
    (placed : r'.Placed i { s with phase := q }) : r'.Owned := by
  refine h.change (· = i) entries registered rooms ?_ ?_
  · intro j s' found'
    rw [subscribers] at found'
    obtain ⟨other, old⟩ | ⟨rfl, s₁, old, rfl⟩ := getElem?_modify_some.1 found'
    · exact .inl ⟨Ne.symm other, old⟩
    · obtain rfl : s = s₁ := Option.some.inj (found.symm.trans old)
      exact .inr placed
  · intro j s' e t found' phase
    rw [subscribers]
    refine getElem?_modify_some.2 (.inl ⟨?_, found'⟩)
    rintro rfl
    obtain rfl : s = s' := Option.some.inj (found.symm.trans found')
    exact idle e t phase

/-- The books stay in order when an entry with which nobody else is busy changes, and keeps its
room and its stream. -/
theorem Owned.settle (h : r.Owned) {e : Nat} {x x' : Entry} (here : r.entries[e]? = some x)
    (entries : ∀ k, r'.entries[k]? = if e = k then some x' else r.entries[k]?)
    (room : x'.roomId = x.roomId) (same : x'.started = x.started)
    (bare : x'.stream = none → x'.puller = none)
    (pulled : ∀ t p, x'.stream = some t → x'.puller = some p → p = t)
    (registered : r'.registered.Sublist r.registered) (rooms : r'.rooms = r.rooms)
    (subscribers : ∀ (j : Nat) (s : Subscriber), r'.subscribers[j]? = some s →
      (r.subscribers[j]? = some s ∧ ∀ p, s.phase.works? ≠ some (e, p)) ∨ r'.Placed j s)
    (starting : ∀ (j : Nat) (s : Subscriber) (k t : Nat), r.subscribers[j]? = some s →
      s.phase = .starting k t → k ≠ e → r'.subscribers[j]? = some s) : r'.Owned := by
  have replaced : Replaced r.entries r'.entries e x x' := ⟨here, entries⟩
  -- Every entry is as it was, or it is the one that has changed.
  have row : ∀ (k : Nat) (y : Entry), r'.entries[k]? = some y →
      ∃ z, r.entries[k]? = some z ∧ y.roomId = z.roomId ∧ y.started = z.started ∧
        ((e ≠ k ∧ y = z) ∨ (e = k ∧ y = x')) := by
    intro k y there
    obtain ⟨other, old⟩ | ⟨rfl, rfl⟩ := replaced.back there
    · exact ⟨y, old, rfl, rfl, .inl ⟨other, rfl⟩⟩
    · exact ⟨x, here, room, same, .inr ⟨rfl, rfl⟩⟩
  have forth : ∀ (k : Nat) (z : Entry), r.entries[k]? = some z →
      ∃ y, r'.entries[k]? = some y ∧ y.roomId = z.roomId ∧ y.started = z.started := by
    intro k z there
    obtain ⟨_, still⟩ | ⟨rfl, rfl⟩ := replaced.forth there
    · exact ⟨z, still, rfl, rfl⟩
    · exact ⟨x', replaced.here, room, same⟩
  refine ⟨?_, ?_, h.single.sublist (registered.map _), ?_, ?_, ?_, ?_, ?_⟩
  · intro j s found
    obtain ⟨old, away⟩ | placed := subscribers j s found
    · constructor
      · intro k asked
        obtain ⟨z, there, named⟩ := (h.placed j s old).named k asked
        obtain ⟨y, there', room', _⟩ := forth k z there
        exact ⟨y, there', room'.trans named⟩
      · intro k p works
        obtain ⟨z, there, rest⟩ := (h.placed j s old).working k p works
        have other : e ≠ k := by
          rintro rfl
          exact away p works
        exact ⟨z, by rw [entries, if_neg other]; exact there, rest⟩
    · exact placed
  · intro room' k there
    obtain ⟨z, there', named⟩ := h.listed room' k (registered.subset there)
    obtain ⟨y, now, same', _⟩ := forth k z there'
    exact ⟨y, now, same'.trans named⟩
  · intro k y t there bare' pulls
    obtain ⟨z, there', _, _, ⟨other, rfl⟩ | ⟨changed, rfl⟩⟩ := row k y there
    · obtain ⟨j, s, found, phase⟩ := h.pending k y t there' bare' pulls
      exact ⟨j, s, starting j s k t found phase (Ne.symm other), phase⟩
    · rw [bare bare'] at pulls
      cases pulls
  · intro k y t p there streams pulls
    obtain ⟨z, there', _, _, ⟨_, rfl⟩ | ⟨_, rfl⟩⟩ := row k y there
    · exact h.pulled k y t p there' streams pulls
    · exact pulled t p streams pulls
  · intro k y t there started
    obtain ⟨z, there', room', same', _⟩ := row k y there
    rw [rooms, room']
    exact h.streamed k z t there' (same' ▸ started)
  · intro k k' y y' t there there' started started'
    obtain ⟨z, old, _, same₁, _⟩ := row k y there
    obtain ⟨z', old', _, same₂, _⟩ := row k' y' there'
    exact h.unshared k k' z z' t old old' (same₁ ▸ started) (same₂ ▸ started')
  · intro t inside
    rw [rooms] at inside
    obtain ⟨k, z, there, started⟩ := h.owner t inside
    obtain ⟨y, now, _, same'⟩ := forth k z there
    exact ⟨k, y, now, same'.trans started⟩

theorem mem_of_entryOf? {room : Uuid} {e : Nat} (current : r.entryOf? room = some e) :
    (room, e) ∈ r.registered := by
  obtain ⟨before, after, split, _⟩ := List.lookup_eq_some_iff.1 current
  rw [split]
  simp

theorem Owned.entry_of_current (h : r.Owned) {room : Uuid} {e : Nat}
    (current : r.entryOf? room = some e) : ∃ x, r.entries[e]? = some x ∧ x.roomId = room :=
  h.listed room e (mem_of_entryOf? current)

/-- The stream of the registered entry of a room is one of that room. -/
theorem Owned.roomId_of_current (h : r.Owned) {room : Uuid} {e t : Nat} {x : Entry} {st : Stream}
    (current : r.entryOf? room = some e) (here : r.entries[e]? = some x)
    (stream : x.stream = some t) (there : r.streams[t]? = some st) : st.roomId = room := by
  obtain ⟨y, here', named⟩ := h.entry_of_current current
  obtain rfl : x = y := Option.some.inj (here.symm.trans here')
  exact (h.stream_roomId here (Entry.started_of_stream stream) there).trans named

theorem not_mem_of_entryOf? {room : Uuid} (new : r.entryOf? room = none) :
    room ∉ r.registered.map (·.1) := by
  intro there
  obtain ⟨row, listed, eq⟩ := List.mem_map.1 there
  have other := List.lookup_eq_none_iff.1 new row listed
  simp [eq] at other

theorem Owned.current_of_mem (h : r.Owned) {room : Uuid} {e : Nat}
    (listed : (room, e) ∈ r.registered) : r.entryOf? room = some e :=
  lookup_of_mem h.single listed

/-- No entry is registered twice. -/
theorem Owned.entries_nodup (h : r.Owned) : (r.registered.map (·.2)).Nodup := by
  refine List.Nodup.map_on ?_ h.single.of_map
  rintro ⟨room, e⟩ there ⟨room', e'⟩ there' same
  obtain rfl : e = e' := same
  obtain ⟨x, here, named⟩ := h.listed room e there
  obtain ⟨x', here', named'⟩ := h.listed room' e there'
  obtain rfl : x = x' := Option.some.inj (here.symm.trans here')
  rw [← named, ← named']

/-- A new entry is registered. -/
theorem Owned.create (h : r.Owned) {i : Nat} {s : Subscriber} (found : r.subscribers[i]? = some s)
    (phase : s.phase = .creating) (new : r.entryOf? s.roomId = none) :
    ((r.register s.roomId).setSubscriber i (.arriving r.entries.size)).Owned := by
  have old : ∀ (e : Nat) (x : Entry), r.entries[e]? = some x →
      (r.register s.roomId).entries[e]? = some x :=
    fun e x here => getElem?_push_some.2 (.inl here)
  have latest : (r.register s.roomId).entries[r.entries.size]? =
      some ⟨s.roomId, none, none, false, []⟩ := getElem?_push_some.2 (.inr ⟨rfl, rfl⟩)
  -- The new entry has no stream, so whatever is said of streams is about old entries.
  have back : ∀ (e : Nat) (x : Entry) (t : Nat), (r.register s.roomId).entries[e]? = some x →
      x.started = some t → r.entries[e]? = some x := by
    intro e x t here started
    obtain here | ⟨_, rfl⟩ := getElem?_push_some.1 here
    · exact here
    · cases started
  constructor
  · intro j s' found'
    obtain ⟨_, same⟩ | ⟨rfl, s₁, same, rfl⟩ := getElem?_modify_some.1 found'
    · constructor
      · intro e asked
        obtain ⟨x, here, room⟩ := (h.placed j s' same).named e asked
        exact ⟨x, old e x here, room⟩
      · intro e p works
        obtain ⟨x, here, rest⟩ := (h.placed j s' same).working e p works
        exact ⟨x, old e x here, rest⟩
    · obtain rfl : s = s₁ := Option.some.inj (found.symm.trans same)
      exact placed_named rfl rfl latest rfl
  · intro room e there
    obtain eq | there := List.mem_cons.1 there
    · obtain ⟨rfl, rfl⟩ := Prod.mk.inj eq
      exact ⟨_, latest, rfl⟩
    · obtain ⟨x, here, room⟩ := h.listed room e there
      exact ⟨x, old e x here, room⟩
  · exact List.nodup_cons.2 ⟨not_mem_of_entryOf? new, h.single⟩
  · intro e x t here bare pulls
    have started : x.started = some t := by rw [Entry.started, bare, pulls]; rfl
    obtain ⟨j, s', found', starting⟩ := h.pending e x t (back e x t here started) bare pulls
    refine ⟨j, s', getElem?_modify_some.2 (.inl ⟨?_, found'⟩), starting⟩
    rintro rfl
    obtain rfl : s = s' := Option.some.inj (found.symm.trans found')
    rw [phase] at starting
    cases starting
  · intro e x t p here streams
    have started : x.started = some t := Entry.started_of_stream streams
    exact h.pulled e x t p (back e x t here started) streams
  · intro e x t here started
    exact h.streamed e x t (back e x t here started) started
  · intro e e' x x' t here here' started started'
    exact h.unshared e e' x x' t (back e x t here started) (back e' x' t here' started') started
      started'
  · intro t inside
    obtain ⟨e, x, here, started⟩ := h.owner t inside
    exact ⟨e, x, old e x here, started⟩

theorem rooms_modifyStream (t : Nat) (f : Stream → Stream)
    (same : ∀ st, (f st).roomId = st.roomId) : (r.modifyStream t f).rooms = r.rooms :=
  map_modify_of_same same

theorem rooms_perform (t : Nat) (op : Room.Op Event) :
    (r.modifyStream t (·.perform op)).rooms = r.rooms :=
  rooms_modifyStream _ _ fun _ => rfl

theorem Stream.Pull.roomId {store : Store} {st st' : Stream} (went : st.Pull store st') :
    st'.roomId = st.roomId := by
  cases went <;> rfl

theorem rooms_pull {t : Nat} {st st' : Stream} (there : r.streams[t]? = some st)
    (went : st.Pull r.store st') : (r.modifyStream t fun _ => st').rooms = r.rooms := by
  have same : r.modifyStream t (fun _ => st') =
      r.modifyStream t fun st => { st' with roomId := st.roomId } := by
    refine modifyStream_congr fun st₁ found => ?_
    obtain rfl : st = st₁ := Option.some.inj (there.symm.trans found)
    rw [← went.roomId]
  rw [same]
  exact rooms_modifyStream _ _ fun _ => rfl

theorem rooms_injectFault (room : Uuid) (f : Fault) : (r.injectFault room f).rooms = r.rooms := by
  rw [rooms, injectFault]
  rw [Array.map_map]
  refine congrArg (r.streams.map ·) (funext fun st => ?_)
  show (if _ then _ else _ : Stream).roomId = st.roomId
  split_ifs <;> rfl

/-- A stream is started for the entry for which its subscriber has asked for a feed. -/
theorem Owned.watched (h : r.Owned) {i e : Nat} {s : Subscriber} {store : Store}
    {feed : Store.Feed} (found : r.subscribers[i]? = some s) (phase : s.phase = .watching e) :
    (((r.openStream s.roomId store feed).modifyEntry e
      fun x => { x with puller := some r.streams.size }).setSubscriber i
      (.starting e r.streams.size)).Owned := by
  obtain ⟨x, here, room, head, live, bare, none⟩ := h.watches found phase
  have size : r.rooms.size = r.streams.size := Array.size_map
  have rooms : (r.openStream s.roomId store feed).rooms = r.rooms.push s.roomId := Array.map_push
  have unstarted : x.started = .none := by rw [Entry.started, bare, none]; rfl
  -- The entry at hand has got the new stream; the others have kept theirs.
  have replaced := Replaced.modify (fun x => { x with puller := some r.streams.size }) here
  have named : ∀ (k : Nat) (z : Entry), r.entries[k]? = some z →
      ∃ y, (r.entries.modify e fun x => { x with puller := some r.streams.size })[k]? = some y ∧
        y.roomId = z.roomId := by
    intro k z there
    obtain ⟨_, still⟩ | ⟨rfl, rfl⟩ := replaced.forth there
    · exact ⟨z, still, rfl⟩
    · exact ⟨_, replaced.here, rfl⟩
  refine ⟨?_, ?_, h.single, ?_, ?_, ?_, ?_, ?_⟩
  · intro j s' found'
    obtain ⟨other, same⟩ | ⟨rfl, s₁, same, rfl⟩ := getElem?_modify_some.1 found'
    · constructor
      · intro k asked
        obtain ⟨z, there, same⟩ := (h.placed j s' same).named k asked
        obtain ⟨y, there', room'⟩ := named k z there
        exact ⟨y, there', room'.trans same⟩
      · intro k p works
        obtain ⟨z, there, head', rest⟩ := (h.placed j s' same).working k p works
        obtain ⟨_, still⟩ | ⟨rfl, rfl⟩ := replaced.forth there
        · exact ⟨z, still, head', rest⟩
        · exact absurd (Holder.subscriber.inj (Option.some.inj (head.symm.trans head'))) other
    · obtain rfl : s = s₁ := Option.some.inj (found.symm.trans same)
      constructor
      · intro k asked
        obtain rfl := Option.some.inj asked
        exact ⟨_, replaced.here, room⟩
      · intro k p works
        obtain ⟨rfl, rfl⟩ := Prod.mk.inj (Option.some.inj works)
        exact ⟨_, replaced.here, head, live, bare, rfl⟩
  · intro room' k listed
    obtain ⟨z, there, same⟩ := h.listed room' k listed
    obtain ⟨y, there', room''⟩ := named k z there
    exact ⟨y, there', room''.trans same⟩
  · intro k y t there bare' pulls
    obtain ⟨_, there'⟩ | ⟨rfl, rfl⟩ := replaced.back there
    · obtain ⟨j, s', found', starting⟩ := h.pending k y t there' bare' pulls
      refine ⟨j, s', getElem?_modify_some.2 (.inl ⟨?_, found'⟩), starting⟩
      rintro rfl
      obtain rfl : s = s' := Option.some.inj (found.symm.trans found')
      rw [phase] at starting
      cases starting
    · obtain rfl := Option.some.inj pulls
      exact ⟨i, _, getElem?_modify_some.2 (.inr ⟨rfl, s, found, rfl⟩), rfl⟩
  · intro k y t p there streams pulls
    obtain ⟨_, there'⟩ | ⟨rfl, rfl⟩ := replaced.back there
    · exact h.pulled k y t p there' streams pulls
    · rw [bare] at streams
      cases streams
  · intro k y t there started
    refine (congrArg (·[t]?) rooms).trans ?_
    obtain ⟨_, there'⟩ | ⟨rfl, rfl⟩ := replaced.back there
    · exact getElem?_push_some.2 (.inl (h.streamed k y t there' started))
    · rw [Entry.started, bare] at started
      obtain rfl := Option.some.inj started
      exact getElem?_push_some.2 (.inr ⟨size.symm, room.symm⟩)
  · intro k k' y y' t there there' started started'
    obtain ⟨_, old⟩ | ⟨rfl, rfl⟩ := replaced.back there
    · obtain ⟨_, old'⟩ | ⟨rfl, rfl⟩ := replaced.back there'
      · exact h.unshared k k' y y' t old old' started started'
      · rw [Entry.started, bare] at started'
        obtain rfl := Option.some.inj started'
        exact absurd (h.started_lt old started) (Nat.lt_irrefl _)
    · obtain ⟨_, old'⟩ | ⟨rfl, rfl⟩ := replaced.back there'
      · rw [Entry.started, bare] at started
        obtain rfl := Option.some.inj started
        exact absurd (h.started_lt old' started') (Nat.lt_irrefl _)
      · rfl
  · intro t inside
    replace inside := (congrArg Array.size rooms) ▸ inside
    rw [Array.size_push] at inside
    by_cases new : t = r.rooms.size
    · refine ⟨e, _, replaced.here, ?_⟩
      rw [Entry.started, bare, new, size]
      rfl
    · obtain ⟨k, z, there, started⟩ := h.owner t (by omega)
      obtain ⟨_, still⟩ | ⟨rfl, rfl⟩ := replaced.forth there
      · exact ⟨k, z, still, started⟩
      · rw [unstarted] at started
        cases started

/-- A subscriber gives its lock back and goes on. -/
theorem Owned.leaveLock (h : r.Owned) {i e : Nat} {s : Subscriber} {q : Subscribing}
    (found : r.subscribers[i]? = some s) (idle : ∀ k t, s.phase ≠ .starting k t)
    (lazy : q.works? = none) (same : ∀ k, q.entry? = some k → s.phase.entry? = some k) :
    ((r.release e (.subscriber i)).setSubscriber i q).Owned := by
  have entries := relocked_release r e (.subscriber i) (· = i)
    fun j eq => (Holder.subscriber.inj eq).symm
  refine h.turn found idle entries (List.Sublist.refl _) rfl rfl ?_
  cases asked : q.entry? with
  | none => exact placed_nowhere asked
  | some k =>
      obtain ⟨x, here, room⟩ := (h.placed i s found).named k (same k asked)
      obtain ⟨lock, here', _⟩ := entries.row k x here
      exact placed_named asked lazy here' room

/-- A subscriber goes on and leaves all entries alone. -/
theorem Owned.walk (h : r.Owned) {i : Nat} {s : Subscriber} {q : Subscribing}
    (found : r.subscribers[i]? = some s) (idle : ∀ e t, s.phase ≠ .starting e t)
    (placed : r.Placed i { s with phase := q }) : (r.setSubscriber i q).Owned :=
  h.turn found idle (Relocked.refl _ _) (List.Sublist.refl _) rfl rfl
    (placed.relocked (fun _ => False) (Relocked.refl _ _) id)

theorem idle_of_unlocked {p : Subscribing} (unlocked : p.lock? = none) (e t : Nat) :
    p ≠ .starting e t := by
  rintro rfl
  cases unlocked

/-- A subscriber completes the start of a stream. -/
theorem Owned.complete (h : r.Owned) {i e t : Nat} {s : Subscriber} {q : Subscribing}
    {streams : Array Stream} (found : r.subscribers[i]? = some s)
    (phase : s.phase = .starting e t) (rooms : streams.map (·.roomId) = r.rooms)
    (lazy : q.works? = none) (same : ∀ k, q.entry? = some k → e = k) :
    ((({ r with streams : Registry }.modifyEntry e fun x => { x with stream := some t }).release e
      (.subscriber i)).setSubscriber i q).Owned := by
  obtain ⟨x, here, room, head, live, bare, pulls⟩ := h.starts found phase
  have entries : ∀ k, ((r.entries.modify e fun x => { x with stream := some t }).modify e
      fun x => { x with lock := x.lock.filter (· ≠ .subscriber i) })[k]? =
      if e = k then
        some { x with stream := some t, lock := x.lock.filter (· ≠ .subscriber i) }
      else r.entries[k]? := by
    intro k
    rw [modify_modify]
    exact getElem?_modify_of _ here k
  refine h.settle here entries rfl ?_ (fun bare => ?_) (fun t' p streams pulls' => ?_)
    (List.Sublist.refl _) rooms ?_ ?_
  · rw [Entry.started, Entry.started, bare, pulls]
    rfl
  · cases bare
  · rw [← Option.some.inj streams]
    exact Option.some.inj (pulls'.symm.trans pulls)
  · intro j s' found'
    obtain ⟨other, old⟩ | ⟨rfl, s₁, old, rfl⟩ := getElem?_modify_some.1 found'
    · refine .inl ⟨old, fun p works => ?_⟩
      obtain ⟨y, there, head', _⟩ := (h.placed j s' old).working e p works
      obtain rfl : x = y := Option.some.inj (here.symm.trans there)
      exact other (Holder.subscriber.inj (Option.some.inj (head.symm.trans head')))
    · obtain rfl : s = s₁ := Option.some.inj (found.symm.trans old)
      refine .inr ?_
      cases asked : q.entry? with
      | none => exact placed_nowhere asked
      | some k =>
          obtain rfl := same k asked
          exact placed_named asked lazy ((entries e).trans (if_pos rfl)) room
  · intro j s' k t' found' starting other
    refine getElem?_modify_some.2 (.inl ⟨?_, found'⟩)
    rintro rfl
    obtain rfl : s = s' := Option.some.inj (found.symm.trans found')
    rw [phase] at starting
    cases starting
    exact other rfl

/-- An entry that nobody is busy with is retired. -/
theorem Owned.retired (h : r.Owned) {e : Nat} {x x' : Entry} (here : r.entries[e]? = some x)
    (away : ∀ j, x.lock.head? ≠ some (.subscriber j))
    (entries : ∀ k, r'.entries[k]? = if e = k then some x' else r.entries[k]?)
    (room : x'.roomId = x.roomId) (stream : x'.stream = x.stream)
    (puller : x'.puller = x.puller ∨ x'.puller = none)
    (registered : r'.registered.Sublist r.registered) (rooms : r'.rooms = r.rooms)
    (subscribers : r'.subscribers = r.subscribers) : r'.Owned := by
  have quiet : x.stream = none → x.puller = none :=
    fun bare => h.settled here bare fun i s t _ _ => away i
  refine h.settle here entries room ?_ ?_ ?_ registered rooms ?_ ?_
  · rw [Entry.started, Entry.started, stream]
    cases streams : x.stream with
    | some t => rfl
    | none =>
        obtain same | none := puller
        · rw [same]
        · rw [none, quiet streams]
  · intro bare
    obtain same | none := puller
    · rw [same]
      exact quiet (stream ▸ bare)
    · exact none
  · intro t p streams pulls
    obtain same | none := puller
    · exact h.pulled e x t p here (stream ▸ streams) (same ▸ pulls)
    · rw [none] at pulls
      cases pulls
  · intro j s found
    rw [subscribers] at found
    refine .inl ⟨found, fun p works => ?_⟩
    obtain ⟨y, there, head, _⟩ := (h.placed j s found).working e p works
    obtain rfl : x = y := Option.some.inj (here.symm.trans there)
    exact away j head
  · intro j s k t found phase _
    rw [subscribers]
    exact found

theorem reclaimable_iff {e : Nat} {x : Entry} (here : r.entries[e]? = some x) :
    r.reclaimable e = true ↔
      r.entryOf? x.roomId = some e ∧ x.lock = [] ∧ x.retired = false ∧ r.readersOf e = 0 := by
  simp [reclaimable, here, and_assoc]

/-- What it is to reclaim an entry that may be. -/
theorem reclaim_eq {e : Nat} {x : Entry} (here : r.entries[e]? = some x)
    (may : r.reclaimable e = true) :
    r.reclaim e = { r with
      entries := r.entries.modify e fun x => { x with retired := true }
      registered := r.registered.filter (·.1 ≠ x.roomId)
      closers := r.closers ++ #[⟨e, .arriving⟩]
      reclaims := r.reclaims ++ [r.closers.size] } := by
  simp [reclaim, here, may, addClosers, unregister, modifyEntry]

theorem Owned.move {a : Action} (h : r.Owned) (m : Move r a r') : r'.Owned := by
  cases m with
  | subscribe room =>
      refine h.change (fun _ => False) (Relocked.refl _ _) (List.Sublist.refl _) rfl ?_ ?_
      · intro j s found
        obtain old | ⟨_, rfl⟩ := getElem?_push_some.1 found
        · exact .inl ⟨id, old⟩
        · exact .inr (placed_nowhere rfl)
      · intro j s e t found _
        exact getElem?_push_some.2 (.inl found)
  | walk found walks =>
      exact h.walk found (idle_of_unlocked walks.free.1) (placed_nowhere walks.nowhere.1)
  | find found phase current =>
      obtain ⟨x, here, room⟩ := h.entry_of_current current
      exact h.walk found (idle_of_unlocked (Subscribing.unlocked phase))
        (placed_named rfl rfl here room)
  | create found phase up new => exact h.create found phase new
  | @ask a i e s found phase =>
      have entries := relocked_enqueue r e (.subscriber i) (· = i)
      obtain ⟨x, here, room⟩ := (h.placed i s found).named e (by rw [phase]; rfl)
      obtain ⟨lock, here', _⟩ := entries.row e x here
      refine h.turn found (fun k t eq => ?_) entries (List.Sublist.refl _) rfl rfl
        (placed_named rfl rfl here' room)
      rw [phase] at eq
      cases eq
  | @turnAway a i e s x found phase here head dead =>
      refine h.leaveLock found (fun k t eq => ?_) rfl fun k eq => ?_
      · rw [phase] at eq
        cases eq
      · rw [phase]
        exact eq
  | @join i e t s x st found phase here head live stream there running =>
      have joined : (r.modifyStream t (·.perform .join)).Owned :=
        h.frame rfl rfl (rooms_perform t .join) rfl
      refine joined.leaveLock found (fun k t eq => ?_) rfl fun k eq => ?_
      · rw [phase] at eq
        cases eq
      · cases eq
  | @watch a i e s x found phase here head live bare =>
      obtain ⟨x₁, here₁, room⟩ := (h.placed i s found).named e (by rw [phase]; rfl)
      obtain rfl : x = x₁ := Option.some.inj (here.symm.trans here₁)
      have pulls : x.puller = none := by
        refine h.settled here bare fun j s' t found' starting head' => ?_
        obtain rfl : i = j := Holder.subscriber.inj (Option.some.inj (head.symm.trans head'))
        obtain rfl : s = s' := Option.some.inj (found.symm.trans found')
        rw [phase] at starting
        cases starting
      refine h.walk found (fun k t eq => ?_) ⟨fun k asked => ?_, fun k p works => ?_⟩
      · rw [phase] at eq
        cases eq
      · obtain rfl := Option.some.inj asked
        exact ⟨x, here, room⟩
      · obtain ⟨rfl, rfl⟩ := Prod.mk.inj (Option.some.inj works)
        exact ⟨x, here, head, live, bare, pulls⟩
  | watched found phase opened => exact h.watched found phase
  | @fail i e s err found phase other =>
      refine h.leaveLock found (fun k t eq => ?_) rfl fun k eq => ?_
      · rw [phase] at eq
        cases eq
      · cases eq
  | @failClosed i e s found phase =>
      refine h.leaveLock found (fun k t eq => ?_) rfl fun k eq => ?_
      · rw [phase] at eq
        cases eq
      · rw [phase]
        exact eq
  | start found phase there running =>
      exact h.complete found phase (rooms_perform _ .join) rfl fun k eq => by cases eq
  | startDead found phase stopped =>
      exact h.complete found phase rfl rfl fun k eq => Option.some.inj eq
  | @remove i e s found phase current =>
      refine h.turn found (fun k t eq => ?_) (Relocked.refl _ _) List.filter_sublist rfl rfl
        (placed_nowhere rfl)
      rw [phase] at eq
      cases eq
  | @abort i e s found phase =>
      refine h.leaveLock found (fun k t eq => ?_) rfl fun k eq => ?_
      · obtain phase | phase := phase
        · rw [phase] at eq
          cases eq
        · rw [phase] at eq
          cases eq
      · cases eq
  | @askToClose a j c found phase =>
      refine h.change (fun _ => False) (relocked_enqueue r c.entry (.closer j) _)
        (List.Sublist.refl _) rfl (fun i s found => .inl ⟨id, found⟩) fun i s e t found _ => found
  | @retire a j c x found phase here head =>
      have entries : ∀ k, ((r.entries.modify c.entry fun x =>
          { x with retired := true, puller := none }).modify c.entry
          fun x => { x with lock := x.lock.filter (· ≠ .closer j) })[k]? =
          if c.entry = k then some { x with
            retired := true, puller := none, lock := x.lock.filter (· ≠ .closer j) }
          else r.entries[k]? := by
        intro k
        rw [modify_modify]
        exact getElem?_modify_of _ here k
      refine h.retired here (fun i head' => ?_) entries rfl rfl (.inr rfl) (List.Sublist.refl _) rfl
        rfl
      rw [head] at head'
      cases head'
  | @reclaim a e x here may =>
      rw [reclaim_eq here may]
      obtain ⟨_, free, _⟩ := (reclaimable_iff here).1 may
      refine h.retired here (fun i head => ?_) (fun k => getElem?_modify_of _ here k) rfl rfl
        (.inl rfl) List.filter_sublist rfl rfl
      rw [free] at head
      cases head
  | drain found =>
      exact h.change (fun _ => False) (Relocked.refl _ _) (List.nil_sublist _) rfl
        (fun i s found => .inl ⟨id, found⟩) fun i s e t found _ => found
  | closeWindow found phase stream => exact h.frame rfl rfl (rooms_perform _ .close) rfl
  | fault room f => exact h.frame rfl rfl (rooms_injectFault room f) rfl
  | pull there went => exact h.frame rfl rfl (rooms_pull there went) rfl
  | close there closing => exact h.frame rfl rfl (rooms_modifyStream _ _ fun _ => rfl) rfl
  | use used => exact h.frame rfl rfl (rooms_perform _ _) rfl
  | closeNothing | closed | shutdown | goDown | drained | take | stop | patrol | emit | endFeed =>
      exact h.frame rfl rfl rfl rfl

/-- What every move keeps is kept by an action. -/
theorem Moves.preserve {a : Action} {P : Registry → Prop}
    (step : ∀ {r r' : Registry}, P r → Move r a r' → P r') (start : P r) (m : Moves r a r') :
    P r' := by
  induction m with
  | refl => exact start
  | tail _ last ih => exact step ih last

theorem Owned.perform {a : Action} (h : r.Owned) (did : r.perform? a = some r') : r'.Owned :=
  Moves.preserve Owned.move h (perform?_moves h.fresh did)

/-- What every move keeps while the books are in order is kept by a run. -/
theorem Owned.run {P : Registry → Prop} {acts : List Action}
    (keeps : ∀ {r r' : Registry} {a : Action}, a ∈ acts → r.Owned → P r → Move r a r' → P r')
    (h : r.Owned) (start : P r) (ran : r.run? acts = some r') : r'.Owned ∧ P r' := by
  induction acts generalizing r with
  | nil =>
      obtain rfl := Option.some.inj ran
      exact ⟨h, start⟩
  | cons a acts ih =>
      obtain ⟨r₁, did, rest⟩ := Option.bind_eq_some_iff.1 ran
      have next : r₁.Owned ∧ P r₁ := by
        refine Moves.preserve (P := fun r => r.Owned ∧ P r) ?_ ⟨h, start⟩
          (perform?_moves h.fresh did)
        rintro r r' ⟨owned, kept⟩ m
        exact ⟨owned.move m, keeps List.mem_cons_self owned kept m⟩
      exact ih (fun among => keeps (List.mem_cons_of_mem a among)) next.1 next.2 rest

section Accounts

variable {α : Type} {see : Registry → Action → Option α} {P : Registry → List α → Prop}
  (patrols : ∀ (r : Registry) (i : Nat), see r (.step (.collector i)) = none)
  (step : ∀ {r r' : Registry} {a : Action} {l : List α}, r.Owned → P r l → Move r a r' →
    P r' (l ++ (see r a).toList))

include patrols step

/-- An account of what is seen of moves is an account of what is seen of actions, as long as nothing
is seen of the steps of collectors, which are the only ones that are not single moves. -/
theorem Owned.account {a : Action} {l : List α} (h : r.Owned) (before : P r l)
    (did : r.perform? a = some r') : P r' (l ++ (see r a).toList) := by
  by_cases collects : ∃ i, a = .step (.collector i)
  · obtain ⟨i, rfl⟩ := collects
    have kept : r'.Owned ∧ P r' l := by
      refine Moves.preserve (P := fun r => r.Owned ∧ P r l) ?_ ⟨h, before⟩
        (perform?_moves h.fresh did)
      rintro r r' ⟨owned, before⟩ m
      have next := step owned before m
      rw [patrols, Option.toList_none, List.append_nil] at next
      exact ⟨owned.move m, next⟩
    rw [patrols, Option.toList_none, List.append_nil]
    exact kept.2
  · exact step h before (perform?_move h.fresh (fun i eq => collects ⟨i, eq⟩) did)

theorem run?_account {capacity channelCapacity : Nat} {acts : List Action}
    (start : P (.empty capacity channelCapacity) [])
    (ran : (Registry.empty capacity channelCapacity).run? acts = some r) :
    P r (seen see (.empty capacity channelCapacity) acts) := by
  have both : r.Owned ∧ P r (seen see (.empty capacity channelCapacity) acts) := by
    refine run?_induction (P := fun acts r =>
      r.Owned ∧ P r (seen see (.empty capacity channelCapacity) acts))
      ⟨empty_owned capacity channelCapacity, start⟩ ?_ ran
    rintro acts a r r' ran ⟨owned, before⟩ did
    rw [seen_snoc see a ran]
    exact ⟨owned.perform did, owned.account patrols step before did⟩
  exact both.2

end Accounts

/-- A list without repetitions of which all have a property. -/
structure Once (P : Nat → Prop) (l : List Nat) : Prop where
  nodup : l.Nodup
  all : ∀ n ∈ l, P n

/-- What is seen only before it is done, and is done then and for ever, is seen once. -/
theorem run?_once {see : Registry → Action → Option Nat} {P : Registry → Nat → Prop}
    (keeps : ∀ {r r' : Registry} {a : Action} {n : Nat}, r.Owned → P r n → Move r a r' →
      P r' n)
    (fresh : ∀ {r r' : Registry} {a : Action} {n : Nat}, r.Owned → see r a = some n →
      r.perform? a = some r' → ¬ P r n ∧ P r' n)
    {capacity channelCapacity : Nat} {acts : List Action}
    (ran : (Registry.empty capacity channelCapacity).run? acts = some r) :
    Once (P r) (seen see (.empty capacity channelCapacity) acts) := by
  have both : r.Owned ∧ Once (P r) (seen see (.empty capacity channelCapacity) acts) := by
    refine run?_induction (P := fun acts r =>
      r.Owned ∧ Once (P r) (seen see (.empty capacity channelCapacity) acts))
      ⟨empty_owned capacity channelCapacity, List.nodup_nil, nofun⟩ ?_ ran
    rintro acts a r r' ran ⟨owned, once⟩ did
    have still : r'.Owned ∧ ∀ n ∈ seen see (.empty capacity channelCapacity) acts,
        P r' n := by
      refine Moves.preserve (P := fun r => r.Owned ∧ ∀ n ∈ seen see _ acts, P r n) ?_
        ⟨owned, once.all⟩ (perform?_moves owned.fresh did)
      rintro r r' ⟨owned, before⟩ m
      exact ⟨owned.move m, fun n among => keeps owned (before n among) m⟩
    rw [seen_snoc see a ran]
    cases sees : see r a with
    | none =>
        rw [Option.toList_none, List.append_nil]
        exact ⟨still.1, once.nodup, still.2⟩
    | some n =>
        obtain ⟨new, done⟩ := fresh owned sees did
        refine ⟨still.1, List.nodup_append.2 ⟨once.nodup, List.nodup_singleton n, ?_⟩, ?_⟩
        · rintro k among k' last rfl
          obtain rfl := List.mem_singleton.1 last
          exact new (once.all k among)
        · intro k among
          obtain before | last := List.mem_append.1 among
          · exact still.2 k before
          · obtain rfl := List.mem_singleton.1 last
            exact done
  exact both.2

/-- The books of a registry that began empty are in order. -/
theorem run?_owned {capacity channelCapacity : Nat} {acts : List Action}
    (ran : (Registry.empty capacity channelCapacity).run? acts = some r) : r.Owned :=
  run?_induction (P := fun _ r => r.Owned) (empty_owned capacity channelCapacity)
    (fun _ _ _ _ _ h did => h.perform did) ran

end Roomcast.Registry

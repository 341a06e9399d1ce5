import Roomcast.Proofs.Likeness

/-!
# Rooms that do not wait for each other

While the store opens or closes a feed of one room, its entry is locked or its puller waits. Nobody
else waits for that. Whatever is done elsewhere, by subscribers of other rooms, by their pullers and
readers, by closers of their entries and by collectors, can be done just as well and leads to the
same results in any registry that is alike apart from that room. A collector looks at every entry
that it has noted, but what it finds in one room has no bearing on the others.
-/

namespace Roomcast.Registry

open Store (Feed)

variable {r r₁ r' r₁' : Registry} {a : Action} {room : Uuid} {i e t : Nat} {s : Subscriber}

namespace Alike

theorem streams_none (h : r.Alike room r₁) (missing : r.streams[t]? = none) :
    r₁.streams[t]? = none := by
  rw [Array.getElem?_eq_none_iff, h.streams.size]
  exact Array.getElem?_eq_none_iff.1 missing

theorem joinStream (h : r.Alike room r₁)
    (elsewhere : ∀ st, r.streams[t]? = some st → st.roomId ≠ room) :
    (r.joinStream t).1.Alike room (r₁.joinStream t).1 ∧
      (r₁.joinStream t).2 = (r.joinStream t).2 := by
  cases there : r.streams[t]? with
  | none =>
      simp only [Registry.joinStream, there, h.streams_none there]
      exact ⟨h, trivial⟩
  | some st =>
      simp only [Registry.joinStream, there, h.stream there (elsewhere st there)]
      cases st.room.join with
      | error err => exact ⟨h, rfl⟩
      | ok joined => exact ⟨h.modifyStream (fun _ _ other => ⟨other, rfl⟩) elsewhere, rfl⟩

theorem conclude (h : r.Alike room r₁) (result : Except StreamError Reader) :
    (r.conclude i e result).Alike room (r₁.conclude i e result) := by
  unfold Registry.conclude
  split <;> exact (h.release i).setSubscriber i _

theorem enter (h : r.Alike room r₁) (owned : r.Owned) {x y : Entry}
    (here : r.entries[e]? = some x) (elsewhere : x.roomId ≠ room) (like : x.Like y) :
    (r.enter i e x).Alike room (r₁.enter i e y) := by
  rw [Registry.enter, Registry.enter, like.retired, like.stream]
  split_ifs
  · exact h.conclude _
  · cases stream : x.stream with
    | none => exact h.setSubscriber i _
    | some t =>
        have own : ∀ st, r.streams[t]? = some st → st.roomId ≠ room := fun st there => by
          rw [owned.stream_roomId here (Entry.started_of_stream stream) there]
          exact elsewhere
        obtain ⟨joined, same⟩ := h.joinStream own
        dsimp only
        rw [same]
        exact joined.conclude _

theorem complete (h : r.Alike room r₁) (owned : r.Owned) (found : r.subscribers[i]? = some s)
    (phase : s.phase = .starting e t) (elsewhere : s.roomId ≠ room) :
    (r.complete i e t).Alike room (r₁.complete i e t) := by
  obtain ⟨x, here, own, _, _, bare, pulls⟩ := owned.starts found phase
  have started : x.started = some t := by rw [Entry.started, bare, pulls, Option.none_or]
  have streams : ∀ st, r.streams[t]? = some st → st.roomId ≠ room := fun st there => by
    rw [owned.stream_roomId here started there, own]
    exact elsewhere
  obtain ⟨joined, same⟩ := h.joinStream streams
  have entries : (r.joinStream t).1.entries = r.entries := by
    obtain ⟨_, _, _, eq⟩ | ⟨_, eq⟩ := joinStream_eq r t
    · rw [eq]
      rfl
    · rw [eq]
  have known := joined.streamOf? (e := e) (by rw [entries]; exact here)
    (by rw [own]; exact elsewhere)
  let start (x : Entry) : Entry := { x with stream := some t }
  have begun : ((r.joinStream t).1.modifyEntry e start).Alike room
      ((r₁.joinStream t).1.modifyEntry e start) :=
    joined.modifyEntry_same (fun _ => rfl) fun x y like => { like with stream := rfl }
  simp only [Registry.complete, known, same]
  split
  · exact joined.conclude _
  · exact begun.conclude _

theorem holds_subscriber (h : r.Alike room r₁) {x : Entry} (here : r.entries[e]? = some x)
    (elsewhere : x.roomId ≠ room) (i : Nat) :
    r₁.holds e (.subscriber i) = r.holds e (.subscriber i) := by
  have head : ∀ l : List Holder, (l.head? = some (.subscriber i)) ↔
      (l.map Holder.subscriber?).head? = some (some i) := by
    intro l
    cases l with
    | nil => simp
    | cons who rest => cases who <;> simp [Holder.subscriber?]
  obtain ⟨y, here₁, like⟩ := h.entry here elsewhere
  simp only [Registry.holds, here, here₁, Option.any_some, head, like.lock]

/-- A subscriber of another room goes on in the same way. -/
theorem stepSubscriber? (h : r.Alike room r₁) (owned : r.Owned)
    (found : r.subscribers[i]? = some s) (elsewhere : s.roomId ≠ room)
    (went : r.stepSubscriber? i = some r') :
    ∃ r₁', r₁.stepSubscriber? i = some r₁' ∧ r'.Alike room r₁' := by
  have found₁ := h.subscriber found elsewhere
  have current := h.current s.roomId elsewhere
  rw [Registry.stepSubscriber?, found] at went
  rw [Registry.stepSubscriber?, found₁]
  cases phase : s.phase with
  | checking =>
      simp only [phase, Option.some.injEq] at went ⊢
      subst went
      rw [← h.down]
      exact ⟨_, rfl, h.setSubscriber i _⟩
  | looking =>
      simp only [phase, current] at went ⊢
      cases known : r.entryOf? s.roomId with
      | none =>
          simp only [known, Option.some.injEq] at went
          subst went
          exact ⟨_, rfl, h.setSubscriber i _⟩
      | some e =>
          simp only [known, Option.some.injEq] at went
          subst went
          exact ⟨_, rfl, h.setSubscriber i _⟩
  | creating =>
      simp only [phase, current, h.down] at went ⊢
      split_ifs at went ⊢
      · obtain rfl := Option.some.inj went
        exact ⟨_, rfl, h.setSubscriber i _⟩
      · cases known : r.entryOf? s.roomId with
        | none =>
            simp only [known, Option.some.injEq] at went
            subst went
            simp only [h.entries.size]
            exact ⟨_, rfl, (h.register elsewhere).setSubscriber i _⟩
        | some e =>
            simp only [known, Option.some.injEq] at went
            subst went
            exact ⟨_, rfl, h.setSubscriber i _⟩
  | arriving e =>
      simp only [phase, Option.some.injEq] at went ⊢
      subst went
      exact ⟨_, rfl, (h.enqueue rfl).setSubscriber i _⟩
  | queued e =>
      simp only [phase] at went ⊢
      obtain ⟨x, here, own⟩ := (owned.placed i s found).named e (by rw [phase]; rfl)
      have other : x.roomId ≠ room := own ▸ elsewhere
      obtain ⟨y, here₁, like⟩ := h.entry here other
      rw [h.holds_subscriber here other]
      split_ifs at went ⊢
      rw [here, Option.map_some, Option.some.injEq] at went
      subst went
      exact ⟨_, by rw [here₁, Option.map_some], h.enter owned here other like⟩
  | starting e t =>
      simp only [phase, Option.some.injEq] at went ⊢
      subst went
      exact ⟨_, rfl, h.complete owned found phase elsewhere⟩
  | removing e =>
      simp only [phase, current, Option.some.injEq] at went ⊢
      subst went
      refine ⟨_, rfl, ?_⟩
      split_ifs
      · exact (h.unregister _).setSubscriber i _
      · exact h.setSubscriber i _
  | watching e | done result | aborted => simp [phase] at went

/-- A subscriber of another room learns in the same way what has become of its feed. -/
theorem watched? (h : r.Alike room r₁) {failure : Option StreamError}
    (found : r.subscribers[i]? = some s) (elsewhere : s.roomId ≠ room)
    (went : r.watched? i failure = some r') :
    ∃ r₁', r₁.watched? i failure = some r₁' ∧ r'.Alike room r₁' := by
  rw [Registry.watched?, found] at went
  rw [Registry.watched?, h.subscriber found elsewhere]
  simp only at went ⊢
  split at went
  case h_1 e err phase =>
    obtain rfl := Option.some.inj went
    exact ⟨_, rfl, h.conclude _⟩
  case h_2 e phase =>
    obtain ⟨⟨store, feed⟩, opened, rfl⟩ := Option.map_eq_some_iff.1 went
    obtain ⟨store₁, opened₁, onward, agree⟩ := h.store.watch? elsewhere opened
    simp only [opened₁, Option.map_some, h.streams.size]
    refine ⟨_, rfl, Alike.setSubscriber ?_ i _⟩
    refine (h.openStream elsewhere onward agree).modifyEntry_same (fun _ => rfl) ?_
    exact fun x y like => { like with puller := rfl }
  case h_3 => cases went

theorem abort? (h : r.Alike room r₁) (found : r.subscribers[i]? = some s)
    (elsewhere : s.roomId ≠ room) (went : r.abort? i = some r') :
    ∃ r₁', r₁.abort? i = some r₁' ∧ r'.Alike room r₁' := by
  rw [Registry.abort?, found] at went
  rw [Registry.abort?, h.subscriber found elsewhere]
  simp only at went ⊢
  cases phase : s.phase with
  | queued e | watching e =>
      simp only [phase, Option.some.injEq] at went ⊢
      subst went
      exact ⟨_, rfl, (h.release i).setSubscriber i _⟩
  | starting e t | done result | aborted => simp [phase] at went
  | checking | looking | creating | arriving e | removing e =>
      simp only [phase, Option.some.injEq] at went ⊢
      subst went
      exact ⟨_, rfl, h.setSubscriber i _⟩

end Alike

section Closers

variable {j j₁ : Nat} {c c' : Closer} {x y : Entry}

/-- The closers that there are when the closer of an entry goes on. -/
theorem mem_setCloser (q : Closing) (found : r.closers[j]? = some c)
    (alone : ∀ (k : Nat) (d : Closer), r.closers[k]? = some d → d.entry = c.entry → k = j) :
    c' ∈ (r.setCloser j q).closers ↔
      c' = ⟨c.entry, q⟩ ∨ (c'.entry ≠ c.entry ∧ c' ∈ r.closers) := by
  rw [Array.mem_iff_getElem?, Array.mem_iff_getElem?]
  constructor
  · rintro ⟨k, there⟩
    obtain ⟨other, old⟩ | ⟨rfl, d, old, rfl⟩ := getElem?_modify_some.1 there
    · exact .inr ⟨fun same => other (alone k c' old same).symm, k, old⟩
    · obtain rfl := Option.some.inj (found.symm.trans old)
      exact .inl rfl
  · rintro (rfl | ⟨other, k, old⟩)
    · exact ⟨j, getElem?_modify_some.2 (.inr ⟨rfl, c, found, rfl⟩)⟩
    · refine ⟨k, getElem?_modify_some.2 (.inl ⟨?_, old⟩)⟩
      rintro rfl
      obtain rfl := Option.some.inj (found.symm.trans old)
      exact other rfl

/-- No closer but its own stands in the lock of an entry. -/
theorem Sane.only (sane : r.Sane) (found : r.closers[j]? = some c)
    (here : r.entries[c.entry]? = some x) (k : Nat) (stands : .closer k ∈ x.lock) : k = j := by
  have at? := (sane.locked.stands c.entry (.closer k)).1 ⟨x, here, stands⟩
  obtain ⟨d, there, asks⟩ := Option.bind_eq_some_iff.1 at?
  exact sane.books.tended.alone j k c d found there (Closer.lock?_eq_some.1 asks).2

/-- Whether the only closer in a list stands first. -/
theorem head_closer {l : List Holder} (only : ∀ k, .closer k ∈ l → k = j) :
    l.head? = some (.closer j) ↔ (l.map Holder.subscriber?).head? = some none := by
  cases l with
  | nil => simp
  | cons who rest =>
      cases who with
      | subscriber i => simp [Holder.subscriber?]
      | closer k =>
          obtain rfl := only k List.mem_cons_self
          simp [Holder.subscriber?]

/-- Who stands in a list without the only closer in it. -/
theorem filter_closer {l : List Holder} (only : ∀ k, .closer k ∈ l → k = j) :
    (l.filter (· ≠ .closer j)).map Holder.subscriber? =
      (l.map Holder.subscriber?).filter (· ≠ none) := by
  rw [List.filter_map]
  congr 1
  refine List.filter_congr fun who among => ?_
  cases who with
  | subscriber i => simp [Holder.subscriber?]
  | closer k =>
      obtain rfl := only k among
      simp [Holder.subscriber?]

namespace Alike

theorem setCloser (h : r.Alike room r₁) (found : r.closers[j]? = some c)
    (found₁ : r₁.closers[j₁]? = some c)
    (alone : ∀ (k : Nat) (d : Closer), r.closers[k]? = some d → d.entry = c.entry → k = j)
    (alone₁ : ∀ (k : Nat) (d : Closer), r₁.closers[k]? = some d → d.entry = c.entry → k = j₁)
    (q : Closing) : (r.setCloser j q).Alike room (r₁.setCloser j₁ q) where
  __ := h
  closers d other := by
    rw [mem_setCloser q found alone, mem_setCloser q found₁ alone₁, h.closers d other]

/-- The closer of an entry gives its lock back in both. -/
theorem leave (h : r.Alike room r₁)
    (only : ∀ x, r.entries[e]? = some x → ∀ k, .closer k ∈ x.lock → k = j)
    (only₁ : ∀ y, r₁.entries[e]? = some y → ∀ k, .closer k ∈ y.lock → k = j₁) :
    (r.release e (.closer j)).Alike room (r₁.release e (.closer j₁)) :=
  h.modifyEntry (fun _ => rfl) (fun _ => rfl) fun x y here here₁ _ like =>
    { like with
      lock := by rw [filter_closer (only x here), filter_closer (only₁ y here₁), like.lock] }

theorem holds_closer (h : r.Alike room r₁) (sane : r.Sane) (sane₁ : r₁.Sane)
    (found : r.closers[j]? = some c) (found₁ : r₁.closers[j₁]? = some c)
    (here : r.entries[c.entry]? = some x) (elsewhere : x.roomId ≠ room) :
    r₁.holds c.entry (.closer j₁) = r.holds c.entry (.closer j) := by
  obtain ⟨y, here₁, like⟩ := h.entry here elsewhere
  simp only [Registry.holds, here, here₁, Option.any_some, head_closer (sane.only found here),
    head_closer (sane₁.only found₁ here₁), like.lock]

theorem retire (h : r.Alike room r₁) (sane : r.Sane) (sane₁ : r₁.Sane)
    (found : r.closers[j]? = some c) (found₁ : r₁.closers[j₁]? = some c) (like : x.Like y) :
    (r.retire j c.entry x).Alike room (r₁.retire j₁ c.entry y) := by
  let gone (x : Entry) : Entry := { x with retired := true, puller := none }
  have retired : (r.modifyEntry c.entry gone).Alike room (r₁.modifyEntry c.entry gone) :=
    h.modifyEntry_same (fun _ => rfl) fun x y like => { like with puller := rfl, retired := rfl }
  have left : ((r.modifyEntry c.entry gone).release c.entry (.closer j)).Alike room
      ((r₁.modifyEntry c.entry gone).release c.entry (.closer j₁)) := by
    refine retired.leave (fun z there k => ?_) fun z there k => ?_
    · obtain ⟨other, _⟩ | ⟨_, z, old, rfl⟩ := getElem?_modify_some.1 there
      · exact absurd rfl other
      · exact sane.only found old k
    · obtain ⟨other, _⟩ | ⟨_, z, old, rfl⟩ := getElem?_modify_some.1 there
      · exact absurd rfl other
      · exact sane₁.only found₁ old k
  rw [Registry.retire, Registry.retire, like.puller]
  exact left.setCloser found found₁ (fun k d => sane.books.tended.alone j k c d found)
    (fun k d => sane₁.books.tended.alone j₁ k c d found₁) _

theorem pullerEnded (h : r.Alike room r₁)
    (elsewhere : ∀ st, r.streams[t]? = some st → st.roomId ≠ room) :
    r₁.pullerEnded t = r.pullerEnded t := by
  cases there : r.streams[t]? with
  | none => rw [Registry.pullerEnded, Registry.pullerEnded, there, h.streams_none there]
  | some st =>
      rw [Registry.pullerEnded, Registry.pullerEnded, there, h.stream there (elsewhere st there)]

/-- The closer of an entry of another room goes on in the same way. -/
theorem stepCloser? (h : r.Alike room r₁) (sane : r.Sane) (sane₁ : r₁.Sane)
    (found : r.closers[j]? = some c) (here : r.entries[c.entry]? = some x)
    (elsewhere : x.roomId ≠ room) (went : r.stepCloser? j = some r') :
    ∃ j₁ r₁', r₁.stepCloser? j₁ = some r₁' ∧ r'.Alike room r₁' := by
  have own : ¬ r.IsOf room c.entry := by
    rintro ⟨x', here', same⟩
    obtain rfl := Option.some.inj (here.symm.trans here')
    exact elsewhere same
  obtain ⟨j₁, found₁⟩ := Array.getElem?_of_mem ((h.closers c own).2 (Array.mem_of_getElem? found))
  have alone := fun (k : Nat) (d : Closer) => sane.books.tended.alone j k c d found
  have alone₁ := fun (k : Nat) (d : Closer) => sane₁.books.tended.alone j₁ k c d found₁
  -- The stream of the entry is the same in both.
  have streams : ∀ t, x.started = some t → ∀ st, r.streams[t]? = some st → st.roomId ≠ room := by
    intro t started st there
    rw [sane.books.owned.stream_roomId here started there]
    exact elsewhere
  refine ⟨j₁, ?_⟩
  rw [Registry.stepCloser?, found] at went
  rw [Registry.stepCloser?, found₁]
  cases phase : c.phase with
  | arriving =>
      simp only [phase, Option.some.injEq] at went ⊢
      subst went
      have asked : (r.enqueue c.entry (.closer j)).Alike room (r₁.enqueue c.entry (.closer j₁)) :=
        h.enqueue rfl
      exact ⟨_, rfl, asked.setCloser found found₁ alone alone₁ _⟩
  | queued =>
      simp only [phase] at went ⊢
      rw [h.holds_closer sane sane₁ found found₁ here elsewhere]
      split_ifs at went ⊢
      obtain ⟨y, here₁, like⟩ := h.entry here elsewhere
      rw [here, Option.map_some, Option.some.injEq] at went
      subst went
      exact ⟨_, by rw [here₁, Option.map_some], h.retire sane sane₁ found found₁ like⟩
  | stopping p =>
      simp only [phase, Option.some.injEq] at went ⊢
      subst went
      refine ⟨_, rfl, ?_⟩
      rw [h.streamOf? here elsewhere]
      cases stream : r.streamOf? c.entry with
      | none => exact h.setCloser found found₁ alone alone₁ _
      | some t =>
          have started : x.started = some t :=
            Entry.started_of_stream (by simpa [Registry.streamOf?, here] using stream)
          exact (h.perform .close (streams t started)).setCloser found found₁ alone alone₁ _
  | joining p =>
      have took := sane.books.tended.took j c x found here
      rw [phase] at took
      cases p with
      | none =>
          simp only [phase, Option.some.injEq] at went ⊢
          subst went
          exact ⟨_, rfl, h.setCloser found found₁ alone alone₁ _⟩
      | some t =>
          simp only [phase] at went ⊢
          rw [h.pullerEnded (streams t (Entry.started_of_stream took.2.2.symm))]
          split_ifs at went ⊢
          obtain rfl := Option.some.inj went
          exact ⟨_, rfl, h.setCloser found found₁ alone alone₁ _⟩
  | done => simp [phase] at went

end Alike

end Closers

/-- What a puller does depends only on what its feed reads. -/
theorem Stream.step?_congr {store store₁ : Store} {st : Stream}
    (same : store₁.poll st.feed = store.poll st.feed) : st.step? store₁ = st.step? store := by
  rw [Stream.step?, Stream.step?, Stream.pull?, Stream.pull?, same]

namespace Alike

variable {other : Uuid}

/-- The puller of another room goes on in the same way. -/
theorem stepPuller? (h : r.Alike room r₁)
    (elsewhere : ∀ st, r.streams[t]? = some st → st.roomId ≠ room)
    (went : r.stepPuller? t = some r') :
    ∃ r₁', r₁.stepPuller? t = some r₁' ∧ r'.Alike room r₁' := by
  obtain ⟨st', stepped, rfl⟩ := Option.map_eq_some_iff.1 went
  obtain ⟨st, there, stepped⟩ := Option.bind_eq_some_iff.1 stepped
  have other := elsewhere st there
  have same := Store.poll_congr (h.feeds t st there other)
  refine ⟨r₁.modifyStream t fun _ => st', ?_, h.modifyStream (fun st₁ there₁ _ => ?_) elsewhere⟩
  · rw [Registry.stepPuller?, h.stream there other, Option.bind_some, Stream.step?_congr same,
      stepped, Option.map_some]
  · obtain rfl := Option.some.inj (there.symm.trans there₁)
    have goes : st.Goes r.store True st' := .pull (Stream.step?_pull stepped)
    exact ⟨(Stream.step?_pull stepped).roomId ▸ other, congrArg (·.channel) goes.source⟩

theorem feedClosed? (h : r.Alike room r₁)
    (elsewhere : ∀ st, r.streams[t]? = some st → st.roomId ≠ room)
    (went : r.feedClosed? t = some r') :
    ∃ r₁', r₁.feedClosed? t = some r₁' ∧ r'.Alike room r₁' := by
  rw [Registry.feedClosed?] at went ⊢
  cases there : r.streams[t]? with
  | none => simp [there] at went
  | some st =>
      rw [h.stream there (elsewhere st there)]
      rw [there] at went
      split at went
      case h_1 closing =>
        obtain rfl := Option.some.inj went
        exact ⟨_, rfl, h.modifyStream (fun _ _ other => ⟨other, rfl⟩) elsewhere⟩
      case h_2 => cases went

theorem injectFault (h : r.Alike room r₁) (other : Uuid) (f : Fault) :
    (r.injectFault other f).Alike room (r₁.injectFault other f) where
  __ := h
  streams := h.streams.map fun st st₁ pair => by
    obtain ⟨own, own₁⟩ | ⟨apart, apart₁, rfl⟩ := pair
    · refine .inl ⟨?_, ?_⟩
      · split_ifs <;> exact own
      · split_ifs <;> exact own₁
    · exact .inr ⟨by split_ifs <;> exact apart, by split_ifs <;> exact apart, rfl⟩
  feeds t st there apart := by
    rw [Registry.injectFault, Array.getElem?_map, Option.map_eq_some_iff] at there
    obtain ⟨st, old, rfl⟩ := there
    split_ifs at apart ⊢ <;> exact h.feeds t st old apart

theorem emit? (h : r.Alike room r₁) {ev : Event} (elsewhere : ev.roomId ≠ room)
    (went : r.emit? ev = some r') : ∃ r₁', r₁.emit? ev = some r₁' ∧ r'.Alike room r₁' := by
  obtain ⟨store, stored, rfl⟩ := Option.map_eq_some_iff.1 went
  obtain ⟨store₁, stored₁, onward⟩ := h.store.emit? elsewhere stored
  exact ⟨_, Option.map_eq_some_iff.2 ⟨store₁, stored₁, rfl⟩, h.withStore onward⟩

theorem endFeed (h : r.Alike room r₁) (elsewhere : other ≠ room) :
    (r.endFeed other).Alike room (r₁.endFeed other) :=
  h.withStore (h.store.closeRoom elsewhere)

/-- Somebody subscribes in both, also if it is to the room itself. -/
theorem subscribe (h : r.Alike room r₁) (other : Uuid) :
    (r.subscribe other).Alike room (r₁.subscribe other) := by
  refine { h with subscribers := h.subscribers.push ?_ }
  by_cases own : other = room
  · exact .inl ⟨own, own⟩
  · exact .inr ⟨own, own, rfl⟩

end Alike

/-- A registry in which no collector has noted an entry twice. -/
structure Tidy (r : Registry) : Prop extends r.Sane where
  noted : ∀ (i : Nat) (c : Collector) (candidates : List Nat), r.collectors[i]? = some c →
    c.phase.candidates? = some candidates → candidates.Nodup

theorem empty_tidy (capacity channelCapacity : Nat) :
    (Registry.empty capacity channelCapacity).Tidy := by
  refine ⟨empty_sane _ _, ?_⟩
  simp [Registry.empty]

theorem Tidy.perform (h : r.Tidy) (did : r.perform? a = some r') : r'.Tidy where
  toSane := h.toSane.perform did
  noted i c candidates found has := by
    obtain ⟨c₀, old, has₀ | ⟨_, rfl⟩⟩ := perform?_notes h.books.owned did found has
    · exact h.noted i c₀ candidates old has₀
    · exact h.books.owned.entries_nodup.filter _

namespace Alike

variable {own : Nat → Prop} {q q₁ : Collecting}

theorem setCollector (h : r.Alike room r₁) (like : q.Like (r.IsOf room) q₁) :
    (r.setCollector i q).Alike room (r₁.setCollector i q₁) := by
  let turn (q : Collecting) (c : Collector) : Collector := { c with phase := q }
  have turned : LikeRows (fun _ => False) (Collector.Like (r.IsOf room))
      (r.collectors.modify i (turn q)) (r₁.collectors.modify i (turn q₁)) := by
    refine h.collectors.modify fun c c₁ _ _ pair => ?_
    obtain ⟨none, _⟩ | ⟨_, _, pair⟩ := pair
    · exact none.elim
    · exact .inr ⟨id, id, pair.period, pair.cancelled, like⟩
  exact { h with collectors := turned }

/-- The readers of the entries of other rooms are as many. -/
theorem readersOf (h : r.Alike room r₁) (owned : r.Owned) {x : Entry}
    (here : r.entries[e]? = some x) (elsewhere : x.roomId ≠ room) :
    r₁.readersOf e = r.readersOf e := by
  rw [Registry.readersOf, Registry.readersOf, h.streamOf? here elsewhere]
  cases stream : r.streamOf? e with
  | none => rfl
  | some t =>
      have streams : x.stream = some t := by simpa [Registry.streamOf?, here] using stream
      have started := Entry.started_of_stream streams
      obtain ⟨st, there⟩ : ∃ st, r.streams[t]? = some st :=
        ⟨_, Array.getElem?_eq_getElem (owned.started_lt here started)⟩
      have other : st.roomId ≠ room := by
        rw [owned.stream_roomId here started there]
        exact elsewhere
      rw [Option.bind_some, Option.bind_some, there, h.stream there other]

theorem reclaimable (h : r.Alike room r₁) (owned : r.Owned) (other : ¬ r.IsOf room e) :
    r₁.reclaimable e = r.reclaimable e := by
  cases here : r.entries[e]? with
  | none =>
      have here₁ : r₁.entries[e]? = none := by
        rw [Array.getElem?_eq_none_iff, h.entries.size]
        exact Array.getElem?_eq_none_iff.1 here
      rw [Registry.reclaimable, Registry.reclaimable, here, here₁, Option.any_none, Option.any_none]
  | some x =>
      have elsewhere : x.roomId ≠ room := fun same => other ⟨x, here, same⟩
      obtain ⟨y, here₁, like⟩ := h.entry here elsewhere
      have free : y.lock = [] ↔ x.lock = [] := by
        rw [← List.map_eq_nil_iff (f := Holder.subscriber?), like.lock, List.map_eq_nil_iff]
      rw [Bool.eq_iff_iff, reclaimable_iff here, reclaimable_iff here₁, like.roomId, like.retired,
        h.current _ elsewhere, h.readersOf owned here elsewhere, free]

/-- The idle entries of other rooms are the same. -/
theorem mem_idle (h : r.Alike room r₁) (owned : r.Owned) (owned₁ : r₁.Owned)
    (other : ¬ r.IsOf room e) : e ∈ r₁.idle ↔ e ∈ r.idle := by
  -- An idle entry is the registered one of its room.
  have idle : ∀ {r : Registry}, r.Owned → (e ∈ r.idle ↔
      ∃ x, r.entries[e]? = some x ∧ r.entryOf? x.roomId = some e ∧ r.readersOf e = 0) := by
    intro r owned
    rw [Registry.idle, List.mem_filter, decide_eq_true_iff, List.mem_map]
    constructor
    · rintro ⟨⟨⟨_, _⟩, listed, rfl⟩, unread⟩
      obtain ⟨x, here, rfl⟩ := owned.listed _ _ listed
      exact ⟨x, here, owned.current_of_mem listed, unread⟩
    · rintro ⟨x, _, current, unread⟩
      exact ⟨⟨_, mem_of_entryOf? current, rfl⟩, unread⟩
  rw [idle owned, idle owned₁]
  constructor
  · rintro ⟨y, here₁, current, unread⟩
    have apart : y.roomId ≠ room := fun same => other ((h.isOf e).1 ⟨y, here₁, same⟩)
    obtain ⟨x, here, like⟩ := h.symm.entry here₁ apart
    have elsewhere : x.roomId ≠ room := like.roomId.symm ▸ apart
    refine ⟨x, here, ?_, (h.readersOf owned here elsewhere).symm.trans unread⟩
    rw [like.roomId, ← h.current _ apart, current]
  · rintro ⟨x, here, current, unread⟩
    have elsewhere : x.roomId ≠ room := fun same => other ⟨x, here, same⟩
    obtain ⟨y, here₁, like⟩ := h.entry here elsewhere
    refine ⟨y, here₁, ?_, (h.readersOf owned here elsewhere).trans unread⟩
    rw [like.roomId, h.current _ elsewhere, current]

/-- The same entries of other rooms are reclaimed in both. -/
theorem reclaimed (h : r.Alike room r₁) (owned : r.Owned) {gone gone₁ : List Nat}
    (went : r.Reclaimed gone r') (went₁ : r₁.Reclaimed gone₁ r₁')
    (same : ∀ e, ¬ r.IsOf room e → (e ∈ gone₁ ↔ e ∈ gone)) : r'.Alike room r₁' := by
  have isOf : ∀ e, r'.IsOf room e ↔ r.IsOf room e := by
    intro e
    rw [IsOf, went.entries, IsOf]
    constructor
    · rintro ⟨_, now, own⟩
      obtain ⟨x, here, rfl⟩ := Option.map_eq_some_iff.1 now
      refine ⟨x, here, ?_⟩
      split_ifs at own <;> exact own
    · rintro ⟨x, here, own⟩
      refine ⟨_, by rw [here, Option.map_some], ?_⟩
      split_ifs <;> exact own
  constructor
  case capacity =>
    rw [went.rest, went₁.rest]
    exact h.capacity
  case down =>
    rw [went.rest, went₁.rest]
    exact h.down
  case shutdowns =>
    rw [went.rest, went₁.rest]
    exact h.shutdowns
  case current =>
    intro other elsewhere
    refine Option.ext fun e => ?_
    rw [went₁.registered, went.registered, h.current other elsewhere]
    refine and_congr_right fun current => not_congr (same e ?_)
    rintro ⟨x, here, own⟩
    obtain ⟨y, here', named⟩ := owned.entry_of_current current
    obtain rfl := Option.some.inj (here.symm.trans here')
    exact elsewhere (named.symm.trans own)
  case entries =>
    have marked : ∀ {r r' : Registry} {gone : List Nat}, r.Reclaimed gone r' → r'.entries =
        r.entries.mapIdx fun e x => if e ∈ gone then { x with retired := true } else x :=
      fun went => Array.ext_getElem? fun e => by rw [went.entries, Array.getElem?_mapIdx]
    refine ⟨?_, fun e x' y' here here₁ => ?_⟩
    · rw [marked went, marked went₁, Array.size_mapIdx, Array.size_mapIdx, h.entries.size]
    · rw [went.entries, Option.map_eq_some_iff] at here
      rw [went₁.entries, Option.map_eq_some_iff] at here₁
      obtain ⟨x, here, rfl⟩ := here
      obtain ⟨y, here₁, rfl⟩ := here₁
      obtain ⟨mine, mine₁⟩ | ⟨other, other₁, like⟩ := h.entries.pairs e x y here here₁
      · exact .inl ⟨by split_ifs <;> exact mine, by split_ifs <;> exact mine₁⟩
      · refine .inr ⟨by split_ifs <;> exact other, by split_ifs <;> exact other₁, ?_⟩
        have both := same e fun ⟨z, there, own⟩ =>
          other (Option.some.inj (here.symm.trans there) ▸ own)
        by_cases among : e ∈ gone
        · rw [if_pos among, if_pos (both.2 among)]
          exact { like with retired := rfl }
        · rw [if_neg among, if_neg (mt both.1 among)]
          exact like
  case streams =>
    rw [went.rest, went₁.rest]
    exact h.streams
  case subscribers =>
    rw [went.rest, went₁.rest]
    exact h.subscribers
  case closers =>
    intro c other
    rw [isOf] at other
    rw [went.closers, went₁.closers, Array.mem_append, Array.mem_append, h.closers c other]
    simp only [List.mem_toArray, List.mem_map]
    refine or_congr_right (exists_congr fun e => and_congr_left ?_)
    rintro rfl
    exact same e other
  case collectors =>
    rw [show r'.IsOf room = r.IsOf room from funext fun e => propext (isOf e), went.rest,
      went₁.rest]
    exact h.collectors
  case store =>
    rw [went.rest, went₁.rest]
    exact h.store
  case feeds =>
    rw [went.rest, went₁.rest]
    exact h.feeds

/-- A collector does the same to all other rooms. -/
theorem stepCollector? (h : r.Alike room r₁) (tidy : r.Tidy) (tidy₁ : r₁.Tidy)
    (went : r.stepCollector? i = some r') :
    ∃ r₁', r₁.stepCollector? i = some r₁' ∧ r'.Alike room r₁' := by
  rw [Registry.stepCollector?] at went ⊢
  cases found : r.collectors[i]? with
  | none => simp [found] at went
  | some c =>
      obtain ⟨c₁, found₁, _, like⟩ := h.collectors.partner found id
      obtain ⟨period, cancelled, phase⟩ := c
      obtain ⟨_, _, phase₁⟩ := c₁
      obtain ⟨rfl, rfl, both⟩ : _ = period ∧ _ = cancelled ∧ phase.Like _ phase₁ :=
        ⟨like.period, like.cancelled, like.phase⟩
      simp only [found] at went
      simp only [found₁]
      cases both with
      | checking =>
          obtain rfl := Option.some.inj went
          refine ⟨_, rfl, ?_⟩
          rw [h.down]
          exact h.setCollector (.refl _ _)
      | scanning =>
          obtain rfl := Option.some.inj went
          refine ⟨_, rfl, h.setCollector (.sleeping fun e other => ?_)⟩
          exact h.mem_idle tidy.books.owned tidy₁.books.owned other
      | sleeping same =>
          simp only at went ⊢
          split_ifs at went ⊢
          obtain rfl := Option.some.inj went
          refine ⟨_, rfl, ?_⟩
          rw [h.shutdowns]
          have begun : r.shutdown.Alike room r₁.shutdown :=
            { h with shutdowns := congrArg (·.push .starting) h.shutdowns }
          exact begun.setCollector (.refl _ _)
      | @reclaiming es es₁ same =>
          obtain rfl := Option.some.inj went
          have went := foldl_reclaim tidy.books.owned (tidy.noted i _ es found rfl)
          have went₁ := foldl_reclaim tidy₁.books.owned (tidy₁.noted i _ es₁ found₁ rfl)
          have done := h.reclaimed tidy.books.owned went went₁ fun e other => by
            rw [List.mem_filter, List.mem_filter, same e other,
              h.reclaimable tidy.books.owned other]
          exact ⟨_, rfl, done.setCollector (.refl _ _)⟩
      | stopping shutdown =>
          have same : r₁.shutdownDone shutdown = r.shutdownDone shutdown := by
            rw [shutdownDone, shutdownDone, h.shutdowns]
          simp only [same] at went ⊢
          split_ifs at went ⊢
          obtain rfl := Option.some.inj went
          exact ⟨_, rfl, h.setCollector (.refl _ _)⟩
      | done result => cases went

theorem elapsed? (h : r.Alike room r₁) (went : r.elapsed? i = some r') :
    ∃ r₁', r₁.elapsed? i = some r₁' ∧ r'.Alike room r₁' := by
  rw [Registry.elapsed?] at went ⊢
  cases found : r.collectors[i]? with
  | none => simp [found] at went
  | some c =>
      obtain ⟨c₁, found₁, _, like⟩ := h.collectors.partner found id
      obtain ⟨period, cancelled, phase⟩ := c
      obtain ⟨_, _, phase₁⟩ := c₁
      have both := like.phase
      simp only [found] at went
      simp only [found₁]
      cases both with
      | sleeping same =>
          obtain rfl := Option.some.inj went
          exact ⟨_, rfl, h.setCollector (.reclaiming same)⟩
      | _ => cases went

theorem collect (h : r.Alike room r₁) (period : Nat) (cancelled : Bool) :
    (r.collect period cancelled).Alike room (r₁.collect period cancelled) :=
  { h with collectors := h.collectors.push (.inr ⟨id, id, .refl _ _⟩) }

theorem cancelCollector (h : r.Alike room r₁) (i : Nat) :
    (r.cancelCollector i).Alike room (r₁.cancelCollector i) := by
  let cancel (c : Collector) : Collector := { c with cancelled := true }
  have told : LikeRows (fun _ => False) (Collector.Like (r.IsOf room))
      (r.collectors.modify i cancel) (r₁.collectors.modify i cancel) := by
    refine h.collectors.modify fun c c₁ _ _ pair => ?_
    obtain ⟨none, _⟩ | ⟨_, _, pair⟩ := pair
    · exact none.elim
    · exact .inr ⟨id, id, { pair with cancelled := rfl }⟩
  exact { h with collectors := told }

end Alike

end Roomcast.Registry

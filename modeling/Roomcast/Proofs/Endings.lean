import Roomcast.Proofs.SingleRoom

/-!
# Why windows end

A window is closed by its puller when the feed fails or ends, and by a closer, which has retired the
entry before. Nothing else closes it. Until a shutdown begins an entry is retired only when all have
left its window, so whoever is still there and learns that the window is closed learns of a failure
of the feed, unless it has fallen behind.
-/

namespace Roomcast

namespace Room

variable {α : Type}

/-- Whether a reader has fallen behind the newest event by more than the window holds. -/
def isBehind (room : Room α) (c : Nat) : Bool :=
  (room.cursors[c]?).any fun cursor => room.capacity < room.chain.head - cursor.node

namespace View

variable {v : View α}

theorem isBehind_of {i : Nat} {c : Reading α} (found : v.readers[i]? = some c)
    (behind : v.window.capacity < v.window.events.length - c.position) :
    v.room.isBehind i = true := by
  rw [isBehind, room_cursor?, found]
  exact decide_eq_true behind

/-- Who looks for an event and learns that the window is closed has left, or has fallen behind, or
the window is closed indeed. -/
theorem look?_closed {i : Nat} {c : Reading α} {cancelled : Bool} (found : v.readers[i]? = some c)
    (fails : v.look? c cancelled = some (.error .closed)) :
    v.room.hasLeft i = true ∨ v.room.isBehind i = true ∨ v.room.isClosed = true := by
  rw [look?, Window.poll?] at fails
  split_ifs at fails with left lost fired
  · refine .inl ?_
    rw [room_hasLeft, found]
    exact left
  · obtain closed | behind := Window.lost_iff.1 lost
    · exact .inr (.inr closed)
    · exact .inr (.inl (isBehind_of found behind))
  · cases fails
  · obtain ⟨e, _, eq⟩ := Option.map_eq_some_iff.1 fails
    cases eq

/-- So does a read that has waited. -/
theorem goOn?_closed {i : Nat} {c : Reading α} (found : v.readers[i]? = some c)
    (fails : v.goOn? c = some (.error .closed)) :
    v.room.hasLeft i = true ∨ v.room.isBehind i = true ∨ v.room.isClosed = true := by
  obtain ⟨w, _, fails⟩ := Option.bind_eq_some_iff.1 fails
  split_ifs at fails with parked
  · rw [Window.await?] at fails
    split_ifs at fails with fired lost
    · cases fails
    · obtain closed | behind := Window.lost_iff.1 lost
      · exact .inr (.inr closed)
      · exact .inr (.inl (isBehind_of found behind))
    · obtain ⟨e, _, eq⟩ := Option.map_eq_some_iff.1 fails
      cases eq
  · exact look?_closed found fails

theorem poll_closed (valid : v.Valid) {i : Nat} {cancelled : Bool}
    (fails : (v.room.poll i cancelled).2 = some (.error .closed)) :
    v.room.hasLeft i = true ∨ v.room.isBehind i = true ∨ v.room.isClosed = true := by
  rw [room_poll valid, poll] at fails
  cases got : (v.readers[i]?).bind (v.look? · cancelled) with
  | none =>
      rw [got] at fails
      cases fails
  | some result =>
      rw [got] at fails
      obtain ⟨c, found, looks⟩ := Option.bind_eq_some_iff.1 got
      exact look?_closed found (looks.trans fails)

theorem resume_closed (valid : v.Valid) {i : Nat}
    (fails : (v.room.resume i).2 = some (.error .closed)) :
    v.room.hasLeft i = true ∨ v.room.isBehind i = true ∨ v.room.isClosed = true := by
  rw [room_resume valid, resume] at fails
  cases got : (v.readers[i]?).bind v.goOn? with
  | none =>
      rw [got] at fails
      cases fails
  | some result =>
      rw [got] at fails
      obtain ⟨c, found, goes⟩ := Option.bind_eq_some_iff.1 got
      exact goOn?_closed found (goes.trans fails)

/-- Only closing a window closes it. -/
theorem isClosed_perform (valid : v.Valid) (op : Op α) (other : op ≠ .close) :
    (v.room.perform op).1.isClosed = v.room.isClosed := by
  rw [perform_room valid]
  show (v.perform op).1.window.closed = v.window.closed
  rw [perform_window]
  cases op with
  | close => exact absurd rfl other
  | append event =>
      show (if v.window.closed then v.window else v.window.extend event).closed = _
      split_ifs <;> rfl
  | _ => rfl

/-- A window takes an event unless it is closed. -/
theorem isClosed_of_append (valid : v.Valid) {event : α} {err : StreamError}
    (fails : v.room.append event = .error err) : v.room.isClosed = true := by
  have answer := congrArg Prod.snd (perform_room valid (.append event))
  rw [Room.perform, fails] at answer
  show v.window.closed = true
  rw [perform, Window.append] at answer
  split_ifs at answer with closed
  · exact closed
  · cases answer

end View

end Room

namespace Registry

variable {r r' : Registry} {a : Action}

/-- Whether a reader has fallen behind the newest event by more than its window holds. -/
def isBehind (r : Registry) (h : Reader) : Bool := (r.roomOf? h).any (·.isBehind h.cursor)

/-- Whether the next step of a puller reads from its feed that the feed has failed or has ended. -/
def Stream.meetsEnd (store : Store) (st : Stream) : Bool :=
  match st.puller with
  | .pulling =>
    !st.room.isClosed &&
      match st.fault with
      | some (.error _) => true
      | some .crash => false
      | none =>
        match (store.poll st.feed).2 with
        | some (.error _) => true
        | _ => false
  | _ => false

/-- The stream whose feed fails or ends in an action. -/
def fails? (r : Registry) : Action → Option Nat
  | .step (.puller t) =>
    if (r.streams[t]?).any (·.meetsEnd r.store) then some t else none
  | _ => none

def failures (r : Registry) (acts : List Action) : List Nat := seen fails? r acts

/-- A stream is spent if its window is closed, or if its puller is about to close it or has done
so. -/
def Stream.IsSpent (st : Stream) : Prop :=
  st.room.isClosed = true ∨ st.puller = .stopping ∨ st.puller = .closing ∨ st.puller = .ended

/-- A puller stops when the stream was spent before, or when it reads that the feed has ended. -/
theorem Stream.Pull.spent {store : Store} {st st' : Stream} {v : Room.View Event}
    (went : st.Pull store st') (valid : v.Valid) (laid : st.room = v.room) (spent : st'.IsSpent) :
    st.IsSpent ∨ st.meetsEnd store = true := by
  cases went with
  | cut pulling closed => exact .inl (.inl closed)
  | crash pulling running fault => simp [IsSpent, running] at spent
  | fail pulling running fault => simp [meetsEnd, pulling, running, fault]
  | item pulling running sound got => simp [IsSpent, running] at spent
  | finish pulling running sound got => simp [meetsEnd, pulling, running, sound, got]
  | @push e room holding appended =>
      obtain closed | others := spent
      · have same := Room.View.isClosed_perform valid (.append e) nofun
        rw [← laid, Room.perform, appended] at same
        exact .inl (.inl (same.symm.trans closed))
      · simp at others
  | @refuse e err holding failed =>
      rw [laid] at failed
      refine .inl (.inl ?_)
      rw [laid]
      exact Room.View.isClosed_of_append valid failed
  | stop stopping => exact .inl (.inr (.inl stopping))

/-- A stream that is spent was so before, or its feed has just ended, or a closer has just closed
the window of an entry that is retired. -/
theorem Move.spent (m : Move r a r') (tended : r.Tended) (laid : r.Laid) {k : Nat} {st' : Stream}
    (there : r'.streams[k]? = some st') (spent : st'.IsSpent) :
    (∃ st, r.streams[k]? = some st ∧ st.IsSpent) ∨ r.fails? a = some k ∨
      ∃ (e : Nat) (x : Entry), r.entries[e]? = some x ∧ x.stream = some k ∧ x.retired = true := by
  -- What is done in a window without closing it does not end the stream.
  have perform : ∀ {t : Nat} (op : Room.Op Event), op ≠ .close →
      (r.modifyStream t (·.perform op)).streams[k]? = some st' →
      ∃ st, r.streams[k]? = some st ∧ st.IsSpent := by
    intro t op other there
    obtain ⟨_, old⟩ | ⟨rfl, st, old, rfl⟩ := getElem?_modify_some.1 there
    · exact ⟨st', old, spent⟩
    · obtain ⟨v, valid, same⟩ := laid t st old
      refine ⟨st, old, spent.imp_left fun closed => ?_⟩
      rw [same, ← Room.View.isClosed_perform valid op other, ← same]
      exact closed
  cases m with
  | join | start => exact .inl (perform .join nofun there)
  | use used =>
      refine .inl (perform _ (fun close => ?_) there)
      subst close
      cases a <;> simp [Action.use?] at used
  | @closeWindow a j t c p found phase stream =>
      obtain ⟨other, old⟩ | ⟨rfl, st, old, rfl⟩ := getElem?_modify_some.1 there
      · exact .inl ⟨st', old, spent⟩
      · obtain ⟨x, here, streams⟩ := Option.bind_eq_some_iff.1 stream
        have took := tended.took j c x found here
        rw [phase] at took
        exact .inr (.inr ⟨c.entry, x, here, streams, took.1⟩)
  | watched =>
      obtain old | ⟨_, rfl⟩ := getElem?_push_some.1 there
      · exact .inl ⟨st', old, spent⟩
      · simp [Stream.IsSpent, Room.isClosed, Room.empty, Room.Chain.empty] at spent
  | fault room f =>
      rw [injectFault, Array.getElem?_map] at there
      obtain ⟨st, old, rfl⟩ := Option.map_eq_some_iff.1 there
      refine .inl ⟨st, old, ?_⟩
      split_ifs at spent <;> exact spent
  | @pull t st st₁ there₁ went =>
      obtain ⟨_, old⟩ | ⟨rfl, st₂, old, rfl⟩ := getElem?_modify_some.1 there
      · exact .inl ⟨st', old, spent⟩
      · obtain ⟨v, valid, same⟩ := laid t st there₁
        obtain before | meets := went.spent valid same spent
        · exact .inl ⟨st, there₁, before⟩
        · refine .inr (.inl ?_)
          rw [fails?, there₁]
          exact if_pos meets
  | close there₁ closing =>
      obtain ⟨_, old⟩ | ⟨rfl, st, old, rfl⟩ := getElem?_modify_some.1 there
      · exact .inl ⟨st', old, spent⟩
      · obtain rfl := Option.some.inj (there₁.symm.trans old)
        exact .inl ⟨_, old, .inr (.inr (.inl closing))⟩
  | reclaim here may =>
      rw [reclaim_eq here may] at there
      exact .inl ⟨st', there, spent⟩
  | _ => exact .inl ⟨st', there, spent⟩

/-- A stream is spent only if its feed has failed or ended, or if its entry is retired. -/
def Explained (r : Registry) (failed : List Nat) : Prop :=
  ∀ (t : Nat) (st : Stream), r.streams[t]? = some st → st.IsSpent →
    t ∈ failed ∨ ∃ (e : Nat) (x : Entry), r.entries[e]? = some x ∧ x.stream = some t ∧
      x.retired = true

theorem Explained.move {failed : List Nat} (h : r.Explained failed) (books : r.Books)
    (m : Move r a r') : r'.Explained (failed ++ (r.fails? a).toList) := by
  intro t st' there spent
  -- An entry that was retired with its stream still is.
  have still : (∃ (e : Nat) (x : Entry), r.entries[e]? = some x ∧ x.stream = some t ∧
      x.retired = true) → ∃ (e : Nat) (x : Entry), r'.entries[e]? = some x ∧ x.stream = some t ∧
      x.retired = true := by
    rintro ⟨e, x, here, stream, gone⟩
    obtain ⟨x', here', goes⟩ := m.entry books.owned here
    exact ⟨e, x', here', goes.stream stream, (goes.retired gone).1⟩
  obtain ⟨st, old, before⟩ | fails | retired :=
    m.spent books.tended books.laid there spent
  · obtain among | retired := h t st old before
    · exact .inl (List.mem_append_left _ among)
    · exact .inr (still retired)
  · exact .inl (List.mem_append_right _ (by simp [fails]))
  · exact .inr (still retired)

theorem run?_explained {capacity channelCapacity : Nat} {acts : List Action}
    (ran : (Registry.empty capacity channelCapacity).run? acts = some r) :
    r.Explained ((Registry.empty capacity channelCapacity).failures acts) := by
  have both : r.Books ∧ r.Explained ((Registry.empty capacity channelCapacity).failures acts) := by
    refine run?_account (P := fun r failed => r.Books ∧ r.Explained failed) (fun r i => rfl) ?_ ?_
      ran
    · rintro r r' a failed _ ⟨books, h⟩ m
      exact ⟨books.move m, h.move books m⟩
    · refine ⟨empty_books _ _, ?_⟩
      intro t st there
      simp [Registry.empty] at there
  exact both.2

/-- An action that reads tells a reader that its window is closed. -/
def TellsClosed (r : Registry) (h : Reader) : Prop :=
  (∃ cancelled, (r.poll h cancelled).2 = some (.error .closed)) ∨
    (r.resume h).2 = some (.error .closed)

theorem TellsClosed.why {h : Reader} (tells : r.TellsClosed h) (laid : r.Laid) :
    r.hasLeft h = true ∨ r.isBehind h = true ∨
      ∃ st, r.streams[h.stream]? = some st ∧ st.room.isClosed = true := by
  rw [hasLeft, isBehind, roomOf?]
  cases there : r.streams[h.stream]? with
  | none => simp [TellsClosed, poll, resume, readWith, roomOf?, there] at tells
  | some st =>
      obtain ⟨v, valid, same⟩ := laid h.stream st there
      simp only [TellsClosed, poll, resume, readWith, roomOf?, there, Option.map_some, same]
        at tells
      have why : v.room.hasLeft h.cursor = true ∨ v.room.isBehind h.cursor = true ∨
          v.room.isClosed = true := by
        obtain ⟨cancelled, fails⟩ | fails := tells
        · exact Room.View.poll_closed valid fails
        · exact Room.View.resume_closed valid fails
      rw [← same] at why
      exact why.imp_right (Or.imp_right fun closed => ⟨st, rfl, closed⟩)

/-- Until a shutdown begins, a reader that learns that its window is closed has left it before, or
has fallen behind, or its feed has failed or ended. -/
theorem run?_tells {capacity channelCapacity : Nat} {acts : List Action}
    (ran : (Registry.empty capacity channelCapacity).run? acts = some r) (up : r.down = false)
    {h : Reader} (tells : r.TellsClosed h) :
    r.hasLeft h = true ∨ r.isBehind h = true ∨
      h.stream ∈ (Registry.empty capacity channelCapacity).failures acts := by
  have books := run?_books ran
  obtain left | behind | ⟨st, there, closed⟩ := tells.why books.laid
  · exact .inl left
  · exact .inr (.inl behind)
  · obtain failed | ⟨e, x, here, stream, gone⟩ := run?_explained ran h.stream st there (.inl closed)
    · exact .inr (.inr failed)
    · refine .inl ?_
      have started : x.started = some h.stream := Entry.started_of_stream stream
      have left := (books.withheld up).unread e h.stream x st here (.inl gone) started there
      rw [hasLeft, roomOf?, there]
      exact left h.cursor

end Registry

end Roomcast

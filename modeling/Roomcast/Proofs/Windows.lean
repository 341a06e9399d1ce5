import Roomcast.Proofs.Evolution

/-!
# Windows

Every window of a registry is the layout of a log with its readers, whatever has happened. So a
closed window stays closed, and who has left a window comes back only if readers of it are handed
out. An entry whose window is closed, or that is retired, is dead and stays dead.
-/

namespace Roomcast

theorem Room.isClosed_close {α : Type} (room : Room α) : room.close.isClosed = true := by
  rw [close, isClosed, Chain.close]
  split_ifs with closed
  · exact closed
  · rfl

namespace Registry

variable {r r' : Registry} {a : Action}

/-- Every window is the layout of a log with its readers. -/
def Laid (r : Registry) : Prop :=
  ∀ (t : Nat) (st : Stream), r.streams[t]? = some st →
    ∃ v : Room.View Event, v.Valid ∧ st.room = v.room

section

variable {store : Store} {offers : Prop} {st st' : Stream} {v : Room.View Event}

/-- A window changes only by operations, and is joined only where readers are offered. -/
theorem Stream.Goes.room (goes : st.Goes store offers st') :
    st'.room = st.room ∨
      ∃ op, (op = .join → offers) ∧ st'.room = (st.room.perform op).1 := by
  cases goes with
  | stay | close | fault => exact .inl rfl
  | join offered => exact .inr ⟨.join, fun _ => offered, rfl⟩
  | perform op other => exact .inr ⟨op, fun eq => absurd eq other, rfl⟩
  | pull went =>
      cases went with
      | @push e room holding appended =>
          refine .inr ⟨.append e, fun eq => ?_, ?_⟩
          · cases eq
          · rw [Room.perform, appended]
      | stop =>
          refine .inr ⟨.close, fun eq => ?_, rfl⟩
          cases eq
      | _ => exact .inl rfl

/-- A closed window stays closed. -/
theorem Stream.Goes.isClosed (goes : st.Goes store offers st') (valid : v.Valid)
    (laid : st.room = v.room) (closed : st.room.isClosed = true) : st'.room.isClosed = true := by
  obtain same | ⟨op, _, became⟩ := goes.room
  · rw [same]
    exact closed
  · rw [laid] at closed became
    rw [Room.View.perform_room valid] at became
    rw [became]
    have ended : v.window.closed = true := closed
    show (v.perform op).1.window.closed = true
    rw [Room.View.perform_window]
    cases op <;> simp [ended, Room.Window.close]

/-- Nobody comes back to a window where no readers are offered. -/
theorem Stream.Goes.hasLeft (goes : st.Goes store offers st') (valid : v.Valid)
    (laid : st.room = v.room) (alone : ¬ offers) {c : Nat} (left : st.room.hasLeft c = true) :
    st'.room.hasLeft c = true := by
  obtain same | ⟨op, joins, became⟩ := goes.room
  · rw [same]
    exact left
  · rw [laid] at left became
    rw [Room.View.perform_room valid] at became
    rw [became]
    exact Room.View.hasLeft_perform (fun eq => alone (joins eq)) left

end

theorem Laid.move (h : r.Laid) (owned : r.Owned) (m : Move r a r') : r'.Laid := by
  intro t st' there
  obtain ⟨st, old, goes⟩ | ⟨_, room, feed, rfl⟩ := m.stream_back owned there
  · obtain ⟨v, valid, laid⟩ := h t st old
    obtain same | ⟨op, _, became⟩ := goes.room
    · exact ⟨v, valid, same.trans laid⟩
    · rw [laid, Room.View.perform_room valid] at became
      exact ⟨_, valid.perform op, became⟩
  · exact ⟨.empty r.capacity, Room.View.empty_valid _, (Room.View.empty_room _).symm⟩

/-- The window of an old stream stays closed. -/
theorem Laid.still_closed (h : r.Laid) (owned : r.Owned) (m : Move r a r') {t : Nat}
    (old : t < r.streams.size)
    (closed : ∀ st, r.streams[t]? = some st → st.room.isClosed = true) {st' : Stream}
    (there : r'.streams[t]? = some st') : st'.room.isClosed = true := by
  obtain ⟨st, there₁, went⟩ | ⟨new, _⟩ := m.stream_back owned there
  · obtain ⟨v, valid, laid⟩ := h t st there₁
    exact went.isClosed valid laid (closed st there₁)
  · omega

/-- Nobody reads a stream of an entry that counts no readers. -/
theorem Laid.hasLeft (h : r.Laid) {e t : Nat} {x : Entry} {st : Stream}
    (here : r.entries[e]? = some x) (stream : x.stream = some t) (there : r.streams[t]? = some st)
    (unread : r.readersOf e = 0) (c : Nat) : st.room.hasLeft c = true := by
  obtain ⟨v, _, laid⟩ := h t st there
  have none : st.room.readers = 0 := by
    simpa [readersOf, streamOf?, here, stream, there] using unread
  rw [laid] at none ⊢
  exact Room.View.openReaders_eq_zero.1 none c

/-- An entry is alive if it is not retired and its window, if it has one, is open. -/
theorem not_dead {x : Entry} (live : x.retired = false)
    (running : ∀ t, x.stream = some t → ∃ st, r.streams[t]? = some st ∧ st.room.isClosed = false) :
    ¬ r.Dead x := by
  rintro (gone | ⟨t, stream, closed⟩)
  · rw [live] at gone
    cases gone
  · obtain ⟨st, there, isOpen⟩ := running t stream
    rw [closed st there] at isOpen
    cases isOpen

/-- A dead entry stays dead. -/
theorem Dead.move {e : Nat} {x x' : Entry} (dead : r.Dead x) (owned : r.Owned) (laid : r.Laid)
    (m : Move r a r') (here : r.entries[e]? = some x) (goes : x.Goes r r' e x') : r'.Dead x' := by
  obtain gone | ⟨t, stream, closed⟩ := dead
  · exact .inl (goes.retired gone).1
  · have old := owned.started_lt here (Entry.started_of_stream stream)
    exact .inr ⟨t, goes.stream stream, fun st' there => laid.still_closed owned m old closed there⟩

end Registry

end Roomcast

import Roomcast.Proofs.Backlog
import Roomcast.Proofs.Windows

/-!
# What streams read from

Whatever happens, even if a feed takes its puller down, the feed of a live stream is open and stands
somewhere in the log of its room, a puller that has come to its end leaves a closed window behind,
and all windows are as wide as the registry says.
-/

namespace Roomcast

theorem Room.perform_capacity {α : Type} {v : Room.View α} (valid : v.Valid) (op : Room.Op α) :
    (v.room.perform op).1.capacity = v.room.capacity := by
  rw [View.perform_room valid]
  show (v.perform op).1.window.capacity = v.window.capacity
  rw [View.perform_window]
  cases op with
  | append e => split_ifs <;> rfl
  | _ => rfl

namespace Registry

variable {r r' : Registry} {a : Action}

/-- The store goes on as stores do. -/
theorem Move.keeps (m : Move r a r') (sound : r.store.Sound) : r.store.Keeps r'.store := by
  cases m with
  | watched _ _ opened => exact (sound.watch? opened).1
  | emit stored => exact (sound.emit? stored).1
  | endFeed room => exact (sound.closeRoom room).1
  | reclaim here may =>
      rw [reclaim_eq here may]
      exact ⟨sound, fun f p there => there⟩
  | _ => exact ⟨sound, fun f p there => there⟩

/-- Neither the windows nor the channels to come change in size. -/
theorem Move.sizes (m : Move r a r') :
    r'.capacity = r.capacity ∧ r'.store.capacity = r.store.capacity := by
  cases m with
  | watched _ _ opened => exact ⟨rfl, Store.watch?_capacity opened⟩
  | emit stored => exact ⟨rfl, Store.emit?_capacity stored⟩
  | endFeed room => exact ⟨rfl, Store.closeRoom_capacity _ room⟩
  | reclaim here may =>
      rw [reclaim_eq here may]
      exact ⟨rfl, rfl⟩
  | _ => exact ⟨rfl, rfl⟩

/-- The feed of a stream is one of its room, and as long as the stream is live, it is open and
stands in the log. -/
structure Stream.Sourced (store : Store) (st : Stream) : Prop where
  roomId : st.feed.roomId = st.roomId
  isOpen : st.isLive = true → st.feed.closed = false
  place : st.isLive = true → ∃ p, st.feed.At store p
  ended : st.puller = .closing ∨ st.puller = .ended → st.room.isClosed = true

/-- Every stream has its source, and every window its size. -/
structure Sourced (r : Registry) : Prop where
  sound : r.store.Sound
  streams : ∀ (t : Nat) (st : Stream), r.streams[t]? = some st → st.Sourced r.store
  windows : ∀ (t : Nat) (st : Stream), r.streams[t]? = some st → st.room.capacity = r.capacity

theorem empty_sourced (capacity channelCapacity : Nat) :
    (Registry.empty capacity channelCapacity).Sourced := by
  refine ⟨Store.empty_sound _, ?_, ?_⟩ <;> simp [Registry.empty]

theorem Stream.Sourced.keeps {store store' : Store} {st : Stream} (h : st.Sourced store)
    (keeps : store.Keeps store') : st.Sourced store' where
  roomId := h.roomId
  isOpen := h.isOpen
  place live := by
    obtain ⟨p, there⟩ := h.place live
    exact ⟨p, keeps.feeds _ p there⟩
  ended := h.ended

/-- A stream keeps its source whatever becomes of it. -/
theorem Stream.Sourced.goes {store : Store} {offers : Prop} {st st' : Stream} {v : Room.View Event}
    (h : st.Sourced store) (valid : v.Valid) (laid : st.room = v.room)
    (goes : st.Goes store offers st') : st'.Sourced store := by
  have closed := goes.isClosed valid laid
  cases goes with
  | stay => exact h
  | join | perform | fault =>
      exact ⟨h.roomId, h.isOpen, h.place, fun past => closed (h.ended past)⟩
  | close closing => exact ⟨h.roomId, nofun, nofun, fun _ => h.ended (.inl closing)⟩
  | pull went =>
      have live : st.puller = .pulling → st.isLive = true := by
        intro pulling
        rw [isLive, pulling]
      cases went with
      | cut | crash | fail | refuse => exact ⟨h.roomId, nofun, nofun, nofun⟩
      | item pulling running sound got =>
          obtain ⟨p, there⟩ := h.place (live pulling)
          have isOpen := h.isOpen (live pulling)
          obtain ⟨_, _, polled, beyond⟩ | ⟨err, failed⟩ | ⟨idle, _⟩ := there.poll isOpen
          · obtain ⟨rfl, _⟩ := Prod.mk.inj (polled.symm.trans got)
            exact ⟨h.roomId, fun _ => isOpen, fun _ => ⟨_, beyond⟩, nofun⟩
          · rw [got] at failed
            cases failed
          · rw [got] at idle
            cases idle
      | finish pulling running sound got =>
          have room := Store.poll_roomId store st.feed
          rw [got] at room
          exact ⟨room.trans h.roomId, nofun, nofun, nofun⟩
      | @push e room holding appended =>
          have was : st.isLive = true := by rw [isLive, holding]
          exact ⟨h.roomId, fun _ => h.isOpen was, fun _ => h.place was, nofun⟩
      | stop => exact ⟨h.roomId, nofun, nofun, fun _ => Room.isClosed_close _⟩

theorem Sourced.move (h : r.Sourced) (owned : r.Owned) (laid : r.Laid) (m : Move r a r') :
    r'.Sourced := by
  have keeps := m.keeps h.sound
  have capacity := m.sizes.1
  refine ⟨keeps.sound, fun t st' there => ?_, fun t st' there => ?_⟩
  · obtain ⟨st, old, goes⟩ | ⟨new, _⟩ := m.stream_back owned there
    · obtain ⟨v, valid, layout⟩ := laid t st old
      exact ((h.streams t st old).goes valid layout goes).keeps keeps
    · -- The feed of a new stream has just been opened.
      have fresh : ∀ {ys : Array Stream}, ys.size = r.streams.size → ys[t]? ≠ some st' :=
        getElem?_ne_some new.ge
      cases m with
      | watched _ _ opened =>
          obtain found | ⟨_, rfl⟩ := getElem?_push_some.1 there
          · exact absurd found (fresh rfl)
          · obtain ⟨_, _, room, isOpen, last⟩ := h.sound.watch? opened
            exact ⟨room, fun _ => isOpen, fun _ => ⟨_, last⟩, nofun⟩
      | join | start | closeWindow | pull | close | use =>
          exact absurd there (fresh Array.size_modify)
      | fault room f => exact absurd there (fresh Array.size_map)
      | reclaim here may =>
          rw [reclaim_eq here may] at there
          exact absurd there (fresh rfl)
      | _ => exact absurd there (fresh rfl)
  · rw [capacity]
    obtain ⟨st, old, goes⟩ | ⟨_, room, feed, rfl⟩ := m.stream_back owned there
    · obtain ⟨v, valid, layout⟩ := laid t st old
      obtain same | ⟨op, _, became⟩ := goes.room
      · rw [same]
        exact h.windows t st old
      · rw [became, layout, Room.perform_capacity valid, ← layout]
        exact h.windows t st old
    · rfl

/-- No run changes the sizes. -/
theorem Owned.sizes (h : r.Owned) {acts : List Action} (ran : r.run? acts = some r') :
    r'.capacity = r.capacity ∧ r'.store.capacity = r.store.capacity :=
  (h.run (P := fun r' => r'.capacity = r.capacity ∧ r'.store.capacity = r.store.capacity)
    (fun _ _ same m => ⟨m.sizes.1.trans same.1, m.sizes.2.trans same.2⟩) ⟨rfl, rfl⟩ ran).2

theorem run?_sourced {capacity channelCapacity : Nat} {acts : List Action}
    (ran : (Registry.empty capacity channelCapacity).run? acts = some r) : r.Sourced := by
  have laid : (Registry.empty capacity channelCapacity).Laid := by simp [Laid, Registry.empty]
  exact (Owned.run (P := fun r => r.Laid ∧ r.Sourced)
    (fun _ owned kept m => ⟨kept.1.move owned m, kept.2.move owned kept.1 m⟩) (empty_owned _ _)
    ⟨laid, empty_sourced _ _⟩ ran).2.2

end Registry

end Roomcast

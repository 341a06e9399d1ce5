import Roomcast.Proofs.Feed
import Roomcast.Proofs.Ownership

/-!
# Delivery

An event passes from the log of its room through a channel, a feed, the hands of a puller and a
window to a reader, and it can get lost at each stage. `Fed` says for one stream how the stages fit
together: the window holds the events of the log from some place on, and the feed, or the feed and
the puller together, stand right behind the last of them. A stage that loses its place ends the
stream and never leaves a gap, so what a reader gets is a stretch of the log that begins where the
reader was opened, and a reader that waits while nothing can go on has got the whole rest of the
log.
-/

namespace Roomcast

namespace Registry

open Room (View Op)
open Room.View

/-- A stream whose window holds the events of the log of its room from place `start` on. -/
structure Fed (store : Store) (start : Nat) (v : View Event) (st : Stream) : Prop where
  laid : st.room = v.room
  valid : v.Valid
  start_le : start ≤ (store.fetch st.roomId).length
  stretch : v.window.events <+: (store.fetch st.roomId).drop start
  feed : st.feed.roomId = st.roomId
  pulling : st.puller = .pulling →
    st.feed.closed = false ∧ st.feed.At store (start + v.window.events.length)
  holding : ∀ e, st.puller = .holding e → st.feed.closed = false ∧
    (store.fetch st.roomId)[start + v.window.events.length]? = some e ∧
    st.feed.At store (start + v.window.events.length + 1)
  ended : st.puller = .closing ∨ st.puller = .ended → v.window.closed = true
  whole : st.fault ≠ some .crash ∧ st.puller ≠ .crashed

namespace Fed

variable {store store' : Store} {start : Nat} {v : View Event} {st st' : Stream}

/-- The events of the window end within the log. -/
theorem end_le (h : Fed store start v st) :
    start + v.window.events.length ≤ (store.fetch st.roomId).length := by
  have inside := h.stretch.length_le
  rw [List.length_drop] at inside
  have := h.start_le
  omega

/-- A stream is fed as before when the store goes on. -/
theorem onStore (h : Fed store start v st) (keeps : store.Keeps store')
    (grown : store.fetch st.roomId <+: store'.fetch st.roomId) : Fed store' start v st where
  laid := h.laid
  valid := h.valid
  start_le := h.start_le.trans grown.length_le
  stretch := h.stretch.trans (List.IsPrefix.drop grown start)
  feed := h.feed
  pulling phase := ⟨(h.pulling phase).1, keeps.feeds _ _ (h.pulling phase).2⟩
  holding e phase := by
    obtain ⟨isOpen, next, there⟩ := h.holding e phase
    obtain ⟨inside, rfl⟩ := List.getElem?_eq_some_iff.1 next
    exact ⟨isOpen, List.prefix_iff_getElem?.1 grown _ inside, keeps.feeds _ _ there⟩
  ended := h.ended
  whole := h.whole

/-- A stream is fed as before when nothing but its window and its puller have changed, and the
puller reads no more. -/
theorem onWindow (h : Fed store start v st) {w : View Event} (laid : st'.room = w.room)
    (valid : w.Valid) (events : w.window.events = v.window.events) (room : st'.roomId = st.roomId)
    (feed : st'.feed.roomId = st.feed.roomId)
    (reads : st'.puller = st.puller ∧ st'.feed = st.feed ∨ st'.isLive = false)
    (ended : st'.puller = .closing ∨ st'.puller = .ended → w.window.closed = true)
    (whole : st'.fault ≠ some .crash ∧ st'.puller ≠ .crashed) : Fed store start w st' where
  laid := laid
  valid := valid
  start_le := by
    rw [room]
    exact h.start_le
  stretch := by
    rw [events, room]
    exact h.stretch
  feed := by rw [feed, room, h.feed]
  pulling phase := by
    obtain ⟨puller, same⟩ | idle := reads
    · rw [same, events]
      exact h.pulling (puller ▸ phase)
    · simp [Stream.isLive, phase] at idle
  holding e phase := by
    obtain ⟨puller, same⟩ | idle := reads
    · rw [same, events, room]
      exact h.holding e (puller ▸ phase)
    · simp [Stream.isLive, phase] at idle
  ended := ended
  whole := whole

/-- Whatever is done in the window but appending leaves the events alone. -/
theorem perform (h : Fed store start v st) (op : Op Event) (still : ∀ e, op ≠ .append e) :
    Fed store start (v.perform op).1 (st.perform op) := by
  have window := perform_window v op
  refine h.onWindow ?_ (h.valid.perform op) ?_ rfl rfl (.inl ⟨rfl, rfl⟩) (fun phase => ?_) h.whole
  · rw [Stream.perform, h.laid, perform_room h.valid]
  · rw [window]
    cases op with
    | append e => exact absurd rfl (still e)
    | _ => rfl
  · rw [window]
    cases op with
    | append e => exact absurd rfl (still e)
    | close => rfl
    | _ => exact h.ended phase

/-- A window that takes an event has not been closed. -/
theorem append (h : Fed store start v st) {e : Event} {room : Room Event}
    (appended : st.room.append e = .ok room) :
    room = (v.perform (.append e)).1.room ∧ v.window.closed = false := by
  have same := perform_room h.valid (.append e)
  rw [← h.laid, Room.perform, appended] at same
  refine ⟨congrArg Prod.fst same, ?_⟩
  cases closed : v.window.closed with
  | false => rfl
  | true =>
      have answer := congrArg Prod.snd same
      simp [View.perform, Room.Window.append, closed] at answer

/-- A step of the puller keeps the stream fed, and no reader notices more than new events. -/
theorem pull (h : Fed store start v st) (went : st.Pull store st') :
    ∃ w, Fed store start w st' ∧ w.readers = v.readers := by
  cases went with
  | cut pulling closed =>
      exact ⟨v, h.onWindow h.laid h.valid rfl rfl rfl (.inr rfl) (by simp)
        ⟨h.whole.1, by simp⟩, rfl⟩
  | crash pulling running fault => exact absurd fault h.whole.1
  | fail pulling running fault =>
      exact ⟨v, h.onWindow h.laid h.valid rfl rfl rfl (.inr rfl) (by simp) (by simp), rfl⟩
  | item pulling running sound got =>
      obtain ⟨isOpen, there⟩ := h.pulling pulling
      refine ⟨v, ?_, rfl⟩
      obtain ⟨e, next, polled, beyond⟩ | ⟨err, polled⟩ | ⟨polled, _⟩ := there.poll isOpen
      · obtain ⟨rfl, eq⟩ := Prod.mk.inj (polled.symm.trans got)
        obtain rfl := Except.ok.inj (Option.some.inj eq)
        rw [h.feed] at next
        refine ⟨h.laid, h.valid, h.start_le, h.stretch, h.feed, by simp, ?_, by simp, h.whole.1,
          by simp⟩
        intro e' phase
        obtain rfl := Puller.holding.inj phase
        exact ⟨isOpen, next, beyond⟩
      · rw [got] at polled
        cases polled
      · rw [got] at polled
        cases polled
  | finish pulling running sound got =>
      refine ⟨v, h.onWindow h.laid h.valid rfl rfl ?_ (.inr rfl) (by simp)
        ⟨h.whole.1, by simp⟩, rfl⟩
      have same := Store.poll_roomId store st.feed
      rw [got] at same
      exact same
  | @push e room holding appended =>
      obtain ⟨isOpen, next, there⟩ := h.holding e holding
      obtain ⟨rfl, running⟩ := h.append appended
      have pushed : (v.perform (.append e)).1 = { v with window := v.window.extend e } := by
        simp [View.perform, Room.Window.append, running]
      have events : (v.window.extend e).events = v.window.events ++ [e] := rfl
      rw [pushed]
      refine ⟨_, ⟨rfl, pushed ▸ h.valid.perform (.append e), h.start_le, ?_, h.feed, fun _ => ?_,
        by simp, by simp, h.whole.1, by simp⟩, rfl⟩
      · refine Room.prefix_snoc h.stretch ?_
        rw [List.getElem?_drop]
        exact next
      · refine ⟨isOpen, ?_⟩
        rw [events, List.length_append]
        exact there
  | refuse holding failed =>
      exact ⟨v, h.onWindow h.laid h.valid rfl rfl rfl (.inr rfl) (by simp)
        ⟨h.whole.1, by simp⟩, rfl⟩
  | stop stopping =>
      have closed := h.perform .close fun e eq => by cases eq
      exact ⟨_, closed.onWindow closed.laid closed.valid rfl rfl rfl (.inr rfl) (fun _ => rfl)
        ⟨h.whole.1, by simp⟩, rfl⟩

end Fed

/-- For each stream, where in the log it begins, and its window and readers. -/
structure Ledger where
  start : Nat → Nat
  view : Nat → View Event

def Ledger.got (l : Ledger) (h : Reader) : List Event := (l.view h.stream).gotBy h.cursor

def Ledger.setView (l : Ledger) (t : Nat) (v : View Event) : Ledger :=
  { l with view := Function.update l.view t v }

/-- The ledger after something was done in the window of stream `t`. -/
def Ledger.perform (l : Ledger) (t : Nat) (op : Op Event) : Ledger :=
  l.setView t ((l.view t).perform op).1

def Ledger.begin (l : Ledger) (t start capacity : Nat) : Ledger where
  start := Function.update l.start t start
  view := Function.update l.view t (.empty capacity)

@[simp] theorem setView_self (l : Ledger) (t : Nat) (v : View Event) :
    (l.setView t v).view t = v := Function.update_self ..

theorem setView_of_ne (l : Ledger) {t k : Nat} (v : View Event) (other : k ≠ t) :
    (l.setView t v).view k = l.view k := Function.update_of_ne other ..

/-- A reader is one of a stream of its subscriber's room. -/
def Serves (r : Registry) (l : Ledger) (s : Subscriber) (h : Reader) : Prop :=
  ∃ (st : Stream) (c : Room.Reading Event), r.streams[h.stream]? = some st ∧
    st.roomId = s.roomId ∧ (l.view h.stream).readers[h.cursor]? = some c

/-- A ledger describes the streams of a registry. -/
structure Describes (r : Registry) (l : Ledger) : Prop where
  store : r.store.Sound
  fed : ∀ (t : Nat) (st : Stream), r.streams[t]? = some st →
    Fed r.store (l.start t) (l.view t) st
  unborn : ∀ t, r.streams.size ≤ t → (l.view t).readers = #[]
  served : ∀ (i : Nat) (s : Subscriber) (h : Reader), r.subscribers[i]? = some s →
    s.phase.reader? = some h → Serves r l s h

/-- What never changes when a registry goes on, and how far logs and streams only grow. -/
structure Onward (r : Registry) (l : Ledger) (r' : Registry) (l' : Ledger) : Prop where
  logs : ∀ room, r.store.fetch room <+: r'.store.fetch room
  streams : ∀ (t : Nat) (st : Stream), r.streams[t]? = some st →
    ∃ st', r'.streams[t]? = some st' ∧ st'.roomId = st.roomId
  start : ∀ t, t < r.streams.size → l'.start t = l.start t
  born : ∀ (t : Nat) (st : Stream), r.streams.size ≤ t → r'.streams[t]? = some st →
    (r.store.fetch st.roomId).length ≤ l'.start t
  readers : ∀ (t : Nat), t < r.streams.size → ∀ (j : Nat) (c : Room.Reading Event),
    (l.view t).readers[j]? = some c →
      ∃ c', (l'.view t).readers[j]? = some c' ∧ c'.opened = c.opened

variable {r r' r'' : Registry} {l l' l'' : Ledger}

namespace Onward

theorem size_le (h : Onward r l r' l') : r.streams.size ≤ r'.streams.size := by
  by_contra less
  have inside : r'.streams.size < r.streams.size := by omega
  obtain ⟨st', there, _⟩ := h.streams _ _ (Array.getElem?_eq_getElem inside)
  exact absurd (lt_size_of_getElem? there) (Nat.lt_irrefl _)

theorem trans (h : Onward r l r' l') (h' : Onward r' l' r'' l'') : Onward r l r'' l'' where
  logs room := (h.logs room).trans (h'.logs room)
  streams t st there := by
    obtain ⟨st', there', same⟩ := h.streams t st there
    obtain ⟨st'', there'', same'⟩ := h'.streams t st' there'
    exact ⟨st'', there'', same'.trans same⟩
  start t inside := (h'.start t (inside.trans_le h.size_le)).trans (h.start t inside)
  born t st new there := by
    by_cases old : t < r'.streams.size
    · obtain ⟨st'', there'', same⟩ := h'.streams t _ (Array.getElem?_eq_getElem old)
      obtain rfl : st = st'' := Option.some.inj (there.symm.trans there'')
      rw [h'.start t old, same]
      exact h.born t _ new (Array.getElem?_eq_getElem old)
    · exact (h.logs st.roomId).length_le.trans (h'.born t st (by omega) there)
  readers t inside j c found := by
    obtain ⟨c', found', same⟩ := h.readers t inside j c found
    obtain ⟨c'', found'', same'⟩ := h'.readers t (inside.trans_le h.size_le) j c' found'
    exact ⟨c'', found'', same'.trans same⟩

/-- Nothing has happened to the streams. -/
theorem still (store : ∀ room, r.store.fetch room <+: r'.store.fetch room)
    (streams : r'.streams = r.streams) : Onward r l r' l where
  logs := store
  streams t st there := ⟨st, by rw [streams]; exact there, rfl⟩
  start t inside := rfl
  born t st new there := by
    rw [streams] at there
    exact absurd (lt_size_of_getElem? there) (by omega)
  readers t inside j c found := ⟨c, found, rfl⟩

end Onward

theorem Serves.onward {s : Subscriber} {h : Reader} (serves : Serves r l s h)
    (onward : Onward r l r' l') : Serves r' l' s h := by
  obtain ⟨st, c, there, room, found⟩ := serves
  obtain ⟨st', there', same⟩ := onward.streams _ st there
  obtain ⟨c', found', _⟩ := onward.readers _ (lt_size_of_getElem? there) _ c found
  exact ⟨st', c', there', same.trans room, found'⟩

/-- A subscriber that moves to a phase without a reader has not got one. -/
theorem reader_of_setSubscriber {i j : Nat} {q : Subscribing} {s : Subscriber} {h : Reader}
    (still : q.reader? = none) (found : (r.setSubscriber i q).subscribers[j]? = some s)
    (serves : s.phase.reader? = some h) : r.subscribers[j]? = some s := by
  obtain ⟨_, old⟩ | ⟨rfl, s', old, rfl⟩ := getElem?_modify_some.1 found
  · exact old
  · rw [show ({ s' with phase := q } : Subscriber).phase = q from rfl, still] at serves
    cases serves

/-- The streams are as they were, and so are the subscribers that have a reader. -/
theorem Describes.still (h : Describes r l) (store : r'.store = r.store)
    (streams : r'.streams = r.streams)
    (served : ∀ (i : Nat) (s : Subscriber) (g : Reader), r'.subscribers[i]? = some s →
      s.phase.reader? = some g → r.subscribers[i]? = some s ∨ Serves r l s g) :
    Describes r' l where
  store := by
    rw [store]
    exact h.store
  fed t st there := by
    rw [store]
    rw [streams] at there
    exact h.fed t st there
  unborn t new := by
    rw [streams] at new
    exact h.unborn t new
  served i s g found serves := by
    have onward : Onward r l r' l := .still (fun room => by rw [store]) streams
    obtain old | new := served i s g found serves
    · exact (h.served i s g old serves).onward onward
    · exact new.onward onward

/-- One stream goes on, and its readers with it. -/
theorem Describes.onStream (h : Describes r l) {t : Nat} {st : Stream} {w : View Event}
    (there : r.streams[t]? = some st) (f : Stream → Stream) (room : (f st).roomId = st.roomId)
    (fed : Fed r.store (l.start t) w (f st))
    (follow : ∀ (j : Nat) (c : Room.Reading Event), (l.view t).readers[j]? = some c →
      ∃ c', w.readers[j]? = some c' ∧ c'.opened = c.opened) :
    Describes (r.modifyStream t f) (l.setView t w) ∧
      Onward r l (r.modifyStream t f) (l.setView t w) := by
  have inside : t < r.streams.size := lt_size_of_getElem? there
  have streams := getElem?_modify_of f there
  have onward : Onward r l (r.modifyStream t f) (l.setView t w) := by
    refine ⟨fun _ => List.prefix_refl _, ?_, fun _ _ => rfl, ?_, ?_⟩
    · intro k y found
      rw [modifyStream, streams]
      split_ifs with same
      · obtain rfl : st = y := Option.some.inj (there.symm.trans (same ▸ found))
        exact ⟨f st, rfl, room⟩
      · exact ⟨y, found, rfl⟩
    · intro k y new found
      rw [modifyStream, streams, if_neg (by omega)] at found
      exact absurd (lt_size_of_getElem? found) (by omega)
    · intro k _ j c found
      by_cases same : k = t
      · subst same
        rw [setView_self]
        exact follow j c found
      · rw [setView_of_ne l w same]
        exact ⟨c, found, rfl⟩
  refine ⟨⟨h.store, fun k y found => ?_, fun k new => ?_,
    fun i s g found serves => (h.served i s g found serves).onward onward⟩, onward⟩
  · rw [modifyStream, streams] at found
    split_ifs at found with same
    · subst same
      obtain rfl := Option.some.inj found
      rw [setView_self]
      exact fed
    · rw [setView_of_ne l w (Ne.symm same)]
      exact h.fed k y found
  · have old := onward.size_le
    rw [setView_of_ne l w (by omega)]
    exact h.unborn k (by omega)

/-- Something other than appending is done in the window of a stream. -/
theorem Describes.perform (h : Describes r l) {t : Nat} {st : Stream}
    (there : r.streams[t]? = some st) (op : Op Event) (still : ∀ e, op ≠ .append e) :
    Describes (r.modifyStream t (·.perform op)) (l.perform t op) ∧
      Onward r l (r.modifyStream t (·.perform op)) (l.perform t op) := by
  refine h.onStream there _ rfl ((h.fed t st there).perform op still) fun j c found => ?_
  obtain ⟨c', found', follows⟩ := perform_follows found op
  exact ⟨c', found', follows.opened⟩

/-- What readers have got after something was done in the window of a stream. -/
theorem got_perform (l : Ledger) (t : Nat) (op : Op Event) (g : Reader) :
    (l.perform t op).got g = l.got g ++
      (if g.stream = t then Room.eventOf g.cursor op ((l.view t).perform op).2
        else none).toList := by
  unfold Ledger.got Ledger.perform
  by_cases here : g.stream = t
  · rw [if_pos here, here, setView_self]
    exact gotBy_perform _ op g.cursor
  · rw [if_neg here, setView_of_ne l _ here, Option.toList_none, List.append_nil]

/-- Nobody has got anything from a stream that does not exist. -/
theorem Describes.got_unborn (h : Describes r l) {g : Reader} (new : r.streams.size ≤ g.stream) :
    l.got g = [] := by
  simp [Ledger.got, gotBy, h.unborn g.stream new]

theorem use?_ne_append {a : Action} {g : Reader} {op : Op Event} (used : a.use? = some (g, op))
    (e : Event) : op ≠ .append e := by
  rintro rfl
  cases a <;> cases used

theorem eventOf_poll (i j : Nat) (cancelled : Bool) (x : Option (Except StreamError Event)) :
    Room.eventOf i (.poll j cancelled) (.read x) =
      if j = i then x.bind Except.toOption else none := by
  cases x with
  | none => simp [Room.eventOf]
  | some result => cases result <;> simp [Room.eventOf, Except.toOption]

theorem eventOf_resume (i j : Nat) (x : Option (Except StreamError Event)) :
    Room.eventOf i (.resume j) (.read x) = if j = i then x.bind Except.toOption else none := by
  cases x with
  | none => simp [Room.eventOf]
  | some result => cases result <;> simp [Room.eventOf, Except.toOption]

theorem readWith_answer {g : Reader} {st : Stream} (there : r.streams[g.stream]? = some st)
    (f : Room Event → Nat → Room Event × Option (Except StreamError Event)) :
    (r.readWith g f).2 = (f st.room g.cursor).2 := by
  simp [readWith, roomOf?, there]

/-- Two readers of one stream are told apart by their cursors. -/
theorem if_reader_eq {β : Type} (g k : Reader) (x : Option β) :
    (if g = k then x else none) =
      if k.stream = g.stream then (if g.cursor = k.cursor then x else none) else none := by
  obtain ⟨t, i⟩ := g
  obtain ⟨u, j⟩ := k
  by_cases stream : t = u
  · by_cases cursor : i = j
    · simp [stream, cursor]
    · simp [stream, cursor]
  · simp [stream, Ne.symm stream]

/-- What a reader gets from an action is what its window answers. -/
theorem readBy?_use {a : Action} {g k : Reader} {op : Op Event} {st : Stream} {v : View Event}
    (used : a.use? = some (g, op)) (there : r.streams[g.stream]? = some st)
    (laid : st.room = v.room) (valid : v.Valid) :
    r.readBy? k a =
      if k.stream = g.stream then Room.eventOf k.cursor op (v.perform op).2 else none := by
  cases a with
  | poll g' cancelled =>
      obtain ⟨rfl, rfl⟩ := Prod.mk.inj (Option.some.inj used)
      have answer : (r.poll g' cancelled).2 = (v.poll g'.cursor cancelled).2 := by
        rw [poll, readWith_answer there, laid, room_poll valid]
      rw [View.perform, eventOf_poll, ← answer, ← if_reader_eq]
      by_cases same : g' = k
      · subst same
        rfl
      · rw [readBy?, if_neg same, if_neg same]
  | resume g' =>
      obtain ⟨rfl, rfl⟩ := Prod.mk.inj (Option.some.inj used)
      have answer : (r.resume g').2 = (v.resume g'.cursor).2 := by
        rw [resume, readWith_answer there, laid, room_resume valid]
      rw [View.perform, eventOf_resume, ← answer, ← if_reader_eq]
      by_cases same : g' = k
      · subst same
        rfl
      · rw [readBy?, if_neg same, if_neg same]
  | beginRead | cancelRead | abandon | leave | drop =>
      obtain ⟨rfl, rfl⟩ := Prod.mk.inj (Option.some.inj used)
      simp [readBy?, Room.eventOf]
  | _ => cases used

/-- Only using a reader makes it read. -/
theorem readBy?_of_unused {a : Action} (unused : a.use? = none) (k : Reader) :
    r.readBy? k a = none := by
  cases a <;> first | rfl | cases unused

/-- A reader uses the window of its stream. -/
theorem Describes.use (h : Describes r l) {a : Action} {g : Reader} {op : Op Event}
    (used : a.use? = some (g, op)) :
    ∃ l', Describes (r.modifyStream g.stream (·.perform op)) l' ∧
      Onward r l (r.modifyStream g.stream (·.perform op)) l' ∧
      ∀ k, l'.got k = l.got k ++ (r.readBy? k a).toList := by
  cases there : r.streams[g.stream]? with
  | none =>
      have same : r.streams.modify g.stream (·.perform op) = r.streams :=
        modify_eq_self fun st found => by
          rw [there] at found
          cases found
      refine ⟨l, ?_, .still (fun _ => List.prefix_refl _) same, ?_⟩
      · exact h.still rfl same fun i s k found serves => .inl found
      · intro k
        have silent : r.readBy? k a = none := by
          cases a with
          | poll g' cancelled =>
              obtain ⟨rfl, rfl⟩ := Prod.mk.inj (Option.some.inj used)
              by_cases here : g' = k
              · subst here
                simp [readBy?, poll, readWith, roomOf?, there]
              · simp [readBy?, here]
          | resume g' =>
              obtain ⟨rfl, rfl⟩ := Prod.mk.inj (Option.some.inj used)
              by_cases here : g' = k
              · subst here
                simp [readBy?, resume, readWith, roomOf?, there]
              · simp [readBy?, here]
          | _ => rfl
        rw [silent, Option.toList_none, List.append_nil]
  | some st =>
      have fed := h.fed _ st there
      obtain ⟨describes, onward⟩ := h.perform there op (use?_ne_append used)
      refine ⟨_, describes, onward, ?_⟩
      intro k
      rw [got_perform, readBy?_use used there fed.laid fed.valid]

/-- A subscriber takes a reader of a stream of its room. -/
theorem Describes.join (h : Describes r l) {t : Nat} {st : Stream} {s : Subscriber}
    (there : r.streams[t]? = some st) (running : st.room.isClosed = false)
    (room : st.roomId = s.roomId) :
    Describes (r.modifyStream t (·.perform .join)) (l.perform t .join) ∧
      Onward r l (r.modifyStream t (·.perform .join)) (l.perform t .join) ∧
      (∀ g, (l.perform t .join).got g = l.got g) ∧
      Serves (r.modifyStream t (·.perform .join)) (l.perform t .join) s
        ⟨t, st.room.cursors.size⟩ := by
  have fed := h.fed t st there
  obtain ⟨describes, onward⟩ := h.perform there .join fun e eq => by cases eq
  have isOpen : (l.view t).window.closed = false := by
    rw [fed.laid] at running
    exact running
  have size : st.room.cursors.size = (l.view t).readers.size := by
    rw [fed.laid]
    exact Array.size_map
  refine ⟨describes, onward, ?_, st.perform .join, ?_⟩
  · intro g
    rw [got_perform]
    simp [Room.eventOf]
  · refine ⟨⟨(l.view t).window.events.length, [], false, none⟩, ?_, room, ?_⟩
    · rw [modifyStream, getElem?_modify_of _ there, if_pos rfl]
    · rw [Ledger.perform, setView_self, View.perform, isOpen, size]
      exact getElem?_push_some.2 (.inr ⟨rfl, rfl⟩)

/-- The streams go on as the store does. -/
theorem Describes.onStore (h : Describes r l) {store : Store} (keeps : r.store.Keeps store)
    (grown : ∀ room, r.store.fetch room <+: store.fetch room) :
    Describes { r with store } l ∧ Onward r l { r with store } l :=
  ⟨⟨keeps.sound, fun t st there => (h.fed t st there).onStore keeps (grown st.roomId), h.unborn,
    h.served⟩, .still grown rfl⟩

/-- A stream is opened at the end of the log of its room. -/
theorem Describes.begin (h : Describes r l) {room : Uuid} {store : Store} {feed : Store.Feed}
    (opened : r.store.watch? room = some (store, feed)) :
    ∃ l', Describes (r.openStream room store feed) l' ∧
      Onward r l (r.openStream room store feed) l' ∧ ∀ g, l'.got g = l.got g := by
  obtain ⟨keeps, fetched, roomId, isOpen, there⟩ := h.store.watch? opened
  have grown : ∀ other, r.store.fetch other <+: store.fetch other := fun other => by rw [fetched]
  let l' := l.begin r.streams.size (r.store.fetch room).length r.capacity
  have old : ∀ k, k ≠ r.streams.size → l'.view k = l.view k :=
    fun k other => Function.update_of_ne other ..
  have oldStart : ∀ k, k ≠ r.streams.size → l'.start k = l.start k :=
    fun k other => Function.update_of_ne other ..
  have new : l'.view r.streams.size = .empty r.capacity := Function.update_self ..
  have newStart : l'.start r.streams.size = (r.store.fetch room).length := Function.update_self ..
  have onward : Onward r l (r.openStream room store feed) l' := by
    refine ⟨grown, ?_, fun k inside => oldStart k (by omega), ?_, ?_⟩
    · intro k st found
      exact ⟨st, getElem?_push_some.2 (.inl found), rfl⟩
    · intro k st late found
      obtain found | ⟨rfl, rfl⟩ := getElem?_push_some.1 found
      · exact absurd (lt_size_of_getElem? found) (by omega)
      · rw [newStart]
    · intro k inside j c found
      rw [old k (by omega)]
      exact ⟨c, found, rfl⟩
  refine ⟨l', ⟨keeps.sound, fun k st found => ?_, fun k late => ?_,
    fun i s g found serves => (h.served i s g found serves).onward onward⟩, onward, fun g => ?_⟩
  · obtain found | ⟨rfl, rfl⟩ := getElem?_push_some.1 found
    · have other : k ≠ r.streams.size := Nat.ne_of_lt (lt_size_of_getElem? found)
      rw [old k other, oldStart k other]
      exact (h.fed k st found).onStore keeps (grown st.roomId)
    · rw [new, newStart]
      have start : (r.store.fetch room).length = (store.fetch room).length := by rw [fetched]
      refine ⟨(empty_room _).symm, empty_valid _, start.le, List.nil_prefix, roomId,
        fun _ => ⟨isOpen, there⟩, by simp, by simp, by simp⟩
  · have size : (r.openStream room store feed).streams.size = r.streams.size + 1 :=
      Array.size_push ..
    rw [old k (by omega)]
    exact h.unborn k (by omega)
  · by_cases here : g.stream = r.streams.size
    · rw [h.got_unborn here.ge, Ledger.got, here, new]
      simp [gotBy, View.empty]
    · rw [Ledger.got, old _ here, Ledger.got]

/-- The live feeds of a room are going to fail, none of them by taking its puller down. -/
theorem Describes.fault (h : Describes r l) (room : Uuid) {f : Fault} (calm : f ≠ .crash) :
    Describes (r.injectFault room f) l ∧ Onward r l (r.injectFault room f) l := by
  have row : ∀ (k : Nat) (y : Stream), (r.injectFault room f).streams[k]? = some y →
      ∃ st, r.streams[k]? = some st ∧ y.roomId = st.roomId ∧
        Fed r.store (l.start k) (l.view k) y := by
    intro k y found
    rw [injectFault, Array.getElem?_map] at found
    obtain ⟨st, there, rfl⟩ := Option.map_eq_some_iff.1 found
    have fed := h.fed k st there
    split_ifs
    · refine ⟨st, there, rfl,
        fed.onWindow fed.laid fed.valid rfl rfl rfl (.inl ⟨rfl, rfl⟩) fed.ended
        ⟨?_, fed.whole.2⟩⟩
      cases old : st.fault with
      | none => simpa using calm
      | some f' =>
          have whole := fed.whole.1
          rw [old] at whole
          exact whole
    · exact ⟨st, there, rfl, fed⟩
  have size : (r.injectFault room f).streams.size = r.streams.size := Array.size_map
  have onward : Onward r l (r.injectFault room f) l := by
    refine ⟨fun _ => List.prefix_refl _, ?_, fun _ _ => rfl, ?_, fun k _ j c found => ⟨c, found,
      rfl⟩⟩
    · intro k st there
      have inside : k < (r.injectFault room f).streams.size := size ▸ lt_size_of_getElem? there
      obtain ⟨st', there', same, _⟩ := row k _ (Array.getElem?_eq_getElem inside)
      obtain rfl : st = st' := Option.some.inj (there.symm.trans there')
      exact ⟨_, Array.getElem?_eq_getElem inside, same⟩
    · intro k y new found
      exact absurd (lt_size_of_getElem? found) (by omega)
  refine ⟨⟨h.store, fun k y found => ?_, fun k new => h.unborn k (size ▸ new),
    fun i s g found serves => (h.served i s g found serves).onward onward⟩, onward⟩
  obtain ⟨_, _, _, fed⟩ := row k y found
  exact fed

/-- The ledger of a registry whose streams have not changed. -/
theorem Describes.rest (h : Describes r l) (store : r'.store = r.store)
    (streams : r'.streams = r.streams)
    (served : ∀ (i : Nat) (s : Subscriber) (g : Reader), r'.subscribers[i]? = some s →
      s.phase.reader? = some g → r.subscribers[i]? = some s) :
    ∃ l', Describes r' l' ∧ Onward r l r' l' ∧ ∀ g, l'.got g = l.got g :=
  ⟨l, h.still store streams fun i s g found serves => .inl (served i s g found serves),
    .still (fun _ => by rw [store]) streams, fun _ => rfl⟩

/-- A subscriber gets a reader of a stream of its room. -/
theorem Describes.admit (h : Describes r l) {i t : Nat} {st : Stream} {s : Subscriber}
    (found : r.subscribers[i]? = some s) (there : r.streams[t]? = some st)
    (running : st.room.isClosed = false) (room : st.roomId = s.roomId)
    (store : r'.store = r.store) (streams : r'.streams = r.streams.modify t (·.perform .join))
    (subscribers : r'.subscribers = r.subscribers.modify i fun s =>
      { s with phase := .done (.ok ⟨t, st.room.cursors.size⟩) }) :
    ∃ l', Describes r' l' ∧ Onward r l r' l' ∧ ∀ g, l'.got g = l.got g := by
  obtain ⟨describes, onward, got, serves⟩ := h.join there running room
  refine ⟨_, describes.still store streams fun j s' g found' serves' => ?_,
    onward.trans (.still (fun _ => store ▸ List.prefix_refl _) streams), got⟩
  rw [subscribers] at found'
  obtain ⟨_, old⟩ | ⟨rfl, s₁, old, rfl⟩ := getElem?_modify_some.1 found'
  · exact .inl old
  · obtain rfl : s = s₁ := Option.some.inj (found.symm.trans old)
    obtain rfl := Option.some.inj serves'
    exact .inr serves

/-- A stream of an entry is one of its subscribers' room. -/
theorem Owned.room_of_stream (h : r.Owned) {i e t : Nat} {s : Subscriber} {x : Entry} {st : Stream}
    (found : r.subscribers[i]? = some s) (asked : s.phase.entry? = some e)
    (here : r.entries[e]? = some x) (started : x.started = some t)
    (there : r.streams[t]? = some st) : st.roomId = s.roomId := by
  obtain ⟨x₁, here₁, room⟩ := (h.placed i s found).named e asked
  obtain rfl : x = x₁ := Option.some.inj (here.symm.trans here₁)
  exact (h.stream_roomId here started there).trans room

/-- A ledger is kept through every move, unless a reader is used or a feed takes its puller down. -/
theorem Describes.move (h : Describes r l) (owned : r.Owned) {a : Action} (m : Move r a r')
    (calm : ∀ room, a ≠ .fault room .crash) (unused : a.use? = none) :
    ∃ l', Describes r' l' ∧ Onward r l r' l' ∧ ∀ g, l'.got g = l.got g := by
  cases m with
  | subscribe room =>
      refine h.rest rfl rfl fun i s g found serves => ?_
      obtain old | ⟨_, rfl⟩ := getElem?_push_some.1 found
      · exact old
      · cases serves
  | walk found walks =>
      exact h.rest rfl rfl fun i s g => reader_of_setSubscriber walks.nowhere.2
  | find | create | ask | turnAway | watch | fail | failClosed | startDead | remove | abort =>
      exact h.rest rfl rfl fun i s g => reader_of_setSubscriber rfl
  | @join i e t s x st found phase here head live stream there running =>
      refine h.admit found there running ?_ rfl rfl rfl
      have started := Entry.started_of_stream stream
      exact owned.room_of_stream found (by rw [phase]; rfl) here started there
  | @start i e t s st found phase there running =>
      obtain ⟨x, here, _, _, _, bare, pulls⟩ := owned.starts found phase
      refine h.admit found there running ?_ rfl rfl rfl
      exact owned.room_of_stream found (by rw [phase]; rfl) here
        (by rw [Entry.started, bare, pulls]; rfl) there
  | watched found phase opened =>
      obtain ⟨l', describes, onward, got⟩ := h.begin opened
      refine ⟨l', describes.still rfl rfl fun j s g found serves => .inl ?_,
        onward.trans (.still (fun _ => List.prefix_refl _) rfl), got⟩
      exact reader_of_setSubscriber rfl found serves
  | @closeWindow a j t c p found phase stream =>
      cases there : r.streams[t]? with
      | none =>
          have same : r.streams.modify t (·.perform .close) = r.streams :=
            modify_eq_self fun st found => by
              rw [there] at found
              cases found
          exact h.rest rfl same fun i s g found _ => found
      | some st =>
          obtain ⟨describes, onward⟩ := h.perform there .close fun e eq => by cases eq
          refine ⟨_, describes.still rfl rfl fun i s g found _ => .inl found,
            onward.trans (.still (fun _ => List.prefix_refl _) rfl), ?_⟩
          intro g
          rw [got_perform]
          simp [Room.eventOf]
  | emit stored =>
      obtain ⟨keeps, fetched⟩ := h.store.emit? stored
      obtain ⟨describes, onward⟩ := h.onStore keeps fun room => by
        rw [fetched]
        split_ifs
        · exact List.prefix_append _ _
        · exact List.prefix_refl _
      exact ⟨l, describes, onward, fun _ => rfl⟩
  | endFeed room =>
      obtain ⟨keeps, fetched⟩ := h.store.closeRoom room
      obtain ⟨describes, onward⟩ := h.onStore keeps fun other => by rw [fetched]
      exact ⟨l, describes, onward, fun _ => rfl⟩
  | fault room f =>
      obtain ⟨describes, onward⟩ := h.fault room fun eq => calm room (eq ▸ rfl)
      exact ⟨l, describes, onward, fun _ => rfl⟩
  | @pull t st st' there went =>
      obtain ⟨w, fed, readers⟩ := (h.fed t st there).pull went
      obtain ⟨describes, onward⟩ := h.onStream there (fun _ => st') went.roomId fed
        fun j c found => ⟨c, by rw [readers]; exact found, rfl⟩
      refine ⟨_, describes, onward, ?_⟩
      intro g
      by_cases same : g.stream = t
      · simp [Ledger.got, same, gotBy, readers]
      · rw [Ledger.got, setView_of_ne l w same, Ledger.got]
  | @close a t st there closing =>
      have fed := h.fed t st there
      obtain ⟨describes, onward⟩ := h.onStream there
        (fun st => { st with feed := st.feed.close, puller := .ended }) rfl
        (fed.onWindow fed.laid fed.valid rfl rfl rfl (.inr rfl) (fun _ => fed.ended (.inl closing))
          ⟨fed.whole.1, by simp⟩) fun j c found => ⟨c, found, rfl⟩
      refine ⟨_, describes, onward, ?_⟩
      intro g
      by_cases same : g.stream = t
      · simp [Ledger.got, same]
      · rw [Ledger.got, setView_of_ne l _ same, Ledger.got]
  | use used =>
      rw [unused] at used
      cases used
  | reclaim here may =>
      rw [reclaim_eq here may]
      exact h.rest rfl rfl fun i s g found _ => found
  | askToClose | retire | closeNothing | closed | shutdown | goDown | drain | drained | take | stop
  | patrol =>
      exact h.rest rfl rfl fun i s g found _ => found

/-- A ledger is kept through every action, and readers have got what the action gave them. -/
theorem Describes.perform? (h : Describes r l) (owned : r.Owned) {a : Action}
    (calm : ∀ room, a ≠ .fault room .crash) (did : r.perform? a = some r') :
    ∃ l', Describes r' l' ∧ Onward r l r' l' ∧
      ∀ g, l'.got g = l.got g ++ (r.readBy? g a).toList := by
  cases used : a.use? with
  | some use =>
      obtain ⟨g, op⟩ := use
      rw [perform?_use used] at did
      obtain rfl := Option.some.inj did
      exact h.use used
  | none =>
      have moved : r'.Owned ∧
          ∃ l', Describes r' l' ∧ Onward r l r' l' ∧ ∀ g, l'.got g = l.got g := by
        have moves := perform?_moves owned.fresh did
        clear did
        induction moves with
        | refl => exact ⟨owned, l, h, .still (fun _ => List.prefix_refl _) rfl, fun _ => rfl⟩
        | tail _ last ih =>
            obtain ⟨owned₁, l₁, describes₁, onward₁, got₁⟩ := ih
            obtain ⟨l₂, describes₂, onward₂, got₂⟩ := describes₁.move owned₁ last calm used
            exact ⟨owned₁.move last, l₂, describes₂, onward₁.trans onward₂,
              fun g => (got₂ g).trans (got₁ g)⟩
      obtain ⟨_, l', describes, onward, got⟩ := moved
      refine ⟨l', describes, onward, ?_⟩
      intro g
      rw [got, readBy?_of_unused used, Option.toList_none, List.append_nil]

theorem reader?_eq_some_iff {p : Subscribing} {h : Reader} :
    p.reader? = some h ↔ p = .done (.ok h) := by
  cases p with
  | done result => cases result <;> simp [Subscribing.reader?]
  | _ => simp [Subscribing.reader?]

/-- What a run has led to, compared with the states it went through. -/
structure History (r₀ : Registry) (acts : List Action) (r : Registry) (l : Ledger) : Prop where
  owned : r.Owned
  describes : r.Describes l
  got : ∀ g, l.got g = r₀.reads g acts
  logs : ∀ r' room, r₀.Passes acts r' → r'.store.fetch room <+: r.store.fetch room
  since : ∀ (r' : Registry) (t : Nat) (st : Stream), r₀.Passes acts r' → r'.streams.size ≤ t →
    r.streams[t]? = some st → (r'.store.fetch st.roomId).length ≤ l.start t
  handed : ∀ (r' : Registry) (i : Nat) (s : Subscriber) (h : Reader), r₀.Passes acts r' →
    r'.subscribers[i]? = some s → s.phase.reader? = some h →
    ∃ (st : Stream) (c : Room.Reading Event), r.streams[h.stream]? = some st ∧
      st.roomId = s.roomId ∧ (l.view h.stream).readers[h.cursor]? = some c ∧
      l.start h.stream + c.opened ≤ (r'.store.fetch s.roomId).length

theorem Fed.opened_le {store : Store} {start j : Nat} {v : View Event} {st : Stream}
    {c : Room.Reading Event} (h : Fed store start v st) (found : v.readers[j]? = some c) :
    start + c.opened ≤ (store.fetch st.roomId).length := by
  have within := (h.valid j c found).opened_le
  have inside := h.end_le
  omega

theorem empty_describes (capacity channelCapacity : Nat) :
    (Registry.empty capacity channelCapacity).Describes ⟨fun _ => 0, fun _ => .empty 0⟩ := by
  refine ⟨Store.empty_sound _, ?_, fun _ _ => rfl, ?_⟩
  · intro t st there
    simp [Registry.empty] at there
  · intro i s g found
    simp [Registry.empty] at found

theorem History.next {r₀ : Registry} {acts : List Action} {a : Action}
    (h : History r₀ acts r l) (ran : r₀.run? acts = some r)
    (calm : ∀ room, a ≠ .fault room .crash) (did : r.perform? a = some r') :
    ∃ l', History r₀ (acts ++ [a]) r' l' := by
  obtain ⟨l', describes, onward, got⟩ := h.describes.perform? h.owned calm did
  have longer : r₀.run? (acts ++ [a]) = some r' := run?_snoc.2 ⟨r, ran, did⟩
  refine ⟨l', h.owned.perform did, describes, ?_, ?_, ?_, ?_⟩
  · intro g
    rw [got, h.got, reads_snoc g a ran]
  · intro r₁ room passed
    obtain before | rfl := passes_snoc longer passed
    · exact (h.logs r₁ room before).trans (onward.logs room)
    · exact List.prefix_refl _
  · intro r₁ t st passed new there
    obtain before | rfl := passes_snoc longer passed
    · by_cases old : t < r.streams.size
      · obtain ⟨st', there', same⟩ := onward.streams t _ (Array.getElem?_eq_getElem old)
        obtain rfl : st = st' := Option.some.inj (there.symm.trans there')
        rw [onward.start t old, same]
        exact h.since r₁ t _ before new (Array.getElem?_eq_getElem old)
      · exact (h.logs r₁ st.roomId before).length_le.trans (onward.born t st (by omega) there)
    · exact absurd (lt_size_of_getElem? there) (by omega)
  · intro r₁ i s g passed found serves
    obtain before | rfl := passes_snoc longer passed
    · obtain ⟨st, c, there, room, reader, bound⟩ := h.handed r₁ i s g before found serves
      obtain ⟨st', there', same⟩ := onward.streams _ st there
      have old := lt_size_of_getElem? there
      obtain ⟨c', reader', opened⟩ := onward.readers _ old _ c reader
      refine ⟨st', c', there', same.trans room, reader', ?_⟩
      rw [onward.start _ old, opened]
      exact bound
    · obtain ⟨st, c, there, room, reader⟩ := describes.served i s g found serves
      refine ⟨st, c, there, room, reader, ?_⟩
      rw [← room]
      exact (describes.fed _ st there).opened_le reader

/-- Every run in which no feed takes its puller down has a history. -/
theorem run?_history {capacity channelCapacity : Nat} {acts : List Action}
    (ran : (Registry.empty capacity channelCapacity).run? acts = some r)
    (calm : ∀ room, Action.fault room .crash ∉ acts) :
    ∃ l, History (.empty capacity channelCapacity) acts r l := by
  refine run?_induction (P := fun acts r => (∀ room, Action.fault room .crash ∉ acts) →
    ∃ l, History (.empty capacity channelCapacity) acts r l) (fun _ => ?_) ?_ ran calm
  · have describes := empty_describes capacity channelCapacity
    have only : ∀ r', (Registry.empty capacity channelCapacity).Passes [] r' →
        r' = .empty capacity channelCapacity := by
      rintro r' ⟨before, inside, reached⟩
      obtain rfl := List.prefix_nil.1 inside
      exact (Option.some.inj reached).symm
    refine ⟨_, empty_owned _ _, describes, fun g => describes.got_unborn (Nat.zero_le _), ?_, ?_,
      ?_⟩
    · intro r' room passed
      rw [only r' passed]
    · intro r' t st _ _ there
      simp [Registry.empty] at there
    · intro r' i s g passed found
      rw [only r' passed] at found
      simp [Registry.empty] at found
  · intro acts a r r' before ih did calm
    obtain ⟨l, h⟩ := ih fun room there => calm room (List.mem_append_left _ there)
    refine h.next before (fun room eq => calm room ?_) did
    simp [eq]

/-- A puller that has nothing to do, though its window is open, has read the whole log. -/
theorem Fed.at_end {store : Store} {start : Nat} {v : View Event} {st : Stream}
    (h : Fed store start v st) (running : v.window.closed = false)
    (idle : st.step? store = none) :
    start + v.window.events.length = (store.fetch st.roomId).length := by
  have isOpen : st.room.isClosed = false := by
    rw [h.laid]
    exact running
  cases phase : st.puller with
  | pulling =>
      obtain ⟨feedOpen, there⟩ := h.pulling phase
      simp only [Stream.step?, phase, Stream.pull?, isOpen, Bool.false_eq_true, if_false] at idle
      cases fault : st.fault with
      | some f => cases f <;> simp [fault] at idle
      | none =>
          simp only [fault] at idle
          rw [← h.feed]
          obtain ⟨e, _, polled, _⟩ | ⟨err, polled⟩ | ⟨_, last⟩ := there.poll feedOpen
          · simp [polled] at idle
          · generalize store.poll st.feed = answer at polled idle
            obtain ⟨feed, result⟩ := answer
            obtain rfl : result = some (.error err) := polled
            cases idle
          · exact last
  | holding e => simp [Stream.step?, phase] at idle
  | stopping => simp [Stream.step?, phase] at idle
  | closing =>
      rw [h.ended (.inl phase)] at running
      cases running
  | ended =>
      rw [h.ended (.inr phase)] at running
      cases running
  | crashed => exact absurd phase h.whole.2

/-- A read that waits and cannot go on is at the end of its window, which is open. -/
theorem waiting_at_end {v : View Event} (valid : v.Valid) {i : Nat}
    (reading : v.room.isReading i = true) (stuck : v.room.canResume i = false) :
    v.window.closed = false ∧
      ∃ c, v.readers[i]? = some c ∧ c.position = v.window.events.length := by
  cases found : v.readers[i]? with
  | none => simp [Room.isReading, room_cursor?, found] at reading
  | some c =>
      cases wait : c.wait with
      | none => simp [Room.isReading, room_cursor?, found, Room.Reading.cursor, wait] at reading
      | some w =>
          have before := (valid i c found).position_le
          have nothing : v.window.await? c.position w.cancelled = none := by
            simp only [Room.canResume, room_cursor?, found, Option.map_some, Option.any_some,
              Room.Reading.cursor, wait, Bool.or_eq_false_iff, Option.isSome_eq_false_iff,
              Option.isNone_iff_eq_none] at stuck
            have waits : v.window.chain.await? c.position w.cancelled = none := stuck.2
            rw [Room.Window.await?_chain before] at waits
            exact Option.map_eq_none_iff.1 waits
          rw [Room.Window.await?] at nothing
          split_ifs at nothing with cancelled lost
          have kept := (Room.Window.lost_eq_false (w := v.window)).1 (by simpa using lost)
          refine ⟨kept.1, c, rfl, ?_⟩
          have beyond := List.getElem?_eq_none_iff.1 (Option.map_eq_none_iff.1 nothing)
          omega

/-- Every reader that a subscriber gets reads a stretch of the log of its room, without gaps and in
order. The stretch begins at a place that is not before the end of the log at any time before the
stream of the reader was opened, and not behind the end of the log at any time since the subscriber
has the reader. A read that waits, and cannot go on while the puller of its stream has nothing to
do, waits for the event behind the end of the log. -/
theorem reads_delivered {capacity channelCapacity : Nat} {acts : List Action}
    (ran : (Registry.empty capacity channelCapacity).run? acts = some r)
    (calm : ∀ room, Action.fault room .crash ∉ acts) {i : Nat} {s : Subscriber} {h : Reader}
    (found : r.subscribers[i]? = some s) (served : s.phase = .done (.ok h)) :
    ∃ start,
      (Registry.empty capacity channelCapacity).reads h acts <+:
        (r.store.fetch s.roomId).drop start ∧
      (∀ r', (Registry.empty capacity channelCapacity).Passes acts r' →
        r'.streams.size ≤ h.stream → (r'.store.fetch s.roomId).length ≤ start) ∧
      (∀ r' s', (Registry.empty capacity channelCapacity).Passes acts r' →
        r'.subscribers[i]? = some s' → s'.phase = .done (.ok h) →
        start ≤ (r'.store.fetch s.roomId).length) ∧
      (r.step? (.puller h.stream) = none → r.isReading h = true → r.canResume h = false →
        start + ((Registry.empty capacity channelCapacity).reads h acts).length =
          (r.store.fetch s.roomId).length) := by
  obtain ⟨l, history⟩ := run?_history ran calm
  have now : (Registry.empty capacity channelCapacity).Passes acts r := ⟨acts, List.prefix_refl _,
    ran⟩
  obtain ⟨st, c, there, room, reader, _⟩ :=
    history.handed r i s h now found (reader?_eq_some_iff.2 served)
  have fed := history.describes.fed _ st there
  have within := fed.valid _ c reader
  have got : (Registry.empty capacity channelCapacity).reads h acts = c.got := by
    rw [← history.got, Ledger.got, gotBy, reader]
    rfl
  refine ⟨l.start h.stream + c.opened, ?_, ?_, ?_, ?_⟩
  · rw [got, ← room, ← List.drop_drop]
    exact within.got_in_order.trans (List.IsPrefix.drop fed.stretch _)
  · intro r' passed new
    have since := history.since r' h.stream st passed new there
    rw [room] at since
    omega
  · intro r' s' passed found' served'
    obtain ⟨st', c', there', room', reader', bound⟩ :=
      history.handed r' i s' h passed found' (reader?_eq_some_iff.2 served')
    obtain rfl : st = st' := Option.some.inj (there.symm.trans there')
    obtain rfl : c = c' := Option.some.inj (reader.symm.trans reader')
    rw [← room, room']
    exact bound
  · intro idle reading stuck
    have window : r.roomOf? h = some (l.view h.stream).room := by
      rw [roomOf?, there, Option.map_some, fed.laid]
    rw [isReading, window] at reading
    rw [canResume, window] at stuck
    obtain ⟨running, c', reader', last⟩ := waiting_at_end fed.valid reading stuck
    obtain rfl : c = c' := Option.some.inj (reader.symm.trans reader')
    have quiet : st.step? r.store = none := by
      simpa [step?, stepPuller?, there] using idle
    have whole := fed.at_end running quiet
    rw [got, ← room, ← whole, ← last, Room.Reading.position]
    omega

def someEvent : Event :=
  ⟨.ofNat 1, .ofNat 7, .ofNat 2, .midnight ⟨2024, 1, 1, by decide, by decide⟩,
    ⟨"recording", .null⟩⟩

/-- A subscriber gets a reader, reads the only event of its room and waits for the next. -/
def oneDelivery : List Action :=
  [.subscribe (.ofNat 7), .step (.subscriber 0), .step (.subscriber 0), .step (.subscriber 0),
    .step (.subscriber 0), .step (.subscriber 0), .watched 0 none, .step (.subscriber 0),
    .emit someEvent, .step (.puller 0), .step (.puller 0), .poll ⟨0, 0⟩ false,
    .beginRead ⟨0, 0⟩ false, .resume ⟨0, 0⟩]

/-- The reader has got one event and waits at the end of the log. -/
theorem reads_delivered_one : ∃ r s start,
    (Registry.empty 2 1).run? oneDelivery = some r ∧ r.subscribers[0]? = some s ∧
    ((Registry.empty 2 1).reads ⟨0, 0⟩ oneDelivery).length = 1 ∧
    (Registry.empty 2 1).reads ⟨0, 0⟩ oneDelivery <+: (r.store.fetch s.roomId).drop start ∧
    start + 1 = (r.store.fetch s.roomId).length := by
  have possible : ((Registry.empty 2 1).run? oneDelivery).isSome = true := by decide +kernel
  obtain ⟨r, ran⟩ := Option.isSome_iff_exists.1 possible
  have calm : ∀ room, Action.fault room .crash ∉ oneDelivery := by simp [oneDelivery]
  have reader : (((Registry.empty 2 1).run? oneDelivery).bind (·.subscribers[0]?)).map
      (·.phase.reader?) = some (some ⟨0, 0⟩) := by decide +kernel
  have waits : ((Registry.empty 2 1).run? oneDelivery).map (fun r =>
      ((r.step? (.puller 0)).isNone, r.isReading ⟨0, 0⟩, r.canResume ⟨0, 0⟩)) =
      some (true, true, false) := by decide +kernel
  have one : ((Registry.empty 2 1).reads ⟨0, 0⟩ oneDelivery).length = 1 := by decide +kernel
  rw [ran] at reader waits
  obtain ⟨s, found, serves⟩ := Option.map_eq_some_iff.1 reader
  obtain ⟨idle, reading, stuck⟩ : _ ∧ _ ∧ _ := by simpa using waits
  obtain ⟨start, stretch, _, _, last⟩ :=
    reads_delivered ran calm found (reader?_eq_some_iff.1 serves)
  refine ⟨r, s, start, ran, found, one, stretch, ?_⟩
  rw [← one]
  exact last idle reading stuck

end Registry

end Roomcast

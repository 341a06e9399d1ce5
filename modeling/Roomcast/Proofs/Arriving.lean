import Roomcast.Proofs.Calm

/-!
# How events get to a reader

A reader of a window that keeps enough of the log reads whatever comes next as soon as it is there.
What is stored in the room comes through the feed of the stream, and each step of the puller brings
it nearer: out of the feed, and into the window. As long as no shutdown begins, nothing but its own
end gets in the way of an open reader, since an entry that is read is not reclaimed.
-/

namespace Roomcast

namespace Room.View

variable {α : Type} {v : View α} {i : Nat} {c : Reading α}

/-- Reader `i` is open, nobody has given up its read, and the window keeps all that has come since
it was opened. -/
structure Attends (v : View α) (i : Nat) (c : Reading α) : Prop where
  reader : v.readers[i]? = some c
  isOpen : c.closed = false
  patient : ∀ w ∈ c.wait, w.cancelled = false
  running : v.window.closed = false
  fits : v.window.events.length ≤ c.opened + v.window.capacity

theorem Attends.near (h : v.Attends i c) : v.window.lost c.position = false := by
  refine Window.lost_eq_false.2 ⟨h.running, h.fits.trans ?_⟩
  rw [Reading.position]
  omega

/-- A reader that looks gets the event at its position, if there is one. -/
theorem Attends.look? (h : v.Attends i c) :
    v.look? c false = v.window.events[c.position]?.map .ok := by
  rw [View.look?, if_neg (by simp [h.isOpen]), Window.poll?, h.near]
  rfl

/-- A read that has begun gets the event at the position of its reader, if there is one. -/
theorem Attends.goOn? (h : v.Attends i c) :
    v.goOn? c = c.wait.bind fun _ => v.window.events[c.position]?.map .ok := by
  rw [View.goOn?]
  cases wait : c.wait with
  | none => rfl
  | some w =>
      have patient := h.patient w wait
      rw [Option.bind_some, Option.bind_some, patient, h.look?, Window.await?, h.near]
      simp

theorem Attends.poll (h : v.Attends i c) :
    (v.poll i false).2 = v.window.events[c.position]?.map .ok := by
  rw [View.poll, h.reader, Option.bind_some, h.look?]
  cases v.window.events[c.position]? <;> rfl

theorem Attends.resume (h : v.Attends i c) (reading : c.wait.isSome = true) :
    (v.resume i).2 = v.window.events[c.position]?.map .ok := by
  obtain ⟨w, wait⟩ := Option.isSome_iff_exists.1 reading
  rw [View.resume, h.reader, Option.bind_some, h.goOn?, wait, Option.bind_some]
  cases v.window.events[c.position]? <;> rfl

/-- The reader stays open when it changes in what it has read and how it waits. -/
theorem Attends.modify (h : v.Attends i c) {f : Reading α → Reading α}
    (opened : (f c).opened = c.opened) (isOpen : (f c).closed = false)
    (patient : ∀ w ∈ (f c).wait, w.cancelled = false) : (v.modifyReader i f).Attends i (f c) where
  reader := getElem?_modify_some.2 (.inr ⟨rfl, c, h.reader, rfl⟩)
  isOpen := isOpen
  patient := patient
  running := h.running
  fits := opened ▸ h.fits

inductive Op.Reads (i : Nat) : Op α → Prop
  | poll : Reads i (.poll i false)
  | beginRead : Reads i (.beginRead i false)
  | resume : Reads i (.resume i)

/-- A reader that reads on keeps up, and has what it has been given. -/
theorem Attends.perform (h : v.Attends i c) {op : Op α} (reads : Op.Reads i op) :
    ∃ c', (v.perform op).1.Attends i c' ∧ c'.opened = c.opened ∧
      c'.got = c.got ++ (eventOf i op (v.perform op).2).toList := by
  cases reads with
  | poll =>
      have found := h.look?
      rw [View.perform, View.poll, h.reader, Option.bind_some, found]
      cases v.window.events[c.position]? with
      | none => exact ⟨c, h, rfl, (List.append_nil _).symm⟩
      | some e =>
          refine ⟨c.settle (.ok e), h.modify (f := fun c => c.settle (.ok e)) rfl h.isOpen ?_, rfl,
            ?_⟩
          · rintro w ⟨⟩
          simp [Reading.settle, eventOf]
  | beginRead =>
      refine ⟨_, h.modify (f := fun c => { c with wait := some ⟨false, false⟩ }) rfl h.isOpen ?_,
        rfl, (List.append_nil _).symm⟩
      rintro w ⟨⟩
      rfl
  | resume =>
      have found := h.goOn?
      rw [View.perform, View.resume, h.reader, Option.bind_some, found]
      cases wait : c.wait.bind fun _ =>
          v.window.events[c.position]?.map (@Except.ok StreamError α) with
      | none =>
          refine ⟨_, h.modify
            (f := fun c => { c with wait := c.wait.map fun w => { w with parked := true } })
            rfl h.isOpen ?_, rfl, (List.append_nil _).symm⟩
          intro w waits
          obtain ⟨w', before, rfl⟩ := Option.map_eq_some_iff.1 waits
          exact h.patient w' before
      | some result =>
          obtain ⟨w, _, got⟩ := Option.bind_eq_some_iff.1 wait
          obtain ⟨e, _, rfl⟩ := Option.map_eq_some_iff.1 got
          refine ⟨c.settle (.ok e), h.modify (f := fun c => c.settle (.ok e)) rfl h.isOpen ?_, rfl,
            ?_⟩
          · rintro w ⟨⟩
          simp [Reading.settle, eventOf]

/-- A reader keeps up when another one joins. -/
theorem Attends.join (h : v.Attends i c) : (v.perform .join).1.Attends i c := by
  rw [View.perform, if_neg (by simp [h.running])]
  exact ⟨getElem?_push_some.2 (.inl h.reader), h.isOpen, h.patient, h.running, h.fits⟩

/-- A reader keeps up with an event for which the window has room. -/
theorem Attends.append (h : v.Attends i c) (event : α)
    (few : v.window.events.length + 1 ≤ c.opened + v.window.capacity) :
    (v.perform (.append event)).1.Attends i c := by
  rw [View.perform, Window.append, if_neg (by simp [h.running])]
  refine ⟨h.reader, h.isOpen, h.patient, h.running, ?_⟩
  show (v.window.events ++ [event]).length ≤ _
  rw [List.length_append]
  exact few

/-- Whoever joins keeps up from then on. -/
theorem attends_new (v : View α) (running : v.window.closed = false) :
    (v.perform .join).1.Attends v.readers.size ⟨v.window.events.length, [], false, none⟩ := by
  rw [View.perform, if_neg (by simp [running])]
  exact ⟨getElem?_push_some.2 (.inr ⟨rfl, rfl⟩), rfl, by rintro w ⟨⟩, running, Nat.le_add_right _ _⟩

end Room.View

namespace Registry

open Room (View Reading)

variable {r r' : Registry} {a : Action}

/-- The puller of a stream has certain events still to bring, and needs so many steps for that. -/
inductive Stream.Brings (store : Store) (st : Stream) : List Event → Nat → Prop
  | waits {rest : List Event} (waits : st.Waits store rest) : Brings store st rest (2 * rest.length)
  | holds {e : Event} {rest : List Event} (holding : st.puller = .holding e)
      (sound : st.fault = none) (feed : st.feed.Awaits store rest) :
      Brings store st (e :: rest) (2 * rest.length + 1)

/-- Since reader `i` was opened certain events have been sent to the stream. Those that are not in
the window yet need so many steps of the puller. -/
structure Stream.Serves (store : Store) (st : Stream) (v : View Event) (i : Nat)
    (c : Reading Event) (sent : List Event) (left : Nat) : Prop where
  valid : v.Valid
  laid : st.room = v.room
  attends : v.Attends i c
  brings : ∃ rest, st.Brings store rest left ∧ v.window.events.drop c.opened ++ rest = sent

section

variable {store store' : Store} {st st' : Stream} {v : View Event} {i left : Nat}
  {c : Reading Event} {sent rest : List Event}

theorem Stream.Brings.congr (h : st.Brings store rest left) (puller : st'.puller = st.puller)
    (fault : st'.fault = st.fault) (feed : st'.feed = st.feed)
    (awaits : ∀ rest, st.feed.Awaits store rest → st.feed.Awaits store' rest) :
    st'.Brings store' rest left := by
  cases h with
  | waits waits =>
      exact .waits ⟨puller.trans waits.pulling, fault.trans waits.sound,
        feed ▸ awaits rest waits.feed⟩
  | holds holding sound there =>
      exact .holds (puller.trans holding) (fault.trans sound) (feed ▸ awaits _ there)

/-- What happens in the store leaves a stream serving if its feed still awaits the same. -/
theorem Stream.Serves.still (h : st.Serves store v i c sent left)
    (awaits : ∀ rest, st.feed.Awaits store rest → st.feed.Awaits store' rest) :
    st.Serves store' v i c sent left := by
  obtain ⟨rest, brings, log⟩ := h.brings
  exact ⟨h.valid, h.laid, h.attends, rest, brings.congr rfl rfl rfl awaits, log⟩

/-- What is done in a window leaves the stream serving if it leaves the reader and the log alone. -/
theorem Stream.Serves.perform (h : st.Serves store v i c sent left) {op : Room.Op Event}
    {c' : Reading Event} (attends : (v.perform op).1.Attends i c') (opened : c'.opened = c.opened)
    (window : (v.perform op).1.window = v.window) :
    (st.perform op).Serves store (v.perform op).1 i c' sent left := by
  obtain ⟨rest, brings, log⟩ := h.brings
  refine ⟨h.valid.perform op, ?_, attends, rest, brings.congr rfl rfl rfl fun _ => id, ?_⟩
  · rw [Stream.perform, h.laid, View.perform_room h.valid]
  · rw [window, opened]
    exact log

/-- What a reader has read is the beginning of what has been sent. -/
theorem Stream.Serves.got (h : st.Serves store v i c sent left) : c.got <+: sent := by
  obtain ⟨rest, _, rfl⟩ := h.brings
  exact (h.valid i c h.attends.reader).got_in_order.trans (List.prefix_append _ _)

/-- What a reader finds next is the next event that has been sent, unless the puller has steps left
to take. -/
theorem Stream.Serves.next (h : st.Serves store v i c sent left) :
    v.window.events[c.position]? = sent[c.got.length]? ∨
      (v.window.events[c.position]? = none ∧ left ≠ 0) := by
  obtain ⟨rest, brings, rfl⟩ := h.brings
  have shown : v.window.events[c.position]? = (v.window.events.drop c.opened)[c.got.length]? := by
    rw [List.getElem?_drop, Reading.position]
  by_cases inside : c.got.length < (v.window.events.drop c.opened).length
  · rw [shown, List.getElem?_append_left inside]
    exact .inl rfl
  · rw [shown, List.getElem?_eq_none (Nat.le_of_not_lt inside)]
    cases rest with
    | nil =>
        rw [List.append_nil, List.getElem?_eq_none (Nat.le_of_not_lt inside)]
        exact .inl rfl
    | cons e rest =>
        refine .inr ⟨rfl, ?_⟩
        cases brings with
        | waits => simp
        | holds => omega

/-- The puller has no other steps to take than those that bring events, and each brings it
nearer. -/
theorem Stream.Serves.pull (h : st.Serves store v i c sent left) (sound : store.Sound)
    (few : sent.length ≤ st.room.capacity) (narrow : sent.length ≤ store.ringSize)
    (went : st.Pull store st') :
    ∃ v' left', left = left' + 1 ∧ st'.Serves store v' i c sent left' := by
  obtain ⟨rest, brings, log⟩ := h.brings
  have running : st.room.isClosed = false := by
    rw [h.laid]
    exact h.attends.running
  cases brings with
  | waits waits =>
      cases rest with
      | nil => exact absurd went (waits.still sound running)
      | cons e rest =>
          have short := congrArg List.length log
          simp only [List.length_append, List.length_cons] at short
          obtain ⟨polled, awaits⟩ := waits.feed.poll_cons sound (by omega)
          cases went with
          | cut _ closed =>
              rw [running] at closed
              cases closed
          | crash _ _ fault | fail _ _ fault =>
              rw [waits.sound] at fault
              cases fault
          | item _ _ _ got =>
              obtain ⟨rfl, same⟩ := Prod.mk.inj (polled.symm.trans got)
              obtain rfl := Except.ok.inj (Option.some.inj same)
              refine ⟨v, 2 * rest.length + 1, ?_, h.valid, h.laid, h.attends, e :: rest,
                .holds rfl waits.sound awaits, log⟩
              simp only [List.length_cons]
              omega
          | finish _ _ _ got =>
              rw [polled] at got
              cases got
          | push holding | refuse holding =>
              rw [waits.pulling] at holding
              cases holding
          | stop stopping =>
              rw [waits.pulling] at stopping
              cases stopping
  | @holds e rest holding sound' feed =>
      have appends := View.perform_room h.valid (.append e)
      rw [← h.laid, Room.perform] at appends
      have short := congrArg List.length log
      simp only [List.length_append, List.length_drop, List.length_cons] at short
      have before := (h.valid i c h.attends.reader).opened_le
      rw [h.laid] at few
      have wide : sent.length ≤ v.window.capacity := few
      have attends := h.attends.append e (by omega)
      have window := View.perform_window v (.append e)
      simp only [h.attends.running, Bool.false_eq_true, if_false] at window
      cases went with
      | @push e' room holding' appended =>
          obtain rfl := Puller.holding.inj (holding.symm.trans holding')
          rw [appended] at appends
          refine ⟨(v.perform (.append e)).1, 2 * rest.length, rfl, h.valid.perform _,
            (Prod.mk.inj appends).1, attends, rest, .waits ⟨rfl, sound', feed⟩, ?_⟩
          rw [window, ← log]
          show (v.window.events ++ [e]).drop c.opened ++ rest = _
          rw [List.drop_append_of_le_length before, List.append_assoc]
          rfl
      | @refuse e' err holding' failed =>
          obtain rfl := Puller.holding.inj (holding.symm.trans holding')
          rw [failed, View.perform, Room.Window.append,
            if_neg (by simp [h.attends.running])] at appends
          cases (Prod.mk.inj appends).2
      | cut pulling | crash pulling | fail pulling | item pulling | finish pulling =>
          rw [holding] at pulling
          cases pulling
      | stop stopping =>
          rw [holding] at stopping
          cases stopping

/-- A puller that has steps left to take can go on. -/
theorem Stream.Serves.step? (h : st.Serves store v i c sent left) (sound : store.Sound)
    (narrow : sent.length ≤ store.ringSize) (more : left ≠ 0) : (st.step? store).isSome = true := by
  obtain ⟨rest, brings, log⟩ := h.brings
  have running : st.room.isClosed = false := by
    rw [h.laid]
    exact h.attends.running
  cases brings with
  | waits waits =>
      cases rest with
      | nil => exact absurd rfl more
      | cons e rest =>
          have short := congrArg List.length log
          simp only [List.length_append, List.length_cons] at short
          obtain ⟨polled, _⟩ := waits.feed.poll_cons sound (by omega)
          simp [Stream.step?, Stream.pull?, waits.pulling, running, waits.sound, polled]
  | holds holding => simp [Stream.step?, holding]

end

/-- An entry goes on handing out readers of a stream that somebody reads. -/
theorem Steady.offers (steady : r.Steady) (m : Move r a r') {t c : Nat} {st : Stream}
    (there : r.streams[t]? = some st) (reading : st.room.hasLeft c = false)
    (offers : r.Offers t) : r'.Offers t := by
  have books := steady.books
  obtain ⟨e, x, here, live, stream⟩ := offers
  obtain ⟨x', here', goes⟩ := m.entry books.owned here
  cases goes with
  | relock lock => exact ⟨e, _, here', live, stream⟩
  | begin _ _ bare | start _ _ _ bare =>
      rw [bare] at stream
      cases stream
  | retire lock _ closes =>
      -- Closers come only to entries that are retired already.
      obtain ⟨j, found⟩ := closes
      obtain ⟨c₁, old, went⟩ | new := m.closer_back found
      · obtain rfl : e = c₁.entry := went.entry
        rw [(books.withheld steady.up).closing j c₁ x old here] at live
        cases live
      · obtain ⟨arriving, _⟩ := m.closer_new books.owned new found
        cases arriving
  | reclaim _ _ unread =>
      rw [books.laid.hasLeft here stream there unread c] at reading
      cases reading

/-- Reader `h` of a room has got some of the events that have been sent since it was opened. The
puller of its stream needs so many steps to bring those that are not in the window yet. -/
structure Feeds (r : Registry) (room : Uuid) (h : Reader) (got sent : List Event) (left : Nat) :
    Prop where
  offered : r.Offers h.stream
  stream : ∃ st v c, r.streams[h.stream]? = some st ∧ st.roomId = room ∧ c.got = got ∧
    st.Serves r.store v h.cursor c sent left

section

variable {room : Uuid} {g : Reader} {got sent : List Event} {left : Nat}

theorem Stream.Serves.hasLeft {store : Store} {st : Stream} {v : View Event} {i : Nat}
    {c : Reading Event} (h : st.Serves store v i c sent left) : st.room.hasLeft i = false := by
  rw [h.laid, View.room_hasLeft, h.attends.reader, Option.all_some, h.attends.isOpen]

theorem Feeds.hasLeft (h : r.Feeds room g got sent left) : r.hasLeft g = false := by
  obtain ⟨st, v, c, there, _, _, serves⟩ := h.stream
  rw [Registry.hasLeft, roomOf?, there, Option.map_some, Option.all_some, serves.hasLeft]

/-- What a reader has read is the beginning of what has been sent. -/
theorem Feeds.isPrefix (h : r.Feeds room g got sent left) : got <+: sent := by
  obtain ⟨st, v, c, _, _, rfl, serves⟩ := h.stream
  exact serves.got

/-- What a reader gets that goes on with its read, or begins one. -/
def readOn (r : Registry) (h : Reader) : Option (Except StreamError Event) :=
  if r.isReading h then (r.resume h).2 else (r.poll h false).2

/-- A reader gets the next event that has been sent, or that is still on its way. -/
theorem Feeds.readOn (h : r.Feeds room g got sent left) :
    r.readOn g = sent[got.length]?.map .ok ∨ (r.readOn g = none ∧ left ≠ 0) := by
  obtain ⟨st, v, c, there, _, rfl, serves⟩ := h.stream
  have finds : r.readOn g = v.window.events[c.position]?.map .ok := by
    have reading : r.isReading g = c.wait.isSome := by
      rw [isReading, roomOf?, there, Option.map_some, Option.any_some, serves.laid, Room.isReading,
        View.room_cursor?, serves.attends.reader]
      rfl
    rw [Registry.readOn, reading, resume, poll, readWith_answer there, readWith_answer there,
      serves.laid, View.room_resume serves.valid, View.room_poll serves.valid]
    split_ifs with waits
    · exact serves.attends.resume waits
    · exact serves.attends.poll
  obtain next | ⟨nothing, more⟩ := serves.next
  · rw [finds, next]
    exact .inl rfl
  · rw [finds, nothing]
    exact .inr ⟨rfl, more⟩

theorem Feeds.drift (h : r.Feeds room g got sent left) (steady : r.Steady)
    (few : sent.length ≤ r.capacity) (narrow : sent.length ≤ r.store.ringSize)
    (d : Drift r a r') : ∃ left', left' ≤ left ∧ r'.Feeds room g got sent left' := by
  obtain ⟨st, v, c, there, roomId, unread, serves⟩ := h.stream
  have sound := steady.sourced.sound
  have offered := steady.offers d.move there serves.hasLeft h.offered
  have awaits : ∀ (f : Store.Feed) rest, f.Awaits r.store rest → f.Awaits r'.store rest :=
    fun _ _ h => d.awaits sound h
  obtain ⟨st', there', goes⟩ := d.stream there
  cases goes with
  | stay =>
      exact ⟨left, Nat.le_refl _, offered, st, v, c, there', roomId, unread,
        serves.still fun rest => awaits _ rest⟩
  | join =>
      refine ⟨left, Nat.le_refl _, offered, _, (v.perform .join).1, c, there', roomId, unread, ?_⟩
      have joined := serves.perform serves.attends.join rfl (View.perform_window v .join)
      exact joined.still fun rest => awaits _ rest
  | shut found phase stream =>
      exact absurd stream
        (steady.books.untouched_of_offers steady.up h.offered _ _ _ found phase)
  | pull mine went =>
      have same := went.roomId
      rw [← steady.sourced.windows _ st there] at few
      obtain ⟨v', left', rfl, serves'⟩ := serves.pull sound few narrow went
      exact ⟨left', Nat.le_succ _, offered, st', v', c, there', same.trans roomId, unread,
        serves'.still fun rest => awaits _ rest⟩
  | close closing =>
      obtain ⟨rest, brings, _⟩ := serves.brings
      cases brings with
      | waits waits =>
          rw [waits.pulling] at closing
          cases closing
      | holds holding =>
          rw [holding] at closing
          cases closing

/-- Each step of the puller brings what has been sent nearer to the reader. -/
theorem Feeds.puller (h : r.Feeds room g got sent left) (steady : r.Steady)
    (few : sent.length ≤ r.capacity) (narrow : sent.length ≤ r.store.ringSize)
    (did : r.step? (.puller g.stream) = some r') :
    ∃ left', left = left' + 1 ∧ r'.Feeds room g got sent left' := by
  obtain ⟨st, v, c, there, roomId, unread, serves⟩ := h.stream
  have offered := steady.offers (stepPuller?_moves did) there serves.hasLeft h.offered
  obtain ⟨st', stepped, rfl⟩ := Option.map_eq_some_iff.1 did
  rw [there, Option.bind_some] at stepped
  have went := Stream.step?_pull stepped
  have same := went.roomId
  rw [← steady.sourced.windows _ st there] at few
  obtain ⟨v', left', rfl, serves'⟩ := serves.pull steady.sourced.sound few narrow went
  exact ⟨left', rfl, offered, st', v', c, getElem?_modify_some.2 (.inr ⟨rfl, st, there, rfl⟩),
    same.trans roomId, unread, serves'⟩

/-- A puller that has something to bring can go on. -/
theorem Feeds.step? (h : r.Feeds room g got sent left) (steady : r.Steady)
    (narrow : sent.length ≤ r.store.ringSize) (more : left ≠ 0) :
    (r.step? (.puller g.stream)).isSome = true := by
  obtain ⟨st, v, c, there, _, _, serves⟩ := h.stream
  have goes := serves.step? steady.sourced.sound narrow more
  rw [Registry.step?, stepPuller?, Option.isSome_map, there]
  exact goes

/-- What is sent to the room of a reader is on its way to it. -/
theorem Feeds.emit (h : r.Feeds room g got sent left) (steady : r.Steady) {e : Event}
    (here : e.roomId = room) (did : r.emit? e = some r') :
    r'.Feeds room g got (sent ++ [e]) (left + 2) := by
  obtain ⟨store, stored, rfl⟩ := Option.map_eq_some_iff.1 did
  obtain ⟨st, v, c, there, rfl, unread, serves⟩ := h.stream
  refine ⟨h.offered, st, v, c, there, rfl, unread, serves.valid, serves.laid, serves.attends, ?_⟩
  have grows : ∀ rest, st.feed.Awaits r.store rest → st.feed.Awaits store (rest ++ [e]) := by
    intro rest awaits
    have awaits' := awaits.emit? steady.sourced.sound stored
    rwa [if_pos (here.trans (steady.sourced.streams _ st there).roomId.symm)] at awaits'
  obtain ⟨rest, brings, rfl⟩ := serves.brings
  refine ⟨rest ++ [e], ?_, (List.append_assoc _ _ _).symm⟩
  cases brings with
  | waits waits =>
      have brings : st.Brings store (rest ++ [e]) _ :=
        .waits ⟨waits.pulling, waits.sound, grows _ waits.feed⟩
      rwa [List.length_append] at brings
  | @holds e' rest holding sound feed =>
      have brings : st.Brings store (e' :: (rest ++ [e])) _ := .holds holding sound (grows _ feed)
      rwa [List.length_append] at brings

/-- A read with a certain reader that nobody gives up. -/
def Action.ReadsOn (g : Reader) (a : Action) : Prop :=
  ∃ op, a.use? = some (g, op) ∧ View.Op.Reads g.cursor op

/-- A reader that reads on has what it has been given. -/
theorem Feeds.use (h : r.Feeds room g got sent left) (steady : r.Steady) (reads : a.ReadsOn g)
    (did : r.perform? a = some r') :
    r'.Feeds room g (got ++ (r.readBy? g a).toList) sent left := by
  obtain ⟨op, used, reads⟩ := reads
  obtain ⟨st, v, c, there, roomId, rfl, serves⟩ := h.stream
  rw [perform?_use used] at did
  obtain rfl := Option.some.inj did
  have offered := steady.offers (.use used) there serves.hasLeft h.offered
  obtain ⟨c', attends, opened, got⟩ := serves.attends.perform reads
  have window : (v.perform op).1.window = v.window := by
    rw [View.perform_window]
    cases reads <;> rfl
  rw [readBy?_use used there serves.laid serves.valid, if_pos rfl]
  exact ⟨offered, st.perform op, _, c', getElem?_modify_some.2 (.inr ⟨rfl, st, there, rfl⟩), roomId,
    got, serves.perform attends opened window⟩

/-- A reader that has just joined a window whose puller has nothing to bring is served. -/
theorem Joins.feeds {i : Nat} {s : Subscriber} {st : Stream} (joins : Joins r r' i s g st)
    (calm : r.Calm) (d : Drift r a r') : r'.Feeds s.roomId g [] [] 0 := by
  obtain ⟨v, valid, laid⟩ := calm.books.laid _ st joins.there
  have running : v.window.closed = false := by
    rw [← joins.running, laid]
    rfl
  have waits := calm.waiting _ st joins.there joins.running
  have cursor : g.cursor = v.readers.size := by
    rw [joins.cursor, laid]
    exact Array.size_map
  have window : (v.perform .join).1.window = v.window := View.perform_window v .join
  refine ⟨joins.offered, st.perform .join, _, _, ?_, joins.roomId, rfl, valid.perform .join, ?_,
    cursor ▸ View.attends_new v running, [], .waits ⟨waits.pulling, waits.sound,
      d.awaits calm.sourced.sound waits.feed⟩, ?_⟩
  · rw [joins.streams, getElem?_modify_of _ joins.there, if_pos rfl]
  · rw [Stream.perform, laid, View.perform_room valid]
  · rw [window]
    simp

end

/-- Whether an action needs only time, or is a read with a certain reader that nobody gives up. -/
def Action.waits (g : Reader) : Action → Bool
  | .poll h false | .beginRead h false | .resume h => h = g
  | a => a.passes

/-- Whether an action is a step of the puller of a certain stream. -/
def Action.pulls (t : Nat) : Action → Bool
  | .step (.puller t') => t' = t
  | _ => false

theorem Action.pulls_iff {t : Nat} : a.pulls t = true ↔ a = .step (.puller t) := by
  cases a with
  | step p => cases p <;> simp [pulls]
  | _ => simp [pulls]

theorem Action.passes_or_reads {g : Reader} (waits : a.waits g = true) :
    a.passes = true ∨ a.ReadsOn g := by
  cases a with
  | poll h cancelled =>
      cases cancelled with
      | false => exact .inr ⟨_, by rw [← of_decide_eq_true waits]; rfl, .poll⟩
      | true => exact .inl waits
  | beginRead h cancelled =>
      cases cancelled with
      | false => exact .inr ⟨_, by rw [← of_decide_eq_true waits]; rfl, .beginRead⟩
      | true => exact .inl waits
  | resume h => exact .inr ⟨_, by rw [← of_decide_eq_true waits]; rfl, .resume⟩
  | _ => exact .inl waits

/-- What passes keeps things steady. -/
theorem Steady.perform (h : r.Steady) (patrolled : r.Patrolled) (passes : a.passes = true)
    (did : r.perform? a = some r') : r'.Steady := by
  have chain := perform?_drifts patrolled h.books.owned.fresh passes did
  clear did
  induction chain with
  | refl => exact h
  | tail _ d ih => exact ih.move d.move (d.calls ih.shutdowns)

section

variable {room : Uuid} {g : Reader} {got sent : List Event} {left : Nat}

/-- A registry in which nobody has called for a shutdown or is going to, and in which a reader has
got some of the events that have been sent, which all fit. -/
structure Awaiting (r : Registry) (room : Uuid) (g : Reader) (got sent : List Event) (left : Nat) :
    Prop where
  steady : r.Steady
  patrolled : r.Patrolled
  few : sent.length ≤ r.capacity
  narrow : sent.length ≤ r.store.ringSize
  feeds : r.Feeds room g got sent left

theorem Move.ringSize (m : Move r a r') : r'.store.ringSize = r.store.ringSize := by
  rw [Store.ringSize, Store.ringSize, m.sizes.2]

theorem Awaiting.perform (h : r.Awaiting room g got sent left) (waits : a.waits g = true)
    (did : r.perform? a = some r') :
    ∃ left', left' + (a.pulls g.stream).toNat ≤ left ∧
      r'.Awaiting room g (got ++ (r.readBy? g a).toList) sent left' := by
  have fresh := h.steady.books.owned.fresh
  obtain passes | reads := Action.passes_or_reads waits
  · rw [readBy?_of_unused (Action.use?_of_passes passes), Option.toList_none, List.append_nil]
    have steady := h.steady.perform h.patrolled passes did
    have patrolled := h.patrolled.perform fresh passes did
    by_cases mine : a.pulls g.stream = true
    · obtain rfl := Action.pulls_iff.1 mine
      have m := stepPuller?_moves did
      obtain ⟨left', rfl, feeds⟩ := h.feeds.puller h.steady h.few h.narrow did
      refine ⟨left', by rw [mine]; exact Nat.le_refl _, steady, patrolled, ?_, ?_, feeds⟩
      · exact m.sizes.1.symm ▸ h.few
      · exact m.ringSize.symm ▸ h.narrow
    · have chain := perform?_drifts h.patrolled fresh passes did
      have kept : r'.Steady ∧ sent.length ≤ r'.capacity ∧ sent.length ≤ r'.store.ringSize ∧
          ∃ left', left' ≤ left ∧ r'.Feeds room g got sent left' := by
        clear did steady patrolled
        induction chain with
        | refl => exact ⟨h.steady, h.few, h.narrow, left, Nat.le_refl _, h.feeds⟩
        | tail _ d ih =>
            obtain ⟨steady, few, narrow, left₁, less, feeds⟩ := ih
            obtain ⟨left₂, less', feeds'⟩ := feeds.drift steady few narrow d
            exact ⟨steady.move d.move (d.calls steady.shutdowns), d.move.sizes.1.symm ▸ few,
              d.move.ringSize.symm ▸ narrow, left₂, less'.trans less, feeds'⟩
      obtain ⟨_, few, narrow, left', less, feeds⟩ := kept
      rw [Bool.not_eq_true] at mine
      exact ⟨left', by rw [mine]; exact less, steady, patrolled, few, narrow, feeds⟩
  · have feeds := h.feeds.use h.steady reads did
    obtain ⟨op, used, _⟩ := reads
    have apart : a.isPatrol = false := by
      cases a <;> first | rfl | cases used
    have other : a.pulls g.stream = false := by
      cases a <;> first | rfl | cases used
    rw [perform?_use used] at did
    obtain rfl := Option.some.inj did
    have m : Move r a _ := .use used
    refine ⟨left, by rw [other]; exact Nat.le_refl _, h.steady.move m h.steady.shutdowns, ?_, h.few,
      h.narrow, feeds⟩
    exact h.patrolled

/-- What a reader gets while it waits is what has been sent, in order, and each step of the puller
brings what is missing nearer. -/
theorem Awaiting.run (h : r.Awaiting room g got sent left) {acts : List Action}
    (waits : ∀ a ∈ acts, a.waits g = true) (ran : r.run? acts = some r') :
    ∃ left', left' + acts.countP (·.pulls g.stream) ≤ left ∧
      r'.Awaiting room g (got ++ r.reads g acts) sent left' := by
  refine run?_induction (P := fun acts r' => (∀ a ∈ acts, a.waits g = true) →
    ∃ left', left' + acts.countP (·.pulls g.stream) ≤ left ∧
      r'.Awaiting room g (got ++ r.reads g acts) sent left') ?_ ?_ ran waits
  · intro _
    refine ⟨left, Nat.le_refl _, ?_⟩
    rw [show r.reads g [] = [] from rfl, List.append_nil]
    exact h
  · intro acts a r₁ r₂ before ih did waits
    obtain ⟨left₁, less, awaiting⟩ := ih fun b among => waits b (List.mem_append_left _ among)
    obtain ⟨left₂, less', awaiting'⟩ := awaiting.perform (waits a (by simp)) did
    refine ⟨left₂, ?_, ?_⟩
    · rw [List.countP_append, List.countP_singleton]
      cases mine : a.pulls g.stream <;> simp [mine] at less' ⊢ <;> omega
    · rw [reads_snoc g a before, ← List.append_assoc]
      exact awaiting'

end

end Registry

end Roomcast

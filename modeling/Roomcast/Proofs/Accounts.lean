import Roomcast.Proofs.Backlog

/-!
# Feeds account for every event

To those who use it, a store is a log for each room and a place in one of the logs for each feed.
A read takes the event at the place, or says how many events the place has to jump over because the
ring holds only the latest ones, or finds that there is nothing more up to where the feed's channel
has ended. `Accounts` is just that; rings, slots and channels do not occur in it. Whatever is done
with a store is answered as the accounts say, and the place of a feed is always where it was opened,
and one on for each event that it has read and each one that was reported as lost.
-/

namespace Roomcast.Store

/-- Something that is done with a store or with one of its feeds. -/
inductive Op where
  /-- Stores an event. -/
  | emit (e : Event)
  /-- Opens a feed of a room. -/
  | watch (room : Uuid)
  /-- Asks for the events of a room. -/
  | fetch (room : Uuid)
  /-- Ends the feeds of a room. -/
  | closeRoom (room : Uuid)
  /-- Reads from a feed. A read that has to wait finds nothing and is made again. -/
  | next (i : Nat)
  /-- Closes a feed. -/
  | close (i : Nat)
  /-- Drops a feed. -/
  | drop (i : Nat)

/-- What an operation answers. A read answers a `ρ`. -/
inductive Answer (ρ : Type) where
  /-- The number of the new feed. -/
  | opened (i : Nat)
  | fetched (events : List Event)
  | read (result : ρ)
  | silent

/-- The answer with what a read got put in other terms. -/
def Answer.map {ρ σ : Type} (f : ρ → σ) : Answer ρ → Answer σ
  | .opened i => .opened i
  | .fetched events => .fetched events
  | .read result => .read (f result)
  | .silent => .silent

/-- A store with the feeds that were opened on it. One that was dropped is gone. -/
structure Watched where
  store : Store
  feeds : Array (Option Feed)

namespace Watched

def empty (capacity : Nat) : Watched := ⟨.empty capacity, #[]⟩

def feed? (w : Watched) (i : Nat) : Option Feed := w.feeds[i]?.join

/-- Does something with a store or a feed, if the store can open the channels it needs. -/
def perform? (w : Watched) :
    Op → Option (Watched × Answer (Option (Except StreamError Event)))
  | .emit e => (w.store.emit? e).map fun store => ({ w with store }, .silent)
  | .watch room =>
    (w.store.watch? room).map fun (store, f) =>
      (⟨store, w.feeds.push (some f)⟩, .opened w.feeds.size)
  | .fetch room => some (w, .fetched (w.store.fetch room))
  | .closeRoom room => some ({ w with store := w.store.closeRoom room }, .silent)
  | .next i =>
    match w.feed? i with
    | none => some (w, .silent)
    | some f =>
      some ({ w with feeds := w.feeds.modify i (·.map fun f => (w.store.poll f).1) },
        .read (w.store.poll f).2)
  | .close i => some ({ w with feeds := w.feeds.modify i (·.map Feed.close) }, .silent)
  | .drop i => some ({ w with feeds := w.feeds.modify i fun _ => none }, .silent)

def run? (w : Watched) :
    List Op → Option (Watched × List (Answer (Option (Except StreamError Event))))
  | [] => some (w, [])
  | op :: ops =>
    (w.perform? op).bind fun (w, answer) =>
      (w.run? ops).map fun (w, answers) => (w, answer :: answers)

end Watched

/-- The place of a feed in the log of its room. -/
structure Place where
  room : Uuid
  /-- The length of the log when the feed was opened. -/
  opened : Nat
  /-- The number of events behind the feed. -/
  position : Nat
  /-- The length of the log when the feed's channel ended, if it has. -/
  finish : Option Nat
  closed : Bool

namespace Place

/-- How far into the log the feed can come. -/
def limit (p : Place) (log : List Event) : Nat := p.finish.getD log.length

/-- The place once the channel of a room has ended. -/
def endIn (room : Uuid) (log : List Event) (p : Place) : Place :=
  if p.room = room then { p with finish := some (p.limit log) } else p

/-- Reads at a place of a log of which a ring holds the last `size` events. -/
def read (size : Nat) (log : List Event) (p : Place) : Place × Receipt Event :=
  if p.closed then (p, .ended)
  else
    match (log.take (p.limit log))[p.position]? with
    | none => (p, if p.finish.isSome then .ended else .pending)
    | some e =>
      if p.limit log - p.position ≤ size then ({ p with position := p.position + 1 }, .item e)
      else
        let oldest := p.limit log - size
        ({ p with position := oldest }, .lagged (oldest - p.position))

end Place

/-- The log of each room, and the place of each feed that was opened and is not dropped. -/
structure Accounts where
  log : Uuid → List Event
  places : Array (Option Place)

namespace Accounts

def empty : Accounts := ⟨fun _ => [], #[]⟩

def place? (a : Accounts) (i : Nat) : Option Place := a.places[i]?.join

/-- Does something with a log or a place. A read answers with the room of its feed. -/
def perform (size : Nat) (a : Accounts) : Op → Accounts × Answer (Uuid × Receipt Event)
  | .emit e =>
    ({ a with log := fun room => if room = e.roomId then a.log room ++ [e] else a.log room },
      .silent)
  | .watch room =>
    let here := (a.log room).length
    ({ a with places := a.places.push (some ⟨room, here, here, none, false⟩) },
      .opened a.places.size)
  | .fetch room => (a, .fetched (a.log room))
  | .closeRoom room =>
    ({ a with places := a.places.map (·.map (Place.endIn room (a.log room))) }, .silent)
  | .next i =>
    match a.place? i with
    | none => (a, .silent)
    | some p =>
      ({ a with places := a.places.modify i (·.map fun p => (p.read size (a.log p.room)).1) },
        .read (p.room, (p.read size (a.log p.room)).2))
  | .close i =>
    ({ a with places := a.places.modify i (·.map fun p => { p with closed := true }) }, .silent)
  | .drop i => ({ a with places := a.places.modify i fun _ => none }, .silent)

def run (size : Nat) (a : Accounts) : List Op → Accounts × List (Answer (Uuid × Receipt Event))
  | [] => (a, [])
  | op :: ops =>
    (((a.perform size op).1.run size ops).1,
      (a.perform size op).2 :: ((a.perform size op).1.run size ops).2)

end Accounts

/-- What the reader of a feed is told. A report of lost events names the room and their number. -/
def shown : Uuid × Receipt Event → Option (Except StreamError Event)
  | (_, .item e) => some (.ok e)
  | (room, .lagged count) =>
    some (.error (.feed s!"room {room} feed lagged by {count} events"))
  | (_, .pending) => none
  | (_, .ended) => some (.error .closed)

def emitted (room : Uuid) (ops : List Op) : List Event :=
  ops.filterMap fun
    | .emit e => if e.roomId = room then some e else none
    | _ => none

def itemOf (i : Nat) : Op → Answer (Uuid × Receipt Event) → Option Event
  | .next j, .read (_, .item e) => if j = i then some e else none
  | _, _ => none

/-- The number of events that feed `i` learns it has lost. -/
def lossOf (i : Nat) : Op → Answer (Uuid × Receipt Event) → Nat
  | .next j, .read (_, .lagged count) => if j = i then count else 0
  | _, _ => 0

def itemsOf (i : Nat) (ops : List Op) (answers : List (Answer (Uuid × Receipt Event))) :
    List Event :=
  (ops.zip answers).filterMap fun (op, answer) => itemOf i op answer

/-- The number of events that feed `i` was told it has lost. -/
def lossesOf (i : Nat) (ops : List Op) (answers : List (Answer (Uuid × Receipt Event))) : Nat :=
  ((ops.zip answers).map fun (op, answer) => lossOf i op answer).sum

section Channels

variable {s s' : Store}

/-- Storing an event sends it through the channel of its room and no other. -/
theorem emit?_channel? {e : Event} (stored : s.emit? e = some s') {c : Nat}
    (old : c < s.channels.size) :
    s'.channels[c]? =
      if (s.log? e.roomId).bind (·.channel) = some c then (s.channels[c]?).map (·.send e)
      else s.channels[c]? := by
  obtain ⟨⟨s₁, log⟩, got, rfl⟩ := Option.map_eq_some_iff.1 stored
  show (s₁.push e.roomId log e).channels[c]? = _
  rw [push_channel?]
  obtain ⟨rfl, known⟩ | ⟨none, rfl, rfl⟩ := logOf?_eq got
  · rw [known, Option.bind_some]
  · rw [none, Option.bind_none, if_neg (by simpa using Nat.ne_of_gt old), if_neg (by simp),
      withChannel_channel? old]

/-- Opening a feed leaves the channels that there are alone. -/
theorem watch?_channel? {room : Uuid} {f : Feed} (opened : s.watch? room = some (s', f)) {c : Nat}
    (old : c < s.channels.size) : s'.channels[c]? = s.channels[c]? := by
  obtain ⟨⟨s₁, log⟩, got, rest⟩ := Option.bind_eq_some_iff.1 opened
  obtain ⟨⟨s₂, d⟩, chosen, eq⟩ := Option.map_eq_some_iff.1 rest
  obtain ⟨rfl, rfl⟩ := Prod.mk.inj eq
  rw [setLog_channels]
  have first : s₁.channels[c]? = s.channels[c]? ∧ c < s₁.channels.size := by
    obtain ⟨rfl, _⟩ | ⟨_, rfl, _⟩ := logOf?_eq got
    · exact ⟨rfl, old⟩
    · exact ⟨withChannel_channel? old, by simp [withChannel]; omega⟩
  cases uses : log.channel with
  | some d' =>
      rw [uses] at chosen
      obtain ⟨rfl, rfl⟩ := Prod.mk.inj (Option.some.inj chosen)
      exact first.1
  | none =>
      rw [uses] at chosen
      obtain ⟨rfl, rfl⟩ := openChannel?_eq chosen
      rw [withChannel_channel? first.2, first.1]

/-- Ending the feeds of a room ends its channel and no other. -/
theorem closeRoom_channels? (s : Store) (room : Uuid) (c : Nat) :
    (s.closeRoom room).channels[c]? =
      if (s.log? room).bind (·.channel) = some c then (s.channels[c]?).map (·.finish)
      else s.channels[c]? := by
  cases known : s.log? room with
  | none => simp [closeRoom, known]
  | some log => rw [closeRoom_channel? known, Option.bind_some]

end Channels

/-- A feed stands at a place: what its channel has yet to give it is what lies between the place and
its limit. -/
structure Feed.Stands (f : Feed) (s : Store) (p : Place) : Prop where
  room : f.roomId = p.room
  closed : f.closed = p.closed
  there : f.At s p.position
  reach : ∃ channel, s.channels[f.channel]? = some channel ∧ channel.live = p.finish.isNone ∧
    p.position + channel.sent = p.limit (s.fetch p.room) + f.next

section Stands

variable {s s' : Store} {f : Feed} {p : Place}

/-- A feed can still take what its channel carries from some position on. -/
theorem Feed.Stands.carries (h : f.Stands s p) :
    ∃ base values, s.channels[f.channel]? = some (.carrying s.ringSize values p.finish.isNone) ∧
      values <+: (s.fetch p.room).drop base ∧ f.next ≤ values.length ∧
      p.position = base + f.next ∧ p.limit (s.fetch p.room) = base + values.length ∧
      base + values.length ≤ (s.fetch p.room).length := by
  obtain ⟨base, values, isLive, inside, carries, stretch, taken, here, _⟩ := h.there.carries
  obtain ⟨channel, found, live, sent⟩ := h.reach
  obtain rfl : _ = channel := Option.some.inj (carries.symm.trans found)
  obtain rfl : isLive = p.finish.isNone := live
  rw [h.room] at inside stretch
  have short := stretch.length_le
  rw [List.length_drop] at short
  rw [Channel.carrying_sent] at sent
  exact ⟨base, values, carries, stretch, taken, here, by omega, by omega⟩

/-- The place of a feed lies before its limit, which lies in the log. -/
theorem Feed.Stands.limit_le (h : f.Stands s p) :
    p.position ≤ p.limit (s.fetch p.room) ∧
      p.limit (s.fetch p.room) ≤ (s.fetch p.room).length := by
  obtain ⟨base, values, _, _, taken, here, limit, inside⟩ := h.carries
  omega

/-- A channel is that of a room if and only if it is that of the feed's room and lasts. -/
theorem Feed.Stands.current_iff (h : f.Stands s p) (sound : s.Sound) (room : Uuid) :
    (s.log? room).bind (·.channel) = some f.channel ↔ room = p.room ∧ p.finish = none := by
  obtain ⟨channel, found, live, _⟩ := h.reach
  constructor
  · intro uses
    obtain ⟨log, known, uses⟩ := Option.bind_eq_some_iff.1 uses
    obtain ⟨_, _, carries⟩ := sound.channel room log f.channel known uses
    obtain rfl := Option.some.inj (carries.symm.trans found)
    refine ⟨(h.there.own room log known uses).trans h.room, ?_⟩
    exact Option.isNone_iff_eq_none.1 live.symm
  · rintro ⟨rfl, lasts⟩
    obtain ⟨base, values, isLive, _, carries, _, _, _, current⟩ := h.there.carries
    obtain rfl := Option.some.inj (carries.symm.trans found)
    rw [lasts] at live
    rw [← h.room]
    exact (current live).1

/-- A feed keeps its place when an event is stored. -/
theorem Feed.Stands.emit? (h : f.Stands s p) (sound : s.Sound) {e : Event}
    (stored : s.emit? e = some s') : f.Stands s' p := by
  obtain ⟨keeps, fetched⟩ := sound.emit? stored
  obtain ⟨channel, found, live, sent⟩ := h.reach
  refine ⟨h.room, h.closed, keeps.feeds f _ h.there, ?_⟩
  rw [emit?_channel? stored h.there.channel_lt, found, fetched]
  by_cases current : e.roomId = p.room ∧ p.finish = none
  · refine ⟨channel.send e, if_pos ((h.current_iff sound _).2 current), live, ?_⟩
    simp only [Place.limit, current.2, Option.getD_none] at sent ⊢
    simp only [Channel.send, current.1, if_true, List.length_append, List.length_singleton]
    omega
  · refine ⟨channel, if_neg (mt (h.current_iff sound _).1 current), live, ?_⟩
    rw [sent]
    congr 1
    cases ends : p.finish with
    | some n => simp [Place.limit, ends]
    | none =>
        have elsewhere : p.room ≠ e.roomId := fun same => current ⟨same.symm, ends⟩
        rw [if_neg elsewhere]

/-- A feed keeps its place when another is opened. -/
theorem Feed.Stands.watch? (h : f.Stands s p) (sound : s.Sound) {room : Uuid} {g : Feed}
    (opened : s.watch? room = some (s', g)) : f.Stands s' p := by
  obtain ⟨keeps, fetched, _⟩ := sound.watch? opened
  obtain ⟨channel, found, live, sent⟩ := h.reach
  refine ⟨h.room, h.closed, keeps.feeds f _ h.there, channel, ?_, live, ?_⟩
  · rw [watch?_channel? opened h.there.channel_lt, found]
  · rw [fetched]
    exact sent

/-- When the feeds of a room end, its limit is where the log ends then. -/
theorem Feed.Stands.closeRoom (h : f.Stands s p) (sound : s.Sound) (room : Uuid) :
    f.Stands (s.closeRoom room) (p.endIn room (s.fetch room)) := by
  obtain ⟨keeps, fetched⟩ := sound.closeRoom room
  obtain ⟨channel, found, live, sent⟩ := h.reach
  have there := keeps.feeds f _ h.there
  have after := closeRoom_channels? s room f.channel
  rw [found] at after
  rw [Place.endIn]
  split_ifs with here
  · subst here
    cases ends : p.finish with
    | none =>
        rw [if_pos ((h.current_iff sound _).2 ⟨rfl, ends⟩)] at after
        exact ⟨h.room, h.closed, there, channel.finish, after, rfl, sent⟩
    | some n =>
        rw [if_neg (mt (h.current_iff sound _).1 (by simp [ends]))] at after
        rw [ends] at live
        exact ⟨h.room, h.closed, there, channel, after, live, sent⟩
  · rw [if_neg (mt (h.current_iff sound _).1 fun current => here current.1.symm)] at after
    refine ⟨h.room, h.closed, there, channel, after, live, ?_⟩
    rw [fetched]
    exact sent

/-- A new feed stands at the end of the log. -/
theorem Sound.watch?_stands (sound : s.Sound) {room : Uuid}
    (opened : s.watch? room = some (s', f)) :
    f.Stands s' ⟨room, (s.fetch room).length, (s.fetch room).length, none, false⟩ := by
  obtain ⟨keeps, fetched, rfl, isOpen, there⟩ := sound.watch? opened
  refine ⟨rfl, isOpen, there, ?_⟩
  obtain ⟨_, attached, _⟩ := watch?_log opened
  obtain ⟨log, known, uses⟩ := Option.bind_eq_some_iff.1 attached
  obtain ⟨_, _, current⟩ := keeps.sound.channel f.roomId log f.channel known uses
  obtain ⟨base, values, isLive, inside, carries, _, taken, here, whole⟩ := there.carries
  obtain rfl : isLive = true :=
    congrArg Channel.live (Option.some.inj (carries.symm.trans current))
  refine ⟨_, carries, rfl, ?_⟩
  have all := congrArg List.length (whole rfl).2
  rw [List.length_drop, fetched] at all
  simp only [Channel.carrying_sent, Place.limit, Option.getD_none, fetched]
  omega

/-- A feed that stands at a place can go on to any other that its channel has come to. -/
theorem Feed.Stands.move (h : f.Stands s p) {n k : Nat} {channel : Channel Event}
    (found : s.channels[f.channel]? = some channel) (sent : n ≤ channel.sent)
    (there : k + f.next = p.position + n) :
    Feed.Stands { f with next := n } s { p with position := k } := by
  obtain ⟨base, values, isLive, inside, carries, stretch, taken, here, current⟩ := h.there.carries
  obtain ⟨channel', found', live, reach⟩ := h.reach
  obtain rfl := Option.some.inj (found.symm.trans found')
  obtain rfl := Option.some.inj (carries.symm.trans found)
  refine ⟨h.room, h.closed, ⟨⟨base, values, isLive, inside, carries, stretch, sent, ?_, current⟩,
    h.there.own⟩, _, found, live, ?_⟩
  · show k = base + n
    omega
  · show k + _ = p.limit (s.fetch p.room) + n
    omega

/-- A feed is closed. -/
theorem Feed.Stands.close (h : f.Stands s p) : f.close.Stands s { p with closed := true } :=
  ⟨h.room, rfl, ⟨h.there.carries, h.there.own⟩, h.reach⟩

/-- What a feed reads is what is read at its place. -/
theorem Feed.Stands.poll (h : f.Stands s p) :
    (s.poll f).2 = shown (p.room, (p.read s.ringSize (s.fetch p.room)).2) ∧
      (s.poll f).1.Stands s (p.read s.ringSize (s.fetch p.room)).1 := by
  obtain ⟨base, values, carries, stretch, taken, here, limit, inside⟩ := h.carries
  have closed := h.closed
  rw [Store.poll, Place.read]
  cases done : p.closed with
  | true =>
      rw [done] at closed
      simp only [closed, if_true]
      exact ⟨rfl, h⟩
  | false =>
      rw [done] at closed
      simp only [closed, carries, Bool.false_eq_true, if_false]
      have size := s.ringSize_pos
      -- What the channel has left for the feed is what lies between its place and its limit.
      by_cases more : f.next < values.length
      · have event : ((s.fetch p.room).take (p.limit (s.fetch p.room)))[p.position]? =
            some values[f.next] := by
          obtain ⟨later, eq⟩ := stretch
          rw [List.getElem?_take_of_lt (by omega), here, ← List.getElem?_drop, ← eq,
            List.getElem?_append_left more, List.getElem?_eq_getElem more]
        rw [event]
        by_cases recent : values.length ≤ f.next + s.ringSize
        · rw [Channel.receive_item _ more recent]
          simp only [show p.limit (s.fetch p.room) - p.position ≤ s.ringSize by omega, if_true]
          refine ⟨rfl, ?_⟩
          have next := h.move (n := f.next + 1) (k := p.position + 1) carries more (by omega)
          simpa only [closed, done] using next
        · -- The oldest cell that is left lies as far ahead in the log as in the ring.
          have jump : p.limit (s.fetch p.room) - s.ringSize - p.position =
              values.length - s.ringSize - f.next := by omega
          rw [Channel.receive_lagged size _ (by omega)]
          simp only [show ¬ p.limit (s.fetch p.room) - p.position ≤ s.ringSize by omega, if_false,
            jump]
          refine ⟨by rw [h.room]; rfl, ?_⟩
          have next := h.move (n := values.length - s.ringSize)
            (k := p.limit (s.fetch p.room) - s.ringSize) carries (Nat.sub_le _ _) (by omega)
          simpa only [closed, done] using next
      · have last : f.next = values.length := by omega
        have nothing : ((s.fetch p.room).take (p.limit (s.fetch p.room)))[p.position]? = none := by
          rw [List.getElem?_take_eq_none (by omega)]
        rw [nothing, last, Channel.receive_end size]
        have same : ({ f with next := values.length, closed := false } : Feed) = f := by
          rw [← last, ← closed]
        cases ends : p.finish with
        | none => exact ⟨rfl, by simpa [same, ends] using h⟩
        | some n => exact ⟨rfl, by simpa [same, ends] using h⟩

end Stands

section Rows

variable {β : Type} (xs : Array (Option β)) (i j : Nat)

theorem join_modify_map (f : β → β) :
    (xs.modify i (·.map f))[j]?.join =
      if i = j then (xs[j]?.join).map f else xs[j]?.join := by
  rw [Array.getElem?_modify]
  split_ifs
  · cases xs[j]? <;> rfl
  · rfl

theorem join_modify_none :
    (xs.modify i fun _ => none)[j]?.join = if i = j then none else xs[j]?.join := by
  rw [Array.getElem?_modify]
  split_ifs
  · cases xs[j]? <;> rfl
  · rfl

theorem join_push (x : β) :
    (xs.push (some x))[j]?.join = if j = xs.size then some x else xs[j]?.join := by
  rw [Array.getElem?_push]
  split_ifs <;> rfl

theorem join_map (f : β → β) : (xs.map (·.map f))[j]?.join = (xs[j]?.join).map f := by
  rw [Array.getElem?_map]
  cases xs[j]? <;> rfl

end Rows

/-- A feed stands at its place, or both are gone. -/
def Matched (s : Store) (f : Option Feed) (p : Option Place) : Prop :=
  (f = none ∧ p = none) ∨ ∃ f' p', f = some f' ∧ p = some p' ∧ Feed.Stands f' s p'

theorem Matched.map {s s' : Store} {f : Option Feed} {p : Option Place} (h : Matched s f p)
    {x : Feed → Feed} {y : Place → Place}
    (stands : ∀ f p, Feed.Stands f s p → Feed.Stands (x f) s' (y p)) :
    Matched s' (f.map x) (p.map y) := by
  obtain ⟨rfl, rfl⟩ | ⟨f, p, rfl, rfl, there⟩ := h
  · exact .inl ⟨rfl, rfl⟩
  · exact .inr ⟨x f, y p, rfl, rfl, stands f p there⟩

theorem Matched.mono {s s' : Store} {f : Option Feed} {p : Option Place} (h : Matched s f p)
    (stands : ∀ f p, Feed.Stands f s p → Feed.Stands f s' p) : Matched s' f p := by
  simpa using h.map (x := id) (y := id) stands

/-- A store is kept as certain accounts say: the logs are those of the accounts, and each feed
stands at its place. -/
structure Watched.Kept (w : Watched) (size : Nat) (a : Accounts) : Prop where
  sound : w.store.Sound
  ring : w.store.ringSize = size
  roomy : 0 < w.store.capacity
  log : ∀ room, w.store.fetch room = a.log room
  many : w.feeds.size = a.places.size
  feeds : ∀ i, Matched w.store (w.feed? i) (a.place? i)

section Runs

variable {w : Watched} {size : Nat} {a : Accounts}

theorem Watched.empty_kept {capacity : Nat} (positive : 0 < capacity) :
    (Watched.empty capacity).Kept capacity.nextPowerOfTwo .empty where
  sound := empty_sound capacity
  ring := rfl
  roomy := positive
  log _ := rfl
  many := rfl
  feeds _ := .inl ⟨rfl, rfl⟩

/-- What is done to one feed leaves every feed at the place that the accounts give it. -/
theorem Watched.Kept.modify (h : w.Kept size a) (i : Nat) {x : Feed → Feed} {y : Place → Place}
    (stands : ∀ f p, Feed.Stands f w.store p → Feed.Stands (x f) w.store (y p)) :
    Watched.Kept { w with feeds := w.feeds.modify i (·.map x) } size
      { a with places := a.places.modify i (·.map y) } where
  sound := h.sound
  ring := h.ring
  roomy := h.roomy
  log := h.log
  many := by simp [h.many]
  feeds j := by
    simp only [feed?, Accounts.place?, join_modify_map]
    split_ifs with here
    · subst here
      exact (h.feeds i).map stands
    · exact h.feeds j

/-- Whatever is done with a store is possible, is answered as the accounts say, and leaves the store
as the accounts say. -/
theorem Watched.Kept.perform (h : w.Kept size a) (op : Op) :
    ∃ w', w.perform? op = some (w', (a.perform size op).2.map shown) ∧
      w'.Kept size (a.perform size op).1 := by
  cases op with
  | emit e =>
      obtain ⟨s, stored⟩ := Option.isSome_iff_exists.1 (emit?_isSome e h.roomy)
      obtain ⟨keeps, fetched⟩ := h.sound.emit? stored
      have same := emit?_capacity stored
      refine ⟨{ w with store := s }, by simp [perform?, stored, Accounts.perform, Answer.map],
        keeps.sound, ?_, same.symm ▸ h.roomy, ?_, h.many, ?_⟩
      · rw [ringSize, same]
        exact h.ring
      · intro room
        show s.fetch room = if room = e.roomId then a.log room ++ [e] else a.log room
        rw [fetched, h.log]
      · exact fun i => (h.feeds i).mono fun _ _ there => there.emit? h.sound stored
  | watch room =>
      obtain ⟨⟨s, f⟩, opened⟩ := Option.isSome_iff_exists.1 (watch?_isSome room h.roomy)
      obtain ⟨keeps, fetched, _⟩ := h.sound.watch? opened
      have same := watch?_capacity opened
      have new := h.sound.watch?_stands opened
      rw [h.log] at new
      refine ⟨⟨s, w.feeds.push (some f)⟩, by
        simp [perform?, opened, Accounts.perform, Answer.map, h.many], keeps.sound, ?_,
        same.symm ▸ h.roomy, fun other => (fetched other).trans (h.log other),
        by simp [Accounts.perform, h.many], fun i => ?_⟩
      · rw [ringSize, same]
        exact h.ring
      · simp only [feed?, Accounts.place?, Accounts.perform, join_push, h.many]
        split_ifs
        · exact .inr ⟨f, _, rfl, rfl, new⟩
        · exact (h.feeds i).mono fun _ _ there => there.watch? h.sound opened
  | fetch room =>
      exact ⟨w, by simp [perform?, Accounts.perform, Answer.map, h.log], h⟩
  | closeRoom room =>
      obtain ⟨keeps, fetched⟩ := h.sound.closeRoom room
      have same := closeRoom_capacity w.store room
      refine ⟨_, rfl, keeps.sound, ?_, same.symm ▸ h.roomy,
        fun other => (fetched other).trans (h.log other), by simp [Accounts.perform, h.many],
        fun i => ?_⟩
      · rw [ringSize, same]
        exact h.ring
      · simp only [feed?, Accounts.place?, Accounts.perform, join_map]
        have moved := (h.feeds i).map (x := id) fun f p there => there.closeRoom h.sound room
        rw [Option.map_id, h.log] at moved
        exact moved
  | next i =>
      obtain ⟨feed, place⟩ | ⟨f, p, feed, place, there⟩ := h.feeds i
      · exact ⟨w, by simp [perform?, feed, Accounts.perform, place, Answer.map], by
          simpa [Accounts.perform, place] using h⟩
      · obtain ⟨told, _⟩ := there.poll
        rw [h.ring, h.log] at told
        have moved := h.modify i (x := fun f => (w.store.poll f).1)
          (y := fun p => (p.read size (a.log p.room)).1) fun f p there => by
            rw [← h.ring, ← h.log]
            exact there.poll.2
        refine ⟨{ w with feeds := w.feeds.modify i (·.map fun f => (w.store.poll f).1) }, by
          simp [perform?, feed, Accounts.perform, place, Answer.map, told], ?_⟩
        simpa only [Accounts.perform, place] using moved
  | close i => exact ⟨_, rfl, h.modify i fun _ _ there => there.close⟩
  | drop i =>
      refine ⟨_, rfl, h.sound, h.ring, h.roomy, h.log, by simp [Accounts.perform, h.many],
        fun j => ?_⟩
      simp only [feed?, Accounts.place?, Accounts.perform, join_modify_none]
      split_ifs
      · exact .inl ⟨rfl, rfl⟩
      · exact h.feeds j

/-- A run of a store is a run of its accounts, with the same answers. -/
theorem Watched.Kept.run (h : w.Kept size a) (ops : List Op) :
    ∃ w', w.run? ops = some (w', (a.run size ops).2.map (·.map shown)) ∧
      w'.Kept size (a.run size ops).1 := by
  induction ops generalizing w a with
  | nil => exact ⟨w, rfl, h⟩
  | cons op ops ih =>
      obtain ⟨w₁, first, kept⟩ := h.perform op
      obtain ⟨w₂, rest, kept⟩ := ih kept
      exact ⟨w₂, by simp [run?, first, rest, Accounts.run], kept⟩

end Runs

/-- The number of events that a receiver has behind it after a receipt and not before. -/
def Receipt.count {α : Type} : Receipt α → Nat
  | .item _ => 1
  | .lagged count => count
  | .pending | .ended => 0

/-- A read moves a place on by what it tells, and changes nothing else. -/
theorem Place.read_fst (size : Nat) (log : List Event) (p : Place) :
    (p.read size log).1 = { p with position := p.position + (p.read size log).2.count } := by
  rw [read]
  by_cases closed : p.closed = true
  · rw [if_pos closed]
    rfl
  · rw [if_neg closed]
    cases (log.take (p.limit log))[p.position]? with
    | none =>
        dsimp only
        split_ifs <;> rfl
    | some e =>
        by_cases recent : p.limit log - p.position ≤ size
        · simp only [if_pos recent]
          rfl
        · simp only [if_neg recent, Receipt.count]
          rw [show p.limit log - size = p.position + (p.limit log - size - p.position) by omega,
            Nat.add_sub_cancel_left]

/-- The number of events by which feed `i` goes on. -/
def gainOf (i : Nat) (op : Op) (answer : Answer (Uuid × Receipt Event)) : Nat :=
  (itemOf i op answer).toList.length + lossOf i op answer

theorem gainOf_next (i j : Nat) (room : Uuid) (r : Receipt Event) :
    gainOf i (.next j) (.read (room, r)) = if j = i then r.count else 0 := by
  by_cases same : j = i <;> cases r <;> simp [gainOf, itemOf, lossOf, same, Receipt.count]

theorem gainsOf_cons (i : Nat) (op : Op) (ops : List Op)
    (answer : Answer (Uuid × Receipt Event)) (answers : List (Answer (Uuid × Receipt Event))) :
    (itemsOf i (op :: ops) (answer :: answers)).length +
        lossesOf i (op :: ops) (answer :: answers) =
      gainOf i op answer + ((itemsOf i ops answers).length + lossesOf i ops answers) := by
  simp only [itemsOf, lossesOf, gainOf, List.zip_cons_cons, List.filterMap_cons, List.map_cons,
    List.sum_cons]
  cases itemOf i op answer <;> simp <;> omega

namespace Accounts

variable (size : Nat) (a : Accounts)

/-- Only storing an event changes a log. -/
theorem perform_log (op : Op) (room : Uuid) :
    (a.perform size op).1.log room = a.log room ++ emitted room [op] := by
  cases op with
  | emit e =>
      simp only [perform, emitted, List.filterMap_cons, List.filterMap_nil]
      by_cases here : e.roomId = room
      · simp [here]
      · simp [here, Ne.symm here]
  | next i =>
      simp only [perform]
      cases a.place? i <;> simp [emitted]
  | watch | fetch | closeRoom | close | drop => simp [perform, emitted]

theorem run_log (ops : List Op) (room : Uuid) :
    (a.run size ops).1.log room = a.log room ++ emitted room ops := by
  induction ops generalizing a with
  | nil => simp [run, emitted]
  | cons op ops ih =>
      rw [run, ih, perform_log, List.append_assoc]
      congr 1
      exact (List.filterMap_append (l := [op])).symm

/-- Where a place comes from that has gone on by `n` events since certain accounts: it was there, or
it is the place of a new feed. -/
def Since (i n : Nat) (p : Place) : Prop :=
  (∃ q, a.place? i = some q ∧ p.opened = q.opened ∧ p.position = q.position + n) ∨
    (a.places.size ≤ i ∧ p.position = p.opened + n)

variable {size a}

theorem Since.of_same {i : Nat} {p q : Place} (found : a.place? i = some q)
    (opened : p.opened = q.opened) (position : p.position = q.position) : a.Since i 0 p :=
  .inl ⟨q, found, opened, position⟩

/-- An operation moves a place on by what it tells the feed. -/
theorem perform_since {op : Op} {i : Nat} {p : Place}
    (found : (a.perform size op).1.place? i = some p) :
    a.Since i (gainOf i op (a.perform size op).2) p := by
  cases op with
  | emit | fetch => exact .of_same found rfl rfl
  | watch room =>
      simp only [perform, place?, join_push] at found
      split_ifs at found with new
      · obtain rfl := Option.some.inj found
        exact .inr ⟨new.ge, rfl⟩
      · exact .of_same found rfl rfl
  | closeRoom room =>
      simp only [perform, place?, join_map] at found
      obtain ⟨q, old, rfl⟩ := Option.map_eq_some_iff.1 found
      refine .of_same old ?_ ?_ <;> rw [Place.endIn] <;> split_ifs <;> rfl
  | next j =>
      simp only [perform] at found ⊢
      cases place : a.place? j with
      | none =>
          simp only [place] at found ⊢
          exact .of_same found rfl rfl
      | some q =>
          simp only [place] at found ⊢
          rw [gainOf_next]
          simp only [place?, join_modify_map] at found
          split_ifs at found with same
          · subst same
            obtain ⟨q', old, rfl⟩ := Option.map_eq_some_iff.1 found
            obtain rfl : q = q' := Option.some.inj (place.symm.trans old)
            rw [if_pos rfl]
            rw [Place.read_fst]
            exact .inl ⟨q, place, rfl, rfl⟩
          · rw [if_neg same]
            exact .of_same found rfl rfl
  | close j =>
      simp only [perform, place?, join_modify_map] at found
      split_ifs at found with same
      · subst same
        obtain ⟨q, old, rfl⟩ := Option.map_eq_some_iff.1 found
        exact .of_same old rfl rfl
      · exact .of_same found rfl rfl
  | drop j =>
      simp only [perform, place?, join_modify_none] at found
      split_ifs at found with same
      exact .of_same found rfl rfl

theorem size_le_perform (op : Op) : a.places.size ≤ (a.perform size op).1.places.size := by
  cases op with
  | next i =>
      simp only [perform]
      cases a.place? i <;> simp
  | emit | watch | fetch | closeRoom | close | drop => simp [perform]

/-- A feed that is yet to be opened gains nothing. -/
theorem gainOf_of_size_le {op : Op} {i : Nat} (new : a.places.size ≤ i) :
    gainOf i op (a.perform size op).2 = 0 := by
  cases op with
  | next j =>
      simp only [perform]
      cases place : a.place? j with
      | none => rfl
      | some q =>
          have other : j ≠ i := by
            rintro rfl
            simp [place?, Array.getElem?_eq_none new] at place
          simp only [gainOf_next, if_neg other]
  | emit | watch | fetch | closeRoom | close | drop => rfl

/-- A run moves a place on by what it tells the feed. -/
theorem run_since {ops : List Op} {i : Nat} {p : Place}
    (found : (a.run size ops).1.place? i = some p) :
    a.Since i ((itemsOf i ops (a.run size ops).2).length + lossesOf i ops (a.run size ops).2)
      p := by
  induction ops generalizing a with
  | nil => exact .of_same found rfl rfl
  | cons op ops ih =>
      rw [run, gainsOf_cons]
      obtain ⟨q, first, opened, position⟩ | ⟨new, position⟩ := ih found
      · obtain ⟨q', old, opened', position'⟩ | ⟨new, position'⟩ := perform_since first
        · exact .inl ⟨q', old, by omega, by omega⟩
        · exact .inr ⟨new, by omega⟩
      · have new' := (size_le_perform op).trans new
        rw [gainOf_of_size_le new', Nat.zero_add]
        exact .inr ⟨new', position⟩

end Accounts

/-- Whatever is done with a new store that can open channels, it is possible, and answered as the
accounts say, in which a ring holds as many events as the next power of two. The log of a room is
what was stored in it. The place of a feed is where it was opened, and one on for each event that it
read and each that was reported as lost; it lies before the end of its channel. -/
theorem run?_accounts {capacity : Nat} (positive : 0 < capacity) (ops : List Op) :
    let books := Accounts.empty.run capacity.nextPowerOfTwo ops
    (∃ w, (Watched.empty capacity).run? ops = some (w, books.2.map (·.map shown)) ∧
      ∀ room, w.store.fetch room = emitted room ops) ∧
    (∀ room, books.1.log room = emitted room ops) ∧
    ∀ i p, books.1.place? i = some p →
      p.position = p.opened + (itemsOf i ops books.2).length + lossesOf i ops books.2 ∧
      p.position ≤ p.limit (emitted p.room ops) ∧
      p.limit (emitted p.room ops) ≤ (emitted p.room ops).length := by
  intro books
  obtain ⟨w, ran, kept⟩ := (Watched.empty_kept positive).run ops
  have logs : ∀ room, books.1.log room = emitted room ops := Accounts.run_log _ _ ops
  refine ⟨⟨w, ran, fun room => (kept.log room).trans (logs room)⟩, logs, fun i p found => ?_⟩
  constructor
  · obtain ⟨q, gone, _⟩ | ⟨_, position⟩ := Accounts.run_since found
    · simp [Accounts.empty, Accounts.place?] at gone
    · rw [position, Nat.add_assoc]
  · obtain ⟨_, place⟩ | ⟨f, p', _, place, there⟩ := kept.feeds i
    · cases place.symm.trans found
    · obtain rfl := Option.some.inj (place.symm.trans found)
      rw [← logs, ← kept.log]
      exact there.limit_le

def anyEvent (n : Nat) : Event :=
  ⟨.ofNat n, .ofNat 7, .ofNat 2, .midnight ⟨2025, 1, 1, by decide⟩,
    ⟨"reaction", .null⟩⟩

/-- A feed falls behind by two events, reads the last one, and learns that its channel has ended,
although the room has got another event since. -/
def lateFeed : List Op :=
  [.emit (anyEvent 1), .watch (.ofNat 7), .emit (anyEvent 2), .emit (anyEvent 3),
    .emit (anyEvent 4), .closeRoom (.ofNat 7), .emit (anyEvent 5), .next 0, .next 0, .next 0]

/-- The feed was opened behind one event and ends behind four of the five. -/
theorem run?_accounts_late :
    0 < 1 ∧ ∃ p, (Accounts.empty.run (Nat.nextPowerOfTwo 1) lateFeed).1.place? 0 = some p ∧
      p.opened = 1 ∧ p.position = 4 ∧ p.position = p.opened +
        (itemsOf 0 lateFeed (Accounts.empty.run (Nat.nextPowerOfTwo 1) lateFeed).2).length +
        lossesOf 0 lateFeed (Accounts.empty.run (Nat.nextPowerOfTwo 1) lateFeed).2 := by
  have place : ((Accounts.empty.run (Nat.nextPowerOfTwo 1) lateFeed).1.place? 0).map
      (fun p => (p.opened, p.position)) = some (1, 4) := by decide +kernel
  obtain ⟨p, found, eq⟩ := Option.map_eq_some_iff.1 place
  obtain ⟨opened, position⟩ := Prod.mk.inj eq
  exact ⟨by decide, p, found, opened, position,
    ((run?_accounts (by decide) lateFeed).2.2 0 p found).1⟩

end Roomcast.Store

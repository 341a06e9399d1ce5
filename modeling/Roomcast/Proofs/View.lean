import Roomcast.Proofs.Chain
import Roomcast.Proofs.Tables
import Roomcast.Room

/-!
# Rooms as logs with positions

To its callers a room is a log of which the latest events can be read, and for each reader the
number of events that lay before it when it was opened, followed by those it has read. A `View` is
just that. `View.room` lays a view out as a room, and everything one can do with a room commutes
with this layout and gives the same answer. So the linked nodes, their flags and the reader count
never show: a run of a room from its beginning is a run of the view.
-/

namespace Roomcast.Room

variable {α : Type}

/-- Something that is done with a room. -/
inductive Op (α : Type) where
  /-- Opens a reader. -/
  | join
  /-- Appends an event. -/
  | append (event : α)
  /-- Ends the room. -/
  | close
  /-- Reads without waiting; the token may have fired already. -/
  | poll (i : Nat) (cancelled : Bool)
  /-- Begins a read that may wait. -/
  | beginRead (i : Nat) (cancelled : Bool)
  /-- Fires the token of a read that has begun. -/
  | cancel (i : Nat)
  /-- Lets a read that has begun go on. -/
  | resume (i : Nat)
  /-- Ends a read without a result. -/
  | abandon (i : Nat)
  /-- Closes a reader. -/
  | leave (i : Nat)
  /-- Drops a reader. -/
  | drop (i : Nat)

def Op.reader? : Op α → Option Nat
  | .poll i _ | .beginRead i _ | .cancel i | .resume i | .abandon i | .leave i | .drop i => some i
  | .join | .append _ | .close => none

inductive Answer (α : Type) where
  /-- The number of the new reader. -/
  | joined (result : Except StreamError Nat)
  /-- Whether the event was appended. -/
  | appended (result : Except StreamError Unit)
  /-- What a read got, or that it has to wait. -/
  | read (result : Option (Except StreamError α))
  /-- Nothing. -/
  | silent

/-- Does something with a room. What fails changes nothing. -/
def perform (r : Room α) : Op α → Room α × Answer α
  | .join =>
    match r.join with
    | .ok (r, i) => (r, .joined (.ok i))
    | .error e => (r, .joined (.error e))
  | .append event =>
    match r.append event with
    | .ok r => (r, .appended (.ok ()))
    | .error e => (r, .appended (.error e))
  | .close => (r.close, .silent)
  | .poll i cancelled => ((r.poll i cancelled).1, .read (r.poll i cancelled).2)
  | .beginRead i cancelled => (r.beginRead i cancelled, .silent)
  | .cancel i => (r.cancel i, .silent)
  | .resume i => ((r.resume i).1, .read (r.resume i).2)
  | .abandon i => (r.abandon i, .silent)
  | .leave i => (r.leave i, .silent)
  | .drop i => (r.drop i, .silent)

def run (r : Room α) : List (Op α) → Room α × List (Answer α)
  | [] => (r, [])
  | op :: ops =>
    (((r.perform op).1.run ops).1, (r.perform op).2 :: ((r.perform op).1.run ops).2)

/-- The event that reader `i` gets from an operation with a certain answer. -/
def eventOf (i : Nat) : Op α → Answer α → Option α
  | .poll j _, .read (some (.ok e)) => if j = i then some e else none
  | .resume j, .read (some (.ok e)) => if j = i then some e else none
  | _, _ => none

/-- The events that reader `i` gets from operations with certain answers. -/
def eventsOf (i : Nat) (ops : List (Op α)) (answers : List (Answer α)) : List α :=
  (ops.zip answers).filterMap fun (op, answer) => eventOf i op answer

/-- A stretch of a list grows by the element that comes next. -/
theorem prefix_snoc {xs ys : List α} {x : α} (inside : xs <+: ys)
    (next : ys[xs.length]? = some x) : xs ++ [x] <+: ys := by
  obtain ⟨rest, rfl⟩ := inside
  rw [List.getElem?_append_right (Nat.le_refl _), Nat.sub_self] at next
  cases rest with
  | nil => cases next
  | cons first rest =>
      obtain rfl := Option.some.inj next
      exact ⟨rest, by simp⟩

/-- A reader of a log. -/
structure Reading (α : Type) where
  opened : Nat
  got : List α
  closed : Bool
  wait : Option Wait

namespace Reading

def position (c : Reading α) : Nat := c.opened + c.got.length

/-- Ends a read with its result. A reader that gets no event closes. -/
def settle (c : Reading α) : Except StreamError α → Reading α
  | .ok e => { c with got := c.got ++ [e], wait := none }
  | .error _ => { c with closed := true, wait := none }

/-- The reader as a room keeps it. -/
def cursor (c : Reading α) : Cursor := ⟨c.position, c.closed, c.wait⟩

/-- The reader has read the events that follow its opening, in order, up to some place. -/
structure Within (events : List α) (c : Reading α) : Prop where
  opened_le : c.opened ≤ events.length
  got_in_order : c.got <+: events.drop c.opened

theorem Within.position_le {events : List α} {c : Reading α} (h : c.Within events) :
    c.position ≤ events.length := by
  have bound := h.got_in_order.length_le
  rw [List.length_drop] at bound
  have := h.opened_le
  rw [position]
  omega

/-- More events do not disturb a reader. -/
theorem Within.append {events : List α} {c : Reading α} (h : c.Within events) (event : α) :
    c.Within (events ++ [event]) where
  opened_le := by
    rw [List.length_append]
    exact Nat.le_add_right_of_le h.opened_le
  got_in_order := by
    rw [List.drop_append_of_le_length h.opened_le]
    exact h.got_in_order.trans (List.prefix_append _ _)

/-- A reader that moves on over the event at its position has still read events in order. -/
theorem Within.settle_ok {events : List α} {c : Reading α} (h : c.Within events) {e : α}
    (next : events[c.position]? = some e) : (c.settle (.ok e)).Within events where
  opened_le := h.opened_le
  got_in_order := by
    refine prefix_snoc h.got_in_order ?_
    rw [List.getElem?_drop]
    exact next

end Reading

/-- A log and its readers. -/
structure View (α : Type) where
  window : Window α
  readers : Array (Reading α)

namespace View

def empty (capacity : Nat) : View α := ⟨.empty capacity, #[]⟩

def modifyReader (v : View α) (i : Nat) (f : Reading α → Reading α) : View α :=
  { v with readers := v.readers.modify i f }

/-- What a reader gets that begins a read. A closed reader gets nothing more. -/
def look? (v : View α) (c : Reading α) (cancelled : Bool) : Option (Except StreamError α) :=
  if c.closed then some (.error .closed) else v.window.poll? c.position cancelled

/-- What a read that has begun gets when it goes on. One that has waited already is told first that
its token has fired. -/
def goOn? (v : View α) (c : Reading α) : Option (Except StreamError α) :=
  c.wait.bind fun w =>
    if w.parked then v.window.await? c.position w.cancelled else v.look? c w.cancelled

def settle (v : View α) (i : Nat) (result : Except StreamError α) : View α :=
  v.modifyReader i (·.settle result)

def poll (v : View α) (i : Nat) (cancelled : Bool) : View α × Option (Except StreamError α) :=
  match (v.readers[i]?).bind (v.look? · cancelled) with
  | none => (v, none)
  | some result => (v.settle i result, some result)

/-- Lets a read that has begun go on: it ends with a result, or has to wait. -/
def resume (v : View α) (i : Nat) : View α × Option (Except StreamError α) :=
  match (v.readers[i]?).bind v.goOn? with
  | none =>
    (v.modifyReader i fun c => { c with wait := c.wait.map fun w => { w with parked := true } },
      none)
  | some result => (v.settle i result, some result)

def perform (v : View α) : Op α → View α × Answer α
  | .join =>
    if v.window.closed then (v, .joined (.error .closed))
    else
      ({ v with readers := v.readers.push ⟨v.window.events.length, [], false, none⟩ },
        .joined (.ok v.readers.size))
  | .append event =>
    match v.window.append event with
    | .ok window => ({ v with window }, .appended (.ok ()))
    | .error e => (v, .appended (.error e))
  | .close => ({ v with window := v.window.close }, .silent)
  | .poll i cancelled => ((v.poll i cancelled).1, .read (v.poll i cancelled).2)
  | .beginRead i cancelled =>
    (v.modifyReader i fun c => { c with wait := some ⟨false, cancelled⟩ }, .silent)
  | .cancel i =>
    (v.modifyReader i fun c => { c with wait := c.wait.map fun w => { w with cancelled := true } },
      .silent)
  | .resume i => ((v.resume i).1, .read (v.resume i).2)
  | .abandon i => (v.modifyReader i fun c => { c with wait := none }, .silent)
  | .leave i => (v.modifyReader i fun c => { c with closed := true }, .silent)
  | .drop i => (v.modifyReader i fun c => { c with closed := true, wait := none }, .silent)

def run (v : View α) : List (Op α) → View α × List (Answer α)
  | [] => (v, [])
  | op :: ops =>
    (((v.perform op).1.run ops).1, (v.perform op).2 :: ((v.perform op).1.run ops).2)

def openReaders (v : View α) : Nat := v.readers.countP fun c => !c.closed

/-- The room of a log and its readers. -/
def room (v : View α) : Room α where
  capacity := v.window.capacity
  chain := v.window.chain
  readers := v.openReaders
  cursors := v.readers.map Reading.cursor

/-- Every reader has read the events that follow its opening, up to some place. -/
def Valid (v : View α) : Prop :=
  ∀ (i : Nat) (c : Reading α), v.readers[i]? = some c → c.Within v.window.events

theorem empty_valid (capacity : Nat) : (empty capacity : View α).Valid := by
  intro i c h
  simp [empty] at h

theorem empty_room (capacity : Nat) : (empty capacity : View α).room = .empty capacity := by
  simp [room, empty, Room.empty, openReaders, Window.empty_chain]
  rfl

/-- What is done to one reader keeps a view valid if it keeps that reader within the log. -/
theorem Valid.modifyReader {v : View α} (h : v.Valid) {i : Nat} {f : Reading α → Reading α}
    (kept : ∀ c, v.readers[i]? = some c → (f c).Within v.window.events) :
    (v.modifyReader i f).Valid := by
  intro j c found
  simp only [View.modifyReader, Array.getElem?_modify] at found
  by_cases same : i = j
  · subst same
    rw [if_pos rfl] at found
    obtain ⟨c', old, rfl⟩ := Option.map_eq_some_iff.1 found
    exact kept c' old
  · rw [if_neg same] at found
    exact h j c found

/-- What a reader gets when it looks is the event at its position. -/
theorem look?_ok {v : View α} {c : Reading α} {cancelled : Bool} {e : α}
    (h : v.look? c cancelled = some (.ok e)) : v.window.events[c.position]? = some e := by
  rw [look?, Window.poll?] at h
  split_ifs at h <;> simp_all

/-- What a read that has begun gets is the event at its reader's position. -/
theorem goOn?_ok {v : View α} {c : Reading α} {e : α} (h : v.goOn? c = some (.ok e)) :
    v.window.events[c.position]? = some e := by
  obtain ⟨w, _, got⟩ := Option.bind_eq_some_iff.1 h
  by_cases parked : w.parked = true
  · rw [if_pos parked, Window.await?] at got
    split_ifs at got <;> simp_all
  · rw [if_neg parked] at got
    exact look?_ok got

/-- Ending a read with what is there keeps a view valid. -/
theorem Valid.settle {v : View α} (h : v.Valid) {i : Nat} {result : Except StreamError α}
    (there : ∀ c e, v.readers[i]? = some c → result = .ok e →
      v.window.events[c.position]? = some e) : (v.settle i result).Valid := by
  refine h.modifyReader fun c found => ?_
  cases result with
  | ok e => exact (h i c found).settle_ok (there c e found rfl)
  | error _ => exact ⟨(h i c found).opened_le, (h i c found).got_in_order⟩

/-- What is done to a reader without moving it keeps a view valid. -/
theorem Valid.modifyStill {v : View α} (h : v.Valid) (i : Nat) {f : Reading α → Reading α}
    (still : ∀ c, (f c).opened = c.opened ∧ (f c).got = c.got) : (v.modifyReader i f).Valid := by
  refine h.modifyReader fun c found => ⟨?_, ?_⟩
  · rw [(still c).1]
    exact (h i c found).opened_le
  · rw [(still c).1, (still c).2]
    exact (h i c found).got_in_order

theorem Valid.poll {v : View α} (h : v.Valid) (i : Nat) (cancelled : Bool) :
    (v.poll i cancelled).1.Valid := by
  rw [View.poll]
  cases got : (v.readers[i]?).bind (v.look? · cancelled) with
  | none => exact h
  | some result =>
      refine h.settle fun c e found ok => ?_
      subst ok
      rw [found] at got
      exact look?_ok got

theorem Valid.resume {v : View α} (h : v.Valid) (i : Nat) : (v.resume i).1.Valid := by
  rw [View.resume]
  cases got : (v.readers[i]?).bind v.goOn? with
  | none => exact h.modifyStill i fun c => ⟨rfl, rfl⟩
  | some result =>
      refine h.settle fun c e found ok => ?_
      subst ok
      rw [found] at got
      exact goOn?_ok got

/-- Whatever is done keeps a view valid. -/
theorem Valid.perform {v : View α} (h : v.Valid) (op : Op α) : (v.perform op).1.Valid := by
  cases op with
  | join =>
      rw [View.perform]
      by_cases ended : v.window.closed = true
      · simpa [ended] using h
      · simp only [ended, if_false, Bool.false_eq_true]
        intro i c found
        rw [Array.getElem?_push] at found
        split_ifs at found
        · cases found
          exact ⟨Nat.le_refl _, by simp⟩
        · exact h i c found
  | append event =>
      rw [View.perform, Window.append]
      by_cases ended : v.window.closed = true
      · simpa [ended] using h
      · simp only [ended, Bool.false_eq_true, if_false]
        exact fun i c found => (h i c found).append event
  | close => exact h
  | poll i cancelled => exact h.poll i cancelled
  | resume i => exact h.resume i
  | beginRead i cancelled => exact h.modifyStill i fun c => ⟨rfl, rfl⟩
  | cancel i => exact h.modifyStill i fun c => ⟨rfl, rfl⟩
  | abandon i => exact h.modifyStill i fun c => ⟨rfl, rfl⟩
  | leave i => exact h.modifyStill i fun c => ⟨rfl, rfl⟩
  | drop i => exact h.modifyStill i fun c => ⟨rfl, rfl⟩

theorem openReaders_modify (v : View α) (i : Nat) {f : Reading α → Reading α}
    (still : ∀ c, (f c).closed = c.closed) : (v.modifyReader i f).openReaders = v.openReaders := by
  unfold openReaders modifyReader
  cases found : v.readers[i]? with
  | none => rw [modify_eq_self (by simp [found])]
  | some c => simpa [still] using countP_modify (fun c => !c.closed) f found

theorem room_cursor? (v : View α) (i : Nat) :
    v.room.cursors[i]? = (v.readers[i]?).map Reading.cursor := by
  simp [room]

theorem map_modify {xs : Array (Reading α)} {i : Nat} {f : Cursor → Cursor}
    {g : Reading α → Reading α} (same : ∀ c, xs[i]? = some c → f c.cursor = (g c).cursor) :
    (xs.map Reading.cursor).modify i f = (xs.modify i g).map Reading.cursor := by
  refine Array.ext_getElem? fun j => ?_
  simp only [Array.getElem?_modify, Array.getElem?_map]
  by_cases h : i = j
  · subst h
    cases found : xs[i]? with
    | none => simp
    | some c => simp [same c found]
  · simp [h]

/-- Changing a reader of a room is changing it in the view, as long as nobody closes. -/
theorem room_modifyCursor {v : View α} {i : Nat} {f : Cursor → Cursor} {g : Reading α → Reading α}
    (same : ∀ c, v.readers[i]? = some c → f c.cursor = (g c).cursor)
    (still : ∀ c, (g c).closed = c.closed) :
    v.room.modifyCursor i f = (v.modifyReader i g).room := by
  simp only [Room.modifyCursor, room, map_modify same, openReaders_modify v i still]
  rfl

/-- A reader that closes is counted out once. -/
theorem room_leave (v : View α) (i : Nat) :
    v.room.leave i = (v.modifyReader i fun c => { c with closed := true }).room := by
  rw [Room.leave]
  rw [room_cursor?]
  cases found : v.readers[i]? with
  | none =>
      have same : v.modifyReader i (fun c => { c with closed := true }) = v := by
        rw [modifyReader, modify_eq_self (by simp [found])]
      simp [same]
  | some c =>
      cases ended : c.closed with
      | true =>
          have same : v.modifyReader i (fun c => { c with closed := true }) = v := by
            rw [modifyReader, modify_eq_self]
            intro c' found'
            obtain rfl : c = c' := Option.some.inj (found.symm.trans found')
            simp [← ended]
          simp [Reading.cursor, ended, same]
      | false =>
          have cursors :
              (v.readers.map Reading.cursor).modify i (fun c => { c with closed := true }) =
              (v.readers.modify i fun c => { c with closed := true }).map Reading.cursor :=
            map_modify fun _ _ => rfl
          have count := countP_modify (fun c : Reading α => !c.closed)
            (fun c => { c with closed := true }) found
          simp only [ended, Bool.not_false, if_true, Bool.not_true, Bool.false_eq_true, if_false,
            Nat.add_zero] at count
          simp only [Option.map_some, Reading.cursor, ended, Bool.false_eq_true, if_false]
          simp only [Room.modifyCursor, room, modifyReader, cursors, openReaders]
          congr 1
          omega

theorem room_look? {v : View α} (h : v.Valid) {i : Nat} {c : Reading α}
    (found : v.readers[i]? = some c) (cancelled : Bool) :
    v.room.look? c.cursor cancelled =
      (v.look? c cancelled).map (·.map fun e => (e, c.position + 1)) := by
  rw [Room.look?, View.look?]
  cases ended : c.closed with
  | true => simp [Reading.cursor, ended, Except.map]
  | false =>
      simp only [Reading.cursor, ended, Bool.false_eq_true, if_false, room]
      exact Window.read?_chain (h i c found).position_le cancelled

theorem modifyReader_modifyReader (v : View α) (i : Nat) (f g : Reading α → Reading α) :
    (v.modifyReader i f).modifyReader i g = v.modifyReader i fun c => g (f c) := by
  rw [modifyReader, modifyReader, modify_modify]
  rfl

/-- Ending a read moves the reader of a room to the node of the event, or closes it. -/
theorem room_settle {v : View α} {i : Nat} {c : Reading α} (found : v.readers[i]? = some c)
    (result : Except StreamError α) :
    v.room.settle i (result.map fun e => (e, c.position + 1)) =
      ((v.settle i result).room, result) := by
  cases result with
  | ok e =>
      refine Prod.ext (room_modifyCursor (fun c' found' => ?_) fun _ => rfl) rfl
      obtain rfl : c = c' := Option.some.inj (found.symm.trans found')
      simp [Reading.cursor, Reading.settle, Reading.position, Nat.add_assoc]
  | error err =>
      have stop := room_modifyCursor (v := v) (i := i) (f := fun c => { c with wait := none })
        (g := fun c => { c with wait := none }) (fun _ _ => rfl) fun _ => rfl
      simp only [Except.map, Room.settle, stop, room_leave, modifyReader_modifyReader]
      rfl

/-- What a read that has begun gets in a room is what it gets in the view. -/
theorem room_result? {v : View α} (h : v.Valid) {i : Nat} {c : Reading α}
    (found : v.readers[i]? = some c) :
    v.room.result? i = (v.goOn? c).map (·.map fun e => (e, c.position + 1)) := by
  simp only [Room.result?, room_cursor?, found, Option.map_some, Option.bind_some, goOn?]
  cases reading : c.wait with
  | none => simp [Reading.cursor, reading]
  | some w =>
      simp only [Reading.cursor, reading, Option.bind_some]
      by_cases parked : w.parked = true
      · simp only [parked, if_true, room]
        exact Window.await?_chain (h i c found).position_le w.cancelled
      · simp only [parked, if_false, Bool.false_eq_true]
        simpa only [Reading.cursor, reading] using room_look? h found w.cancelled

theorem room_poll {v : View α} (h : v.Valid) (i : Nat) (cancelled : Bool) :
    v.room.poll i cancelled = ((v.poll i cancelled).1.room, (v.poll i cancelled).2) := by
  rw [Room.poll, View.poll]
  cases found : v.readers[i]? with
  | none => simp [room_cursor?, found]
  | some c =>
      simp only [room_cursor?, found, Option.map_some, Option.bind_some, room_look? h found]
      cases v.look? c cancelled with
      | none => rfl
      | some result =>
          simp only [Option.map_some]
          rw [room_settle found]

theorem room_resume {v : View α} (h : v.Valid) (i : Nat) :
    v.room.resume i = ((v.resume i).1.room, (v.resume i).2) := by
  have park := room_modifyCursor (v := v) (i := i)
    (f := fun c => { c with wait := c.wait.map fun w => { w with parked := true } })
    (g := fun c => { c with wait := c.wait.map fun w => { w with parked := true } })
    (fun _ _ => rfl) fun _ => rfl
  rw [Room.resume, View.resume]
  cases found : v.readers[i]? with
  | none => simp [Room.result?, room_cursor?, found, park]
  | some c =>
      simp only [room_result? h found, Option.bind_some]
      cases v.goOn? c with
      | none => simp [park]
      | some result =>
          simp only [Option.map_some]
          rw [room_settle found]

theorem room_join (v : View α) :
    v.room.join =
      if v.window.closed then .error .closed
      else
        .ok ({ v with
          readers := v.readers.push ⟨v.window.events.length, [], false, none⟩ : View α }.room,
          v.readers.size) := by
  simp [Room.join, Room.isClosed, room, openReaders, Reading.cursor, Reading.position]

/-- Whatever is done with a room is done with its log, and answered the same. -/
theorem perform_room {v : View α} (h : v.Valid) (op : Op α) :
    v.room.perform op = ((v.perform op).1.room, (v.perform op).2) := by
  cases op with
  | join =>
      simp only [Room.perform, room_join, View.perform]
      cases v.window.closed <;> simp
  | append event =>
      have appended : v.room.append event =
          (v.window.append event).map fun window => { v with window : View α }.room := by
        rw [Room.append]
        simp only [room, Window.append_chain, Window.append]
        cases v.window.closed <;> rfl
      simp only [Room.perform, appended, View.perform]
      cases v.window.append event <;> rfl
  | close =>
      simp only [Room.perform, Room.close, View.perform, room, Window.close_chain]
      rfl
  | poll i cancelled => simp only [Room.perform, View.perform, room_poll h]
  | resume i => simp only [Room.perform, View.perform, room_resume h]
  | beginRead i cancelled =>
      exact Prod.ext (room_modifyCursor (fun _ _ => rfl) fun _ => rfl) rfl
  | cancel i => exact Prod.ext (room_modifyCursor (fun _ _ => rfl) fun _ => rfl) rfl
  | abandon i => exact Prod.ext (room_modifyCursor (fun _ _ => rfl) fun _ => rfl) rfl
  | leave i => exact Prod.ext (room_leave v i) rfl
  | drop i =>
      have stop := room_modifyCursor (v := v) (i := i) (f := fun c => { c with wait := none })
        (g := fun c => { c with wait := none }) (fun _ _ => rfl) fun _ => rfl
      simp only [Room.perform, Room.drop, Room.abandon, stop, room_leave,
        modifyReader_modifyReader, View.perform]

/-- A run of a room is a run of its log, with the same answers. -/
theorem run_room {v : View α} (h : v.Valid) (ops : List (Op α)) :
    v.room.run ops = ((v.run ops).1.room, (v.run ops).2) := by
  induction ops generalizing v with
  | nil => rfl
  | cons op ops ih => simp only [Room.run, View.run, perform_room h, ih (h.perform op)]

/-- What a reader has read; nothing if there is no such reader. -/
def gotBy (v : View α) (i : Nat) : List α := ((v.readers[i]?).map (·.got)).getD []

theorem gotBy_modifyStill (v : View α) (i j : Nat) {f : Reading α → Reading α}
    (still : ∀ c, (f c).got = c.got) : (v.modifyReader j f).gotBy i = v.gotBy i := by
  simp only [gotBy, modifyReader, Array.getElem?_modify]
  by_cases h : j = i
  · cases v.readers[i]? <;> simp [h, still]
  · simp [h]

theorem gotBy_settle (v : View α) (i j : Nat) {c : Reading α} (found : v.readers[j]? = some c)
    (result : Except StreamError α) :
    (v.settle j result).gotBy i =
      v.gotBy i ++ (match result with
        | .ok e => if j = i then [e] else []
        | .error _ => []) := by
  cases result with
  | error err =>
      rw [List.append_nil]
      exact gotBy_modifyStill v i j fun c => rfl
  | ok e =>
      simp only [gotBy, settle, modifyReader, Array.getElem?_modify]
      by_cases h : j = i
      · subst h
        simp [found, Reading.settle]
      · simp [h]

/-- The events that a reader has read grow by what its operations answer. -/
theorem gotBy_perform (v : View α) (op : Op α) (i : Nat) :
    (v.perform op).1.gotBy i = v.gotBy i ++ (eventOf i op (v.perform op).2).toList := by
  have still : ∀ j (f : Reading α → Reading α), (∀ c, (f c).got = c.got) →
      (v.modifyReader j f).gotBy i = v.gotBy i ++ [] := by
    intro j f same
    rw [gotBy_modifyStill v i j same, List.append_nil]
  cases op with
  | join =>
      rw [perform]
      split_ifs with ended
      · simp [eventOf]
      · simp only [gotBy, Array.getElem?_push]
        split_ifs with new
        · simp [eventOf, new]
        · simp [eventOf]
  | append event =>
      simp only [perform]
      cases v.window.append event <;> simp [eventOf, gotBy]
  | close => simp [perform, eventOf, gotBy]
  | poll j cancelled =>
      simp only [perform, poll]
      cases found : v.readers[j]? with
      | none => simp [eventOf]
      | some c =>
          cases got : v.look? c cancelled with
          | none => simp [got, eventOf]
          | some result =>
              simp only [Option.bind_some, got, gotBy_settle v i j found]
              cases result with
              | error err => simp [eventOf]
              | ok e => by_cases same : j = i <;> simp [eventOf, same]
  | resume j =>
      simp only [perform, resume]
      cases found : v.readers[j]? with
      | none => exact still j _ fun c => rfl
      | some c =>
          cases got : v.goOn? c with
          | none =>
              simp only [Option.bind_some, got]
              exact still j _ fun c => rfl
          | some result =>
              simp only [Option.bind_some, got, gotBy_settle v i j found]
              cases result with
              | error err => simp [eventOf]
              | ok e => by_cases same : j = i <;> simp [eventOf, same]
  | beginRead j cancelled => exact still j _ fun c => rfl
  | cancel j => exact still j _ fun c => rfl
  | abandon j => exact still j _ fun c => rfl
  | leave j => exact still j _ fun c => rfl
  | drop j => exact still j _ fun c => rfl

theorem gotBy_run (v : View α) (ops : List (Op α)) (i : Nat) :
    (v.run ops).1.gotBy i = v.gotBy i ++ eventsOf i ops (v.run ops).2 := by
  induction ops generalizing v with
  | nil => simp [View.run, eventsOf]
  | cons op ops ih =>
      rw [View.run, ih, gotBy_perform, List.append_assoc]
      congr 1
      simp only [eventsOf, List.zip_cons_cons, List.filterMap_cons]
      cases eventOf i op (v.perform op).2 <;> rfl

theorem Valid.run {v : View α} (h : v.Valid) (ops : List (Op α)) : (v.run ops).1.Valid := by
  induction ops generalizing v with
  | nil => exact h
  | cons op ops ih => exact ih (h.perform op)

/-- A reader that was there is still there, has been opened at the same place, and is not open again
once it has closed. -/
structure Follows (c c' : Reading α) : Prop where
  opened : c'.opened = c.opened
  closed : c.closed = true → c'.closed = true

theorem modifyReader_follows {v : View α} {i j : Nat} {c : Reading α} {f : Reading α → Reading α}
    (found : v.readers[j]? = some c) (step : ∀ c, Follows c (f c)) :
    ∃ c', (v.modifyReader i f).readers[j]? = some c' ∧ Follows c c' := by
  rw [modifyReader, Array.getElem?_modify, found]
  split_ifs
  · exact ⟨f c, rfl, step c⟩
  · exact ⟨c, rfl, rfl, id⟩

theorem settle_follows (c : Reading α) (result : Except StreamError α) :
    Follows c (c.settle result) := by
  cases result with
  | ok e => exact ⟨rfl, id⟩
  | error err => exact ⟨rfl, fun _ => rfl⟩

theorem perform_follows {v : View α} {j : Nat} {c : Reading α} (found : v.readers[j]? = some c)
    (op : Op α) : ∃ c', (v.perform op).1.readers[j]? = some c' ∧ Follows c c' := by
  cases op with
  | join =>
      simp only [perform]
      split_ifs
      · exact ⟨c, found, rfl, id⟩
      · exact ⟨c, getElem?_push_some.2 (.inl found), rfl, id⟩
  | append event =>
      refine ⟨c, ?_, rfl, id⟩
      simp only [perform]
      cases v.window.append event <;> exact found
  | close => exact ⟨c, found, rfl, id⟩
  | poll i cancelled =>
      simp only [perform, poll]
      cases (v.readers[i]?).bind (v.look? · cancelled) with
      | none => exact ⟨c, found, rfl, id⟩
      | some result => exact modifyReader_follows found (settle_follows · result)
  | resume i =>
      simp only [perform, resume]
      cases (v.readers[i]?).bind v.goOn? with
      | none => exact modifyReader_follows found fun _ => ⟨rfl, id⟩
      | some result => exact modifyReader_follows found (settle_follows · result)
  | beginRead | cancel | abandon => exact modifyReader_follows found fun _ => ⟨rfl, id⟩
  | leave | drop => exact modifyReader_follows found fun _ => ⟨rfl, fun _ => rfl⟩

/-- Only appending and closing change the log. -/
theorem perform_window (v : View α) (op : Op α) :
    (v.perform op).1.window =
      match op with
      | .append event => if v.window.closed then v.window else v.window.extend event
      | .close => v.window.close
      | _ => v.window := by
  cases op with
  | join =>
      simp only [perform]
      split_ifs <;> rfl
  | append event =>
      simp only [perform, Window.append]
      split_ifs <;> rfl
  | poll i cancelled =>
      simp only [perform, poll]
      cases (v.readers[i]?).bind (v.look? · cancelled) <;> rfl
  | resume i =>
      simp only [perform, resume]
      cases (v.readers[i]?).bind v.goOn? <;> rfl
  | close | beginRead | cancel | abandon | leave | drop => rfl

/-- Only joining adds a reader. -/
theorem perform_size (v : View α) {op : Op α} (other : op ≠ .join) :
    (v.perform op).1.readers.size = v.readers.size := by
  cases op with
  | join => exact absurd rfl other
  | append event =>
      simp only [perform]
      cases v.window.append event <;> rfl
  | poll i cancelled =>
      simp only [perform, poll]
      cases (v.readers[i]?).bind (v.look? · cancelled) with
      | none => rfl
      | some result => exact Array.size_modify
  | resume i =>
      simp only [perform, resume]
      cases (v.readers[i]?).bind v.goOn? <;> exact Array.size_modify
  | close => rfl
  | beginRead | cancel | abandon | leave | drop => exact Array.size_modify

theorem room_hasLeft (v : View α) (i : Nat) :
    v.room.hasLeft i = (v.readers[i]?).all (·.closed) := by
  rw [Room.hasLeft, room_cursor?, Option.all_map]
  rfl

/-- The readers of a room are counted right: there are none if and only if each one has left. -/
theorem openReaders_eq_zero {v : View α} :
    v.openReaders = 0 ↔ ∀ i, v.room.hasLeft i = true := by
  rw [openReaders, Array.countP_eq_zero]
  constructor
  · intro none i
    rw [room_hasLeft]
    cases found : v.readers[i]? with
    | none => rfl
    | some c => simpa using none c (Array.mem_of_getElem? found)
  · intro left c among
    obtain ⟨i, found⟩ := Array.mem_iff_getElem?.1 among
    have gone := left i
    rw [room_hasLeft, found] at gone
    simpa using gone

/-- Who has left does not come back. -/
theorem hasLeft_perform {v : View α} {op : Op α} (other : op ≠ .join) {i : Nat}
    (left : v.room.hasLeft i = true) : (v.perform op).1.room.hasLeft i = true := by
  rw [room_hasLeft] at left ⊢
  cases found : v.readers[i]? with
  | none =>
      have beyond : (v.perform op).1.readers[i]? = none := by
        rw [Array.getElem?_eq_none_iff] at found ⊢
        rw [perform_size v other]
        exact found
      rw [beyond]
      rfl
  | some c =>
      obtain ⟨c', found', follows⟩ := perform_follows found op
      rw [found] at left
      rw [found']
      exact follows.closed left

end View

/-- Whatever is done with a new room, in whatever order, the room is the layout of a log with
positions, and every answer is the one that the log gives. So what a reader gets is a stretch of the
log that begins where the reader was opened. -/
theorem run_eq_view (capacity : Nat) (ops : List (Op α)) :
    (Room.empty capacity).run ops =
        (((View.empty capacity).run ops).1.room, ((View.empty capacity).run ops).2) ∧
      ∀ (i : Nat) (c : Reading α), ((View.empty capacity).run ops).1.readers[i]? = some c →
        eventsOf i ops ((Room.empty capacity).run ops).2 = c.got ∧
        c.got <+: ((View.empty capacity).run ops).1.window.events.drop c.opened := by
  have same := View.run_room (View.empty_valid capacity) ops
  rw [View.empty_room] at same
  refine ⟨same, fun i c found => ⟨?_, ?_⟩⟩
  · have got := View.gotBy_run (.empty capacity) ops i
    rw [View.gotBy, View.gotBy, found] at got
    rw [same]
    exact got.symm
  · exact ((View.empty_valid capacity).run ops i c found).got_in_order

/-- A reader of a room that keeps one event reads the first of three and then falls behind. -/
theorem run_eq_view_behind :
    ((View.empty 1).run
        [.join, .append 5, .poll 0 false, .append 6, .append 7, .poll 0 false]).1.readers[0]? =
      some ⟨0, [5], true, none⟩ ∧
    eventsOf 0 [.join, .append 5, .poll 0 false, .append 6, .append 7, .poll 0 false]
        ((Room.empty 1).run
          [.join, .append 5, .poll 0 false, .append 6, .append 7, .poll 0 false]).2 = [5] ∧
    [5] <+: ((View.empty 1).run
        [.join, .append 5, .poll 0 false, .append 6, .append 7,
          .poll 0 false]).1.window.events.drop 0 :=
  ⟨rfl, (run_eq_view 1 _).2 0 ⟨0, [5], true, none⟩ rfl⟩

end Roomcast.Room

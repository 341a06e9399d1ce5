import Mathlib.Data.Set.Card
import Mathlib.Logic.Relation
import Roomcast.Proofs.Counting

/-!
# A room keeps no more than it has to

What keeps a node alive is a link from another node, the room, which holds on to the newest and the
oldest node, or a reader that has not been dropped. The links from the oldest node lead to the
newest one over exactly the events that the room holds, and a node that was given up has no link. So
a reader keeps one node alive that the room does not keep anyhow, however far it has fallen behind,
and the nodes of a room are bounded by its capacity and the number of its readers.
-/

namespace Roomcast.Room

variable {α : Type}

namespace Chain

def follow (c : Chain α) : Nat → Nat → Option Nat
  | 0, i => some i
  | k + 1, i => (c.next? i).bind (c.follow k)

/-- One node keeps another alive: links lead from the first to the second. -/
def Reaches (c : Chain α) : Nat → Nat → Prop :=
  Relation.ReflTransGen fun i j => c.next? i = some j

end Chain

/-- A node that the room holds on to, or one of the given readers. -/
def IsHeld (r : Room α) (readers : List Nat) (i : Nat) : Prop :=
  i = r.chain.head ∨ i = r.chain.tail ∨ ∃ k ∈ readers, ∃ c, r.cursors[k]? = some c ∧ c.node = i

/-- The nodes that are kept alive by the room and the given readers. -/
def kept (r : Room α) (readers : List Nat) : Set Nat :=
  {j | ∃ i, r.IsHeld readers i ∧ r.chain.Reaches i j}

def appended (ops : List (Op α)) (answers : List (Answer α)) : List α :=
  (ops.zip answers).filterMap fun
    | (.append event, .appended (.ok _)) => some event
    | _ => none

def Answer.error? : Answer α → Option StreamError
  | .joined (.error e) | .appended (.error e) | .read (some (.error e)) => some e
  | _ => none

/-- A room to which certain events were appended is laid out within its capacity, and `readers` keep
no more alive than one node each. -/
structure Bounded (r : Room α) (capacity : Nat) (events : List α) (readers : List Nat) : Prop where
  /-- The room holds the latest events as far as there is room, and none once it is closed. -/
  size : r.size = if r.isClosed then 0 else min events.length capacity
  /-- From the tail the head is met after as many links as there are events. -/
  steps : ∀ k, r.chain.follow k r.chain.tail = some r.chain.head ↔ k = r.size
  /-- The live nodes are those that are met from the tail on. -/
  line : ∀ k, r.chain.follow k r.chain.tail = r.chain.live[k]?
  liveNodes : r.liveNodes = r.size + 1
  /-- No live node of an open room is given up. -/
  intact : r.isClosed = false → ∀ i ∈ r.chain.live, r.chain.isEvicted i = false
  /-- Whoever waits at a live node of an open room before the head may go on, over a link. -/
  resolved : r.isClosed = false → ∀ i ∈ r.chain.live, i ≠ r.chain.head →
    r.chain.isReady i = true ∧ (r.chain.next? i).isSome = true
  /-- At the head of an open room there is something to wait for. -/
  waiting : r.isClosed = false →
    r.chain.isReady r.chain.head = false ∧ r.chain.next? r.chain.head = none
  /-- The nodes after the tail carry the latest events in their order. -/
  latest : r.isClosed = false →
    r.chain.live.tail.map r.chain.event? = (events.drop (events.length - r.size)).map some
  /-- A node that was given up leads nowhere. -/
  cut : ∀ i, r.chain.isEvicted i = true → r.chain.next? i = none
  /-- Few nodes are kept alive. -/
  few : (r.kept readers).encard ≤ (r.size + 1 + readers.length : Nat)

namespace Window

variable (w : Window α)

theorem tail_add_length : w.chain.tail + w.chain.length = w.events.length := by
  cases ended : w.closed with
  | true => simp [chain, ended]
  | false =>
      simp only [chain, ended, Bool.false_eq_true, if_false]
      omega

/-- A node that is given up leads nowhere. -/
theorem next?_eq_none {i : Nat} (gone : w.chain.isEvicted i = true) : w.chain.next? i = none := by
  by_cases inside : i ≤ w.events.length
  · rw [isEvicted_chain inside] at gone
    simp [next?_chain inside, gone]
  · simp [Chain.next?, chain_node?, inside]

variable {w}

theorem kept_of_tail_le (isOpen : w.closed = false) {i : Nat} (live : w.chain.tail ≤ i) :
    w.lost i = false := by
  refine lost_eq_false.2 ⟨isOpen, ?_⟩
  simp only [chain, isOpen, Bool.false_eq_true, if_false] at live
  omega

/-- From the tail on, each link leads to the next node, up to the head. -/
theorem next?_live {i : Nat} (live : w.chain.tail ≤ i) (inside : i ≤ w.events.length) :
    w.chain.next? i = if i < w.events.length then some (i + 1) else none := by
  rw [next?_chain inside]
  cases ended : w.closed with
  | true =>
      have last : w.events.length ≤ i := by simpa [chain, ended] using live
      simp [Nat.not_lt.2 last]
  | false => simp [kept_of_tail_le ended live]

/-- A link leads to a node after the tail. -/
theorem next?_some {i j : Nat} (linked : w.chain.next? i = some j) :
    w.chain.tail ≤ j ∧ j ≤ w.events.length := by
  by_cases inside : i ≤ w.events.length
  · rw [next?_chain inside] at linked
    split_ifs at linked with further
    obtain rfl := Option.some.inj linked
    simp only [Bool.and_eq_true, Bool.not_eq_true', lost_eq_false, decide_eq_true_eq] at further
    obtain ⟨⟨isOpen, near⟩, _⟩ := further
    simp only [chain, isOpen, Bool.false_eq_true, if_false]
    omega
  · simp [Chain.next?, chain_node?, inside] at linked

theorem follow_live {i k : Nat} (live : w.chain.tail ≤ i) (inside : i ≤ w.events.length) :
    w.chain.follow k i = if i + k ≤ w.events.length then some (i + k) else none := by
  induction k generalizing i with
  | zero => simp [Chain.follow, inside]
  | succ k ih =>
      rw [Chain.follow, next?_live live inside]
      by_cases further : i < w.events.length
      · rw [if_pos further, Option.bind_some, ih (by omega) (by omega),
          show i + 1 + k = i + (k + 1) by omega]
      · rw [if_neg further, Option.bind_none, if_neg (by omega)]

/-- The nodes from the tail to the head. -/
theorem live_eq (w : Window α) :
    w.chain.live = List.range' w.chain.tail (w.chain.length + 1) := by
  cases ended : w.closed with
  | true =>
      have tail : w.chain.tail = w.events.length := by simp [chain, ended]
      have length : w.chain.length = 0 := by simp [chain, ended]
      rw [Chain.live, chain_size, Chain.path, next?_live (Nat.le_refl _) tail.le, tail, length,
        if_neg (Nat.lt_irrefl _)]
      rfl
  | false =>
      rw [live_chain ended]
      simp [chain, ended]

theorem mem_live {i : Nat} :
    i ∈ w.chain.live ↔ w.chain.tail ≤ i ∧ i ≤ w.events.length := by
  have all := w.tail_add_length
  rw [live_eq, List.mem_range'_1]
  omega

/-- What is kept alive by a node is the node itself and live nodes. -/
theorem mem_live_of_reaches {i j : Nat} (reaches : w.chain.Reaches i j) :
    j = i ∨ j ∈ w.chain.live := by
  cases reaches with
  | refl => exact .inl rfl
  | tail _ linked => exact .inr (mem_live.2 (next?_some linked))

/-- The nodes after the tail carry the latest events. -/
theorem map_event?_live (w : Window α) :
    w.chain.live.tail.map w.chain.event? = (w.events.drop w.chain.tail).map some := by
  have all := w.tail_add_length
  rw [live_eq, List.range'_succ, List.tail_cons]
  refine List.ext_getElem? fun k => ?_
  rw [List.getElem?_map, List.getElem?_map, List.getElem?_drop]
  by_cases inside : k < w.chain.length
  · rw [List.getElem?_range' inside, Option.map_some]
    have event := event?_chain_succ (w := w) (i := w.chain.tail + k) (by omega)
    rw [show w.chain.tail + 1 + 1 * k = w.chain.tail + k + 1 by omega, event,
      List.getElem?_eq_getElem (by omega)]
    rfl
  · rw [List.getElem?_eq_none (by simpa using inside), List.getElem?_eq_none (by omega)]
    rfl

end Window

namespace View

variable (v : View α)

/-- The room and the readers given keep alive what is live, and a node for each reader. -/
theorem kept_subset (readers : List Nat) :
    v.room.kept readers ⊆
      ↑(v.window.chain.live ++
        readers.filterMap fun k => (v.room.cursors[k]?).map (·.node)).toFinset := by
  rintro j ⟨i, held, reaches⟩
  have all := v.window.tail_add_length
  simp only [List.coe_toFinset, List.mem_append, List.mem_filterMap, Set.mem_ofPred_eq]
  -- A link leads to a live node, so beside those only what is held itself is kept alive.
  obtain rfl | live := Window.mem_live_of_reaches reaches
  · obtain rfl | rfl | ⟨k, among, c, found, rfl⟩ := held
    · exact .inl (Window.mem_live.2 ⟨show v.window.chain.tail ≤ v.window.events.length by omega,
        Nat.le_refl _⟩)
    · exact .inl (Window.mem_live.2 ⟨Nat.le_refl _,
        show v.window.chain.tail ≤ v.window.events.length by omega⟩)
    · exact .inr ⟨k, among, by rw [found]; rfl⟩
  · exact .inl live

theorem kept_encard_le (readers : List Nat) :
    (v.room.kept readers).encard ≤ (v.room.size + 1 + readers.length : Nat) := by
  refine (Set.encard_le_encard (v.kept_subset readers)).trans ?_
  rw [Set.encard_coe_eq_coe_finsetCard, Nat.cast_le]
  refine (List.toFinset_card_le _).trans ?_
  rw [List.length_append, Window.live_eq, List.length_range']
  exact Nat.add_le_add_left (List.length_filterMap_le _ _) _

/-- A room is laid out within its capacity. -/
theorem bounded (readers : List Nat) :
    v.room.Bounded v.window.capacity v.window.events readers where
  size := rfl
  steps k := by
    have all := v.window.tail_add_length
    show v.window.chain.follow k v.window.chain.tail = some v.window.events.length ↔
      k = v.window.chain.length
    rw [Window.follow_live (Nat.le_refl _) (by omega)]
    split_ifs with inside
    · rw [Option.some_inj]
      omega
    · simp
      omega
  line k := by
    have all := v.window.tail_add_length
    show v.window.chain.follow k v.window.chain.tail = v.window.chain.live[k]?
    rw [Window.follow_live (Nat.le_refl _) (by omega), Window.live_eq]
    split_ifs with inside
    · rw [List.getElem?_range' (by omega), Nat.one_mul]
    · rw [List.getElem?_eq_none (by simp; omega)]
  liveNodes := by
    show v.window.chain.live.length = v.window.chain.length + 1
    rw [Window.live_eq, List.length_range']
  intact isOpen i live := by
    obtain ⟨after, inside⟩ := Window.mem_live.1 live
    show v.window.chain.isEvicted i = false
    rw [Window.isEvicted_chain inside]
    exact Window.kept_of_tail_le isOpen after
  resolved isOpen i live before := by
    obtain ⟨after, inside⟩ := Window.mem_live.1 live
    have further : i < v.window.events.length := Nat.lt_of_le_of_ne inside before
    show v.window.chain.isReady i = true ∧ (v.window.chain.next? i).isSome = true
    rw [Window.isReady_chain inside, Window.next?_live after inside]
    simp [further]
  waiting isOpen := by
    have isOpen : v.window.closed = false := isOpen
    show v.window.chain.isReady v.window.events.length = false ∧
      v.window.chain.next? v.window.events.length = none
    rw [Window.isReady_chain (Nat.le_refl _), Window.next?_chain (Nat.le_refl _)]
    simp [isOpen]
  latest _ := by
    have all := v.window.tail_add_length
    show v.window.chain.live.tail.map v.window.chain.event? =
      (v.window.events.drop (v.window.events.length - v.window.chain.length)).map some
    rw [Window.map_event?_live]
    congr 2
    omega
  cut _ gone := Window.next?_eq_none v.window gone
  few := v.kept_encard_le readers

/-- Only appending adds events. -/
theorem perform_events (op : Op α) :
    (v.perform op).1.window.events = v.window.events ++ appended [op] [(v.perform op).2] := by
  rw [perform_window]
  cases op with
  | append event =>
      simp only [perform, Window.append, appended]
      cases v.window.closed <;> simp
  | join =>
      simp only [perform, appended]
      split_ifs <;> simp
  | close | poll | beginRead | cancel | resume | abandon | leave | drop =>
      simp [appended, Window.close]

theorem run_events (ops : List (Op α)) :
    (v.run ops).1.window.events = v.window.events ++ appended ops (v.run ops).2 := by
  induction ops generalizing v with
  | nil => simp [run, appended]
  | cons op ops ih =>
      rw [run, ih, perform_events, List.append_assoc]
      congr 1
      exact (List.filterMap_append (l := [(op, (v.perform op).2)])).symm

theorem run_capacity (ops : List (Op α)) :
    (v.run ops).1.window.capacity = v.window.capacity := by
  induction ops generalizing v with
  | nil => rfl
  | cons op ops ih =>
      rw [run, ih, perform_window]
      cases op with
      | append event =>
          dsimp only
          split_ifs <;> rfl
      | _ => rfl

theorem look?_error {c : Reading α} {cancelled : Bool} {e : StreamError}
    (failed : v.look? c cancelled = some (.error e)) : e = .closed ∨ e = .cancelled := by
  rw [look?, Window.poll?] at failed
  split_ifs at failed <;> simp_all

theorem goOn?_error {c : Reading α} {e : StreamError} (failed : v.goOn? c = some (.error e)) :
    e = .closed ∨ e = .cancelled := by
  obtain ⟨w, _, got⟩ := Option.bind_eq_some_iff.1 failed
  by_cases parked : w.parked = true
  · rw [if_pos parked, Window.await?] at got
    split_ifs at got <;> simp_all
  · rw [if_neg parked] at got
    exact v.look?_error got

/-- What fails, fails because the room or the reader is closed, or because a token has fired. -/
theorem perform_error {op : Op α} {e : StreamError}
    (failed : (v.perform op).2.error? = some e) : e = .closed ∨ e = .cancelled := by
  cases op with
  | join =>
      simp only [perform] at failed
      split_ifs at failed with ended
      · exact .inl (Option.some.inj failed).symm
      · cases failed
  | append event =>
      simp only [perform, Window.append] at failed
      cases ended : v.window.closed with
      | true =>
          rw [ended] at failed
          exact .inl (Option.some.inj failed).symm
      | false =>
          rw [ended] at failed
          cases failed
  | poll i cancelled =>
      simp only [perform, poll] at failed
      cases got : (v.readers[i]?).bind (v.look? · cancelled) with
      | none =>
          rw [got] at failed
          cases failed
      | some result =>
          rw [got] at failed
          obtain ⟨c, _, looked⟩ := Option.bind_eq_some_iff.1 got
          cases result with
          | ok _ => cases failed
          | error err =>
              obtain rfl := Option.some.inj failed
              exact v.look?_error looked
  | resume i =>
      simp only [perform, resume] at failed
      cases got : (v.readers[i]?).bind v.goOn? with
      | none =>
          rw [got] at failed
          cases failed
      | some result =>
          rw [got] at failed
          obtain ⟨c, _, went⟩ := Option.bind_eq_some_iff.1 got
          cases result with
          | ok _ => cases failed
          | error err =>
              obtain rfl := Option.some.inj failed
              exact v.goOn?_error went
  | close | beginRead | cancel | abandon | leave | drop => cases failed

theorem run_error {ops : List (Op α)} {answer : Answer α} (among : answer ∈ (v.run ops).2)
    {e : StreamError} (failed : answer.error? = some e) : e = .closed ∨ e = .cancelled := by
  induction ops generalizing v with
  | nil => cases among
  | cons op ops ih =>
      obtain rfl | later := List.mem_cons.1 among
      · exact v.perform_error failed
      · exact ih _ later

end View

/-- Whatever is done with a new room, in whatever order, it is laid out within its capacity, and
those of its readers that have not been dropped keep no more alive than one node each. Nothing fails
because the nodes are not laid out as they should be. -/
theorem run_bounded (capacity : Nat) (ops : List (Op α)) :
    let result := (Room.empty capacity).run ops
    result.1.Bounded capacity (appended ops result.2)
      (Roll.empty.call drops ops result.2).present ∧
    ∀ answer ∈ result.2, ∀ reason, answer.error? ≠ some (.unexpected reason) := by
  have same := View.run_room (View.empty_valid (α := α) capacity) ops
  rw [View.empty_room] at same
  have room := View.run_capacity (View.empty (α := α) capacity) ops
  have events := View.run_events (View.empty (α := α) capacity) ops
  rw [same]
  refine ⟨?_, fun answer among reason failed => ?_⟩
  · have bounded := ((View.empty (α := α) capacity).run ops).1.bounded
      (Roll.empty.call drops ops ((View.empty capacity).run ops).2).present
    rw [room, events] at bounded
    exact bounded
  · obtain unexpected | unexpected := View.run_error _ among failed
    · cases unexpected
    · cases unexpected

/-- A reader that falls behind a room that holds two events. -/
def behind : List (Op Nat) :=
  [.join, .append 1, .append 2, .append 3, .append 4, .poll 0 false]

/-- The reader is told that it is closed, and keeps one node alive, its own, beside the three nodes
of the room. -/
theorem run_bounded_behind :
    ((Room.empty 2).run behind).1.chain.live = [2, 3, 4] ∧
    ((Room.empty 2).run behind).1.Bounded 2 [1, 2, 3, 4] [0] ∧
    Answer.read (some (.error .closed)) ∈ ((Room.empty 2).run behind).2 ∧
    ∀ reason, (Answer.read (some (.error .closed)) : Answer Nat).error? ≠
      some (.unexpected reason) := by
  have told : Answer.read (some (.error .closed)) ∈ ((Room.empty 2).run behind).2 := by
    have answers : ((Room.empty 2).run behind).2 =
        [.joined (.ok 0), .appended (.ok ()), .appended (.ok ()), .appended (.ok ()),
          .appended (.ok ()), .read (some (.error .closed))] := rfl
    rw [answers]
    simp
  exact ⟨by decide, (run_bounded 2 behind).1, told, (run_bounded 2 behind).2 _ told⟩

end Roomcast.Room

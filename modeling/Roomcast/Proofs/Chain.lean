import Mathlib.Tactic
import Roomcast.Room.Chain

/-!
# The log behind a chain

A chain is determined by three things: how many events it may hold, which events have been appended,
and whether it has ended. They make up a `Window`, and `Window.chain` lays the chain out: node
`i + 1` carries event `i`, so a node's number is the number of events that lie before it. Appending
and closing commute with this layout. What a reader gets at a node can be said of the log alone:
an event, the news that its place is lost, or nothing yet.
-/

namespace Roomcast.Room

/-- A log of which only the latest events can still be read. -/
structure Window (α : Type) where
  capacity : Nat
  events : List α
  closed : Bool

namespace Window

variable {α : Type}

def empty (capacity : Nat) : Window α := ⟨capacity, [], false⟩

def extend (w : Window α) (event : α) : Window α := { w with events := w.events ++ [event] }

def append (w : Window α) (event : α) : Except StreamError (Window α) :=
  if w.closed then .error .closed else .ok (w.extend event)

def close (w : Window α) : Window α := { w with closed := true }

/-- Whether a reader that has `p` events behind it can read no more: the log has ended, or the
reader fell behind by more than the capacity. -/
def lost (w : Window α) (p : Nat) : Bool := w.closed || decide (w.capacity < w.events.length - p)

/-- What a reader that waits at position `p` gets. -/
def await? (w : Window α) (p : Nat) (cancelled : Bool) : Option (Except StreamError α) :=
  if cancelled then some (.error .cancelled)
  else if w.lost p then some (.error .closed)
  else w.events[p]?.map .ok

/-- What a reader that arrives at position `p` gets. -/
def poll? (w : Window α) (p : Nat) (cancelled : Bool) : Option (Except StreamError α) :=
  if w.lost p then some (.error .closed)
  else if cancelled then some (.error .cancelled)
  else w.events[p]?.map .ok

/-- The event of the node that has `i` events behind it: the last of them. -/
def carried (events : List α) : Nat → Option α
  | 0 => none
  | k + 1 => events[k]?

def node (w : Window α) (i : Nat) : Node α where
  event := carried w.events i
  next := if !w.lost i && decide (i < w.events.length) then some (i + 1) else none
  ready := w.closed || decide (i < w.events.length)
  evicted := w.lost i

def chain (w : Window α) : Chain α where
  nodes := (Array.range (w.events.length + 1)).map w.node
  head := w.events.length
  tail := if w.closed then w.events.length else w.events.length - w.capacity
  length := if w.closed then 0 else min w.events.length w.capacity
  closed := w.closed

theorem lost_iff {w : Window α} {p : Nat} :
    w.lost p = true ↔ w.closed = true ∨ w.capacity < w.events.length - p := by
  simp [lost]

theorem lost_eq_false {w : Window α} {p : Nat} :
    w.lost p = false ↔ w.closed = false ∧ w.events.length ≤ p + w.capacity := by
  simp [lost]
  omega

@[simp] theorem chain_head (w : Window α) : w.chain.head = w.events.length := rfl

@[simp] theorem chain_closed (w : Window α) : w.chain.closed = w.closed := rfl

theorem chain_size (w : Window α) : w.chain.nodes.size = w.events.length + 1 := by
  simp [chain]

theorem empty_chain (capacity : Nat) : (empty capacity : Window α).chain = .empty := by
  have one : Array.range 1 = #[0] := rfl
  simp [empty, chain, Chain.empty, Chain.freshNode, node, carried, lost, one]

theorem chain_node? (w : Window α) (i : Nat) :
    w.chain.nodes[i]? = if i ≤ w.events.length then some (w.node i) else none := by
  by_cases h : i ≤ w.events.length
  · simp [chain, h, Nat.lt_succ_of_le h]
  · simp [chain, h, show ¬ i < w.events.length + 1 by omega]

section Getters

variable {w : Window α} {i : Nat} (h : i ≤ w.events.length)
include h

theorem next?_chain :
    w.chain.next? i =
      if !w.lost i && decide (i < w.events.length) then some (i + 1) else none := by
  simp [Chain.next?, chain_node?, h, node]

theorem isReady_chain : w.chain.isReady i = (w.closed || decide (i < w.events.length)) := by
  simp [Chain.isReady, chain_node?, h, node]

theorem isEvicted_chain : w.chain.isEvicted i = w.lost i := by
  simp [Chain.isEvicted, chain_node?, h, node]

end Getters

theorem event?_chain_succ {w : Window α} {i : Nat} (h : i < w.events.length) :
    w.chain.event? (i + 1) = w.events[i]? := by
  simp [Chain.event?, chain_node?, Nat.succ_le_of_lt h, node, carried]

/-- The log with room for one more event. -/
def widen (w : Window α) : Window α := { w with capacity := w.capacity + 1 }

section Parts

variable (w : Window α) (event : α)

@[simp] theorem extend_capacity : (w.extend event).capacity = w.capacity := rfl
@[simp] theorem extend_events : (w.extend event).events = w.events ++ [event] := rfl
@[simp] theorem extend_closed : (w.extend event).closed = w.closed := rfl
@[simp] theorem widen_capacity : w.widen.capacity = w.capacity + 1 := rfl
@[simp] theorem widen_events : w.widen.events = w.events := rfl
@[simp] theorem widen_closed : w.widen.closed = w.closed := rfl

end Parts

theorem carried_append {events : List α} (event : α) {i : Nat} (h : i ≤ events.length) :
    carried (events ++ [event]) i = carried events i := by
  cases i with
  | zero => rfl
  | succ k => exact List.getElem?_append_left h

/-- A chain is recognised by its nodes and its four other fields. -/
theorem eq_chain {w : Window α} {c : Chain α}
    (nodes : ∀ j, c.nodes[j]? = if j ≤ w.events.length then some (w.node j) else none)
    (head : c.head = w.events.length)
    (tail : c.tail = if w.closed then w.events.length else w.events.length - w.capacity)
    (length : c.length = if w.closed then 0 else min w.events.length w.capacity)
    (closed : c.closed = w.closed) : c = w.chain := by
  obtain ⟨cn, ch, ct, cl, cc⟩ := c
  obtain rfl : ch = w.events.length := head
  obtain rfl : cc = w.closed := closed
  have same : cn = w.chain.nodes :=
    Array.ext_getElem? fun j => (nodes j).trans (chain_node? w j).symm
  rw [same, show ct = _ from tail, show cl = _ from length]
  rfl

/-- Linking an event behind the head changes only the node that was the head, as long as nothing is
given up for it. -/
theorem node_widen_extend {w : Window α} (isOpen : w.closed = false) (event : α) {j : Nat}
    (h : j ≤ w.events.length) :
    (w.extend event).widen.node j =
      if j = w.events.length then { w.node j with next := some (j + 1), ready := true }
      else w.node j := by
  have sameLost : (w.extend event).widen.lost j = w.lost j := by
    simp [lost, isOpen]
    omega
  have sameEvent := carried_append event h
  by_cases head : j = w.events.length
  · have headStays : w.lost j = false := by simp [lost, isOpen, head]
    simp only [node, sameLost, headStays, extend_events, widen_events, sameEvent]
    simp [head]
  · have before : j < w.events.length := by omega
    simp only [node, sameLost, extend_events, widen_events, sameEvent]
    simp [head, before, Nat.lt_succ_of_lt before]

/-- The new node carries the event and waits for its successor. -/
theorem node_extend_new {w : Window α} (isOpen : w.closed = false) (event : α) :
    (w.extend event).widen.node (w.events.length + 1) = Chain.freshNode (some event) := by
  simp [node, carried, lost, isOpen, Chain.freshNode]

/-- Taking back the room for one event gives up the oldest node. -/
theorem node_of_widen {w : Window α} (isOpen : w.closed = false) (j : Nat) :
    w.node j =
      if j + (w.capacity + 1) = w.events.length then
        { w.widen.node j with evicted := true, next := none }
      else w.widen.node j := by
  by_cases oldest : j + (w.capacity + 1) = w.events.length
  · have gone : w.lost j = true := by simp [lost]; omega
    simp only [oldest, if_true, node, gone]
    rfl
  · have sameLost : w.widen.lost j = w.lost j := by
      rw [Bool.eq_iff_iff, lost_iff, lost_iff]
      simp only [isOpen, widen_closed, widen_capacity, widen_events, Bool.false_eq_true, false_or]
      omega
    simp only [oldest, if_false, node, sameLost]
    rfl

/-- Extending an open chain links a new node behind the head and changes nothing else. -/
theorem extend_chain {w : Window α} (isOpen : w.closed = false) (event : α) :
    w.chain.extend event =
      .ok { (w.extend event).widen.chain with tail := w.chain.tail, length := w.chain.length } := by
  have waiting : w.chain.isReady w.events.length = false := by
    simp [isReady_chain (Nat.le_refl _), isOpen]
  have unlinked : w.chain.next? w.events.length = none := by
    simp [next?_chain (Nat.le_refl _)]
  have nodes : ((w.chain.nodes.push (Chain.freshNode (some event))).modify w.events.length
      fun n => { n with next := some (w.events.length + 1) }).modify w.events.length
      (fun n => { n with ready := true }) = (w.extend event).widen.chain.nodes := by
    refine Array.ext_getElem? fun j => ?_
    rw [Array.getElem?_modify, Array.getElem?_modify, Array.getElem?_push, chain_size,
      chain_node?, chain_node?]
    obtain old | rfl | beyond := Nat.lt_trichotomy j (w.events.length + 1)
    · rw [node_widen_extend isOpen event (Nat.le_of_lt_succ old)]
      by_cases head : j = w.events.length
      · simp [head]
      · simp [head, Nat.ne_of_lt old, Nat.le_of_lt_succ old, Nat.le_of_lt old, Ne.symm head]
    · simp [node_extend_new isOpen event]
    · simp [Nat.ne_of_gt beyond, Nat.not_le_of_gt beyond, show ¬ j ≤ w.events.length by omega]
  simp only [Chain.extend, chain_head, waiting, unlinked, Chain.release, Chain.modify, chain_size,
    Option.isSome_none, Bool.or_self, Bool.false_eq_true, if_false, nodes]
  simp [chain]

/-- Giving up the oldest node of a chain that holds one event too many. -/
theorem evict_widen_chain {w : Window α} (isOpen : w.closed = false)
    (full : w.capacity < w.events.length) :
    { w.widen.chain.evict (w.events.length - (w.capacity + 1)) with
      tail := w.events.length - w.capacity, length := w.capacity } = w.chain := by
  refine eq_chain (fun j => ?_) rfl (by simp [isOpen]) (by simp [isOpen]; omega) rfl
  simp only [Chain.evict, Chain.modify, Array.getElem?_modify, chain_node?, widen_events]
  by_cases present : j ≤ w.events.length
  · rw [node_of_widen isOpen j]
    by_cases oldest : w.events.length - (w.capacity + 1) = j
    · simp [present, oldest, show j + (w.capacity + 1) = w.events.length by omega]
    · simp [present, oldest, show ¬ j + (w.capacity + 1) = w.events.length by omega]
  · simp [present]

/-- As long as there is room, a chain is the same with more room. -/
theorem widen_chain {w : Window α} (isOpen : w.closed = false)
    (fits : w.events.length ≤ w.capacity) :
    w.widen.chain = w.chain := by
  refine eq_chain (fun j => ?_) rfl (by simp [chain, isOpen]; omega)
    (by simp [chain, isOpen]; omega) rfl
  rw [chain_node?, node_of_widen isOpen j, if_neg (show ¬ j + (w.capacity + 1) = _ by omega)]
  rfl

/-- Appending to the chain of a log lays out the longer log. -/
theorem append_chain (w : Window α) (event : α) :
    w.chain.append w.capacity event = (w.append event).map chain := by
  by_cases isOpen : w.closed = false
  swap
  · simp [Chain.append, append, isOpen, Except.map]
  have stillOpen : (w.extend event).closed = false := isOpen
  simp only [Chain.append, append, chain_closed, isOpen, extend_chain isOpen, Except.map, bind,
    Except.bind, pure, Except.pure, Bool.false_eq_true, if_false]
  by_cases fits : w.events.length < w.capacity
  · have short : w.chain.length < w.capacity := by simp [chain, isOpen]; omega
    rw [if_pos short, widen_chain stillOpen (by simpa using fits)]
    simp [chain, isOpen]
    omega
  · have long : ¬ w.chain.length < w.capacity := by simp [chain, isOpen]; omega
    have tail : w.chain.tail = w.events.length - w.capacity := by simp [chain, isOpen]
    have linked : (w.extend event).widen.chain.next? w.chain.tail = some (w.chain.tail + 1) := by
      rw [next?_chain (by simp [tail]; omega)]
      simp [lost, isOpen, tail]
      omega
    rw [if_neg long]
    simp only [Chain.next?] at linked ⊢
    rw [linked]
    rw [← evict_widen_chain stillOpen (by simp; omega)]
    simp [Chain.evict, Chain.modify, chain, isOpen]
    omega

/-- From a node of a chain on, as many nodes can be met as there are links. -/
theorem path_chain {w : Window α} (isOpen : w.closed = false) {i fuel : Nat}
    (kept : w.lost i = false) (h : i ≤ w.events.length) (enough : w.events.length - i ≤ fuel) :
    w.chain.path fuel i = List.range' i (w.events.length - i + 1) := by
  induction fuel generalizing i with
  | zero =>
      rw [show w.events.length - i = 0 by omega]
      rfl
  | succ fuel ih =>
      rw [Chain.path, next?_chain h, kept]
      by_cases last : i = w.events.length
      · simp [last]
      · have further : w.lost (i + 1) = false :=
          lost_eq_false.2 ⟨isOpen, by have := (lost_eq_false.1 kept).2; omega⟩
        rw [show w.events.length - i + 1 = (w.events.length - (i + 1) + 1) + 1 by omega,
          List.range'_succ]
        simp [show i < w.events.length by omega,
          ih further (by omega) (by omega)]

/-- The nodes of an open chain from the tail to the head. -/
theorem live_chain {w : Window α} (isOpen : w.closed = false) :
    w.chain.live =
      List.range' (w.events.length - w.capacity) (min w.events.length w.capacity + 1) := by
  have tail : w.chain.tail = w.events.length - w.capacity := by simp [chain, isOpen]
  have kept : w.lost w.chain.tail = false := lost_eq_false.2 ⟨isOpen, by omega⟩
  rw [Chain.live, path_chain isOpen kept (by omega) (by rw [chain_size]; omega), tail]
  congr 1
  omega

/-- Evicting a list of nodes touches exactly those nodes. -/
theorem foldl_evict_nodes (c : Chain α) (is : List Nat) (j : Nat) :
    (is.foldl Chain.evict c).nodes[j]? =
      if j ∈ is then (c.nodes[j]?).map fun n => { n with evicted := true, next := none }
      else c.nodes[j]? := by
  induction is generalizing c with
  | nil => simp
  | cons i is ih =>
      rw [List.foldl_cons, ih]
      simp only [Chain.evict, Chain.modify, Array.getElem?_modify, List.mem_cons]
      by_cases hi : i = j
      · subst hi
        cases c.nodes[i]? <;> simp
      · simp [hi, Ne.symm hi]

theorem foldl_evict_head (c : Chain α) (is : List Nat) :
    (is.foldl Chain.evict c).head = c.head := by
  induction is generalizing c with
  | nil => rfl
  | cons i is ih => exact ih (c.evict i)

/-- At the end every node is given up, and nobody waits any longer. -/
theorem node_close (w : Window α) (j : Nat) :
    w.close.node j = ⟨carried w.events j, none, true, true⟩ := by
  simp [node, close, lost]

/-- Ending the chain of a log lays out the ended log. -/
theorem close_chain (w : Window α) : w.chain.close = w.close.chain := by
  by_cases isOpen : w.closed = false
  swap
  · have ended : w.closed = true := by simpa using isOpen
    have same : w.close = w := by
      cases w
      simp_all [close]
    simp [Chain.close, ended, same]
  rw [Chain.close, if_neg (by simp [isOpen]), live_chain isOpen]
  refine eq_chain (fun j => ?_) ?_ ?_ rfl rfl
  · simp only [Chain.release, Chain.modify, Array.getElem?_modify, foldl_evict_nodes,
      foldl_evict_head, chain_head, chain_node?, List.mem_range'_1]
    by_cases present : j ≤ w.events.length
    swap
    · simp [present, close]
    rw [if_pos (show j ≤ w.close.events.length from present), node_close]
    by_cases live : w.events.length - w.capacity ≤ j
    · have inside : j < w.events.length - w.capacity + (min w.events.length w.capacity + 1) := by
        omega
      rw [if_pos (⟨live, inside⟩ : _ ∧ _), if_pos present]
      by_cases head : w.events.length = j
      · simp [head, node]
      · simp [head, node, show j < w.events.length by omega]
    · have gone : w.lost j = true := lost_iff.2 (.inr (by omega))
      simp [present, live, node, gone, show j < w.events.length by omega,
        show ¬ w.events.length = j by omega]
  · simp [Chain.release, Chain.modify, foldl_evict_head, close]
  · simp [Chain.release, Chain.modify, foldl_evict_head, close]

/-- What a reader gets that waits at a node, said of the log. -/
theorem await?_chain {w : Window α} {p : Nat} (h : p ≤ w.events.length) (cancelled : Bool) :
    w.chain.await? p cancelled = (w.await? p cancelled).map (·.map fun e => (e, p + 1)) := by
  rw [Chain.await?, await?, isReady_chain h, isEvicted_chain h, next?_chain h]
  cases cancelled with
  | true => rfl
  | false =>
      by_cases gone : w.lost p = true
      · have ready : (w.closed || decide (p < w.events.length)) = true := by
          obtain ended | behind := lost_iff.1 gone
          · simp [ended]
          · simp [show p < w.events.length by omega]
        simp [gone, ready, Except.map]
      · have isOpen : w.closed = false := (lost_eq_false.1 (by simpa using gone)).1
        by_cases present : p < w.events.length
        · simp [gone, present, event?_chain_succ present, Except.map]
        · simp [gone, isOpen, present]

/-- What a reader gets that arrives at a node, said of the log. -/
theorem read?_chain {w : Window α} {p : Nat} (h : p ≤ w.events.length) (cancelled : Bool) :
    w.chain.read? p cancelled = (w.poll? p cancelled).map (·.map fun e => (e, p + 1)) := by
  rw [Chain.read?, poll?, isEvicted_chain h, await?_chain h, await?]
  cases w.lost p <;> rfl

end Window

end Roomcast.Room

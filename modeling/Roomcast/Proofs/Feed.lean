import Roomcast.Proofs.Tables
import Roomcast.Store

/-!
# Feeds as positions in a log

A channel of a given size is determined by the values that were sent through it: slot `k` holds the
latest value whose number leaves the remainder `k`. A feed of the store is then no more than a
position in the log of its room. Reading moves the position by one over the event that stands there;
a feed that lagged jumps to the oldest event that the channel still holds, and says by how many
events; there is nothing to read at the end of the log as long as the channel lasts.
-/

namespace Roomcast.Store

namespace Channel

variable {α : Type}

/-- What slot `k` holds when certain values have been sent. -/
def slot (size : Nat) (values : List α) (k : Nat) : Option (Nat × α) :=
  if k < values.length then
    let j := k + size * ((values.length - 1 - k) / size)
    (values[j]?).map fun value => (j, value)
  else none

/-- The channel through which certain values have been sent. -/
def carrying (size : Nat) (values : List α) (live : Bool) : Channel α :=
  ⟨(Array.range size).map (slot size values), values.length, live⟩

@[simp] theorem carrying_sent (size : Nat) (values : List α) (live : Bool) :
    (carrying size values live).sent = values.length := rfl

@[simp] theorem carrying_live (size : Nat) (values : List α) (live : Bool) :
    (carrying size values live).live = live := rfl

@[simp] theorem carrying_size (size : Nat) (values : List α) (live : Bool) :
    (carrying size values live).size = size := by
  simp [carrying, Channel.size]

theorem ofSize_eq (size : Nat) : (ofSize size : Channel α) = carrying size [] true := by
  have empty : (Array.range size).map (slot size ([] : List α)) = Array.replicate size none := by
    refine Array.ext_getElem? fun k => ?_
    by_cases inside : k < size <;> simp [slot, inside]
  rw [ofSize, carrying, empty]
  rfl

/-- Among the last `size` values there is one with number `k` modulo `size`. -/
theorem exists_latest {size n k : Nat} (small : k < size) (sent : k < n) :
    ∃ j, j % size = k ∧ j < n ∧ n ≤ j + size := by
  have positive : 0 < size := by omega
  refine ⟨k + size * ((n - 1 - k) / size), ?_, ?_, ?_⟩
  · rw [Nat.add_mul_mod_self_left, Nat.mod_eq_of_lt small]
  · have := Nat.mul_div_le (n - 1 - k) size
    omega
  · have := Nat.lt_mul_div_succ (n - 1 - k) positive
    rw [Nat.mul_add] at this
    omega

/-- The last `size` values are in the slots to which their numbers lead. -/
theorem slot_mod {size : Nat} {values : List α} {j : Nat} (sent : j < values.length)
    (recent : values.length ≤ j + size) :
    slot size values (j % size) = some (j, values[j]) := by
  have positive : 0 < size := by omega
  have split := Nat.mod_add_div j size
  have before : j % size ≤ j := Nat.mod_le j size
  have turns : (values.length - 1 - j % size) / size = j / size := by
    refine Nat.div_eq_of_lt_le ?_ ?_
    · rw [Nat.mul_comm]
      omega
    · rw [Nat.succ_mul, Nat.mul_comm]
      omega
  simp only [slot, turns, split, if_pos (Nat.lt_of_le_of_lt before sent)]
  simp [sent]

theorem getElem?_carrying {size : Nat} (values : List α) (live : Bool) {k : Nat}
    (small : k < size) :
    (carrying size values live).slots[k]? = some (slot size values k) := by
  simp [carrying, small]

/-- Sending a value appends it. -/
theorem send_carrying {size : Nat} (positive : 0 < size) (values : List α) (live : Bool)
    (value : α) :
    (carrying size values live).send value = carrying size (values ++ [value]) live := by
  have slots : ((Array.range size).map (slot size values)).setIfInBounds (values.length % size)
      (some (values.length, value)) = (Array.range size).map (slot size (values ++ [value])) := by
    refine Array.ext_getElem? fun k => ?_
    rw [Array.getElem?_setIfInBounds]
    by_cases small : k < size
    swap
    · have : values.length % size < size := Nat.mod_lt _ positive
      simp [small, show values.length % size ≠ k by omega]
    by_cases here : values.length % size = k
    · have new : slot size (values ++ [value]) (values.length % size) =
          some (values.length, value) := by
        rw [slot_mod (by simp) (by simp; omega)]
        simp
      rw [here] at new
      simp [here, small, new]
    · suffices same : slot size values k = slot size (values ++ [value]) k by
        simp [here, small, same]
      by_cases sent : k < values.length
      · obtain ⟨j, rfl, before, recent⟩ := exists_latest small sent
        have later : values.length ≠ j + size := by
          intro eq
          rw [eq, Nat.add_mod_right] at here
          exact here rfl
        rw [slot_mod before recent, slot_mod (by simp; omega) (by simp; omega)]
        simp [before]
      · have : k ≠ values.length := by
          intro eq
          rw [← eq, Nat.mod_eq_of_lt small] at here
          exact here rfl
        simp [slot, sent, show ¬ k < values.length + 1 by omega]
  rw [send, carrying_size, carrying_sent]
  simp only [carrying, slots, List.length_append, List.length_singleton]

/-- A receiver that is at most `size` values behind gets the next one. -/
theorem receive_item {size : Nat} {values : List α} (live : Bool) {next : Nat}
    (sent : next < values.length) (recent : values.length ≤ next + size) :
    (carrying size values live).receive next = (next + 1, .item values[next]) := by
  have small : next % size < size := Nat.mod_lt _ (by omega)
  rw [receive, carrying_size, getElem?_carrying values live small, slot_mod sent recent]
  simp

/-- A receiver that is further behind learns how many values it has lost, and goes on with the
oldest that is still there. -/
theorem receive_lagged {size : Nat} (positive : 0 < size) {values : List α} (live : Bool)
    {next : Nat} (behind : next + size < values.length) :
    (carrying size values live).receive next =
      (values.length - size, .lagged (values.length - size - next)) := by
  have small : next % size < size := Nat.mod_lt _ positive
  have before : next % size ≤ next := Nat.mod_le _ _
  obtain ⟨j, same, sent, recent⟩ := exists_latest (n := values.length) small (by omega)
  have holds := slot_mod sent recent
  rw [same] at holds
  rw [receive, carrying_size, getElem?_carrying values live small, holds]
  simp [show j ≠ next by omega, show next < j by omega]

/-- A receiver that has got every value waits, unless the channel has ended. -/
theorem receive_end {size : Nat} (positive : 0 < size) (values : List α) (live : Bool) :
    (carrying size values live).receive values.length =
      (values.length, if live then .pending else .ended) := by
  have small : values.length % size < size := Nat.mod_lt _ positive
  rw [receive, carrying_size, getElem?_carrying values live small]
  by_cases full : values.length % size < values.length
  · obtain ⟨j, same, sent, recent⟩ := exists_latest small full
    have holds := slot_mod sent recent
    rw [same] at holds
    rw [holds]
    cases live <;> simp [show j ≠ values.length by omega, show ¬ values.length < j by omega]
  · cases live <;> simp [slot, full]

end Channel

def ringSize (s : Store) : Nat := s.capacity.nextPowerOfTwo

theorem ringSize_pos (s : Store) : 0 < s.ringSize :=
  Nat.pos_of_isPowerOfTwo (Nat.isPowerOfTwo_nextPowerOfTwo _)

section Logs

variable (s : Store) (room : Uuid) (log : Log)

theorem log?_setLog (other : Uuid) :
    (s.setLog room log).log? other = if other = room then some log else s.log? other := by
  rw [log?, setLog, List.lookup_cons, lookup_filter_ne]
  by_cases same : other = room
  · simp [same]
  · simp [same, show (other == room) = false from beq_false_of_ne same, log?]

@[simp] theorem setLog_channels : (s.setLog room log).channels = s.channels := rfl

@[simp] theorem setLog_ringSize : (s.setLog room log).ringSize = s.ringSize := rfl

theorem fetch_setLog (other : Uuid) :
    (s.setLog room log).fetch other =
      if other = room then log.events.toList else s.fetch other := by
  rw [fetch]
  rw [log?_setLog]
  split_ifs <;> rfl

end Logs

/-- The channel of a room's log is open and carries the events that came since it was opened. No
other room uses it. -/
structure Sound (s : Store) : Prop where
  channel : ∀ room log c, s.log? room = some log → log.channel = some c →
    ∃ base ≤ log.events.size,
      s.channels[c]? = some (.carrying s.ringSize (log.events.toList.drop base) true)
  own : ∀ room room' log log' c, s.log? room = some log → s.log? room' = some log' →
    log.channel = some c → log'.channel = some c → room = room'

theorem empty_sound (capacity : Nat) : (Store.empty capacity).Sound := by
  constructor <;> simp [Store.empty, log?]

/-- A feed stands at position `p` of the log of its room: the events that its channel carries are a
stretch of the log, the feed has taken those before `p`, and as long as the channel lasts the
stretch goes up to the end of the log. -/
structure Feed.At (f : Feed) (s : Store) (p : Nat) : Prop where
  carries : ∃ base values live, base ≤ (s.fetch f.roomId).length ∧
    s.channels[f.channel]? = some (.carrying s.ringSize values live) ∧
    values <+: (s.fetch f.roomId).drop base ∧ f.next ≤ values.length ∧ p = base + f.next ∧
    (live = true → (s.log? f.roomId).bind (·.channel) = some f.channel ∧
      values = (s.fetch f.roomId).drop base)
  own : ∀ room log, s.log? room = some log → log.channel = some f.channel → room = f.roomId

theorem setLog_setLog (s : Store) (room : Uuid) (log log' : Log) :
    (s.setLog room log).setLog room log' = s.setLog room log' := by
  simp [setLog, List.filter_filter]

/-- A log of one room is replaced by one with the same events. -/
theorem fetch_setLog_same {s : Store} {room : Uuid} (log : Log)
    (same : log.events.toList = s.fetch room) (other : Uuid) :
    (s.setLog room log).fetch other = s.fetch other := by
  rw [fetch_setLog]
  split_ifs with h
  · rw [same, h]
  · rfl

theorem fetch_of_log {s : Store} {room : Uuid} {log : Log} (found : s.log? room = some log) :
    s.fetch room = log.events.toList := by
  simp [fetch, found]

theorem fetch_of_none {s : Store} {room : Uuid} (none : s.log? room = none) :
    s.fetch room = [] := by
  simp [fetch, none]

def withChannel (s : Store) : Store :=
  { s with channels := s.channels.push (.carrying s.ringSize [] true) }

@[simp] theorem withChannel_ringSize (s : Store) : s.withChannel.ringSize = s.ringSize := rfl

@[simp] theorem withChannel_log? (s : Store) (room : Uuid) :
    s.withChannel.log? room = s.log? room := rfl

theorem withChannel_channel? {s : Store} {c : Nat} (old : c < s.channels.size) :
    s.withChannel.channels[c]? = s.channels[c]? := by
  rw [withChannel, Array.getElem?_push, if_neg (Nat.ne_of_lt old)]

theorem withChannel_new (s : Store) :
    s.withChannel.channels[s.channels.size]? = some (.carrying s.ringSize [] true) := by
  simp [withChannel]

/-- A channel that is opened is empty, and comes after all others. -/
theorem openChannel?_eq {s s' : Store} {c : Nat} (opened : s.openChannel? = some (s', c)) :
    c = s.channels.size ∧ s' = s.withChannel := by
  rw [openChannel?] at opened
  split_ifs at opened
  obtain ⟨rfl, rfl⟩ := Prod.mk.inj (Option.some.inj opened)
  exact ⟨rfl, by rw [Channel.ofSize_eq]; rfl⟩

/-- A feed keeps its position when its channel stays, its room's log grows only if the channel has
ended, and no other room gets hold of the channel. -/
theorem Feed.At.frame {f : Feed} {s s' : Store} {p : Nat} (h : f.At s p)
    (size : s'.capacity = s.capacity)
    (channel : s'.channels[f.channel]? = s.channels[f.channel]?)
    (grown : s.fetch f.roomId <+: s'.fetch f.roomId)
    (live : (s.log? f.roomId).bind (·.channel) = some f.channel →
      (s'.log? f.roomId).bind (·.channel) = some f.channel ∧ s'.fetch f.roomId = s.fetch f.roomId)
    (own : ∀ room log', s'.log? room = some log' → log'.channel = some f.channel →
      room = f.roomId ∨ ∃ log, s.log? room = some log ∧ log.channel = some f.channel) :
    f.At s' p := by
  obtain ⟨base, values, isLive, inside, there, stretch, taken, here, current⟩ := h.carries
  refine ⟨⟨base, values, isLive, inside.trans grown.length_le, ?_,
    stretch.trans (List.IsPrefix.drop grown base), taken, here, fun alive => ?_⟩, ?_⟩
  · rw [channel, there, ringSize, ringSize, size]
  · obtain ⟨still, all⟩ := current alive
    obtain ⟨still', same⟩ := live still
    exact ⟨still', by rw [same]; exact all⟩
  · intro room log' found uses
    obtain same | ⟨log, old, used⟩ := own room log' found uses
    · exact same
    · exact h.own room log old used

/-- The new store is sound, and every feed stands where it stood. -/
structure Keeps (s s' : Store) : Prop where
  sound : s'.Sound
  feeds : ∀ (f : Feed) (p : Nat), f.At s p → f.At s' p

theorem Keeps.trans {s s' s'' : Store} (h : Keeps s s') (h' : Keeps s' s'') : Keeps s s'' :=
  ⟨h'.sound, fun f p there => h'.feeds f p (h.feeds f p there)⟩

theorem Sound.channel_lt {s : Store} (h : s.Sound) {room : Uuid} {log : Log} {c : Nat}
    (found : s.log? room = some log) (uses : log.channel = some c) : c < s.channels.size := by
  obtain ⟨base, _, there⟩ := h.channel room log c found uses
  exact (Array.getElem?_eq_some_iff.1 there).1

theorem Feed.At.channel_lt {f : Feed} {s : Store} {p : Nat} (h : f.At s p) :
    f.channel < s.channels.size := by
  obtain ⟨base, values, isLive, _, there, _⟩ := h.carries
  exact (Array.getElem?_eq_some_iff.1 there).1

/-- Writing a log back changes nothing. -/
theorem Sound.rewrite {s : Store} {room : Uuid} {log : Log} (h : s.Sound)
    (known : s.log? room = some log) : Keeps s (s.setLog room log) := by
  have same : ∀ other, (s.setLog room log).log? other = s.log? other := by
    intro other
    rw [log?_setLog]
    split_ifs with h
    · rw [h, known]
    · rfl
  have fetched := fetch_setLog_same log (fetch_of_log known).symm
  refine ⟨⟨?_, ?_⟩, fun f p there => ?_⟩
  · intro other log' c found uses
    rw [same] at found
    exact h.channel other log' c found uses
  · intro r r' l l' c found found'
    rw [same] at found found'
    exact h.own r r' l l' c found found'
  · refine there.frame rfl rfl ?_ ?_ ?_
    · rw [fetched]
    · intro current
      exact ⟨by rw [same]; exact current, fetched _⟩
    · intro other log' found uses
      rw [same] at found
      exact .inr ⟨log', found, uses⟩

/-- A log without a channel gets a new one. -/
theorem Sound.attach {s : Store} {room : Uuid} (h : s.Sound) (events : Array Event)
    (same : events.toList = s.fetch room)
    (detached : ∀ log, s.log? room = some log → log.channel = none) :
    Keeps s (s.withChannel.setLog room ⟨events, some s.channels.size⟩) := by
  have logs := log?_setLog s.withChannel room ⟨events, some s.channels.size⟩
  have fetched : ∀ other, _ = s.fetch other := fetch_setLog_same (s := s.withChannel)
    ⟨events, some s.channels.size⟩ same
  simp only [withChannel_log?] at logs
  refine ⟨⟨?_, ?_⟩, fun f p there => ?_⟩
  · intro other log c found uses
    rw [logs] at found
    rw [setLog_channels, setLog_ringSize, withChannel_ringSize]
    split_ifs at found with here
    · obtain rfl := Option.some.inj found
      obtain rfl := Option.some.inj uses
      refine ⟨events.size, Nat.le_refl _, ?_⟩
      rw [withChannel_new, List.drop_eq_nil_of_le (by simp)]
    · obtain ⟨base, inside, there⟩ := h.channel other log c found uses
      exact ⟨base, inside, (withChannel_channel? (h.channel_lt found uses)).trans there⟩
  · intro r r' l l' c found found' uses uses'
    rw [logs] at found found'
    split_ifs at found found' with here here'
    · rw [here, here']
    · obtain rfl := Option.some.inj found
      obtain rfl := Option.some.inj uses
      exact absurd (h.channel_lt found' uses') (Nat.lt_irrefl _)
    · obtain rfl := Option.some.inj found'
      obtain rfl := Option.some.inj uses'
      exact absurd (h.channel_lt found uses) (Nat.lt_irrefl _)
    · exact h.own r r' l l' c found found' uses uses'
  · refine there.frame rfl (withChannel_channel? there.channel_lt) ?_ ?_ ?_
    · rw [fetched]
    · intro current
      obtain ⟨log, found, uses⟩ := Option.bind_eq_some_iff.1 current
      have elsewhere : f.roomId ≠ room := by
        intro here
        rw [here] at found
        rw [detached log found] at uses
        cases uses
      exact ⟨by rw [logs, if_neg elsewhere]; exact current, fetched _⟩
    · intro other log found uses
      rw [logs] at found
      split_ifs at found with here
      · obtain rfl := Option.some.inj found
        have new := Option.some.inj uses
        exact absurd (new ▸ there.channel_lt) (Nat.lt_irrefl _)
      · exact .inr ⟨log, found, uses⟩

/-- What is kept of a room from the first call on. -/
theorem Sound.logOf? {s s' : Store} {room : Uuid} {log : Log} (h : s.Sound)
    (got : s.logOf? room = some (s', log)) :
    Keeps s (s'.setLog room log) ∧
      ∀ other, (s'.setLog room log).fetch other = s.fetch other := by
  rw [Store.logOf?] at got
  cases known : s.log? room with
  | some log' =>
      rw [known] at got
      obtain ⟨rfl, rfl⟩ := Prod.mk.inj (Option.some.inj got)
      exact ⟨h.rewrite known, fetch_setLog_same _ (fetch_of_log known).symm⟩
  | none =>
      rw [known] at got
      obtain ⟨⟨s₁, c⟩, opened, eq⟩ := Option.map_eq_some_iff.1 got
      obtain ⟨rfl, rfl⟩ := openChannel?_eq opened
      obtain ⟨rfl, rfl⟩ := Prod.mk.inj eq
      have nothing : (#[] : Array Event).toList = s.fetch room := (fetch_of_none known).symm
      refine ⟨h.attach _ nothing fun log found => ?_,
        fetch_setLog_same (s := s.withChannel) _ nothing⟩
      rw [known] at found
      cases found

/-- Appends an event to the log of a room and sends it to the feeds. -/
def push (s : Store) (room : Uuid) (log : Log) (e : Event) : Store :=
  let s := s.setLog room { log with events := log.events.push e }
  match log.channel with
  | none => s
  | some channel => { s with channels := s.channels.modify channel (·.send e) }

section Push

variable (s : Store) (room : Uuid) (log : Log) (e : Event)

theorem push_log? (other : Uuid) :
    (s.push room log e).log? other =
      if other = room then some { log with events := log.events.push e } else s.log? other := by
  rw [push]
  cases log.channel <;> exact log?_setLog _ _ _ _

theorem push_channel? (c : Nat) :
    (s.push room log e).channels[c]? =
      if log.channel = some c then (s.channels[c]?).map (·.send e) else s.channels[c]? := by
  rw [push]
  cases log.channel with
  | none => rfl
  | some c' =>
      rw [show (_ : Store).channels = s.channels.modify c' (·.send e) from rfl,
        Array.getElem?_modify]
      by_cases same : c' = c <;> simp [same]

@[simp] theorem push_ringSize : (s.push room log e).ringSize = s.ringSize := by
  rw [push]
  cases log.channel <;> rfl

end Push

theorem push_fetch {s : Store} {room : Uuid} {log : Log} (known : s.log? room = some log)
    (e : Event) (other : Uuid) :
    (s.push room log e).fetch other =
      if other = room then s.fetch room ++ [e] else s.fetch other := by
  rw [fetch, push_log?, fetch_of_log known]
  split_ifs <;> simp [fetch]

/-- The event is at the end of its room's log, and feeds keep their positions. -/
theorem Sound.push {s : Store} {room : Uuid} {log : Log} (h : s.Sound)
    (known : s.log? room = some log) (e : Event) : Keeps s (s.push room log e) := by
  have fetched := push_fetch known e
  have old := fetch_of_log known
  have own : ∀ other log' c, (s.push room log e).log? other = some log' → log'.channel = some c →
      ∃ log, s.log? other = some log ∧ log.channel = some c := by
    intro other log' c found uses
    rw [push_log?] at found
    split_ifs at found with here
    · obtain rfl := Option.some.inj found
      exact ⟨log, here ▸ known, uses⟩
    · exact ⟨log', found, uses⟩
  -- The channel of the room goes on carrying what its log has from the same place on.
  have sent : ∀ c, log.channel = some c → ∃ base ≤ log.events.size,
      (s.push room log e).channels[c]? =
        some (.carrying s.ringSize ((log.events.toList ++ [e]).drop base) true) := by
    intro c uses
    obtain ⟨base, inside, there⟩ := h.channel room log c known uses
    refine ⟨base, inside, ?_⟩
    rw [push_channel?, if_pos uses, there, Option.map_some,
      Channel.send_carrying s.ringSize_pos, List.drop_append_of_le_length (by simpa using inside)]
  refine ⟨⟨?_, ?_⟩, fun f p there => ?_⟩
  · intro other log' c found uses
    rw [push_log?] at found
    rw [push_ringSize]
    split_ifs at found with here
    · obtain rfl := Option.some.inj found
      obtain ⟨base, inside, carries⟩ := sent c uses
      exact ⟨base, by simpa using Nat.le_succ_of_le inside, by simpa using carries⟩
    · obtain ⟨base, inside, carries⟩ := h.channel other log' c found uses
      refine ⟨base, inside, ?_⟩
      rw [push_channel?, if_neg fun shared => here (h.own other room log' log c found known uses
        shared)]
      exact carries
  · intro r r' l l' c found found' uses uses'
    obtain ⟨k, known₁, uses₁⟩ := own r l c found uses
    obtain ⟨k', known₂, uses₂⟩ := own r' l' c found' uses'
    exact h.own r r' k k' c known₁ known₂ uses₁ uses₂
  by_cases uses : log.channel = some f.channel
  · have here : room = f.roomId := there.own room log known uses
    obtain ⟨base, values, isLive, inside, carries, stretch, taken, at_, current⟩ := there.carries
    have alive : isLive = true := by
      obtain ⟨_, _, carries'⟩ := h.channel room log f.channel known uses
      exact congrArg Channel.live (Option.some.inj (carries.symm.trans carries'))
    obtain ⟨_, all⟩ := current alive
    have longer : (s.push room log e).fetch f.roomId = s.fetch f.roomId ++ [e] := by
      rw [fetched, if_pos here.symm, here]
    have values' : values ++ [e] = (s.fetch f.roomId ++ [e]).drop base := by
      rw [all, List.drop_append_of_le_length inside]
    refine ⟨⟨base, values ++ [e], isLive, ?_, ?_, ?_, ?_, at_, fun _ => ⟨?_, ?_⟩⟩, ?_⟩
    · rw [longer, List.length_append]
      exact Nat.le_add_right_of_le inside
    · rw [push_channel?, if_pos uses, carries, Option.map_some,
        Channel.send_carrying s.ringSize_pos, push_ringSize]
    · rw [longer, values']
    · rw [List.length_append]
      exact Nat.le_add_right_of_le taken
    · rw [push_log?, if_pos here.symm]
      exact uses
    · rw [longer, values']
    · intro other log' found uses'
      obtain ⟨log'', found', uses''⟩ := own other log' _ found uses'
      exact there.own other log'' found' uses''
  · refine there.frame ?_ ?_ ?_ ?_ fun other log' found uses' => .inr (own other log' _ found uses')
    · rw [Store.push]
      cases log.channel <;> rfl
    · rw [push_channel?, if_neg uses]
    · rw [fetched]
      split_ifs with here
      · rw [← here]
        exact List.prefix_append _ _
      · exact List.prefix_refl _
    · intro current
      obtain ⟨log', found, uses'⟩ := Option.bind_eq_some_iff.1 current
      have elsewhere : f.roomId ≠ room := by
        intro here
        rw [here, known] at found
        exact uses (Option.some.inj found ▸ uses')
      exact ⟨by rw [push_log?, if_neg elsewhere]; exact current,
        by rw [fetched, if_neg elsewhere]⟩

/-- An event that is stored is at the end of its room's log. -/
theorem Sound.emit? {s s' : Store} {e : Event} (h : s.Sound) (stored : s.emit? e = some s') :
    Keeps s s' ∧
      ∀ room, s'.fetch room = if room = e.roomId then s.fetch room ++ [e] else s.fetch room := by
  obtain ⟨⟨s₁, log⟩, got, rfl⟩ := Option.map_eq_some_iff.1 stored
  obtain ⟨keeps, fetched⟩ := h.logOf? got
  have known : (s₁.setLog e.roomId log).log? e.roomId = some log := by
    rw [log?_setLog, if_pos rfl]
  have pushed : (s₁.setLog e.roomId log).push e.roomId log e = s₁.push e.roomId log e := by
    simp only [Store.push, setLog_setLog]
  have both := keeps.sound.push known e
  have after := push_fetch known e
  rw [pushed] at both after
  refine ⟨keeps.trans both, fun room => (after room).trans ?_⟩
  rw [fetched, fetched]
  by_cases here : room = e.roomId <;> simp [here]

section CloseRoom

variable {s : Store} {room : Uuid} {log : Log} (known : s.log? room = some log)
include known

theorem closeRoom_log? (other : Uuid) :
    (s.closeRoom room).log? other =
      if other = room then some { log with channel := none } else s.log? other := by
  rw [closeRoom]
  rw [known]
  dsimp only
  cases log.channel <;> exact log?_setLog _ _ _ _

theorem closeRoom_channel? (c : Nat) :
    (s.closeRoom room).channels[c]? =
      if log.channel = some c then (s.channels[c]?).map (·.finish) else s.channels[c]? := by
  rw [closeRoom]
  rw [known]
  dsimp only
  cases log.channel with
  | none => rfl
  | some c' =>
      rw [show (_ : Store).channels = s.channels.modify c' (·.finish) from rfl,
        Array.getElem?_modify]
      by_cases same : c' = c <;> simp [same]

theorem closeRoom_ringSize : (s.closeRoom room).ringSize = s.ringSize := by
  rw [closeRoom]
  rw [known]
  dsimp only
  cases log.channel <;> rfl

theorem closeRoom_fetch (other : Uuid) : (s.closeRoom room).fetch other = s.fetch other := by
  rw [fetch, closeRoom_log? known]
  split_ifs with here
  · rw [here, fetch_of_log known]
    rfl
  · rfl

end CloseRoom

/-- A room's feeds end; its log stays. -/
theorem Sound.closeRoom {s : Store} (h : s.Sound) (room : Uuid) :
    Keeps s (s.closeRoom room) ∧ ∀ other, (s.closeRoom room).fetch other = s.fetch other := by
  cases known : s.log? room with
  | none =>
      have same : s.closeRoom room = s := by simp [Store.closeRoom, known]
      rw [same]
      exact ⟨⟨h, fun f p there => there⟩, fun other => rfl⟩
  | some log =>
      refine ⟨⟨⟨?_, ?_⟩, fun f p there => ?_⟩, closeRoom_fetch known⟩
      · intro other log' c found uses
        rw [closeRoom_log? known] at found
        split_ifs at found with here
        · obtain rfl := Option.some.inj found
          cases uses
        · obtain ⟨base, inside, carries⟩ := h.channel other log' c found uses
          refine ⟨base, inside, ?_⟩
          rw [closeRoom_channel? known, closeRoom_ringSize known,
            if_neg fun shared => here (h.own other room log' log c found known uses shared)]
          exact carries
      · intro r r' l l' c found found' uses uses'
        rw [closeRoom_log? known] at found found'
        by_cases here : r = room
        · rw [if_pos here] at found
          obtain rfl := Option.some.inj found
          cases uses
        · by_cases here' : r' = room
          · rw [if_pos here'] at found'
            obtain rfl := Option.some.inj found'
            cases uses'
          · rw [if_neg here] at found
            rw [if_neg here'] at found'
            exact h.own r r' l l' c found found' uses uses'
      · have own : ∀ other log', (s.closeRoom room).log? other = some log' →
            log'.channel = some f.channel → s.log? other = some log' ∧ other ≠ room := by
          intro other log' found uses
          rw [closeRoom_log? known] at found
          split_ifs at found with here
          · obtain rfl := Option.some.inj found
            cases uses
          · exact ⟨found, here⟩
        by_cases uses : log.channel = some f.channel
        · obtain ⟨base, values, isLive, inside, carries, stretch, taken, at_, _⟩ := there.carries
          refine ⟨⟨base, values, false, ?_, ?_, ?_, taken, at_, fun alive => by cases alive⟩, ?_⟩
          · rw [closeRoom_fetch known]
            exact inside
          · rw [closeRoom_channel? known, if_pos uses, carries, closeRoom_ringSize known]
            rfl
          · rw [closeRoom_fetch known]
            exact stretch
          · intro other log' found uses'
            exact there.own other log' (own other log' found uses').1 uses'
        · refine there.frame ?_ ?_ ?_ ?_ fun other log' found uses' =>
            .inr ⟨log', (own other log' found uses').1, uses'⟩
          · rw [Store.closeRoom]
            rw [known]
            dsimp only
            cases log.channel <;> rfl
          · rw [closeRoom_channel? known, if_neg uses]
          · rw [closeRoom_fetch known]
          · intro current
            obtain ⟨log', found, uses'⟩ := Option.bind_eq_some_iff.1 current
            have elsewhere : f.roomId ≠ room := by
              intro here
              rw [here, known] at found
              exact uses (Option.some.inj found ▸ uses')
            exact ⟨by rw [closeRoom_log? known, if_neg elsewhere]; exact current,
              closeRoom_fetch known _⟩

/-- A feed of a room's open channel that wants the next event to come stands at the end. -/
theorem Sound.at_end {s : Store} {room : Uuid} {log : Log} {c : Nat} (h : s.Sound)
    (known : s.log? room = some log) (uses : log.channel = some c) :
    Feed.At ⟨room, c, ((s.channels[c]?).map (·.sent)).getD 0, false⟩ s (s.fetch room).length := by
  obtain ⟨base, inside, carries⟩ := h.channel room log c known uses
  have old := fetch_of_log known
  refine ⟨⟨base, log.events.toList.drop base, true, ?_, carries, ?_, ?_, ?_, fun _ => ⟨?_, ?_⟩⟩, ?_⟩
  · rw [old]
    simpa using inside
  · rw [old]
  · simp [carries]
  · rw [carries, old]
    simp
    omega
  · rw [known]
    exact uses
  · rw [old]
  · intro other log' found uses'
    exact h.own other room log' log c found known uses' uses

/-- A feed that is opened stands at the end of its room's log. -/
theorem Sound.watch? {s s' : Store} {room : Uuid} {f : Feed} (h : s.Sound)
    (opened : s.watch? room = some (s', f)) :
    Keeps s s' ∧ (∀ other, s'.fetch other = s.fetch other) ∧
      f.roomId = room ∧ f.closed = false ∧ f.At s' (s.fetch room).length := by
  obtain ⟨⟨s₁, log⟩, got, rest⟩ := Option.bind_eq_some_iff.1 opened
  obtain ⟨keeps, fetched⟩ := h.logOf? got
  have known : (s₁.setLog room log).log? room = some log := by rw [log?_setLog, if_pos rfl]
  obtain ⟨⟨s₂, c⟩, chosen, eq⟩ := Option.map_eq_some_iff.1 rest
  obtain ⟨rfl, rfl⟩ := Prod.mk.inj eq
  cases uses : log.channel with
  | some c' =>
      rw [uses] at chosen
      obtain ⟨rfl, rfl⟩ := Prod.mk.inj (Option.some.inj chosen)
      have same : ({ log with channel := some c' } : Log) = log := by rw [← uses]
      rw [same]
      refine ⟨keeps, fetched, rfl, rfl, ?_⟩
      rw [← fetched room]
      exact keeps.sound.at_end known uses
  | none =>
      rw [uses] at chosen
      obtain ⟨rfl, rfl⟩ := openChannel?_eq chosen
      have old := fetch_of_log known
      have attached := keeps.sound.attach log.events old.symm fun log' found => by
        rw [known] at found
        exact Option.some.inj found ▸ uses
      have same : (s₁.setLog room log).withChannel.setLog room
          ⟨log.events, some (s₁.setLog room log).channels.size⟩ =
          s₁.withChannel.setLog room { log with channel := some s₁.channels.size } :=
        setLog_setLog s₁.withChannel room _ _
      have fetched' : ∀ other, _ = (s₁.setLog room log).fetch other :=
        fetch_setLog_same (s := (s₁.setLog room log).withChannel)
          ⟨log.events, some (s₁.setLog room log).channels.size⟩ old.symm
      rw [same] at attached fetched'
      refine ⟨keeps.trans attached, fun other => (fetched' other).trans (fetched other), rfl, rfl,
        ?_⟩
      rw [← fetched room, ← fetched' room]
      have now : (s₁.withChannel.setLog room { log with channel := some s₁.channels.size }).log?
          room = some { log with channel := some s₁.channels.size } := by
        rw [log?_setLog, if_pos rfl]
      exact attached.sound.at_end now rfl

theorem poll_roomId (s : Store) (f : Feed) : (s.poll f).1.roomId = f.roomId := by
  rw [poll]
  split_ifs
  · rfl
  · cases s.channels[f.channel]? with
    | none => rfl
    | some c =>
        dsimp only
        split <;> rfl

/-- What a feed at position `p` reads: the event that stands there, or a lag error, or that the
feed has ended. It has nothing to read only at the end of the log. -/
theorem Feed.At.poll {s : Store} {f : Feed} {p : Nat} (h : f.At s p) (isOpen : f.closed = false) :
    (∃ e, (s.fetch f.roomId)[p]? = some e ∧
      s.poll f = ({ f with next := f.next + 1 }, some (.ok e)) ∧
      Feed.At { f with next := f.next + 1 } s (p + 1)) ∨
    (∃ err, (s.poll f).2 = some (.error err)) ∨
    ((s.poll f).2 = none ∧ p = (s.fetch f.roomId).length) := by
  obtain ⟨base, values, isLive, inside, carries, stretch, taken, rfl, current⟩ := h.carries
  rw [Store.poll]
  simp only [isOpen, Bool.false_eq_true, if_false, carries]
  by_cases more : f.next < values.length
  · by_cases recent : values.length ≤ f.next + s.ringSize
    · left
      refine ⟨values[f.next], ?_, ?_, ⟨base, values, isLive, inside, carries, stretch, more, ?_,
        current⟩, h.own⟩
      · obtain ⟨later, eq⟩ := stretch
        rw [← List.getElem?_drop, ← eq, List.getElem?_append_left more,
          List.getElem?_eq_getElem more]
      · rw [Channel.receive_item isLive more recent]
      · rfl
    · right
      left
      rw [Channel.receive_lagged s.ringSize_pos isLive (by omega)]
      exact ⟨_, rfl⟩
  · have last : f.next = values.length := by omega
    right
    rw [last, Channel.receive_end s.ringSize_pos]
    cases isLive with
    | false => exact .inl ⟨_, rfl⟩
    | true =>
        right
        refine ⟨rfl, ?_⟩
        rw [(current rfl).2, List.length_drop]
        omega

end Roomcast.Store

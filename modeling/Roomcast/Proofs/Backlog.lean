import Roomcast.Proofs.Feed

/-!
# What a feed has yet to read

As long as the channel of its room lasts, an open feed has some last stretch of the room's log still
to read. A new feed has nothing to read, an event that is stored in its room comes to the end of the
stretch, and a read takes the first event of it. Only a feed with more to read than its channel
holds loses events.
-/

namespace Roomcast.Store

/-- An open feed whose channel lasts, and through which certain events are still to come. -/
structure Feed.Awaits (f : Feed) (s : Store) (rest : List Event) : Prop where
  isOpen : f.closed = false
  attached : (s.log? f.roomId).bind (·.channel) = some f.channel
  place : ∃ p, f.At s p ∧ (s.fetch f.roomId).drop p = rest

variable {s s' : Store} {f : Feed} {rest : List Event}

/-- What is still to come is what the channel carries from the feed's position on. -/
theorem Feed.Awaits.carries (h : f.Awaits s rest) (sound : s.Sound) :
    ∃ values, s.channels[f.channel]? = some (.carrying s.ringSize values true) ∧
      f.next ≤ values.length ∧ values.drop f.next = rest := by
  obtain ⟨log, known, uses⟩ := Option.bind_eq_some_iff.1 h.attached
  obtain ⟨_, _, carries'⟩ := sound.channel f.roomId log f.channel known uses
  obtain ⟨p, there, left⟩ := h.place
  obtain ⟨base, values, isLive, _, carries, _, taken, rfl, current⟩ := there.carries
  have alive : isLive = true :=
    congrArg Channel.live (Option.some.inj (carries.symm.trans carries'))
  refine ⟨values, alive ▸ carries, taken, ?_⟩
  rw [(current alive).2, List.drop_drop]
  exact left

/-- A feed that has nothing to read finds nothing. -/
theorem Feed.Awaits.poll_nil (h : f.Awaits s []) (sound : s.Sound) : s.poll f = (f, none) := by
  obtain ⟨values, carries, taken, none⟩ := h.carries sound
  have last : f.next = values.length :=
    Nat.le_antisymm taken (List.drop_eq_nil_iff.1 none)
  have same : ({ f with next := f.next, closed := false } : Feed) = f := by rw [← h.isOpen]
  rw [Store.poll]
  simp only [h.isOpen, Bool.false_eq_true, if_false, carries]
  rw [last, Channel.receive_end s.ringSize_pos, if_pos rfl, ← last]
  exact Prod.ext same rfl

/-- A feed that is not too far behind reads the next event. -/
theorem Feed.Awaits.poll_cons {e : Event} (h : f.Awaits s (e :: rest)) (sound : s.Sound)
    (few : rest.length < s.ringSize) :
    s.poll f = ({ f with next := f.next + 1 }, some (.ok e)) ∧
      Feed.Awaits { f with next := f.next + 1 } s rest := by
  obtain ⟨values, carries, taken, left⟩ := h.carries sound
  have many := congrArg List.length left
  rw [List.length_drop, List.length_cons] at many
  have more : f.next < values.length := by omega
  have first : values[f.next] = e := by
    have drop := List.drop_eq_getElem_cons more
    rw [left] at drop
    exact (List.cons.inj drop).1.symm
  have polled : s.poll f = ({ f with next := f.next + 1 }, some (.ok e)) := by
    rw [Store.poll]
    simp only [h.isOpen, Bool.false_eq_true, if_false, carries]
    rw [Channel.receive_item true more (by omega), first]
  refine ⟨polled, h.isOpen, h.attached, ?_⟩
  obtain ⟨p, there, stretch⟩ := h.place
  obtain ⟨_, _, _, beyond⟩ | ⟨err, failed⟩ | ⟨idle, _⟩ := there.poll h.isOpen
  · refine ⟨p + 1, beyond, ?_⟩
    show (s.fetch f.roomId).drop (p + 1) = rest
    rw [← List.drop_drop, stretch]
    rfl
  · rw [polled] at failed
    cases failed
  · rw [polled] at idle
    cases idle

/-- A feed that finds nothing to read has nothing to read. -/
theorem Feed.At.awaits {p : Nat} (h : f.At s p) (isOpen : f.closed = false)
    (idle : (s.poll f).2 = none) : f.Awaits s [] := by
  refine ⟨isOpen, ?_, p, h, ?_⟩
  · obtain ⟨base, values, isLive, _, carries, _, taken, _, current⟩ := h.carries
    cases isLive with
    | true => exact (current rfl).1
    | false =>
        -- The channel has ended, so the feed would have learnt of that.
        rw [Store.poll] at idle
        simp only [isOpen, Bool.false_eq_true, if_false, carries] at idle
        by_cases more : f.next < values.length
        · by_cases recent : values.length ≤ f.next + s.ringSize
          · rw [Channel.receive_item false more recent] at idle
            cases idle
          · rw [Channel.receive_lagged s.ringSize_pos false (by omega)] at idle
            cases idle
        · have last : f.next = values.length := by omega
          rw [last, Channel.receive_end s.ringSize_pos] at idle
          cases idle
  · obtain ⟨e, _, polled, _⟩ | ⟨err, failed⟩ | ⟨_, last⟩ := h.poll isOpen
    · rw [polled] at idle
      cases idle
    · rw [failed] at idle
      cases idle
    · exact List.drop_eq_nil_iff.2 last.ge

/-- What is kept of a room before something is done to it. -/
theorem logOf?_eq {room : Uuid} {log : Log} (got : s.logOf? room = some (s', log)) :
    (s' = s ∧ s.log? room = some log) ∨
      (s.log? room = none ∧ s' = s.withChannel ∧ log = ⟨#[], some s.channels.size⟩) := by
  rw [logOf?] at got
  cases known : s.log? room with
  | some log' =>
      rw [known] at got
      obtain ⟨rfl, rfl⟩ := Prod.mk.inj (Option.some.inj got)
      exact .inl ⟨rfl, rfl⟩
  | none =>
      rw [known] at got
      obtain ⟨⟨s₁, c⟩, opened, eq⟩ := Option.map_eq_some_iff.1 got
      obtain ⟨rfl, rfl⟩ := openChannel?_eq opened
      obtain ⟨rfl, rfl⟩ := Prod.mk.inj eq
      exact .inr ⟨rfl, rfl, rfl⟩

/-- A room keeps its channel when an event is stored. -/
theorem emit?_channel {e : Event} (stored : s.emit? e = some s') {room : Uuid} {c : Nat}
    (attached : (s.log? room).bind (·.channel) = some c) :
    (s'.log? room).bind (·.channel) = some c := by
  obtain ⟨⟨s₁, log⟩, got, rfl⟩ := Option.map_eq_some_iff.1 stored
  show ((s₁.push e.roomId log e).log? room).bind (·.channel) = some c
  rw [push_log?]
  obtain ⟨rfl, known⟩ | ⟨none, rfl, rfl⟩ := logOf?_eq got
  · split_ifs with here
    · rw [here, known] at attached
      exact attached
    · exact attached
  · rw [if_neg]
    · exact attached
    · rintro rfl
      rw [none] at attached
      cases attached

/-- An event that is stored is still to come through each feed of its room, after all others. -/
theorem Feed.Awaits.emit? {e : Event} (h : f.Awaits s rest) (sound : s.Sound)
    (stored : s.emit? e = some s') :
    f.Awaits s' (if e.roomId = f.roomId then rest ++ [e] else rest) := by
  obtain ⟨keeps, fetched⟩ := sound.emit? stored
  refine ⟨h.isOpen, emit?_channel stored h.attached, ?_⟩
  obtain ⟨p, there, rfl⟩ := h.place
  have before : p ≤ (s.fetch f.roomId).length := by
    obtain ⟨base, values, isLive, inside, _, stretch, taken, rfl, _⟩ := there.carries
    have short := stretch.length_le
    rw [List.length_drop] at short
    omega
  refine ⟨p, keeps.feeds f p there, ?_⟩
  rw [fetched]
  by_cases here : e.roomId = f.roomId
  · rw [if_pos here.symm, if_pos here, ← here, List.drop_append_of_le_length (here ▸ before)]
  · rw [if_neg (Ne.symm here), if_neg here]

/-- What is kept of a room for which a feed has been opened: its channel, if it had one. -/
theorem watch?_log {room : Uuid} (opened : s.watch? room = some (s', f)) :
    f.roomId = room ∧ (s'.log? room).bind (·.channel) = some f.channel ∧
      (∀ other, other ≠ room → s'.log? other = s.log? other) ∧
      ∀ c, (s.log? room).bind (·.channel) = some c → f.channel = c := by
  obtain ⟨⟨s₁, log⟩, got, rest⟩ := Option.bind_eq_some_iff.1 opened
  obtain ⟨⟨s₂, c⟩, chosen, eq⟩ := Option.map_eq_some_iff.1 rest
  obtain ⟨rfl, rfl⟩ := Prod.mk.inj eq
  have logs : ∀ other, s₂.log? other = s.log? other := by
    intro other
    have first : s₁.log? other = s.log? other := by
      obtain ⟨rfl, _⟩ | ⟨_, rfl, _⟩ := logOf?_eq got <;> rfl
    cases uses : log.channel with
    | some c' =>
        rw [uses] at chosen
        obtain ⟨rfl, rfl⟩ := Prod.mk.inj (Option.some.inj chosen)
        exact first
    | none =>
        rw [uses] at chosen
        obtain ⟨rfl, rfl⟩ := openChannel?_eq chosen
        exact first
  refine ⟨rfl, ?_, fun other apart => ?_, fun c' attached => ?_⟩
  · rw [log?_setLog, if_pos rfl]
    rfl
  · rw [log?_setLog, if_neg apart, logs]
  · obtain ⟨rfl, known⟩ | ⟨none, _, _⟩ := logOf?_eq got
    · rw [known] at attached
      have uses : log.channel = some c' := attached
      rw [uses] at chosen
      exact (Prod.mk.inj (Option.some.inj chosen)).2.symm
    · rw [none] at attached
      cases attached

/-- A new feed has nothing to read, and nothing changes for the others. -/
theorem Sound.watch?_awaits {room : Uuid} {g : Feed} (sound : s.Sound)
    (opened : s.watch? room = some (s', g)) :
    g.Awaits s' [] ∧ ∀ f rest, Feed.Awaits f s rest → Feed.Awaits f s' rest := by
  obtain ⟨keeps, fetched, rfl, isOpen, last⟩ := sound.watch? opened
  obtain ⟨_, attached, others, same⟩ := watch?_log opened
  constructor
  · refine ⟨isOpen, attached, _, last, ?_⟩
    rw [fetched]
    exact List.drop_eq_nil_iff.2 (Nat.le_refl _)
  · intro f rest h
    refine ⟨h.isOpen, ?_, ?_⟩
    · by_cases here : f.roomId = g.roomId
      · rw [here, attached, ← same f.channel (here ▸ h.attached)]
      · rw [others _ here]
        exact h.attached
    · obtain ⟨p, there, left⟩ := h.place
      exact ⟨p, keeps.feeds f p there, (fetched _).symm ▸ left⟩

theorem logOf?_capacity {room : Uuid} {log : Log} (got : s.logOf? room = some (s', log)) :
    s'.capacity = s.capacity := by
  obtain ⟨rfl, _⟩ | ⟨_, rfl, _⟩ := logOf?_eq got <;> rfl

theorem logOf?_isSome (room : Uuid) (positive : 0 < s.capacity) :
    (s.logOf? room).isSome = true := by
  rw [logOf?]
  cases s.log? room with
  | some log => rfl
  | none => simp [openChannel?, Nat.ne_of_gt positive]

theorem emit?_capacity {e : Event} (stored : s.emit? e = some s') : s'.capacity = s.capacity := by
  obtain ⟨⟨s₁, log⟩, got, rfl⟩ := Option.map_eq_some_iff.1 stored
  show (s₁.push e.roomId log e).capacity = s.capacity
  rw [← logOf?_capacity got, push]
  cases log.channel <;> rfl

/-- An event can be stored, unless nothing can pass through a channel. -/
theorem emit?_isSome (e : Event) (positive : 0 < s.capacity) : (s.emit? e).isSome = true := by
  rw [emit?, Option.isSome_map]
  exact logOf?_isSome e.roomId positive

theorem watch?_capacity {room : Uuid} (opened : s.watch? room = some (s', f)) :
    s'.capacity = s.capacity := by
  obtain ⟨⟨s₁, log⟩, got, rest⟩ := Option.bind_eq_some_iff.1 opened
  obtain ⟨⟨s₂, c⟩, chosen, eq⟩ := Option.map_eq_some_iff.1 rest
  obtain ⟨rfl, rfl⟩ := Prod.mk.inj eq
  rw [← logOf?_capacity got]
  cases uses : log.channel with
  | some c' =>
      rw [uses] at chosen
      obtain ⟨rfl, rfl⟩ := Prod.mk.inj (Option.some.inj chosen)
      rfl
  | none =>
      rw [uses] at chosen
      obtain ⟨rfl, rfl⟩ := openChannel?_eq chosen
      rfl

/-- A feed can be opened, unless nothing can pass through a channel. -/
theorem watch?_isSome (room : Uuid) (positive : 0 < s.capacity) :
    (s.watch? room).isSome = true := by
  obtain ⟨⟨s₁, log⟩, got⟩ := Option.isSome_iff_exists.1 (logOf?_isSome room positive)
  rw [watch?, got, Option.bind_some, Option.isSome_map]
  cases log.channel with
  | some c => rfl
  | none => simp [openChannel?, logOf?_capacity got, Nat.ne_of_gt positive]

theorem closeRoom_capacity (s : Store) (room : Uuid) :
    (s.closeRoom room).capacity = s.capacity := by
  rw [closeRoom]
  cases s.log? room with
  | none => rfl
  | some log =>
      dsimp only
      cases log.channel <;> rfl

end Roomcast.Store

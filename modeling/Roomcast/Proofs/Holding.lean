import Roomcast.Proofs.Readers

/-!
# Who has which reader

Every reader that there has ever been was handed to one subscriber, and no two subscribers have the
same one. So a window counts one open reader for each subscriber that has a reader of it and has not
left. A subscriber that has got an answer keeps it.
-/

namespace Roomcast

/-- A row from which nothing was taken is changed: what is taken from it now is new. -/
theorem filterMap_modify_perm {α β : Type} (f : α → Option β) (g : α → α) {l : List α} {i : Nat}
    {x : α} (found : l[i]? = some x) (nothing : f x = none) :
    ((l.modify i g).filterMap f).Perm ((f (g x)).toList ++ l.filterMap f) := by
  induction l generalizing i with
  | nil => cases found
  | cons y ys ih =>
      cases i with
      | zero =>
          obtain rfl := Option.some.inj found
          cases new : f (g y) <;> simp [new, nothing]
      | succ i =>
          have rest := ih found
          cases first : f y with
          | none => simpa [first] using rest
          | some b =>
              simp only [List.modify_succ_cons, List.filterMap_cons, first]
              exact (rest.cons b).trans List.perm_middle.symm

/-- The rows of a table counted by their numbers. -/
theorem countP_range {β : Type} (xs : Array β) (p : β → Bool) :
    xs.countP p = (List.range xs.size).countP fun i => (xs[i]?).any p := by
  have rows : (List.range xs.size).map (xs[·]?) = xs.toList.map some := by
    refine List.ext_getElem (by simp) fun i _ inside => ?_
    simp at inside
    simp [inside]
  calc xs.countP p = (xs.toList.map some).countP (·.any p) := by
        rw [List.countP_map, ← Array.countP_toList]
        rfl
    _ = _ := by
        rw [← rows, List.countP_map]
        rfl

namespace Registry

variable {r r' : Registry} {a : Action}

/-- A subscriber that has got an answer keeps it. -/
theorem Move.answered (m : Move r a r') {i : Nat} {s : Subscriber}
    {result : Except StreamError Reader} (found : r.subscribers[i]? = some s)
    (phase : s.phase = .done result) : r'.subscribers[i]? = some s := by
  -- Who goes on has no answer yet, so it is somebody else.
  have turned : ∀ {j : Nat} {s₁ : Subscriber} (q : Subscribing), r.subscribers[j]? = some s₁ →
      (∀ result, s₁.phase ≠ .done result) → (r.setSubscriber j q).subscribers[i]? = some s := by
    intro j s₁ q found₁ waits
    refine getElem?_modify_some.2 (.inl ⟨?_, found⟩)
    rintro rfl
    obtain rfl : s = s₁ := Option.some.inj (found.symm.trans found₁)
    exact waits result phase
  cases m with
  | subscribe => exact getElem?_push_some.2 (.inl found)
  | walk found₁ walks => exact turned _ found₁ walks.free.2
  | find found₁ phase₁ =>
      refine turned _ found₁ ?_
      obtain phase₁ | phase₁ := phase₁ <;> rw [phase₁] <;> exact nofun
  | abort found₁ phase₁ =>
      refine turned _ found₁ ?_
      obtain phase₁ | phase₁ := phase₁ <;> rw [phase₁] <;> exact nofun
  | create found₁ phase₁ | ask found₁ phase₁ | turnAway found₁ phase₁ | join found₁ phase₁
  | watch found₁ phase₁ | watched found₁ phase₁ | fail found₁ phase₁ | failClosed found₁ phase₁
  | start found₁ phase₁ | startDead found₁ phase₁ | remove found₁ phase₁ =>
      exact turned _ found₁ (by rw [phase₁]; exact nofun)
  | reclaim here may =>
      rw [reclaim_eq here may]
      exact found
  | _ => exact found

def readerOf? (r : Registry) (i : Nat) : Option Reader :=
  (r.subscribers[i]?).bind (·.phase.reader?)

theorem readerOf?_eq_some {i : Nat} {h : Reader} :
    r.readerOf? i = some h ↔
      ∃ s, r.subscribers[i]? = some s ∧ s.phase = .done (.ok h) := by
  rw [readerOf?, Option.bind_eq_some_iff]
  simp only [reader?_eq_some_iff]

theorem Owned.run_answered (owned : r.Owned) {acts : List Action} (ran : r.run? acts = some r')
    {i : Nat} {s : Subscriber} {result : Except StreamError Reader}
    (found : r.subscribers[i]? = some s) (phase : s.phase = .done result) :
    r'.subscribers[i]? = some s :=
  (owned.run (P := fun r => r.subscribers[i]? = some s)
    (fun _ _ found m => m.answered found phase) found ran).2

/-- A subscriber that is there stays there. -/
theorem Owned.run_subscriber (owned : r.Owned) {acts : List Action} (ran : r.run? acts = some r')
    {i : Nat} {s : Subscriber} (found : r.subscribers[i]? = some s) :
    ∃ s', r'.subscribers[i]? = some s' ∧ s'.roomId = s.roomId := by
  refine (owned.run (P := fun r => ∃ s', r.subscribers[i]? = some s' ∧ s'.roomId = s.roomId)
    (fun _ owned kept m => ?_) ⟨s, found, rfl⟩ ran).2
  obtain ⟨s', found', room⟩ := kept
  obtain ⟨s'', found'', goes⟩ := m.subscriber owned found'
  exact ⟨s'', found'', goes.roomId.trans room⟩

/-- Nobody comes who does not ask for a reader. -/
theorem Owned.run_subscribers_size (owned : r.Owned) {acts : List Action}
    (ran : r.run? acts = some r') (nobody : ∀ room, .subscribe room ∉ acts) :
    r'.subscribers.size = r.subscribers.size := by
  refine (owned.run (P := fun r' => r'.subscribers.size = r.subscribers.size)
    (fun {_ _ a} among _ same m => ?_) rfl ran).2
  exact (m.subscribers_size fun room eq => nobody room (eq ▸ among)).trans same

def readersEver (r : Registry) (t : Nat) : Nat :=
  ((r.streams[t]?).map (·.room.cursors.size)).getD 0

def readersOn (r : Registry) (t : Nat) : Nat := ((r.streams[t]?).map (·.room.readers)).getD 0

theorem openReadersBeside_eq (r : Registry) (h : Reader) :
    r.openReadersBeside h = r.readersOn h.stream := by
  rw [openReadersBeside, roomOf?, Option.map_map]
  rfl

def issued (r : Registry) : List Reader := r.subscribers.toList.filterMap (·.phase.reader?)

/-- How many readers a window has had, and how many of them are open. -/
def Stream.tally (st : Stream) : Nat × Nat := (st.room.cursors.size, st.room.readers)

/-- A reader is handed out by an action of its subscriber. -/
structure Grants (r : Registry) (a : Action) (r' : Registry) (i : Nat) (h : Reader) : Prop where
  called : a = .step (.subscriber i)
  asked : r.readerOf? i = none
  got : r'.readerOf? i = some h
  new : h.cursor = r.readersEver h.stream
  issued : r'.issued.Perm (h :: r.issued)
  ever : ∀ t, r'.readersEver t = if h.stream = t then r.readersEver t + 1 else r.readersEver t
  counted : ∀ t, r'.readersOn t = if h.stream = t then r.readersOn t + 1 else r.readersOn t

/-- No reader is handed out, and unless one is used as many as before are open. -/
structure Withholds (r : Registry) (a : Action) (r' : Registry) : Prop where
  issued : r'.issued.Perm r.issued
  ever : ∀ t, r'.readersEver t = r.readersEver t
  counted : a.use? = none → ∀ t, r'.readersOn t = r.readersOn t

theorem Withholds.still (issued : r'.issued.Perm r.issued)
    (tally : ∀ t : Nat, (r'.streams[t]?).map Stream.tally = (r.streams[t]?).map Stream.tally) :
    Withholds r a r' := by
  refine ⟨issued, fun t => ?_, fun _ t => ?_⟩
  · simpa [readersEver, Function.comp_def, Stream.tally] using
      congrArg (fun x : Option (Nat × Nat) => (x.map Prod.fst).getD 0) (tally t)
  · simpa [readersOn, Function.comp_def, Stream.tally] using
      congrArg (fun x : Option (Nat × Nat) => (x.map Prod.snd).getD 0) (tally t)

theorem issued_setSubscriber {i : Nat} {s : Subscriber} (q : Subscribing)
    (found : r.subscribers[i]? = some s) (waits : ∀ result, s.phase ≠ .done result) :
    (r.setSubscriber i q).issued.Perm (q.reader?.toList ++ r.issued) := by
  rw [issued, setSubscriber, Array.toList_modify]
  refine filterMap_modify_perm _ _ ?_ (Subscribing.reader?_of_waits waits)
  rwa [Array.getElem?_toList]

/-- What moves events into a window has nothing to do with its readers. -/
theorem Stream.Pull.tally {store : Store} {st st' : Stream} (went : st.Pull store st') :
    st'.tally = st.tally := by
  cases went with
  | @push e room holding appended =>
      rw [Room.append] at appended
      cases grown : st.room.chain.append st.room.capacity e <;> rw [grown] at appended <;>
        cases appended
      rfl
  | _ => rfl

/-- Who joins a window that is open gets a new reader of it. -/
theorem Grants.join {i t : Nat} {s : Subscriber} {st : Stream}
    (found : r.subscribers[i]? = some s) (waits : ∀ result, s.phase ≠ .done result)
    (there : r.streams[t]? = some st) (running : st.room.isClosed = false)
    (subscribers : r'.subscribers =
      (r.setSubscriber i (.done (.ok ⟨t, st.room.cursors.size⟩))).subscribers)
    (streams : r'.streams = (r.modifyStream t (·.perform .join)).streams) :
    Grants r (.step (.subscriber i)) r' i ⟨t, st.room.cursors.size⟩ := by
  have joined : (st.room.perform .join).1.cursors.size = st.room.cursors.size + 1 ∧
      (st.room.perform .join).1.readers = st.room.readers + 1 := by
    simp [Room.perform, Room.join, running]
  have rows : ∀ k, r'.streams[k]? =
      if t = k then some (st.perform .join) else r.streams[k]? := by
    rw [streams]
    exact getElem?_modify_of _ there
  refine ⟨rfl, ?_, ?_, by simp [readersEver, there], ?_, fun k => ?_, fun k => ?_⟩
  · rw [readerOf?, found]
    exact Subscribing.reader?_of_waits waits
  · rw [readerOf?, subscribers, setSubscriber, getElem?_modify_of _ found, if_pos rfl]
    rfl
  · rw [Registry.issued, subscribers]
    exact issued_setSubscriber _ found waits
  · rw [readersEver, rows, readersEver]
    split_ifs with here
    · subst here
      simpa [there, Stream.perform] using joined.1
    · rfl
  · rw [readersOn, rows, readersOn]
    split_ifs with here
    · subst here
      simpa [there, Stream.perform] using joined.2
    · rfl

theorem Move.grants (m : Move r a r') : (∃ i h, Grants r a r' i h) ∨ Withholds r a r' := by
  have turned : ∀ {i : Nat} {s : Subscriber} {q : Subscribing}, r.subscribers[i]? = some s →
      (∀ result, s.phase ≠ .done result) → q.reader? = none →
      (r.setSubscriber i q).issued.Perm r.issued := by
    intro i s q found waits nobody
    have issued := issued_setSubscriber q found waits
    rwa [nobody] at issued
  cases m with
  | subscribe room =>
      refine .inr (.still ?_ fun _ => rfl)
      rw [issued, Registry.subscribe, Array.toList_push, List.filterMap_append]
      exact .of_eq (List.append_nil _)
  | walk found walks =>
      exact .inr (.still (turned found walks.free.2 walks.nowhere.2) fun _ => rfl)
  | find found phase =>
      refine .inr (.still (turned found ?_ rfl) fun _ => rfl)
      obtain phase | phase := phase <;> rw [phase] <;> exact nofun
  | abort found phase =>
      refine .inr (.still (turned found ?_ rfl) fun _ => rfl)
      obtain phase | phase := phase <;> rw [phase] <;> exact nofun
  | create found phase | ask found phase | turnAway found phase | watch found phase
  | fail found phase | failClosed found phase | startDead found phase | remove found phase =>
      exact .inr (.still (turned found (by rw [phase]; exact nofun) rfl) fun _ => rfl)
  | watched found phase =>
      refine .inr ⟨turned found (by rw [phase]; exact nofun) rfl, fun t => ?_, fun _ t => ?_⟩
      · show (((r.streams.push _)[t]?).map _).getD 0 = _
        rw [Array.getElem?_push]
        split_ifs with new
        · simp [readersEver, new, Room.empty]
        · rfl
      · show (((r.streams.push _)[t]?).map _).getD 0 = _
        rw [Array.getElem?_push]
        split_ifs with new
        · simp [readersOn, new, Room.empty]
        · rfl
  | join found phase _ _ _ _ there running =>
      exact .inl ⟨_, _, .join found (by rw [phase]; exact nofun) there running rfl rfl⟩
  | start found phase there running =>
      exact .inl ⟨_, _, .join found (by rw [phase]; exact nofun) there running rfl rfl⟩
  | closeWindow =>
      refine .inr (.still .rfl fun t => getElem?_modify_map ?_ t)
      exact fun _ _ => rfl
  | use used =>
      refine .inr ⟨.rfl, fun t => ?_, fun unused => ?_⟩
      · refine congrArg (·.getD 0) (getElem?_modify_map (fun st _ => ?_) t)
        exact Room.perform_size (Action.use?_ne_join used)
      · rw [unused] at used
        cases used
  | pull there went =>
      refine .inr (.still .rfl fun t => getElem?_modify_map (fun st found => ?_) t)
      rw [there] at found
      obtain rfl := Option.some.inj found
      exact went.tally
  | close =>
      refine .inr (.still .rfl fun t => getElem?_modify_map ?_ t)
      exact fun _ _ => rfl
  | fault room f =>
      refine .inr (.still .rfl fun t => ?_)
      rw [injectFault, Array.getElem?_map]
      cases r.streams[t]? with
      | none => rfl
      | some st =>
          rw [Option.map_some]
          split_ifs <;> rfl
  | reclaim here may =>
      rw [reclaim_eq here may]
      exact .inr (.still .rfl fun _ => rfl)
  | _ => exact .inr (.still .rfl fun _ => rfl)

theorem Withholds.trans {r'' : Registry} (h : Withholds r a r') (h' : Withholds r' a r'') :
    Withholds r a r'' where
  issued := h'.issued.trans h.issued
  ever t := (h'.ever t).trans (h.ever t)
  counted unused t := (h'.counted unused t).trans (h.counted unused t)

/-- An action hands out one reader at most, and then to the subscriber whose step it is. -/
theorem perform?_grants (owned : r.Owned) (did : r.perform? a = some r') :
    (∃ i h, Grants r a r' i h) ∨ Withholds r a r' := by
  by_cases collects : ∃ i, a = .step (.collector i)
  · obtain ⟨i, rfl⟩ := collects
    refine .inr (Moves.preserve (P := fun r' => Withholds r (.step (.collector i)) r')
      (fun before m => ?_) ?_ (perform?_moves owned.fresh did))
    · obtain ⟨j, h, grants⟩ | withholds := m.grants
      · cases grants.called
      · exact before.trans withholds
    · exact ⟨.rfl, fun _ => rfl, fun _ _ => rfl⟩
  · exact (perform?_move owned.fresh (fun i eq => collects ⟨i, eq⟩) did).grants

/-- A reader that has left does not come back. -/
theorem Move.still_left (m : Move r a r') (laid : r.Laid) {h : Reader}
    (there : (r.cursorOf? h).isSome = true) (left : r.hasLeft h = true) :
    r'.hasLeft h = true := by
  obtain ⟨c, found⟩ := Option.isSome_iff_exists.1 there
  obtain ⟨room, window, found⟩ := Option.bind_eq_some_iff.1 found
  obtain ⟨st, stream, rfl⟩ := Option.map_eq_some_iff.1 window
  obtain ⟨st', stream', became⟩ := m.room stream
  have left : st.room.hasLeft h.cursor = true := by
    rwa [hasLeft, window, Option.all_some] at left
  rw [hasLeft, roomOf?, stream', Option.map_some, Option.all_some]
  obtain same | ⟨op, became, _⟩ := became
  · rw [same]
    exact left
  · rw [became]
    by_cases joins : op = .join
    · subst joins
      have apart : (Room.Op.join : Room.Op Event).reader? ≠ some h.cursor := by
        simp [Room.Op.reader?]
      obtain same | ⟨none, _⟩ := Room.perform_other apart
      · rwa [Room.hasLeft, same]
      · rw [none] at found
        cases found
    · obtain ⟨v, valid, layout⟩ := laid _ st stream
      rw [layout] at left ⊢
      rw [Room.View.perform_room valid]
      exact Room.View.hasLeft_perform joins left

theorem Regular.run_left (regular : r.Regular) {acts : List Action} (ran : r.run? acts = some r')
    {h : Reader} (there : (r.cursorOf? h).isSome = true) (left : r.hasLeft h = true) :
    r'.hasLeft h = true := by
  refine (regular.owned.run (P := fun r => r.Laid ∧ (r.cursorOf? h).isSome = true ∧
    r.hasLeft h = true) (fun _ owned kept m => ?_) ⟨regular.laid, there, left⟩ ran).2.2.2
  obtain ⟨laid, there, left⟩ := kept
  exact ⟨laid.move owned m, m.still_there there, m.still_left laid there left⟩

/-- The readers of each stream have been handed out, one by one. -/
def Issued (r : Registry) : Prop :=
  ∀ t, (r.issued.filter (·.stream = t)).Perm ((List.range (r.readersEver t)).map (⟨t, ·⟩))

theorem empty_issued (capacity channelCapacity : Nat) :
    (Registry.empty capacity channelCapacity).Issued := by
  intro t
  simp [issued, readersEver, Registry.empty]

theorem Issued.move (h : r.Issued) (m : Move r a r') : r'.Issued := by
  intro t
  obtain ⟨i, ⟨k, c⟩, grants⟩ | withholds := m.grants
  · refine (grants.issued.filter _).trans ?_
    rw [grants.ever]
    split_ifs with here
    · subst here
      obtain rfl : c = r.readersEver k := grants.new
      rw [List.filter_cons_of_pos (by simp), List.range_succ, List.map_append, List.map_singleton]
      exact ((h k).cons _).trans (List.perm_append_singleton _ _).symm
    · rw [List.filter_cons_of_neg (by simpa using here)]
      exact h t
  · rw [withholds.ever]
    exact (withholds.issued.filter _).trans (h t)

theorem run?_issued {capacity channelCapacity : Nat} {acts : List Action}
    (ran : (Registry.empty capacity channelCapacity).run? acts = some r) : r.Issued :=
  (Owned.run (P := fun r => r.Issued) (fun _ _ h m => h.move m) (empty_owned _ _)
    (empty_issued _ _) ran).2

/-- No two subscribers have the same reader. -/
theorem Issued.distinct (h : r.Issued) {i j : Nat} {g : Reader} (mine : r.readerOf? i = some g)
    (yours : r.readerOf? j = some g) : i = j := by
  have single : (r.issued.filter (·.stream = g.stream)).Nodup := by
    refine (h g.stream).nodup_iff.2 (List.nodup_range.map fun c d same => ?_)
    exact (Reader.mk.inj same).2
  rw [issued, List.Nodup, List.pairwise_filter, List.pairwise_filterMap,
    List.pairwise_iff_getElem] at single
  -- Of two rows with one reader none can come first.
  have before : ∀ i j, r.readerOf? i = some g → r.readerOf? j = some g → ¬ i < j := by
    intro i j mine yours order
    obtain ⟨s, found, serves⟩ := Option.bind_eq_some_iff.1 mine
    obtain ⟨s', found', serves'⟩ := Option.bind_eq_some_iff.1 yours
    obtain ⟨inside, rfl⟩ := Array.getElem?_eq_some_iff.1 found
    obtain ⟨inside', rfl⟩ := Array.getElem?_eq_some_iff.1 found'
    exact single i j inside inside' order g serves g serves' (by simp) (by simp) rfl
  exact le_antisymm (not_lt.1 (before j i yours mine)) (not_lt.1 (before i j mine yours))

/-- The number of subscribers that have a reader of a stream which they have not left. -/
def holders (r : Registry) (t : Nat) : Nat :=
  r.subscribers.countP fun s => s.phase.reader?.any fun g => g.stream = t && !r.hasLeft g

/-- A window counts one open reader for each subscriber that has one. -/
theorem Issued.count (h : r.Issued) (laid : r.Laid) {t : Nat} {st : Stream}
    (there : r.streams[t]? = some st) : st.room.readers = r.holders t := by
  obtain ⟨v, _, layout⟩ := laid t st there
  have window : ∀ c, r.hasLeft ⟨t, c⟩ = v.room.hasLeft c := by
    intro c
    rw [hasLeft, roomOf?, there, Option.map_some, Option.all_some, layout]
  have size : r.readersEver t = v.readers.size := by
    rw [readersEver, there, Option.map_some, Option.getD_some, layout]
    exact Array.size_map
  calc st.room.readers
      = (List.range v.readers.size).countP fun c => (v.readers[c]?).any (!·.closed) := by
        rw [layout, ← countP_range]
        rfl
    _ = ((List.range (r.readersEver t)).map (⟨t, ·⟩)).countP fun g => !r.hasLeft g := by
        rw [List.countP_map, size]
        refine List.countP_congr fun c _ => ?_
        rw [Function.comp_apply, window, Room.View.room_hasLeft]
        cases v.readers[c]? <;> simp
    _ = (r.issued.filter (·.stream = t)).countP fun g => !r.hasLeft g := ((h t).countP_eq _).symm
    _ = r.holders t := by
        rw [List.countP_filter, issued, List.countP_filterMap, holders, ← Array.countP_toList]
        refine List.countP_congr fun s _ => ?_
        cases s.phase.reader? <;> simp [and_comm]

end Registry

end Roomcast

import Roomcast.Proofs.Delivery
import Roomcast.Proofs.Windows

/-!
# What becomes of a reader

Nobody but who uses a reader changes it: whatever else happens to the registry, it stays where it
is. A reader that somebody has got is there, open and at rest until it is used. Once closed, it
stays closed, and it is counted among the open readers of its window just as long as it is open.
-/

namespace Roomcast

namespace Room

variable {α : Type} {room : Room α}

/-- A reader that is open and at rest, as every new one is. -/
def Cursor.IsFresh (c : Cursor) : Prop := c.closed = false ∧ c.wait = none

theorem modifyCursor_other {i j : Nat} (other : i ≠ j) (f : Cursor → Cursor) :
    (room.modifyCursor i f).cursors[j]? = room.cursors[j]? := by
  rw [modifyCursor, Array.getElem?_modify, if_neg other]

theorem modifyCursor_here {i : Nat} {c : Cursor} (found : room.cursors[i]? = some c)
    (f : Cursor → Cursor) : (room.modifyCursor i f).cursors[i]? = some (f c) := by
  rw [modifyCursor, getElem?_modify_of _ found, if_pos rfl]

/-- Who leaves is closed. -/
theorem leave_here {i : Nat} {c : Cursor} (found : room.cursors[i]? = some c) :
    (room.leave i).cursors[i]? = some { c with closed := true } := by
  rw [leave, found]
  dsimp only
  split_ifs with closed
  · rw [found, ← closed]
  · exact modifyCursor_here found _

/-- Who has given up gets nothing but an error. -/
theorem look?_cancelled (room : Room α) (c : Cursor) :
    ∃ err, room.look? c true = some (.error err) := by
  rw [look?, Chain.read?, Chain.await?, if_pos rfl]
  split_ifs <;> exact ⟨_, rfl⟩

/-- A read that is given up and goes on does what a read does that was given up from the start. -/
theorem resume_cancel {i : Nat} {c : Cursor} {w : Wait} (found : room.cursors[i]? = some c)
    (waits : c.wait = some w) : ∃ err err',
      (room.cancel i).resume i = ((room.poll i true).1, some (.error err)) ∧
        (room.poll i true).2 = some (.error err') := by
  have place : (room.cancel i).cursors[i]? =
      some { c with wait := some { w with cancelled := true } } := by
    rw [cancel, modifyCursor_here found, waits, Option.map_some]
  obtain ⟨err, gets⟩ : ∃ err, (room.cancel i).result? i = some (.error err) := by
    rw [result?, place, Option.bind_some, Option.bind_some]
    split_ifs
    · rw [Chain.await?, if_pos rfl]
      exact ⟨_, rfl⟩
    · exact look?_cancelled _ _
  obtain ⟨err', looks⟩ := look?_cancelled room c
  have idle : (room.cancel i).modifyCursor i (fun c => { c with wait := none }) =
      room.modifyCursor i fun c => { c with wait := none } := by
    rw [cancel, modifyCursor, modifyCursor, modify_modify]
    rfl
  refine ⟨err, err', ?_, ?_⟩
  · rw [resume, gets, poll, found, Option.bind_some, looks]
    dsimp only [settle]
    rw [idle]
  · rw [poll, found, Option.bind_some, looks]
    rfl

theorem leave_other {i j : Nat} (other : i ≠ j) :
    (room.leave i).cursors[j]? = room.cursors[j]? := by
  rw [leave]
  split
  · rfl
  · split_ifs
    · rfl
    · exact modifyCursor_other other _

theorem settle_other {i j : Nat} (other : i ≠ j) (result : Except StreamError (α × Nat)) :
    (room.settle i result).1.cursors[j]? = room.cursors[j]? := by
  cases result with
  | ok => exact modifyCursor_other other _
  | error =>
      rw [settle, leave_other other]
      exact modifyCursor_other other _

/-- An operation changes no reader but the one it uses. A reader that is new is fresh. -/
theorem perform_other {op : Op α} {j : Nat} (other : op.reader? ≠ some j) :
    (room.perform op).1.cursors[j]? = room.cursors[j]? ∨
      room.cursors[j]? = none ∧ ∀ c ∈ (room.perform op).1.cursors[j]?, c.IsFresh := by
  cases op with
  | join =>
      rw [perform, join]
      split_ifs
      · exact .inl rfl
      · show (room.cursors.push _)[j]? = _ ∨ _ ∧ ∀ c ∈ (room.cursors.push _)[j]?, _
        rw [Array.getElem?_push]
        split_ifs with new
        · refine .inr ⟨by simp [new], ?_⟩
          rintro c ⟨⟩
          exact ⟨rfl, rfl⟩
        · exact .inl rfl
  | append event =>
      rw [perform, append]
      cases room.chain.append room.capacity event <;> exact .inl rfl
  | close => exact .inl rfl
  | poll i cancelled =>
      have other : i ≠ j := fun same => other (congrArg some same)
      refine .inl ?_
      rw [perform]
      show (room.poll i cancelled).1.cursors[j]? = _
      rw [poll]
      split
      · rfl
      · exact settle_other other _
  | resume i =>
      have other : i ≠ j := fun same => other (congrArg some same)
      refine .inl ?_
      rw [perform]
      show (room.resume i).1.cursors[j]? = _
      rw [resume]
      split
      · exact modifyCursor_other other _
      · exact settle_other other _
  | beginRead i | cancel i | abandon i =>
      exact .inl (modifyCursor_other (fun same => other (congrArg some same)) _)
  | leave i => exact .inl (leave_other fun same => other (congrArg some same))
  | drop i =>
      have other : i ≠ j := fun same => other (congrArg some same)
      refine .inl ?_
      rw [perform]
      show ((room.abandon i).leave i).cursors[j]? = _
      rw [leave_other other]
      exact modifyCursor_other other _

/-- Only who joins adds a reader. -/
theorem perform_size {op : Op α} (other : op ≠ .join) :
    (room.perform op).1.cursors.size = room.cursors.size := by
  have leaves : ∀ (room : Room α) (i : Nat), (room.leave i).cursors.size = room.cursors.size := by
    intro room i
    rw [leave]
    split
    · rfl
    · split_ifs
      · rfl
      · exact Array.size_modify
  have settles : ∀ i (result : Except StreamError (α × Nat)),
      (room.settle i result).1.cursors.size = room.cursors.size := by
    intro i result
    cases result with
    | ok => exact Array.size_modify
    | error => exact (leaves _ i).trans Array.size_modify
  cases op with
  | join => exact absurd rfl other
  | append event =>
      rw [perform, append]
      cases room.chain.append room.capacity event <;> rfl
  | close => rfl
  | poll i cancelled =>
      show (room.poll i cancelled).1.cursors.size = _
      rw [poll]
      split
      · rfl
      · exact settles i _
  | resume i =>
      show (room.resume i).1.cursors.size = _
      rw [resume]
      split
      · exact Array.size_modify
      · exact settles i _
  | beginRead i | cancel i | abandon i => exact Array.size_modify
  | leave i => exact leaves room i
  | drop i => exact (leaves _ i).trans Array.size_modify

/-- No operation takes a reader away. -/
theorem perform_size_le (op : Op α) : room.cursors.size ≤ (room.perform op).1.cursors.size := by
  by_cases joins : op = .join
  · subst joins
    rw [perform, join]
    split_ifs
    · exact Nat.le_refl _
    · show _ ≤ (room.cursors.push _).size
      rw [Array.size_push]
      exact Nat.le_succ _
  · exact (perform_size joins).ge

namespace View

/-- An operation that uses a reader changes nothing but this reader. -/
theorem perform_reader {v : View α} {op : Op α} {i : Nat} (uses : op.reader? = some i) :
    ∃ f, (v.perform op).1 = v.modifyReader i f := by
  have same : v = v.modifyReader i id := by
    rw [modifyReader, modify_eq_self (f := id) fun _ _ => rfl]
  cases op with
  | poll j cancelled =>
      obtain rfl := Option.some.inj uses
      show ∃ f, (v.poll j cancelled).1 = _
      rw [poll]
      split
      · exact ⟨id, same⟩
      · exact ⟨_, rfl⟩
  | resume j =>
      obtain rfl := Option.some.inj uses
      show ∃ f, (v.resume j).1 = _
      rw [resume]
      split <;> exact ⟨_, rfl⟩
  | beginRead j | cancel j | abandon j | leave j | drop j =>
      obtain rfl := Option.some.inj uses
      exact ⟨_, rfl⟩
  | _ => cases uses

/-- An operation that uses a reader changes the number of open readers only by this reader. -/
theorem perform_openReaders {v : View α} {op : Op α} {i : Nat} {c c' : Reading α}
    (uses : op.reader? = some i) (found : v.readers[i]? = some c)
    (found' : (v.perform op).1.readers[i]? = some c') :
    (v.perform op).1.openReaders + (!c.closed).toNat = v.openReaders + (!c'.closed).toNat := by
  obtain ⟨f, became⟩ := perform_reader (v := v) uses
  rw [became] at found' ⊢
  have count := countP_modify (fun c : Reading α => !c.closed) f found
  obtain ⟨other, _⟩ | ⟨_, x, there, rfl⟩ := getElem?_modify_some.1 found'
  · exact absurd rfl other
  · obtain rfl : c = x := Option.some.inj (found.symm.trans there)
    rw [openReaders, openReaders, modifyReader]
    have bit : ∀ b : Bool, (if b = true then 1 else 0) = b.toNat := by decide
    rw [bit, bit] at count
    exact count

end View

end Room

namespace Registry

open Room (Cursor)

variable {r r' : Registry} {a : Action} {h : Reader}

def cursorOf? (r : Registry) (h : Reader) : Option Cursor :=
  (r.roomOf? h).bind fun room => room.cursors[h.cursor]?

theorem cursorOf?_congr (streams : r'.streams = r.streams) (h : Reader) :
    r'.cursorOf? h = r.cursorOf? h := by
  rw [cursorOf?, cursorOf?, roomOf?, roomOf?, streams]

/-- What a move makes of a window: nothing, or an operation that uses no reader, or the one that
the action uses. -/
theorem Move.room (m : Move r a r') {k : Nat} {st : Stream} (there : r.streams[k]? = some st) :
    ∃ st', r'.streams[k]? = some st' ∧ (st'.room = st.room ∨
      ∃ op, st'.room = (st.room.perform op).1 ∧
        (op.reader? = none ∨ ∃ g, a.use? = some (g, op) ∧ g.stream = k)) := by
  cases m with
  | join | start =>
      exact getElem?_modify_keeps there (.inl rfl) fun _ => .inr ⟨.join, rfl, .inl rfl⟩
  | closeWindow =>
      exact getElem?_modify_keeps there (.inl rfl) fun _ => .inr ⟨.close, rfl, .inl rfl⟩
  | @use a g op used =>
      exact getElem?_modify_keeps there (.inl rfl) fun same =>
        .inr ⟨op, rfl, .inr ⟨g, used, same⟩⟩
  | watched => exact ⟨st, getElem?_push_some.2 (.inl there), .inl rfl⟩
  | fault room f =>
      rw [injectFault, Array.getElem?_map, there, Option.map_some]
      split_ifs
      · exact ⟨_, rfl, .inl rfl⟩
      · exact ⟨st, rfl, .inl rfl⟩
  | @pull t st₁ st' there₁ went =>
      refine getElem?_modify_keeps there (.inl rfl) fun here => ?_
      subst here
      obtain rfl : st = st₁ := Option.some.inj (there.symm.trans there₁)
      cases went with
      | @push e room holding appended =>
          exact .inr ⟨.append e, by rw [Room.perform, appended], .inl rfl⟩
      | stop => exact .inr ⟨.close, rfl, .inl rfl⟩
      | _ => exact .inl rfl
  | close => exact getElem?_modify_keeps there (.inl rfl) fun _ => .inl rfl
  | reclaim here may =>
      rw [reclaim_eq here may]
      exact ⟨st, there, .inl rfl⟩
  | _ => exact ⟨st, there, .inl rfl⟩

theorem use?_reader {g : Reader} {op : Room.Op Event} (used : a.use? = some (g, op)) :
    op.reader? = some g.cursor := by
  cases a with
  | poll | beginRead | cancelRead | resume | abandon | leave | drop =>
      obtain ⟨rfl, rfl⟩ := Prod.mk.inj (Option.some.inj used)
      rfl
  | _ => cases used

/-- A move that does not use a reader leaves it alone. A reader that is new is fresh. -/
theorem Move.cursorOf? (m : Move r a r') (unused : ∀ op, a.use? ≠ some (h, op)) :
    r'.cursorOf? h = r.cursorOf? h ∨
      r.cursorOf? h = none ∧ ∀ c ∈ r'.cursorOf? h, c.IsFresh := by
  cases there : r.streams[h.stream]? with
  | some st =>
      obtain ⟨st', there', room⟩ := m.room there
      simp only [Registry.cursorOf?, roomOf?, there, there', Option.map_some, Option.bind_some]
      obtain same | ⟨op, became, uses⟩ := room
      · exact .inl (by rw [same])
      · have other : op.reader? ≠ some h.cursor := by
          intro mine
          obtain none | ⟨g, used, stream⟩ := uses
          · rw [none] at mine
            cases mine
          · rw [use?_reader used] at mine
            obtain rfl : g = h := by
              obtain ⟨_, _⟩ := g
              obtain ⟨_, _⟩ := h
              simp only [Reader.mk.injEq]
              exact ⟨stream, Option.some.inj mine⟩
            exact unused op used
        rw [became]
        exact Room.perform_other other
  | none =>
      have gone : r.cursorOf? h = none := by simp [Registry.cursorOf?, roomOf?, there]
      cases there' : r'.streams[h.stream]? with
      | none => exact .inl (by simp [Registry.cursorOf?, roomOf?, there, there'])
      | some st' =>
          have new := Array.getElem?_eq_none_iff.1 there
          obtain ⟨_, room, feed, rfl⟩ := m.stream_new new there'
          exact .inl (by simp [Registry.cursorOf?, roomOf?, there, there', Room.empty])

/-- Subscriber `i`, which becomes `s`, joins a window that is open, of a stream of its room that an
entry hands out. -/
structure Joins (r r' : Registry) (i : Nat) (s : Subscriber) (h : Reader) (st : Stream) : Prop where
  asked : ∃ s₀, r.subscribers[i]? = some s₀ ∧ s₀.phase.reader? = none
  there : r.streams[h.stream]? = some st
  running : st.room.isClosed = false
  roomId : st.roomId = s.roomId
  cursor : h.cursor = st.room.cursors.size
  streams : r'.streams = r.streams.modify h.stream (·.perform .join)
  offered : r'.Offers h.stream

/-- Who has a reader had it before, or has just joined a window. -/
theorem Move.serves (m : Move r a r') (owned : r.Owned) {i : Nat} {s : Subscriber}
    (found : r'.subscribers[i]? = some s) (serves : s.phase.reader? = some h) :
    r.subscribers[i]? = some s ∨ ∃ st, Joins r r' i s h st := by
  have turned : ∀ {j : Nat} {q : Subscribing}, q.reader? = none →
      (r.setSubscriber j q).subscribers[i]? = some s → r.subscribers[i]? = some s := by
    intro j q still found
    obtain ⟨_, old⟩ | ⟨rfl, s', old, rfl⟩ := getElem?_modify_some.1 found
    · exact old
    · rw [show ({ s' with phase := q } : Subscriber).phase = q from rfl, still] at serves
      cases serves
  have joined : ∀ {t j e : Nat} {s₁ : Subscriber} {x : Entry} {st : Stream} {xs : Array Subscriber},
      r.subscribers[j]? = some s₁ → s₁.phase.reader? = none → r.entries[e]? = some x →
      x.started = some t → s₁.phase.entry? = some e → r.streams[t]? = some st →
      st.room.isClosed = false → r'.streams = r.streams.modify t (·.perform .join) →
      r'.Offers t → xs = r.subscribers →
      (xs.modify j fun s => { s with phase := .done (.ok ⟨t, st.room.cursors.size⟩) })[i]? =
        some s → r.subscribers[i]? = some s ∨ ∃ st, Joins r r' i s h st := by
    rintro t j e s₁ x st _ found₁ unserved here started at? there running streams offered rfl found
    obtain ⟨_, old⟩ | ⟨rfl, s', old, rfl⟩ := getElem?_modify_some.1 found
    · exact .inl old
    · obtain rfl := Option.some.inj serves
      obtain rfl : s₁ = s' := Option.some.inj (found₁.symm.trans old)
      obtain ⟨y, here', room⟩ := (owned.placed j s₁ found₁).named e at?
      obtain rfl : x = y := Option.some.inj (here.symm.trans here')
      exact .inr ⟨st, ⟨s₁, found₁, unserved⟩, there, running,
        (owned.stream_roomId here started there).trans room, rfl, streams, offered⟩
  cases m with
  | subscribe room =>
      obtain old | ⟨_, rfl⟩ := getElem?_push_some.1 found
      · exact .inl old
      · cases serves
  | walk _ walks => exact .inl (turned walks.nowhere.2 found)
  | find | create | ask | turnAway | watch | fail | failClosed | startDead | remove | abort
  | watched =>
      exact .inl (turned rfl found)
  | join found₁ phase here _ live stream there running =>
      exact joined found₁ (by rw [phase]; rfl) here (Entry.started_of_stream stream)
        (by rw [phase]; rfl) there running rfl (offers_release _ here live stream) rfl found
  | @start j e t s₁ st found₁ phase there running =>
      obtain ⟨x, here, _, _, live, bare, pulls⟩ := owned.starts found₁ phase
      have started : x.started = some t := by rw [Entry.started, bare, Option.none_or, pulls]
      exact joined found₁ (by rw [phase]; rfl) here started (by rw [phase]; rfl) there running rfl
        (offers_started t _ here live) rfl found
  | reclaim here may =>
      rw [reclaim_eq here may] at found
      exact .inl found
  | _ => exact .inl found

/-- A new reader is there. -/
theorem Joins.isSome {i : Nat} {s : Subscriber} {st : Stream} (joins : Joins r r' i s h st) :
    (r'.cursorOf? h).isSome = true := by
  rw [Registry.cursorOf?, roomOf?, joins.streams, getElem?_modify_of _ joins.there, if_pos rfl,
    joins.cursor]
  simp [Stream.perform, Room.perform, Room.join, joins.running]

/-- Whoever has a reader has one that is there. -/
def Handed (r : Registry) : Prop :=
  ∀ (i : Nat) (s : Subscriber) (h : Reader), r.subscribers[i]? = some s →
    s.phase.reader? = some h → (r.cursorOf? h).isSome = true

/-- No move takes a reader away. -/
theorem Move.still_there (m : Move r a r') (there : (r.cursorOf? h).isSome = true) :
    (r'.cursorOf? h).isSome = true := by
  obtain ⟨c, found⟩ := Option.isSome_iff_exists.1 there
  obtain ⟨room, window, found⟩ := Option.bind_eq_some_iff.1 found
  obtain ⟨st, stream, rfl⟩ := Option.map_eq_some_iff.1 window
  obtain ⟨st', stream', became⟩ := m.room stream
  have size : st.room.cursors.size ≤ st'.room.cursors.size := by
    obtain same | ⟨op, became, _⟩ := became
    · rw [same]
    · rw [became]
      exact Room.perform_size_le op
  have inside := lt_size_of_getElem? found
  rw [Registry.cursorOf?, roomOf?, stream', Option.map_some, Option.bind_some,
    Array.getElem?_eq_getElem (by omega)]
  rfl

theorem Handed.move (h : r.Handed) (owned : r.Owned) (m : Move r a r') : r'.Handed := by
  intro i s g found serves
  obtain old | ⟨st, joins⟩ := m.serves owned found serves
  · exact m.still_there (h i s g old serves)
  · exact joins.isSome

/-- An action that does not use a reader leaves it alone. A reader that is new is fresh. -/
theorem perform?_cursorOf? (owned : r.Owned) (did : r.perform? a = some r')
    (unused : ∀ op, a.use? ≠ some (h, op)) :
    r'.cursorOf? h = r.cursorOf? h ∨
      r.cursorOf? h = none ∧ ∀ c ∈ r'.cursorOf? h, c.IsFresh := by
  have moves := perform?_moves owned.fresh did
  clear did
  induction moves with
  | refl => exact .inl rfl
  | tail _ last ih =>
      obtain same | ⟨none, fresh⟩ := last.cursorOf? unused
      · rw [same]
        exact ih
      · obtain same | ⟨none', _⟩ := ih
        · exact .inr ⟨same ▸ none, fresh⟩
        · exact .inr ⟨none', fresh⟩

/-- What is always true of the readers of a registry that began empty. -/
structure Regular (r : Registry) : Prop where
  owned : r.Owned
  laid : r.Laid
  handed : r.Handed

theorem Regular.perform (regular : r.Regular) (did : r.perform? a = some r') : r'.Regular := by
  refine Moves.preserve (P := Regular) (fun h m => ?_) regular
    (perform?_moves regular.owned.fresh did)
  exact ⟨h.owned.move m, h.laid.move h.owned m, h.handed.move h.owned m⟩

theorem Regular.run {acts : List Action} (regular : r.Regular) (ran : r.run? acts = some r') :
    r'.Regular :=
  run?_induction (P := fun _ r => r.Regular) regular (fun _ _ _ _ _ h did => h.perform did) ran

theorem empty_regular (capacity channelCapacity : Nat) :
    (Registry.empty capacity channelCapacity).Regular := by
  refine ⟨empty_owned _ _, ?_, ?_⟩
  · simp [Laid, Registry.empty]
  · simp [Handed, Registry.empty]

/-- Who does not use a reader gets nothing from it. -/
theorem readBy?_of_other (unused : ∀ op, a.use? ≠ some (h, op)) : r.readBy? h a = none := by
  cases a with
  | poll g cancelled =>
      rw [readBy?, if_neg]
      rintro rfl
      exact unused _ rfl
  | resume g =>
      rw [readBy?, if_neg]
      rintro rfl
      exact unused _ rfl
  | _ => rfl

/-- A reader that nobody has used is open and at rest, and nothing has been read with it. -/
theorem run?_unused {capacity channelCapacity : Nat} {acts : List Action}
    (ran : (Registry.empty capacity channelCapacity).run? acts = some r)
    (unused : ∀ a ∈ acts, ∀ op, a.use? ≠ some (h, op)) :
    (∀ c ∈ r.cursorOf? h, c.IsFresh) ∧
      (Registry.empty capacity channelCapacity).reads h acts = [] := by
  refine run?_induction (P := fun acts r => (∀ a ∈ acts, ∀ op, a.use? ≠ some (h, op)) →
    (∀ c ∈ r.cursorOf? h, c.IsFresh) ∧
      (Registry.empty capacity channelCapacity).reads h acts = [])
    (fun _ => ⟨?_, rfl⟩) ?_ ran unused
  · simp [cursorOf?, roomOf?, Registry.empty]
  · intro acts a r r' before ih did unused
    obtain ⟨fresh, nothing⟩ := ih fun b among => unused b (List.mem_append_left _ among)
    have other := unused a (by simp)
    refine ⟨?_, ?_⟩
    · obtain same | ⟨_, fresh'⟩ :=
        perform?_cursorOf? ((empty_regular capacity channelCapacity).run before).owned did other
      · rw [same]
        exact fresh
      · exact fresh'
    · rw [reads_snoc h a before, nothing, readBy?_of_other other]
      rfl

def openReadersBeside (r : Registry) (h : Reader) : Nat := ((r.roomOf? h).map (·.readers)).getD 0

theorem openReadersBeside_congr (streams : r'.streams = r.streams) (h : Reader) :
    r'.openReadersBeside h = r.openReadersBeside h := by
  rw [openReadersBeside, openReadersBeside, roomOf?, roomOf?, streams]

theorem hasLeft_of_cursorOf? {c : Cursor} (found : r.cursorOf? h = some c) :
    r.hasLeft h = c.closed := by
  obtain ⟨room, window, found⟩ := Option.bind_eq_some_iff.1 found
  rw [hasLeft, window, Option.all_some, Room.hasLeft, found, Option.all_some]

theorem isReading_of_cursorOf? {c : Cursor} (found : r.cursorOf? h = some c) :
    r.isReading h = c.wait.isSome := by
  obtain ⟨room, window, found⟩ := Option.bind_eq_some_iff.1 found
  rw [isReading, window, Option.any_some, Room.isReading, found, Option.any_some]

/-- Using a reader changes the number of open readers only by this reader. -/
theorem use_openReaders (laid : r.Laid) {op : Room.Op Event} (used : a.use? = some (h, op))
    (did : r.perform? a = some r') {c c' : Cursor} (found : r.cursorOf? h = some c)
    (found' : r'.cursorOf? h = some c') :
    r'.openReadersBeside h + (!c.closed).toNat = r.openReadersBeside h + (!c'.closed).toNat := by
  rw [perform?_use used] at did
  obtain rfl := Option.some.inj did
  obtain ⟨room, window, found⟩ := Option.bind_eq_some_iff.1 found
  obtain ⟨st, stream, rfl⟩ := Option.map_eq_some_iff.1 window
  obtain ⟨v, valid, same⟩ := laid _ st stream
  have window' : (r.modifyStream h.stream (·.perform op)).roomOf? h =
      some (v.perform op).1.room := by
    rw [roomOf?, modifyStream, getElem?_modify_of _ stream, if_pos rfl, Option.map_some,
      Stream.perform, same, Room.View.perform_room valid]
  rw [cursorOf?, window', Option.bind_some, Room.View.room_cursor?] at found'
  rw [same, Room.View.room_cursor?] at found
  obtain ⟨d, there, rfl⟩ := Option.map_eq_some_iff.1 found
  obtain ⟨d', there', rfl⟩ := Option.map_eq_some_iff.1 found'
  have count := Room.View.perform_openReaders (use?_reader used) there there'
  rw [openReadersBeside, openReadersBeside, window', window, same]
  exact count

/-- Using a reader does to its window what the action says. -/
theorem use_cursorOf? {op : Room.Op Event} (used : a.use? = some (h, op))
    (did : r.perform? a = some r') {c : Cursor} (found : r.cursorOf? h = some c) :
    ∃ room, r.roomOf? h = some room ∧ room.cursors[h.cursor]? = some c ∧
      r'.roomOf? h = some (room.perform op).1 := by
  rw [perform?_use used] at did
  obtain rfl := Option.some.inj did
  obtain ⟨room, window, found⟩ := Option.bind_eq_some_iff.1 found
  obtain ⟨st, stream, rfl⟩ := Option.map_eq_some_iff.1 window
  refine ⟨st.room, window, found, ?_⟩
  rw [roomOf?, modifyStream, getElem?_modify_of _ stream, if_pos rfl, Option.map_some]
  rfl

theorem beginRead_cursorOf? {c : Cursor} (cancelled : Bool) (found : r.cursorOf? h = some c) :
    (r.beginRead h cancelled).cursorOf? h = some { c with wait := some ⟨false, cancelled⟩ } := by
  obtain ⟨room, window, there, after⟩ :=
    use_cursorOf? (a := .beginRead h cancelled) rfl rfl found
  rw [cursorOf?, after, Option.bind_some]
  exact Room.modifyCursor_here there _

theorem abandon_cursorOf? {c : Cursor} (found : r.cursorOf? h = some c) :
    (r.abandon h).cursorOf? h = some { c with wait := none } := by
  obtain ⟨room, window, there, after⟩ := use_cursorOf? (a := .abandon h) rfl rfl found
  rw [cursorOf?, after, Option.bind_some]
  exact Room.modifyCursor_here there _

theorem leave_cursorOf? {c : Cursor} (found : r.cursorOf? h = some c) :
    (r.leave h).cursorOf? h = some { c with closed := true } := by
  obtain ⟨room, window, there, after⟩ := use_cursorOf? (a := .leave h) rfl rfl found
  rw [cursorOf?, after, Option.bind_some]
  exact Room.leave_here there

/-- A read that goes on has to wait, or has got an event, or has failed and closed its reader. -/
inductive Resumed (c : Cursor) : Option (Except StreamError Event) → Cursor → Prop
  | waits : Resumed c none { c with wait := c.wait.map fun w => { w with parked := true } }
  | got (e : Event) (node : Nat) : Resumed c (some (.ok e)) { c with node, wait := none }
  | failed (err : StreamError) :
    Resumed c (some (.error err)) { c with closed := true, wait := none }

theorem resume_cursorOf? {c : Cursor} (found : r.cursorOf? h = some c) :
    ∃ c', (r.resume h).1.cursorOf? h = some c' ∧ Resumed c (r.resume h).2 c' := by
  obtain ⟨room, window, there, after⟩ := use_cursorOf? (a := .resume h) rfl rfl found
  have answer : (r.resume h).2 = (room.resume h.cursor).2 := by
    rw [resume, readWith, window]
  rw [cursorOf?, after, Option.bind_some, answer]
  show ∃ c', (room.resume h.cursor).1.cursors[h.cursor]? = some c' ∧ _
  rw [Room.resume]
  split
  case h_1 => exact ⟨_, Room.modifyCursor_here there _, .waits⟩
  case h_2 result got =>
    cases result with
    | ok found =>
        obtain ⟨e, node⟩ := found
        exact ⟨_, Room.modifyCursor_here there _, .got e node⟩
    | error err =>
        exact ⟨_, Room.leave_here (Room.modifyCursor_here there _), .failed err⟩

theorem roomOf?_cancelRead (r : Registry) (h : Reader) :
    (r.cancelRead h).roomOf? h = (r.roomOf? h).map fun room => room.cancel h.cursor := by
  rw [cancelRead, onRoom, modifyRoom, modifyStream, roomOf?, roomOf?, Array.getElem?_modify,
    if_pos rfl, Option.map_map, Option.map_map]
  rfl

/-- A read that is given up can go on. -/
theorem canResume_cancelRead (reading : r.isReading h = true) :
    (r.cancelRead h).canResume h = true := by
  rw [canResume, roomOf?_cancelRead]
  rw [isReading] at reading
  cases there : r.roomOf? h with
  | none => simp [there] at reading
  | some room =>
      rw [there, Option.any_some, Room.isReading, Option.any_eq_true] at reading
      obtain ⟨c, found, waits⟩ := reading
      obtain ⟨w, waits⟩ := Option.isSome_iff_exists.1 waits
      rw [Option.map_some, Option.any_some, Room.canResume, Room.cancel,
        Room.modifyCursor_here found, waits]
      simp [Room.Chain.await?]

/-- A read that is given up and can go on fails, and has the same effect as a read that was given up
from the start. -/
theorem resume_cancelRead (able : (r.cancelRead h).canResume h = true) : ∃ err err',
    (r.cancelRead h).resume h = ((r.poll h true).1, some (.error err)) ∧
      (r.poll h true).2 = some (.error err') := by
  have window := r.roomOf?_cancelRead h
  rw [canResume, window] at able
  cases there : r.roomOf? h with
  | none => simp [there] at able
  | some room =>
      rw [there, Option.map_some, Option.any_some, Room.canResume] at able
      obtain ⟨c, w, found, waits⟩ : ∃ c w, room.cursors[h.cursor]? = some c ∧ c.wait = some w := by
        rw [Room.cancel, Room.modifyCursor, Array.getElem?_modify, if_pos rfl] at able
        cases found : room.cursors[h.cursor]? with
        | none => simp [found] at able
        | some c =>
            cases waits : c.wait with
            | none => simp [found, waits] at able
            | some w => exact ⟨c, w, rfl, waits⟩
      obtain ⟨err, err', resumes, polls⟩ := Room.resume_cancel found waits
      refine ⟨err, err', ?_, ?_⟩
      · rw [resume, readWith, window, there, Option.map_some, poll, readWith, there]
        dsimp only
        rw [resumes, cancelRead, onRoom, modifyRoom, modifyRoom, modifyRoom, modifyStream,
          modifyStream, modifyStream, modify_modify]
      · rw [poll, readWith, there]
        exact polls

theorem poll_cursorOf? {c : Cursor} (found : r.cursorOf? h = some c) :
    (r.poll h true).1.cursorOf? h = some { c with closed := true, wait := none } := by
  obtain ⟨room, window, there, after⟩ := use_cursorOf? (a := .poll h true) rfl rfl found
  obtain ⟨err', looks⟩ := Room.look?_cancelled room c
  rw [cursorOf?, after, Option.bind_some]
  show (room.poll h.cursor true).1.cursors[h.cursor]? = _
  rw [Room.poll, there, Option.bind_some, looks]
  exact Room.leave_here (Room.modifyCursor_here there _)

/-- Whoever gets a reader reads a stretch of the log of its room, from a place on that the log had
reached by then. When the reader waits and no event is on its way, it has read all the rest. -/
theorem run?_stretch {capacity channelCapacity : Nat} {acts : List Action}
    (ran : (Registry.empty capacity channelCapacity).run? acts = some r)
    (calm : ∀ room, Action.fault room .crash ∉ acts)
    (passed : (Registry.empty capacity channelCapacity).Passes acts r') {s : Subscriber}
    (among : s ∈ r'.subscribers) (served : s.phase = .done (.ok h)) :
    ∃ start, start ≤ (r'.store.fetch s.roomId).length ∧
      (Registry.empty capacity channelCapacity).reads h acts <+:
        (r.store.fetch s.roomId).drop start ∧
      (r.step? (.puller h.stream) = none → r.isReading h = true → r.canResume h = false →
        (Registry.empty capacity channelCapacity).reads h acts =
          (r.store.fetch s.roomId).drop start) := by
  obtain ⟨i, found⟩ := Array.mem_iff_getElem?.1 among
  obtain ⟨l, history⟩ := run?_history ran calm
  obtain ⟨st, c, there, room, reader, bound⟩ :=
    history.handed r' i s h passed found (reader?_eq_some_iff.2 served)
  have fed := history.describes.fed _ st there
  have within := fed.valid _ c reader
  have got : (Registry.empty capacity channelCapacity).reads h acts = c.got := by
    rw [← history.got, Ledger.got, Room.View.gotBy, reader]
    rfl
  have stretch : (Registry.empty capacity channelCapacity).reads h acts <+:
      (r.store.fetch s.roomId).drop (l.start h.stream + c.opened) := by
    rw [got, ← room, ← List.drop_drop]
    exact within.got_in_order.trans (List.IsPrefix.drop fed.stretch _)
  refine ⟨_, bound, stretch, fun idle reading stuck => stretch.eq_of_length ?_⟩
  have window : r.roomOf? h = some (l.view h.stream).room := by
    rw [roomOf?, there, Option.map_some, fed.laid]
  rw [isReading, window] at reading
  rw [canResume, window] at stuck
  obtain ⟨running, c', reader', last⟩ := waiting_at_end fed.valid reading stuck
  obtain rfl : c = c' := Option.some.inj (reader.symm.trans reader')
  have quiet : st.step? r.store = none := by
    simpa [step?, stepPuller?, there] using idle
  have all := fed.at_end running quiet
  rw [got, ← room, List.length_drop, ← all, ← last, Room.Reading.position]
  omega

def Action.published? (room : Uuid) : Action → Option Event
  | .emit e => if e.roomId = room then some e else none
  | _ => none

/-- A move that publishes nothing leaves all logs as they are. -/
theorem Move.logs (m : Move r a r') (silent : ∀ e, a ≠ .emit e) (sound : r.store.Sound) :
    r'.store.Sound ∧ ∀ room, r'.store.fetch room = r.store.fetch room := by
  cases m with
  | watched _ _ opened =>
      obtain ⟨keeps, fetched, _⟩ := sound.watch? opened
      exact ⟨keeps.sound, fetched⟩
  | emit => exact absurd rfl (silent _)
  | endFeed room =>
      obtain ⟨keeps, fetched⟩ := sound.closeRoom room
      exact ⟨keeps.sound, fetched⟩
  | reclaim here may =>
      rw [reclaim_eq here may]
      exact ⟨sound, fun _ => rfl⟩
  | _ => exact ⟨sound, fun _ => rfl⟩

theorem perform?_log (owned : r.Owned) (sound : r.store.Sound) (did : r.perform? a = some r') :
    r'.store.Sound ∧
      ∀ room, r'.store.fetch room = r.store.fetch room ++ (a.published? room).toList := by
  by_cases emits : ∃ e, a = .emit e
  · obtain ⟨e, rfl⟩ := emits
    obtain ⟨store, stored, rfl⟩ := Option.map_eq_some_iff.1 did
    obtain ⟨keeps, fetched⟩ := sound.emit? stored
    refine ⟨keeps.sound, fun room => (fetched room).trans ?_⟩
    by_cases here : e.roomId = room
    · rw [Action.published?, if_pos here, if_pos here.symm]
      rfl
    · rw [Action.published?, if_neg here, if_neg (Ne.symm here)]
      exact (List.append_nil _).symm
  · have silent : ∀ e, a ≠ .emit e := fun e same => emits ⟨e, same⟩
    have kept := Moves.preserve
      (P := fun s => s.store.Sound ∧ ∀ room, s.store.fetch room = r.store.fetch room)
      (fun h m => by
        obtain ⟨sound, same⟩ := m.logs silent h.1
        exact ⟨sound, fun room => (same room).trans (h.2 room)⟩)
      ⟨sound, fun _ => rfl⟩ (perform?_moves owned.fresh did)
    refine ⟨kept.1, fun room => (kept.2 room).trans ?_⟩
    have none : a.published? room = none := by
      cases a <;> first | rfl | exact absurd rfl (silent _)
    rw [none]
    exact (List.append_nil _).symm

/-- The log of a room holds the events that have been published in it, in their order. -/
theorem run?_log {capacity channelCapacity : Nat} {acts : List Action}
    (ran : (Registry.empty capacity channelCapacity).run? acts = some r) (room : Uuid) :
    r.store.fetch room = acts.filterMap (Action.published? room) := by
  refine (run?_induction (P := fun acts r => r.store.Sound ∧
    r.store.fetch room = acts.filterMap (Action.published? room))
    ⟨Store.empty_sound _, rfl⟩ (fun acts a r r' before ih did => ?_) ran).2
  have owned := ((empty_regular capacity channelCapacity).run before).owned
  obtain ⟨sound, log⟩ := perform?_log owned ih.1 did
  refine ⟨sound, ?_⟩
  rw [log, ih.2, List.filterMap_append]
  cases published : a.published? room <;> simp [published]

end Registry

end Roomcast

import Roomcast.Proofs.Counting

/-!
# Nobody waits in vain

A reader that finds nothing to read parks at its node. It is told to go on when the node is
released, which is done once the node has a successor or the room ends, and when the token of its
read fires. Giving a node up tells nobody. `Waking` keeps track of who has been told, and of what
became of every read that was begun, beside the room itself. Those who have been told are always
those who can go on, so when nobody is left who has been told, everyone who still waits does so at
the newest node of an open room with a token that has not fired, and everyone else has got a result.
-/

namespace Roomcast.Room

variable {α : Type}

/-- A read that may wait. -/
structure Call (α : Type) where
  reader : Nat
  /-- The node at which the reader stood. -/
  node : Nat
  /-- Whether the reader was closed. -/
  closed : Bool
  /-- Whether the token has fired before the read ended. -/
  fired : Bool
  /-- What the read got. -/
  result : Option (Except StreamError α)

def Call.isPending (i : Nat) (call : Call α) : Bool := call.reader = i && call.result.isNone

/-- Whether something can be done: a reader that is reading cannot be asked for anything else. -/
def allows (r : Room α) : Op α → Bool
  | .poll i _ | .beginRead i _ | .leave i => !r.isReading i
  | _ => true

def parkedAt (r : Room α) (node : Nat) : List Nat :=
  (List.range r.cursors.size).filter fun i =>
    (r.cursors[i]?).any fun c => c.node = node && c.wait.any (·.parked)

/-- A room, the reads that were begun and not given up, and the readers that have been told to go
on. -/
structure Waking (α : Type) where
  room : Room α
  calls : List (Call α)
  told : List Nat

namespace Waking

def empty (capacity : Nat) : Waking α := ⟨.empty capacity, [], []⟩

def callsAfter (s : Waking α) : Op α → Answer α → List (Call α)
  | .beginRead i cancelled, _ =>
    s.calls ++
      ((s.room.cursors[i]?).map fun c => ⟨i, c.node, c.closed, cancelled, none⟩).toList
  | .cancel i, _ => s.calls.map fun c => if c.isPending i then { c with fired := true } else c
  | .resume i, .read result =>
    s.calls.map fun c => if c.isPending i then { c with result } else c
  | .abandon i, _ | .drop i, _ => s.calls.filter fun c => !c.isPending i
  | _, _ => s.calls

/-- Who has been told to go on. A new read goes on by itself at first. Appending an event and ending
the room release the head, which tells all who are parked there. Nodes are also given up then, and
nobody is told of that. -/
def toldAfter (s : Waking α) : Op α → Answer α → List Nat
  | .append _, .appended (.ok _) => s.told ++ s.room.parkedAt s.room.chain.head
  | .close, _ => if s.room.isClosed then s.told else s.told ++ s.room.parkedAt s.room.chain.head
  | .beginRead i _, _ => if i < s.room.cursors.size then s.told ++ [i] else s.told
  | .cancel i, _ => if s.room.isReading i then s.told ++ [i] else s.told
  | .resume i, _ | .abandon i, _ | .drop i, _ => s.told.filter (· ≠ i)
  | _, _ => s.told

/-- Does something with the room, if it can be done. -/
def act (s : Waking α) (op : Op α) : Waking α :=
  if s.room.allows op then
    ⟨(s.room.perform op).1, s.callsAfter op (s.room.perform op).2,
      s.toldAfter op (s.room.perform op).2⟩
  else s

def run (s : Waking α) (ops : List (Op α)) : Waking α := ops.foldl act s

end Waking

namespace Window

variable {w : Window α} {p : Nat} {cancelled : Bool}

theorem await?_eq_none_iff :
    w.await? p cancelled = none ↔
      cancelled = false ∧ w.closed = false ∧ w.events.length ≤ p := by
  rw [await?]
  split_ifs with fired lost
  · simp [fired]
  · obtain ended | behind := lost_iff.1 lost
    · simp [ended]
    · simp
      omega
  · have isOpen := (lost_eq_false.1 (by simpa using lost)).1
    simp [fired, isOpen]

theorem poll?_eq_none_iff :
    w.poll? p cancelled = none ↔
      cancelled = false ∧ w.closed = false ∧ w.events.length ≤ p := by
  rw [← await?_eq_none_iff, poll?, await?]
  split_ifs <;> rfl

end Window

namespace View

variable {v : View α}

/-- A read that has begun has to wait if and only if nothing has come and nothing has ended. -/
theorem goOn?_eq_none_iff {c : Reading α} {w : Wait} (wait : c.wait = some w) :
    v.goOn? c = none ↔ w.cancelled = false ∧ v.window.closed = false ∧
      v.window.events.length ≤ c.position ∧ (w.parked = true ∨ c.closed = false) := by
  rw [goOn?, wait, Option.bind_some]
  by_cases parked : w.parked = true
  · simp [parked, Window.await?_eq_none_iff]
  · rw [if_neg parked, look?]
    cases c.closed <;> simp [parked, Window.poll?_eq_none_iff]

/-- A read that has begun goes on: it has not looked for an event yet, or would get a result. -/
def GoesOn (v : View α) (c : Reading α) (w : Wait) : Prop :=
  w.parked = false ∨ w.cancelled = true ∨ v.window.closed = true ∨
    c.position < v.window.events.length

def Stirs (v : View α) (i : Nat) : Prop :=
  ∃ c w, v.readers[i]? = some c ∧ c.wait = some w ∧ v.GoesOn c w

theorem stirs_iff_canResume (valid : v.Valid) (i : Nat) :
    v.Stirs i ↔ v.room.canResume i = true := by
  rw [Room.canResume, room_cursor?]
  cases found : v.readers[i]? with
  | none => simp [Stirs, found]
  | some c =>
      cases wait : c.wait with
      | none => simp [Stirs, found, wait, Reading.cursor]
      | some w =>
          have before := (valid i c found).position_le
          have able : (v.room.chain.await? c.position w.cancelled).isSome = true ↔
              w.cancelled = true ∨ v.window.closed = true ∨
                c.position < v.window.events.length := by
            show (v.window.chain.await? c.position w.cancelled).isSome = true ↔ _
            rw [Window.await?_chain before, Option.isSome_map, ← Option.ne_none_iff_isSome, Ne,
              Window.await?_eq_none_iff, ← Nat.not_lt]
            cases w.cancelled <;> cases v.window.closed <;> simp
          simp [Stirs, found, wait, Reading.cursor, GoesOn, able]

theorem isReading_iff (v : View α) (i : Nat) :
    v.room.isReading i = true ↔ ∃ c w, v.readers[i]? = some c ∧ c.wait = some w := by
  rw [Room.isReading, room_cursor?]
  cases found : v.readers[i]? with
  | none => simp
  | some c => cases wait : c.wait <;> simp [Reading.cursor, wait]

theorem mem_parkedAt (v : View α) (i node : Nat) :
    i ∈ v.room.parkedAt node ↔ ∃ c w, v.readers[i]? = some c ∧ c.wait = some w ∧
      w.parked = true ∧ c.position = node := by
  rw [parkedAt, List.mem_filter, room_cursor?]
  cases found : v.readers[i]? with
  | none => simp
  | some c =>
      have inside : i < v.room.cursors.size := by simpa [room] using lt_size_of_getElem? found
      cases wait : c.wait with
      | none => simp [wait, Reading.cursor]
      | some w => simp [wait, Reading.cursor, inside, and_comm]

theorem readers_other (v : View α) {op : Op α} {i : Nat} (other : op.reader? ≠ some i)
    (stays : op ≠ .join) : (v.perform op).1.readers[i]? = v.readers[i]? := by
  cases found : v.readers[i]? with
  | some c => exact v.perform_reader? other found
  | none =>
      rw [Array.getElem?_eq_none_iff] at found ⊢
      rw [perform_size v stays]
      exact found

/-- Nobody begins to read by what is done to others. -/
theorem reading_other (v : View α) {op : Op α} {i : Nat} (other : op.reader? ≠ some i)
    {c : Reading α} {w : Wait} (found : (v.perform op).1.readers[i]? = some c)
    (wait : c.wait = some w) : v.readers[i]? = some c := by
  by_cases new : op = .join
  · subst new
    simp only [perform] at found
    split_ifs at found with ended
    · exact found
    · obtain there | ⟨-, rfl⟩ := getElem?_push_some.1 found
      · exact there
      · cases wait
  · exact (v.readers_other other new).symm.trans found

/-- An ended log stays ended. -/
theorem closed_perform (op : Op α) (ended : v.window.closed = true) :
    (v.perform op).1.window.closed = true := by
  rw [perform_window]
  cases op <;> simp [ended, Window.close]

theorem length_le_perform (v : View α) (op : Op α) :
    v.window.events.length ≤ (v.perform op).1.window.events.length := by
  rw [perform_window]
  cases op with
  | append event =>
      dsimp only
      split_ifs <;> simp
  | _ => exact Nat.le_refl _

theorem stirs_congr {v v' : View α} {i : Nat} (reader : v'.readers[i]? = v.readers[i]?)
    (window : v'.window = v.window) : v'.Stirs i ↔ v.Stirs i := by
  simp only [Stirs, GoesOn, reader, window]

/-- What is done to another reader does not matter. -/
theorem stirs_other {op : Op α} {i j : Nat} (own : op.reader? = some j) (apart : j ≠ i) :
    (v.perform op).1.Stirs i ↔ v.Stirs i := by
  refine stirs_congr (v.readers_other (by simpa [own] using apart) ?_) ?_
  · rintro rfl
    cases own
  · rw [perform_window]
    cases op <;> first | rfl | cases own

section Own

variable {i : Nat} {c : Reading α} (found : v.readers[i]? = some c)
include found

theorem reader_modifyReader (f : Reading α → Reading α) :
    (v.modifyReader i f).readers[i]? = some (f c) := by
  rw [modifyReader, Array.getElem?_modify, if_pos rfl, found]
  rfl

theorem perform_resume :
    v.perform (.resume i) =
      match v.goOn? c with
      | none => (v.modifyReader i fun c =>
          { c with wait := c.wait.map fun w => { w with parked := true } }, .read none)
      | some result => (v.settle i result, .read (some result)) := by
  rw [perform, resume, found, Option.bind_some]
  cases v.goOn? c <;> rfl

theorem resume_result : (v.resume i).2 = v.goOn? c := by
  rw [resume, found, Option.bind_some]
  cases v.goOn? c <;> rfl

/-- A read that has gone on has ended, or its reader is parked. -/
theorem wait_resume {c' : Reading α} {w' : Wait}
    (found' : (v.perform (.resume i)).1.readers[i]? = some c') (wait' : c'.wait = some w') :
    v.goOn? c = none ∧ ∃ w, c.wait = some w ∧
      c' = { c with wait := some { w with parked := true } } := by
  rw [perform_resume found] at found'
  cases got : v.goOn? c with
  | some result =>
      rw [got] at found'
      have ended := Option.some.inj (found'.symm.trans (reader_modifyReader found _))
      rw [ended] at wait'
      cases result <;> cases wait'
  | none =>
      rw [got] at found'
      have parked := Option.some.inj (found'.symm.trans (reader_modifyReader found _))
      rw [parked] at wait'
      obtain ⟨w, wait, -⟩ := Option.map_eq_some_iff.1 wait'
      refine ⟨rfl, w, wait, ?_⟩
      rw [parked, wait]
      rfl

end Own

def Idle (v : View α) (i : Nat) : Prop := ∀ c, v.readers[i]? = some c → c.wait = none

theorem not_isReading_iff (v : View α) (i : Nat) : v.room.isReading i = false ↔ v.Idle i := by
  rw [Room.isReading, room_cursor?]
  cases found : v.readers[i]? <;> simp [Idle, found, Reading.cursor]

theorem not_stirs_of_idle {i : Nat} (idle : v.Idle i) : ¬ v.Stirs i := by
  rintro ⟨c, w, found, wait, _⟩
  rw [idle c found] at wait
  cases wait

theorem idle_modifyReader {i : Nat} {f : Reading α → Reading α}
    (idle : ∀ c, v.readers[i]? = some c → (f c).wait = none) : (v.modifyReader i f).Idle i := by
  intro c' found'
  rw [modifyReader, Array.getElem?_modify, if_pos rfl] at found'
  obtain ⟨c, found, rfl⟩ := Option.map_eq_some_iff.1 found'
  exact idle c found

theorem idle_settle (v : View α) (i : Nat) (result : Except StreamError α) :
    (v.settle i result).Idle i :=
  idle_modifyReader fun c _ => by cases result <;> rfl

/-- A reader that does not read is not made to, except by beginning a read. -/
theorem idle_perform {op : Op α} {i : Nat} (own : op.reader? = some i) (idle : v.Idle i)
    (waits : ∀ cancelled, op ≠ .beginRead i cancelled) : (v.perform op).1.Idle i := by
  cases op with
  | join | append | close => cases own
  | beginRead j cancelled =>
      cases own
      exact absurd rfl (waits cancelled)
  | poll j cancelled =>
      cases own
      simp only [perform, poll]
      cases (v.readers[i]?).bind (v.look? · cancelled) with
      | none => exact idle
      | some result => exact v.idle_settle i result
  | resume j =>
      cases own
      simp only [perform, resume]
      cases (v.readers[i]?).bind v.goOn? with
      | none => exact idle_modifyReader fun c found => by simp [idle c found]
      | some result => exact v.idle_settle i result
  | cancel j =>
      cases own
      exact idle_modifyReader fun c found => by simp [idle c found]
  | abandon j | drop j =>
      cases own
      exact idle_modifyReader fun _ _ => rfl
  | leave j =>
      cases own
      exact idle_modifyReader fun c found => idle c found

theorem idle_abandon (v : View α) (i : Nat) : (v.perform (.abandon i)).1.Idle i :=
  idle_modifyReader fun _ _ => rfl

theorem idle_drop (v : View α) (i : Nat) : (v.perform (.drop i)).1.Idle i :=
  idle_modifyReader fun _ _ => rfl

/-- A reader that has gone on cannot go on again at once. -/
theorem not_stirs_resume (v : View α) (i : Nat) : ¬ (v.perform (.resume i)).1.Stirs i := by
  rintro ⟨c', w', found', wait', goes⟩
  obtain ⟨c, found⟩ : ∃ c, v.readers[i]? = some c := by
    refine ⟨_, Array.getElem?_eq_getElem ?_⟩
    rw [← perform_size v (show Op.resume i ≠ .join by simp)]
    exact lt_size_of_getElem? found'
  obtain ⟨waits, w, wait, rfl⟩ := wait_resume found found' wait'
  obtain rfl := Option.some.inj wait'
  obtain ⟨unfired, isOpen, last, _⟩ := (goOn?_eq_none_iff wait).1 waits
  rw [GoesOn, perform_window] at goes
  simp [unfired, isOpen, Reading.position] at goes
  rw [Reading.position] at last
  omega

/-- Releasing the head stirs those who are parked there. -/
theorem stirs_release (v : View α) (window : Window α)
    (goes : ∀ (i : Nat) c w, v.readers[i]? = some c →
      (({ v with window } : View α).GoesOn c w ↔
        v.GoesOn c w ∨ w.parked = true ∧ c.position = v.window.events.length))
    (i : Nat) : ({ v with window } : View α).Stirs i ↔
      v.Stirs i ∨ i ∈ v.room.parkedAt v.room.chain.head := by
  rw [mem_parkedAt, Stirs, Stirs]
  constructor
  · rintro ⟨c, w, found, wait, on⟩
    obtain on | ⟨parked, last⟩ := (goes i c w found).1 on
    · exact .inl ⟨c, w, found, wait, on⟩
    · exact .inr ⟨c, w, found, wait, parked, last⟩
  · rintro (⟨c, w, found, wait, on⟩ | ⟨c, w, found, wait, parked, last⟩)
    · exact ⟨c, w, found, wait, (goes i c w found).2 (.inl on)⟩
    · exact ⟨c, w, found, wait, (goes i c w found).2 (.inr ⟨parked, last⟩)⟩

theorem stirs_extend (valid : v.Valid) (isOpen : v.window.closed = false) (event : α) :
    ∀ i, ({ v with window := v.window.extend event } : View α).Stirs i ↔
      v.Stirs i ∨ i ∈ v.room.parkedAt v.room.chain.head := by
  refine v.stirs_release _ fun i c w found => ?_
  have before := (valid i c found).position_le
  have next : c.position < v.window.events.length + 1 ↔
      c.position < v.window.events.length ∨ c.position = v.window.events.length := by omega
  simp only [GoesOn, isOpen, Window.extend, List.length_append, List.length_singleton, next]
  cases w.parked <;> simp [or_assoc]

theorem stirs_close (valid : v.Valid) :
    ∀ i, ({ v with window := v.window.close } : View α).Stirs i ↔
      v.Stirs i ∨ i ∈ v.room.parkedAt v.room.chain.head := by
  refine v.stirs_release _ fun i c w found => ?_
  have place := Nat.lt_or_eq_of_le (valid i c found).position_le
  simp only [GoesOn, Window.close, true_or, or_true, true_iff]
  cases w.parked <;> simp [or_assoc, place]

end View

namespace View

/-- A read that has no result is going on in its reader, which has not moved. A reader that was
closed is not parked. -/
def Pends (v : View α) (call : Call α) : Prop :=
  ∃ c w, v.readers[call.reader]? = some c ∧ c.wait = some w ∧ c.position = call.node ∧
    c.closed = call.closed ∧ w.cancelled = call.fired ∧ (w.parked = true → c.closed = false)

theorem Pends.reader {v : View α} {call : Call α} (h : v.Pends call) :
    ∃ c, v.readers[call.reader]? = some c := by
  obtain ⟨c, _, found, _⟩ := h
  exact ⟨c, found⟩

/-- There is a reason for which a read that has a result did not have to wait. -/
def Spared (v : View α) (call : Call α) : Prop :=
  call.closed = true ∨ call.fired = true ∨ v.window.closed = true ∨
    call.node < v.window.events.length

theorem Spared.perform {v : View α} {call : Call α} (h : v.Spared call) (op : Op α) :
    (v.perform op).1.Spared call := by
  obtain shut | fired | gone | further := h
  · exact .inl shut
  · exact .inr (.inl fired)
  · exact .inr (.inr (.inl (closed_perform op gone)))
  · exact .inr (.inr (.inr (further.trans_le (v.length_le_perform op))))

/-- A read waits only as long as it has to. -/
def Fits (v : View α) (call : Call α) : Prop :=
  (call.result = none → v.Pends call) ∧ (call.result ≠ none → v.Spared call)

/-- Whatever concerns another reader, or comes after the end of a read, changes nothing in it. -/
theorem Fits.perform {v : View α} {call : Call α} (h : v.Fits call) {op : Op α}
    (other : call.result = none → op.reader? ≠ some call.reader) :
    (v.perform op).1.Fits call := by
  refine ⟨fun pending => ?_, fun ended => (h.2 ended).perform op⟩
  obtain ⟨c, w, found, rest⟩ := h.1 pending
  exact ⟨c, w, v.perform_reader? (other pending) found, rest⟩

/-- A read that goes on and gets a result did not have to wait. -/
theorem Pends.spared {v : View α} {call : Call α} (h : v.Pends call) {c : Reading α}
    (found : v.readers[call.reader]? = some c) (got : v.goOn? c ≠ none) : v.Spared call := by
  obtain ⟨c', w, found', wait, place, shut, fired, _⟩ := h
  obtain rfl := Option.some.inj (found.symm.trans found')
  by_contra stays
  simp only [Spared, not_or, Bool.not_eq_true, Nat.not_lt] at stays
  obtain ⟨isOpen, unfired, lasts, last⟩ := stays
  refine got ((goOn?_eq_none_iff wait).2 ⟨?_, lasts, ?_, .inr ?_⟩)
  · rw [fired, unfired]
  · rwa [place]
  · rw [shut, isOpen]

/-- A read that goes on and gets no result is still going on. -/
theorem Pends.resume {v : View α} {call : Call α} (h : v.Pends call) {c : Reading α}
    (found : v.readers[call.reader]? = some c) (waits : v.goOn? c = none) :
    (v.perform (.resume call.reader)).1.Pends call := by
  obtain ⟨c', w, found', wait, place, shut, fired, parks⟩ := h
  obtain rfl := Option.some.inj (found.symm.trans found')
  obtain ⟨_, _, _, stays⟩ := (goOn?_eq_none_iff wait).1 waits
  refine ⟨{ c with wait := some { w with parked := true } }, { w with parked := true }, ?_, rfl,
    place, shut, fired, fun _ => ?_⟩
  · rw [perform_resume found, waits]
    have parked := reader_modifyReader found fun c =>
      { c with wait := c.wait.map fun w => { w with parked := true } }
    rw [wait] at parked
    exact parked
  · exact stays.elim parks id

end View

namespace Waking

variable {s : Waking α} {v : View α}

theorem Call.isPending_iff {i : Nat} {call : Call α} :
    call.isPending i = true ↔ call.reader = i ∧ call.result = none := by
  simp [Call.isPending]

theorem Call.isPending_of_ne {i j : Nat} {call : Call α} (pending : call.isPending i = true)
    (apart : j ≠ i) : call.isPending j = false := by
  obtain ⟨rfl, _⟩ := Call.isPending_iff.1 pending
  simp [Call.isPending, apart.symm]

/-- A room and its calls are those of a view, and the readers are told that stir. -/
structure Tracked (s : Waking α) (v : View α) : Prop where
  valid : v.Valid
  room : s.room = v.room
  told_iff : ∀ i, i ∈ s.told ↔ v.Stirs i
  fits : ∀ call ∈ s.calls, v.Fits call
  reading : ∀ (i : Nat) c w, v.readers[i]? = some c → c.wait = some w →
    ∃ call ∈ s.calls, call.isPending i = true

theorem empty_tracked (capacity : Nat) : (empty capacity : Waking α).Tracked (.empty capacity) where
  valid := View.empty_valid capacity
  room := (View.empty_room capacity).symm
  told_iff i := by simp [empty, View.Stirs, View.empty]
  fits call among := by cases among
  reading i c w found := by simp [View.empty] at found

namespace Tracked

/-- Those who are told are told right if what is done concerns one reader and that one is. -/
theorem told_own (h : s.Tracked v) {op : Op α} {j : Nat} (own : op.reader? = some j)
    {told : List Nat} (others : ∀ i, i ≠ j → (i ∈ told ↔ i ∈ s.told))
    (itself : j ∈ told ↔ (v.perform op).1.Stirs j) (i : Nat) :
    i ∈ told ↔ (v.perform op).1.Stirs i := by
  by_cases same : i = j
  · rw [same]
    exact itself
  · rw [others i same, h.told_iff, View.stirs_other own (Ne.symm same)]

/-- Nothing is to be told to a reader that does not read. -/
theorem told_idle (h : s.Tracked v) {op : Op α} {j : Nat} (own : op.reader? = some j)
    (before : v.Idle j) (after : (v.perform op).1.Idle j) (i : Nat) :
    i ∈ s.told ↔ (v.perform op).1.Stirs i := by
  refine h.told_own own (fun _ _ => Iff.rfl) ?_ i
  rw [h.told_iff]
  exact iff_of_false (View.not_stirs_of_idle before) (View.not_stirs_of_idle after)

/-- A reader that has ended its read, or been parked, need not be told any more. -/
theorem told_still (h : s.Tracked v) {op : Op α} {j : Nat} (own : op.reader? = some j)
    (still : ¬ (v.perform op).1.Stirs j) (i : Nat) :
    i ∈ s.told.filter (· ≠ j) ↔ (v.perform op).1.Stirs i := by
  refine h.told_own own (fun k apart => by simp [apart]) ?_ i
  exact iff_of_false (by simp) still

/-- A reader that begins to read, or whose token fires, is told. -/
theorem told_stirred (h : s.Tracked v) {op : Op α} {j : Nat} (own : op.reader? = some j)
    (stirred : (v.perform op).1.Stirs j) (i : Nat) :
    i ∈ s.told ++ [j] ↔ (v.perform op).1.Stirs i :=
  h.told_own own (fun k apart => by simp [apart]) (iff_of_true (by simp) stirred) i

theorem toldAfter_iff (h : s.Tracked v) {op : Op α} (allowed : s.room.allows op = true) (i : Nat) :
    i ∈ s.toldAfter op (v.perform op).2 ↔ (v.perform op).1.Stirs i := by
  rw [h.room] at allowed
  cases op with
  | join =>
      simp only [toldAfter, h.told_iff, View.perform]
      split_ifs with ended
      · rfl
      · simp only [View.Stirs, View.GoesOn, Array.getElem?_push]
        by_cases new : i = v.readers.size <;> simp [new]
  | append event =>
      simp only [View.perform, Window.append]
      cases ended : v.window.closed with
      | true => exact h.told_iff i
      | false =>
          refine Iff.trans ?_ (View.stirs_extend h.valid ended event i).symm
          simp only [toldAfter, if_neg Bool.false_ne_true, List.mem_append, h.told_iff, h.room]
  | close =>
      refine Iff.trans ?_ (View.stirs_close h.valid i).symm
      simp only [toldAfter, h.room]
      split_ifs with ended
      · -- In a room that has ended everyone who reads has been told.
        refine (h.told_iff i).trans (or_iff_left_of_imp fun parked => ?_).symm
        obtain ⟨c, w, found, wait, _⟩ := (v.mem_parkedAt i _).1 parked
        exact ⟨c, w, found, wait, .inr (.inr (.inl ended))⟩
      · rw [List.mem_append, h.told_iff]
  | poll j | leave j =>
      have idle : v.Idle j := by simpa [allows, View.not_isReading_iff] using allowed
      exact h.told_idle rfl idle (View.idle_perform rfl idle (by simp)) i
  | beginRead j cancelled =>
      have idle : v.Idle j := by simpa [allows, View.not_isReading_iff] using allowed
      simp only [toldAfter]
      split_ifs with inside
      · obtain ⟨c, found⟩ : ∃ c, v.readers[j]? = some c :=
          ⟨_, Array.getElem?_eq_getElem (by simpa [h.room, View.room] using inside)⟩
        exact h.told_stirred rfl ⟨_, _, View.reader_modifyReader found _, rfl, .inl rfl⟩ i
      · refine h.told_idle rfl idle (fun c found => absurd (lt_size_of_getElem? found) ?_) i
        rw [View.perform_size v (by simp)]
        simpa [h.room, View.room] using inside
  | cancel j =>
      simp only [toldAfter, h.room]
      cases reading : v.room.isReading j with
      | true =>
          obtain ⟨c, w, found, wait⟩ := (v.isReading_iff j).1 reading
          have fired := View.reader_modifyReader found fun c : Reading α =>
            { c with wait := c.wait.map fun w => { w with cancelled := true } }
          rw [wait] at fired
          exact h.told_stirred rfl ⟨_, _, fired, rfl, .inr (.inl rfl)⟩ i
      | false =>
          have idle := (v.not_isReading_iff j).1 reading
          exact h.told_idle rfl idle (View.idle_perform rfl idle (by simp)) i
  | resume j => exact h.told_still rfl (v.not_stirs_resume j) i
  | abandon j => exact h.told_still rfl (View.not_stirs_of_idle (v.idle_abandon j)) i
  | drop j => exact h.told_still rfl (View.not_stirs_of_idle (v.idle_drop j)) i

/-- A read that is going on is one of a reader that reads. -/
theorem apart_of_idle (h : s.Tracked v) {call : Call α} (among : call ∈ s.calls) {j : Nat}
    (idle : v.Idle j) (pending : call.result = none) : j ≠ call.reader := by
  rintro rfl
  obtain ⟨c, w, found, wait, _⟩ := (h.fits call among).1 pending
  rw [idle c found] at wait
  cases wait

/-- Calls that are not what an operation is about are as they were. -/
theorem fits_other (h : s.Tracked v) {op : Op α} {j : Nat} (own : op.reader? = some j)
    {call : Call α} (among : call ∈ s.calls) (other : call.isPending j = false) :
    (v.perform op).1.Fits call := by
  refine (h.fits call among).perform fun pending => ?_
  rw [own]
  rintro same
  simp [Call.isPending, Option.some.inj same, pending] at other

theorem callsAfter_fit (h : s.Tracked v) {op : Op α} (allowed : s.room.allows op = true)
    {call : Call α} (among : call ∈ s.callsAfter op (v.perform op).2) :
    (v.perform op).1.Fits call := by
  rw [h.room] at allowed
  cases op with
  | join | append | close =>
      exact (h.fits call among).perform fun _ => by simp [Op.reader?]
  | poll j | leave j =>
      have idle : v.Idle j := by simpa [allows, View.not_isReading_iff] using allowed
      exact (h.fits call among).perform fun pending =>
        by simpa [Op.reader?] using h.apart_of_idle among idle pending
  | beginRead j cancelled =>
      have idle : v.Idle j := by simpa [allows, View.not_isReading_iff] using allowed
      obtain old | new := List.mem_append.1 among
      · exact (h.fits call old).perform fun pending =>
          by simpa [Op.reader?] using h.apart_of_idle old idle pending
      · rw [h.room, View.room_cursor?, Option.map_map, Option.mem_toList] at new
        obtain ⟨c, found, rfl⟩ := Option.map_eq_some_iff.1 new
        exact ⟨fun _ => ⟨_, _, View.reader_modifyReader found _, rfl, rfl, rfl, rfl, by simp⟩,
          fun ended => absurd rfl ended⟩
  | cancel j =>
      obtain ⟨call₀, among₀, rfl⟩ := List.mem_map.1 among
      split_ifs with own
      · obtain ⟨rfl, pending⟩ := Call.isPending_iff.1 own
        obtain ⟨c, w, found, wait, place, shut, _, parks⟩ := (h.fits call₀ among₀).1 pending
        have fired := View.reader_modifyReader found fun c : Reading α =>
          { c with wait := c.wait.map fun w => { w with cancelled := true } }
        rw [wait] at fired
        exact ⟨fun _ => ⟨_, _, fired, rfl, place, shut, rfl, parks⟩, fun _ => .inr (.inl rfl)⟩
      · exact h.fits_other rfl among₀ (by simpa using own)
  | resume j =>
      obtain ⟨call₀, among₀, rfl⟩ := List.mem_map.1 among
      split_ifs with own
      · obtain ⟨rfl, pending⟩ := Call.isPending_iff.1 own
        have pends := (h.fits call₀ among₀).1 pending
        obtain ⟨c, found⟩ := pends.reader
        have went : (v.resume call₀.reader).2 = v.goOn? c := View.resume_result found
        refine ⟨fun waits => pends.resume found (went.symm.trans waits), fun ended => ?_⟩
        exact View.Spared.perform (pends.spared found (went.symm.trans_ne ended)) _
      · exact h.fits_other rfl among₀ (by simpa using own)
  | abandon j | drop j =>
      obtain ⟨old, other⟩ := List.mem_filter.1 among
      exact h.fits_other rfl old (by simpa using other)

/-- A call that is going on is so still after what is done to others. -/
theorem mem_callsAfter_other {op : Op α} {i : Nat} (other : op.reader? ≠ some i) {call : Call α}
    (among : call ∈ s.calls) (pending : call.isPending i = true) (answer : Answer α) :
    call ∈ s.callsAfter op answer := by
  cases op with
  | join | append | close | poll | leave => simpa [callsAfter] using among
  | beginRead j cancelled => exact List.mem_append_left _ among
  | cancel j =>
      have apart := Call.isPending_of_ne pending fun same => other (congrArg some same)
      exact List.mem_map.2 ⟨call, among, by simp [apart]⟩
  | resume j =>
      have apart := Call.isPending_of_ne pending fun same => other (congrArg some same)
      cases answer with
      | read result => exact List.mem_map.2 ⟨call, among, by simp [apart]⟩
      | joined | appended | silent => simpa [callsAfter] using among
  | abandon j | drop j =>
      have apart := Call.isPending_of_ne pending fun same => other (congrArg some same)
      exact List.mem_filter.2 ⟨among, by simp [apart]⟩

/-- Who reads after an operation, and has not been asked to begin, has read before. -/
theorem reading_before (h : s.Tracked v) {op : Op α} {i : Nat} (own : op.reader? = some i)
    (waits : ∀ cancelled, op ≠ .beginRead i cancelled) (reads : ¬ (v.perform op).1.Idle i) :
    (∃ c, v.readers[i]? = some c) ∧ ∃ call ∈ s.calls, call.isPending i = true := by
  have before : ¬ v.Idle i := fun idle => reads (View.idle_perform own idle waits)
  rw [← View.not_isReading_iff, Bool.not_eq_false, View.isReading_iff] at before
  obtain ⟨c, w, found, wait⟩ := before
  exact ⟨⟨c, found⟩, h.reading i c w found wait⟩

/-- Who reads after an operation has a call that is going on. -/
theorem callsAfter_reading (h : s.Tracked v) {op : Op α} (allowed : s.room.allows op = true)
    {i : Nat} {c : Reading α} {w : Wait} (found : (v.perform op).1.readers[i]? = some c)
    (wait : c.wait = some w) :
    ∃ call ∈ s.callsAfter op (v.perform op).2, call.isPending i = true := by
  have reads : ¬ (v.perform op).1.Idle i := fun idle => by
    rw [idle c found] at wait
    cases wait
  -- Nobody is made to read by others, so apart from those the operation is one on the reader.
  by_cases other : op.reader? ≠ some i
  · obtain ⟨call, among, pending⟩ := h.reading i c w (v.reading_other other found wait) wait
    exact ⟨call, mem_callsAfter_other other among pending _, pending⟩
  cases op with
  | join | append | close => cases not_not.1 other
  | poll j | leave j =>
      cases not_not.1 other
      have idle : v.Idle i := by simpa [allows, h.room, View.not_isReading_iff] using allowed
      exact absurd (View.idle_perform rfl idle (by simp)) reads
  | beginRead j cancelled =>
      cases not_not.1 other
      -- The new call is kept with where the reader stood before.
      obtain ⟨c₀, found₀⟩ : ∃ c₀, v.readers[i]? = some c₀ := by
        refine ⟨_, Array.getElem?_eq_getElem ?_⟩
        rw [← View.perform_size v (show Op.beginRead i cancelled ≠ .join by simp)]
        exact lt_size_of_getElem? found
      refine ⟨⟨i, c₀.position, c₀.closed, cancelled, none⟩, List.mem_append_right _ ?_, ?_⟩
      · simp [h.room, View.room_cursor?, found₀, Reading.cursor]
      · simp [Call.isPending]
  | cancel j =>
      cases not_not.1 other
      obtain ⟨-, call, among, pending⟩ := h.reading_before rfl (by simp) reads
      exact ⟨{ call with fired := true }, List.mem_map.2 ⟨call, among, if_pos pending⟩, pending⟩
  | resume j =>
      cases not_not.1 other
      obtain ⟨⟨c₀, found₀⟩, call, among, pending⟩ := h.reading_before rfl (by simp) reads
      have waits : (v.resume i).2 = none :=
        (View.resume_result found₀).trans (View.wait_resume found₀ found wait).1
      refine ⟨{ call with result := none }, List.mem_map.2 ⟨call, among, ?_⟩, ?_⟩
      · rw [if_pos pending, waits]
      · simpa [Call.isPending] using (Call.isPending_iff.1 pending).1
  | abandon j =>
      cases not_not.1 other
      exact absurd (v.idle_abandon i) reads
  | drop j =>
      cases not_not.1 other
      exact absurd (v.idle_drop i) reads

theorem act_allowed (h : s.Tracked v) {op : Op α} (allowed : s.room.allows op = true) :
    (s.act op).Tracked (v.perform op).1 := by
  have same : s.room.perform op = ((v.perform op).1.room, (v.perform op).2) := by
    rw [h.room, View.perform_room h.valid]
  rw [Waking.act, if_pos allowed, same]
  exact ⟨h.valid.perform op, rfl, h.toldAfter_iff allowed, fun _ => h.callsAfter_fit allowed,
    fun _ _ _ => h.callsAfter_reading allowed⟩

theorem act (h : s.Tracked v) (op : Op α) : ∃ v', (s.act op).Tracked v' := by
  by_cases allowed : s.room.allows op = true
  · exact ⟨_, h.act_allowed allowed⟩
  · rw [Waking.act, if_neg allowed]
    exact ⟨v, h⟩

theorem run (h : s.Tracked v) (ops : List (Op α)) : ∃ v', (s.run ops).Tracked v' := by
  induction ops generalizing s v with
  | nil => exact ⟨v, h⟩
  | cons op ops ih =>
      obtain ⟨v', h'⟩ := h.act op
      exact ih h'

end Tracked

/-- Once everyone who was told has gone on, nobody is left who was told. -/
theorem told_run_resume (s : Waking α) {l : List Nat} (all : s.told ⊆ l) :
    (s.run (l.map .resume)).told = [] := by
  induction l generalizing s with
  | nil => exact List.subset_nil.1 all
  | cons i l ih =>
      refine ih (s.act (.resume i)) fun j told => ?_
      obtain ⟨before, apart⟩ := List.mem_filter.1 (show j ∈ s.told.filter (· ≠ i) from told)
      exact (List.mem_cons.1 (all before)).resolve_left (by simpa using apart)

/-- Nobody waits in vain. -/
structure Prompt (s : Waking α) : Prop where
  /-- Those have been told to go on who can. -/
  told_iff : ∀ i, i ∈ s.told ↔ s.room.canResume i = true
  /-- Those are reading who have a call that has not ended. -/
  reading_iff : ∀ i, s.room.isReading i = true ↔
    ∃ call ∈ s.calls, call.reader = i ∧ call.result = none
  /-- Whoever waits has not moved. -/
  standing : ∀ call ∈ s.calls, call.result = none →
    ∃ c, s.room.cursors[call.reader]? = some c ∧ c.node = call.node
  /-- Once nobody is left who was told, those wait who have to, and the others have a result. -/
  waiting_iff : s.told = [] → ∀ call ∈ s.calls, call.result = none ↔
    call.closed = false ∧ call.fired = false ∧ s.room.isClosed = false ∧
      call.node = s.room.chain.head
  /-- The head of an open room has not been released. -/
  unresolved : s.room.isClosed = false → s.room.chain.isReady s.room.chain.head = false
  /-- An event tells everyone who waits. -/
  append_tells : ∀ event i, s.room.isClosed = false → s.room.isReading i = true →
    i ∈ (s.act (.append event)).told
  /-- The end of the room tells everyone who waits. -/
  close_tells : ∀ i, s.room.isReading i = true → i ∈ (s.act .close).told
  /-- Once nobody is left who was told, nobody waits at a node that was given up. -/
  intact : s.told = [] → ∀ i c, s.room.isReading i = true → s.room.cursors[i]? = some c →
    s.room.chain.isEvicted c.node = false
  /-- Nobody is left who was told once they have all gone on, in any order. -/
  settles : ∀ l, s.told ⊆ l → (s.run (l.map .resume)).told = []

namespace Tracked

/-- When nobody is left who was told, whoever reads is parked at the head. -/
theorem waits (h : s.Tracked v) (quiet : s.told = []) {i : Nat} {c : Reading α} {w : Wait}
    (found : v.readers[i]? = some c) (wait : c.wait = some w) :
    w.parked = true ∧ w.cancelled = false ∧ v.window.closed = false ∧
      c.position = v.window.events.length := by
  have still : ¬ v.GoesOn c w := fun goes => by
    have told := (h.told_iff i).2 ⟨c, w, found, wait, goes⟩
    rw [quiet] at told
    cases told
  simp only [View.GoesOn, not_or, Bool.not_eq_false, Bool.not_eq_true, Nat.not_lt] at still
  obtain ⟨parked, unfired, isOpen, last⟩ := still
  exact ⟨parked, unfired, isOpen, Nat.le_antisymm (h.valid i c found).position_le last⟩

theorem reading_iff (h : s.Tracked v) (i : Nat) :
    v.room.isReading i = true ↔ ∃ call ∈ s.calls, call.reader = i ∧ call.result = none := by
  rw [View.isReading_iff]
  constructor
  · rintro ⟨c, w, found, wait⟩
    obtain ⟨call, among, pending⟩ := h.reading i c w found wait
    exact ⟨call, among, Call.isPending_iff.1 pending⟩
  · rintro ⟨call, among, rfl, pending⟩
    obtain ⟨c, w, found, wait, _⟩ := (h.fits call among).1 pending
    exact ⟨c, w, found, wait⟩

/-- When nobody is left who was told, those reads have no result that have to wait. -/
theorem waiting_iff (h : s.Tracked v) (quiet : s.told = []) {call : Call α}
    (among : call ∈ s.calls) :
    call.result = none ↔ call.closed = false ∧ call.fired = false ∧ v.window.closed = false ∧
      call.node = v.window.events.length := by
  constructor
  · intro pending
    obtain ⟨c, w, found, wait, place, shut, fired, parks⟩ := (h.fits call among).1 pending
    obtain ⟨parked, unfired, isOpen, last⟩ := h.waits quiet found wait
    exact ⟨shut ▸ parks parked, fired ▸ unfired, isOpen, place.symm.trans last⟩
  · rintro ⟨lasts, unfired, isOpen, last⟩
    by_contra ended
    obtain shut | fired | gone | further := (h.fits call among).2 ended
    · exact Bool.false_ne_true (lasts.symm.trans shut)
    · exact Bool.false_ne_true (unfired.symm.trans fired)
    · exact Bool.false_ne_true (isOpen.symm.trans gone)
    · exact Nat.ne_of_lt further last

/-- What lets a reader go on tells it. -/
theorem tells (h : s.Tracked v) (op : Op α) (allowed : s.room.allows op = true)
    (others : op.reader? = none) (new : op ≠ .join) {i : Nat} (reads : v.room.isReading i = true)
    (goes : ∀ c w, v.readers[i]? = some c → (v.perform op).1.GoesOn c w) :
    i ∈ (s.act op).told := by
  obtain ⟨c, w, found, wait⟩ := (v.isReading_iff i).1 reads
  rw [(h.act_allowed allowed).told_iff]
  refine ⟨c, w, ?_, wait, goes c w found⟩
  rw [v.readers_other (by simp [others]) new, found]

theorem prompt (h : s.Tracked v) : s.Prompt where
  told_iff i := by rw [h.told_iff, View.stirs_iff_canResume h.valid, h.room]
  reading_iff i := by rw [h.room, h.reading_iff]
  standing call among pending := by
    obtain ⟨c, w, found, _, place, _⟩ := (h.fits call among).1 pending
    refine ⟨c.cursor, ?_, place⟩
    rw [h.room, View.room_cursor?, found]
    rfl
  waiting_iff quiet call among := by
    rw [h.room]
    exact h.waiting_iff quiet among
  unresolved isOpen := by
    rw [h.room] at isOpen ⊢
    show v.window.chain.isReady v.window.events.length = false
    rw [Window.isReady_chain (Nat.le_refl _), show v.window.closed = false from isOpen]
    simp
  append_tells event i isOpen reads := by
    rw [h.room] at isOpen reads
    refine h.tells (.append event) rfl rfl (by simp) reads fun c w found => ?_
    have before := (h.valid i c found).position_le
    refine .inr (.inr (.inr ?_))
    rw [View.perform_window]
    simp only [show v.window.closed = false from isOpen, if_neg Bool.false_ne_true, Window.extend,
      List.length_append, List.length_singleton]
    omega
  close_tells i reads := by
    rw [h.room] at reads
    exact h.tells .close rfl rfl (by simp) reads fun c w found => .inr (.inr (.inl rfl))
  intact quiet i c reads found := by
    rw [h.room] at reads found ⊢
    obtain ⟨c', w, found', wait⟩ := (v.isReading_iff i).1 reads
    rw [View.room_cursor?, found', Option.map_some, Option.some_inj] at found
    obtain ⟨_, _, isOpen, last⟩ := h.waits quiet found' wait
    show v.window.chain.isEvicted c.node = false
    rw [← found, Reading.cursor, last, Window.isEvicted_chain (Nat.le_refl _),
      Window.lost_eq_false]
    exact ⟨isOpen, by omega⟩
  settles l := s.told_run_resume

end Tracked

/-- Whatever is done with a new room, in whatever order, nobody waits in vain. -/
theorem run_prompt (capacity : Nat) (ops : List (Op α)) :
    ((Waking.empty capacity).run ops).Prompt := by
  obtain ⟨_, h⟩ := (empty_tracked (α := α) capacity).run ops
  exact h.prompt

/-- A reader whose read is given up while it waits, and that reads once more. -/
def shut : List (Op Nat) :=
  [.join, .beginRead 0 false, .resume 0, .cancel 0, .resume 0, .beginRead 0 false, .resume 0]

/-- A reader that was closed when its read began does not wait, although the room is open, the token
has not fired and the reader stands at the head. -/
theorem not_waiting_of_shut :
    ¬ ∀ (capacity : Nat) (ops : List (Op Nat)),
      let s := (Waking.empty capacity).run ops
      s.told = [] → ∀ call ∈ s.calls, call.result = none ↔
        call.fired = false ∧ s.room.isClosed = false ∧ call.node = s.room.chain.head := by
  intro all
  have calls : ((Waking.empty 1).run shut).calls =
      [⟨0, 0, false, true, some (.error .cancelled)⟩, ⟨0, 0, true, false, some (.error .closed)⟩] :=
    rfl
  have waits := (all 1 shut rfl ⟨0, 0, true, false, some (.error .closed)⟩ (by rw [calls]; simp)).2
    ⟨rfl, rfl, rfl⟩
  cases waits

end Waking

end Roomcast.Room

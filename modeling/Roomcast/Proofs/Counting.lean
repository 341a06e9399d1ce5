import Roomcast.Proofs.View

/-!
# Readers are counted

Whoever sees what is done with a room and what is answered can keep a roll of its readers: a reader
is on it from when it is handed out until it is closed, is dropped or fails to read, whatever comes
first. The room's count of open readers is always the length of that roll. No reader is counted out
twice, so the count never has to go below zero; and a read that is given up while it waits leaves
the room as if it had never begun.
-/

namespace Roomcast.Room

variable {α : Type}

def handedOut? : Answer α → Option Nat
  | .joined (.ok i) => some i
  | _ => none

/-- Whether an operation with a certain answer closes reader `i`: it closes or drops the reader, or
is a read of it that fails. -/
def closes (i : Nat) : Op α → Answer α → Bool
  | .leave j, _ | .drop j, _ => j = i
  | .poll j _, .read (some (.error _)) | .resume j, .read (some (.error _)) => j = i
  | _, _ => false

def drops (i : Nat) : Op α → Answer α → Bool
  | .drop j, _ => j = i
  | _, _ => false

/-- The readers that are still there and those that are gone, in the order of their coming and
going. -/
structure Roll where
  present : List Nat
  gone : List Nat

namespace Roll

def empty : Roll := ⟨[], []⟩

/-- Some of those who are present go, and somebody may come. -/
def mark (l : Roll) (ends : Nat → Bool) (new : Option Nat) : Roll :=
  ⟨l.present.filter (!ends ·) ++ new.toList, l.gone ++ l.present.filter ends⟩

/-- Keeps the roll through operations with their answers. `ends` says who goes. -/
def call (ends : Nat → Op α → Answer α → Bool) (l : Roll) :
    List (Op α) → List (Answer α) → Roll
  | op :: ops, answer :: answers =>
    (l.mark (ends · op answer) (handedOut? answer)).call ends ops answers
  | _, _ => l

/-- Whoever was on the roll is on it still, and once. -/
theorem mark_perm (l : Roll) (ends : Nat → Bool) (new : Option Nat) :
    ((l.mark ends new).present ++ (l.mark ends new).gone).Perm
      (l.present ++ l.gone ++ new.toList) := by
  have parts : (l.present.filter ends ++ l.present.filter (!ends ·)).Perm l.present :=
    List.filter_append_perm ends l.present
  rw [List.perm_iff_count] at parts ⊢
  intro i
  have both := parts i
  simp only [mark, List.count_append] at both ⊢
  omega

/-- Whoever is gone stays gone. -/
theorem mem_gone_call {ends : Nat → Op α → Answer α → Bool} {l : Roll} {i : Nat}
    (gone : i ∈ l.gone) (ops : List (Op α)) (answers : List (Answer α)) :
    i ∈ (l.call ends ops answers).gone := by
  induction ops generalizing l answers with
  | nil => exact gone
  | cons op ops ih =>
      cases answers with
      | nil => exact gone
      | cons answer answers => exact ih (List.mem_append_left _ gone) answers

end Roll

/-- As many entries of a list have a property as there are places of such entries. -/
theorem countP_eq_length_filter {β : Type} (p : β → Bool) (l : List β) :
    l.countP p = ((List.range l.length).filter fun i => l[i]?.any p).length := by
  induction l using List.reverseRecOn with
  | nil => rfl
  | append_singleton l x ih =>
      have before : (List.range l.length).filter (fun i => (l ++ [x])[i]?.any p) =
          (List.range l.length).filter fun i => l[i]?.any p :=
        List.filter_congr fun i inside => by
          rw [List.getElem?_append_left (List.mem_range.1 inside)]
      rw [List.countP_append, ih, List.length_append, List.length_singleton, List.range_succ,
        List.filter_append, List.length_append, before]
      cases h : p x <;> simp [h]

namespace View

def IsPresent (v : View α) (i : Nat) : Prop :=
  ∃ c, v.readers[i]? = some c ∧ c.closed = false

theorem isPresent_iff_hasLeft (v : View α) (i : Nat) :
    v.IsPresent i ↔ v.room.hasLeft i = false := by
  rw [room_hasLeft]
  cases found : v.readers[i]? <;> simp [IsPresent, found]

/-- What is done to a reader concerns only whether that one is open. -/
theorem isPresent_modifyReader (v : View α) (i j : Nat) (f : Reading α → Reading α) :
    (v.modifyReader j f).IsPresent i ↔
      if j = i then ∃ c, v.readers[i]? = some c ∧ (f c).closed = false else v.IsPresent i := by
  simp only [IsPresent, modifyReader, Array.getElem?_modify]
  split_ifs with here
  · cases v.readers[i]? <;> simp
  · rfl

/-- What does not close a reader leaves all of them open that are. -/
theorem isPresent_modifyStill (v : View α) (i j : Nat) {f : Reading α → Reading α}
    (still : ∀ c, (f c).closed = c.closed) : (v.modifyReader j f).IsPresent i ↔ v.IsPresent i := by
  rw [isPresent_modifyReader]
  simp only [still, IsPresent, ite_self]

/-- Closing a reader leaves the others open that are. -/
theorem isPresent_modifyClosed (v : View α) (i j : Nat) {f : Reading α → Reading α}
    (shut : ∀ c, (f c).closed = true) :
    (v.modifyReader j f).IsPresent i ↔ v.IsPresent i ∧ j ≠ i := by
  rw [isPresent_modifyReader]
  split_ifs with here <;> simp [shut, here]

theorem isPresent_settle (v : View α) (i j : Nat) (result : Except StreamError α) :
    (v.settle j result).IsPresent i ↔ v.IsPresent i ∧ (result.isOk ∨ j ≠ i) := by
  rw [settle]
  cases result with
  | ok e => simp [Except.isOk, Except.toBool, isPresent_modifyStill, Reading.settle]
  | error err => simp [Except.isOk, Except.toBool, isPresent_modifyClosed, Reading.settle]

/-- A reader is open after an operation if and only if it was and the operation does not close it,
or it has just been handed out. -/
theorem perform_isPresent (v : View α) (op : Op α) (i : Nat) :
    (v.perform op).1.IsPresent i ↔
      (v.IsPresent i ∧ closes i op (v.perform op).2 = false) ∨
        handedOut? (v.perform op).2 = some i := by
  cases op with
  | join =>
      simp only [perform]
      split_ifs with ended
      · simp [closes, handedOut?]
      · simp only [IsPresent, Array.getElem?_push, closes, handedOut?]
        by_cases new : i = v.readers.size
        · simp [new]
        · simp [new, Ne.symm new]
  | append event =>
      simp only [perform]
      cases v.window.append event <;> simp [closes, handedOut?, IsPresent]
  | close => simp [perform, closes, handedOut?, IsPresent]
  | poll j cancelled =>
      simp only [perform, poll]
      cases (v.readers[j]?).bind (v.look? · cancelled) with
      | none => simp [closes, handedOut?]
      | some result =>
          rw [isPresent_settle]
          cases result <;> simp [closes, handedOut?, Except.isOk, Except.toBool]
  | resume j =>
      simp only [perform, resume]
      cases (v.readers[j]?).bind v.goOn? with
      | none => simp [closes, handedOut?, isPresent_modifyStill]
      | some result =>
          rw [isPresent_settle]
          cases result <;> simp [closes, handedOut?, Except.isOk, Except.toBool]
  | beginRead j | cancel j | abandon j =>
      simp [perform, closes, handedOut?, isPresent_modifyStill]
  | leave j | drop j => simp [perform, closes, handedOut?, isPresent_modifyClosed]

/-- Readers are handed out in the order of their numbers. -/
theorem perform_handedOut (v : View α) (op : Op α) :
    List.range (v.perform op).1.readers.size =
      List.range v.readers.size ++ (handedOut? (v.perform op).2).toList := by
  cases op with
  | join =>
      simp only [perform]
      split_ifs
      · simp [handedOut?]
      · simp [handedOut?, List.range_succ]
  | append event =>
      rw [perform_size v (by simp)]
      simp only [perform]
      cases v.window.append event <;> simp [handedOut?]
  | close | poll | beginRead | cancel | resume | abandon | leave | drop =>
      rw [perform_size v (by simp)]
      simp [perform, handedOut?]

/-- A roll is right about a view: it has every reader once, and those are present that are open. -/
structure Calls (v : View α) (l : Roll) : Prop where
  perm : (l.present ++ l.gone).Perm (List.range v.readers.size)
  present_iff : ∀ i, i ∈ l.present ↔ v.IsPresent i

theorem empty_calls (capacity : Nat) : (empty capacity : View α).Calls .empty where
  perm := by simp [empty, Roll.empty]
  present_iff i := by simp [Roll.empty, IsPresent, empty]

theorem Calls.perform {v : View α} {l : Roll} (h : v.Calls l) (op : Op α) :
    (v.perform op).1.Calls
      (l.mark (closes · op (v.perform op).2) (handedOut? (v.perform op).2)) where
  perm := by
    rw [perform_handedOut]
    exact (l.mark_perm _ _).trans (h.perm.append_right _)
  present_iff i := by
    rw [perform_isPresent]
    simp [Roll.mark, h.present_iff, Option.mem_toList]

theorem Calls.run {v : View α} {l : Roll} (h : v.Calls l) (ops : List (Op α)) :
    (v.run ops).1.Calls (l.call closes ops (v.run ops).2) := by
  induction ops generalizing v l with
  | nil => exact h
  | cons op ops ih => exact ih (h.perform op)

theorem Calls.nodup {v : View α} {l : Roll} (h : v.Calls l) : (l.present ++ l.gone).Nodup :=
  h.perm.nodup_iff.2 List.nodup_range

/-- The room's count of open readers is the number of those who are present. -/
theorem Calls.length {v : View α} {l : Roll} (h : v.Calls l) :
    v.openReaders = l.present.length := by
  have single : l.present.Nodup := (List.nodup_append.1 h.nodup).1
  rw [openReaders, ← Array.countP_toList, countP_eq_length_filter, Array.length_toList]
  refine List.Perm.length_eq ((List.perm_ext_iff_of_nodup (List.nodup_range.filter _) single).2 ?_)
  intro i
  rw [List.mem_filter, h.present_iff, IsPresent, Array.getElem?_toList]
  cases found : v.readers[i]? with
  | none => simp
  | some c => simpa using fun _ => lt_size_of_getElem? found

/-- Whoever is gone has left. -/
theorem Calls.hasLeft {v : View α} {l : Roll} (h : v.Calls l) {i : Nat} (gone : i ∈ l.gone) :
    v.room.hasLeft i = true := by
  have absent : i ∉ l.present := fun here => (List.nodup_append.1 h.nodup).2.2 i here i gone rfl
  rw [h.present_iff, isPresent_iff_hasLeft] at absent
  simpa using absent

end View

/-- A read of reader `i` is still pending after operations with certain answers: what they did to
the reader was to fire the read's token, or to find that it has to wait longer. -/
def StillPending (i : Nat) (ops : List (Op α)) (answers : List (Answer α)) : Prop :=
  ∀ op answer, (op, answer) ∈ ops.zip answers → op.reader? = some i →
    op = .cancel i ∨ (op = .resume i ∧ answer = .read none)

namespace View

theorem modifyReader_comm (v : View α) {i j : Nat} (apart : j ≠ i) (f g : Reading α → Reading α) :
    (v.modifyReader i f).modifyReader j g = (v.modifyReader j g).modifyReader i f := by
  have rows : (v.readers.modify i f).modify j g = (v.readers.modify j g).modify i f := by
    refine Array.ext_getElem? fun k => ?_
    simp only [Array.getElem?_modify]
    by_cases first : i = k
    · simp [first, show j ≠ k from first ▸ apart]
    · simp [first]
  simp only [modifyReader, rows]

theorem modifyReader_reader? (v : View α) {i j : Nat} (apart : j ≠ i) (f : Reading α → Reading α) :
    (v.modifyReader i f).readers[j]? = v.readers[j]? := by
  rw [modifyReader, Array.getElem?_modify, if_neg apart.symm]

/-- What is done to others does not depend on a reader. -/
theorem perform_modifyReader (v : View α) {op : Op α} {i : Nat} (other : op.reader? ≠ some i)
    (there : i < v.readers.size) (f : Reading α → Reading α) :
    (v.modifyReader i f).perform op = ((v.perform op).1.modifyReader i f, (v.perform op).2) := by
  cases op with
  | join =>
      have rows : (v.readers.modify i f).push ⟨v.window.events.length, [], false, none⟩ =
          (v.readers.push ⟨v.window.events.length, [], false, none⟩).modify i f := by
        refine Array.ext_getElem? fun k => ?_
        simp only [Array.getElem?_modify, Array.getElem?_push, Array.size_modify]
        by_cases new : k = v.readers.size
        · simp [new, Nat.ne_of_lt there]
        · simp [new]
      simp only [perform, modifyReader, rows, Array.size_modify]
      split_ifs <;> rfl
  | append event =>
      simp only [perform, modifyReader]
      cases v.window.append event <;> rfl
  | close => rfl
  | poll j cancelled =>
      have apart : j ≠ i := fun same => other (congrArg some same)
      simp only [perform, poll, modifyReader_reader? v apart]
      have looks : (v.modifyReader i f).look? = v.look? := rfl
      rw [looks]
      cases (v.readers[j]?).bind (v.look? · cancelled) with
      | none => rfl
      | some result => simp only [settle, modifyReader_comm v apart]
  | resume j =>
      have apart : j ≠ i := fun same => other (congrArg some same)
      simp only [perform, resume, modifyReader_reader? v apart]
      have goes : (v.modifyReader i f).goOn? = v.goOn? := rfl
      rw [goes]
      cases (v.readers[j]?).bind v.goOn? with
      | none => simp only [modifyReader_comm v apart]
      | some result => simp only [settle, modifyReader_comm v apart]
  | beginRead j | cancel j | abandon j | leave j | drop j =>
      have apart : j ≠ i := fun same => other (congrArg some same)
      simp only [perform, modifyReader_comm v apart]

/-- What is done to others leaves a reader as it is. -/
theorem perform_reader? (v : View α) {op : Op α} {i : Nat} {c : Reading α}
    (other : op.reader? ≠ some i) (found : v.readers[i]? = some c) :
    (v.perform op).1.readers[i]? = some c := by
  -- Nothing depends on the reader, so it may be set to what it is before or after the operation.
  have before : v.modifyReader i (fun _ => c) = v := by
    have same : v.readers.modify i (fun _ => c) = v.readers :=
      modify_eq_self fun c' found' => Option.some.inj (found.symm.trans found')
    rw [modifyReader, same]
  have after := congrArg Prod.fst
    (v.perform_modifyReader other (lt_size_of_getElem? found) fun _ => c)
  rw [before] at after
  obtain ⟨c', found', _⟩ := perform_follows found op
  rw [after, modifyReader, Array.getElem?_modify, if_pos rfl, found']
  rfl

def withWait (v : View α) (i : Nat) (wait : Option Wait) : View α :=
  v.modifyReader i fun c => { c with wait }

theorem withWait_withWait (v : View α) (i : Nat) (wait wait' : Option Wait) :
    (v.withWait i wait).withWait i wait' = v.withWait i wait' :=
  modifyReader_modifyReader v i _ _

theorem withWait_of_none {v : View α} {i : Nat} {c : Reading α} (found : v.readers[i]? = some c)
    (idle : c.wait = none) : v.withWait i none = v := by
  have same : v.readers.modify i (fun c => { c with wait := none }) = v.readers :=
    modify_eq_self fun c' found' => by
      obtain rfl := Option.some.inj (found.symm.trans found')
      rw [← idle]
  rw [withWait, modifyReader, same]

/-- A pending read changes nothing but itself. -/
theorem perform_pending {v : View α} {op : Op α} {i : Nat} (wait : Option Wait)
    (pending : op = .cancel i ∨
      (op = .resume i ∧ ((v.withWait i wait).perform op).2 = .read none)) :
    ∃ wait', ((v.withWait i wait).perform op).1 = v.withWait i wait' := by
  obtain rfl | ⟨rfl, waits⟩ := pending
  · refine ⟨wait.map fun w : Wait => { w with cancelled := true }, ?_⟩
    exact modifyReader_modifyReader v i _ _
  · simp only [perform, resume] at waits ⊢
    cases got : ((v.withWait i wait).readers[i]?).bind (v.withWait i wait).goOn? with
    | some result =>
        rw [got] at waits
        cases waits
    | none =>
        refine ⟨wait.map fun w : Wait => { w with parked := true }, ?_⟩
        exact modifyReader_modifyReader v i _ _

/-- Operations under which a read stays pending do to all others what they do without that read. -/
theorem run_pending {v : View α} {i : Nat} {c : Reading α} (found : v.readers[i]? = some c)
    {wait : Option Wait} {ops : List (Op α)}
    (pending : StillPending i ops ((v.withWait i wait).run ops).2) :
    ∃ wait', ((v.withWait i wait).run ops).1 =
        (v.run (ops.filter (·.reader? ≠ some i))).1.withWait i wait' ∧
      (v.run (ops.filter (·.reader? ≠ some i))).1.readers[i]? = some c := by
  -- The two runs differ in the read that is going on alone, whatever becomes of it.
  induction ops generalizing v wait with
  | nil => exact ⟨wait, rfl, found⟩
  | cons op ops ih =>
      rw [run] at pending ⊢
      have later : StillPending i ops (((v.withWait i wait).perform op).1.run ops).2 :=
        fun op' answer among => pending op' answer (List.mem_cons_of_mem _ among)
      by_cases own : op.reader? = some i
      · rw [List.filter_cons_of_neg (by simp [own])]
        obtain ⟨wait', became⟩ :=
          perform_pending wait (pending op _ List.mem_cons_self own)
        rw [became] at later ⊢
        exact ih found later
      · rw [List.filter_cons_of_pos (by simp [own])]
        have became := v.perform_modifyReader own (lt_size_of_getElem? found)
          fun c => { c with wait }
        have became : ((v.withWait i wait).perform op).1 = (v.perform op).1.withWait i wait :=
          congrArg Prod.fst became
        rw [became] at later ⊢
        exact ih (v.perform_reader? own found) later

theorem run_append (v : View α) (ops more : List (Op α)) :
    (v.run (ops ++ more)).1 = ((v.run ops).1.run more).1 := by
  induction ops generalizing v with
  | nil => rfl
  | cons op ops ih => exact ih _

/-- A read that is given up while it is pending leaves everything as if it had never begun. -/
theorem run_abandoned {v : View α} {i : Nat} {c : Reading α} (found : v.readers[i]? = some c)
    (idle : c.wait = none) (cancelled : Bool) {ops : List (Op α)}
    (pending : StillPending i ops ((v.perform (.beginRead i cancelled)).1.run ops).2) :
    (v.run (.beginRead i cancelled :: (ops ++ [.abandon i]))).1 =
      (v.run (ops.filter (·.reader? ≠ some i))).1 := by
  obtain ⟨wait', became, found'⟩ := run_pending found pending
  have begun : (v.perform (.beginRead i cancelled)).1 = v.withWait i (some ⟨false, cancelled⟩) :=
    rfl
  rw [run, run_append, begun, became]
  exact (withWait_withWait _ _ _ _).trans (withWait_of_none found' idle)

end View

/-- A room counts its readers as a roll of them says. -/
structure Counted (r : Room α) (l : Roll) : Prop where
  /-- The count is the number of those who are present. -/
  readers : r.readers = l.present.length
  /-- Those are present who were handed out and are not closed. -/
  present_iff : ∀ i, i ∈ l.present ↔ r.hasLeft i = false
  /-- Everyone who was handed out is on the roll once, and so is counted out once at most. -/
  once : (l.present ++ l.gone).Perm (List.range r.cursors.size)
  /-- As long as there is somebody to be counted out, the count is not zero. -/
  enough : ∀ i, r.hasLeft i = false → 0 < r.readers
  /-- Whoever is gone stays closed, whatever is done. -/
  final : ∀ ops i, i ∈ l.gone → (r.run ops).1.hasLeft i = true

theorem View.Calls.counted {v : View α} {l : Roll} (h : v.Calls l) (valid : v.Valid) :
    v.room.Counted l where
  readers := h.length
  present_iff i := by rw [h.present_iff, isPresent_iff_hasLeft]
  once := by simpa [room] using h.perm
  enough i here := by
    have present := (h.present_iff i).2 ((v.isPresent_iff_hasLeft i).2 here)
    have count : v.room.readers = l.present.length := h.length
    rw [count]
    exact List.length_pos_of_mem present
  final ops i gone := by
    rw [run_room valid]
    exact (h.run ops).hasLeft (Roll.mem_gone_call gone ops _)

/-- Whatever is done with a new room, in whatever order, the room counts the readers that are
present according to the roll: those that were handed out and have not been closed, dropped or told
of a failure since. A read that is given up while it is pending leaves the room as if it had never
begun. -/
theorem run_counted (capacity : Nat) (ops : List (Op α)) :
    let r := ((Room.empty capacity).run ops).1
    r.Counted (Roll.empty.call closes ops ((Room.empty capacity).run ops).2) ∧
    ∀ i cancelled mid, i < r.cursors.size → r.isReading i = false →
      StillPending i mid ((r.beginRead i cancelled).run mid).2 →
      (r.run (.beginRead i cancelled :: (mid ++ [.abandon i]))).1 =
        (r.run (mid.filter (·.reader? ≠ some i))).1 := by
  have valid := (View.empty_valid (α := α) capacity).run ops
  have calls := (View.empty_calls (α := α) capacity).run ops
  rw [← View.empty_room, View.run_room (View.empty_valid capacity)]
  refine ⟨calls.counted valid, fun i cancelled mid there idle pending => ?_⟩
  generalize ((View.empty capacity).run ops).1 = v at valid there idle pending ⊢
  obtain ⟨c, found⟩ : ∃ c, v.readers[i]? = some c :=
    ⟨_, Array.getElem?_eq_getElem (by simpa [View.room] using there)⟩
  have begun := View.perform_room valid (.beginRead i cancelled)
  have valid' := valid.perform (.beginRead i cancelled)
  have begun : v.room.beginRead i cancelled = (v.perform (.beginRead i cancelled)).1.room :=
    congrArg Prod.fst begun
  rw [begun, View.run_room valid'] at pending
  rw [View.run_room valid, View.run_room valid]
  have free : c.wait = none := by
    simpa [Room.isReading, View.room_cursor?, found, Reading.cursor] using idle
  exact congrArg View.room (View.run_abandoned found free cancelled pending)

/-- Of two readers the second one fails to read and is closed after that, while the first one waits
and is given up. -/
def givenUp : List (Op Nat) :=
  [.resume 0, .poll 1 true, .append 5, .leave 1, .cancel 0]

/-- The first reader is left as it was, and reads the event that came while it waited. -/
theorem run_counted_givenUp :
    let r := ((Room.empty 1).run [.join, .join]).1
    0 < r.cursors.size ∧ r.isReading 0 = false ∧
    StillPending 0 givenUp ((r.beginRead 0 false).run givenUp).2 ∧
    (r.run (.beginRead 0 false :: (givenUp ++ [.abandon 0]))).1 =
      (r.run [.poll 1 true, .append 5, .leave 1]).1 := by
  have there : 0 < ((Room.empty (α := Nat) 1).run [.join, .join]).1.cursors.size := by decide
  have pending : StillPending 0 givenUp
      ((((Room.empty 1).run [.join, .join]).1.beginRead 0 false).run givenUp).2 := by
    have answers : ((((Room.empty 1).run [.join, .join]).1.beginRead 0 false).run givenUp).2 =
        [.read none, .read (some (.error .cancelled)), .appended (.ok ()), .silent, .silent] := rfl
    rw [answers]
    intro op answer among own
    simp only [givenUp, List.zip_cons_cons, List.zip_nil_right, List.mem_cons, Prod.mk.injEq,
      List.not_mem_nil, or_false] at among
    obtain ⟨rfl, rfl⟩ | ⟨rfl, -⟩ | ⟨rfl, -⟩ | ⟨rfl, -⟩ | ⟨rfl, -⟩ := among
    · exact .inr ⟨rfl, rfl⟩
    · cases own
    · cases own
    · cases own
    · exact .inl rfl
  exact ⟨there, rfl, pending, (run_counted 1 [.join, .join]).2 0 false givenUp there rfl pending⟩

end Roomcast.Room

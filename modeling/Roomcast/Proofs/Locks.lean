import Roomcast.Proofs.SingleRoom

/-!
# Locks

A lock lists the one who has it and those who wait for it. A subscriber or a closer stands in the
list of the entry that its phase says it is at, and in no other. So an entry whose lock is free has
nobody inside, and when nobody can go on and no store is asked for a feed, every lock is free.
-/

namespace Roomcast.Registry

variable {r r' : Registry} {a : Action}

/-- The entry whose lock a closer waits for, or has. -/
def Closer.lock? (c : Closer) : Option Nat :=
  match c.phase with
  | .queued => some c.entry
  | _ => none

theorem Closer.lock?_eq_some {c : Closer} {e : Nat} :
    c.lock? = some e ↔ c.phase = .queued ∧ c.entry = e := by
  cases phase : c.phase <;> simp [Closer.lock?, phase]

/-- Whoever stands in the lock of an entry has found that entry. -/
theorem Subscribing.entry?_of_lock? {p : Subscribing} {e : Nat} (asks : p.lock? = some e) :
    p.entry? = some e := by
  cases p <;> simp_all [lock?, entry?]

/-- The entry whose lock somebody waits for, or has. -/
def lockOf? (r : Registry) : Holder → Option Nat
  | .subscriber i => (r.subscribers[i]?).bind (·.phase.lock?)
  | .closer j => (r.closers[j]?).bind (·.lock?)

/-- Somebody stands in the list of an entry's lock. -/
def Stands (r : Registry) (e : Nat) (who : Holder) : Prop :=
  ∃ x, r.entries[e]? = some x ∧ who ∈ x.lock

/-- Everybody stands where its phase says, and nowhere else. -/
structure Locked (r : Registry) : Prop where
  stands : ∀ e who, r.Stands e who ↔ r.lockOf? who = some e

theorem empty_locked (capacity channelCapacity : Nat) :
    (Registry.empty capacity channelCapacity).Locked := by
  constructor
  rintro e (i | j) <;> simp [Registry.empty, Stands, lockOf?]

/-- Who stands in a list after an entry has changed. -/
theorem stands_modifyEntry {e : Nat} {x : Entry} (f : Entry → Entry) (here : r.entries[e]? = some x)
    (k : Nat) (w : Holder) :
    (r.modifyEntry e f).Stands k w ↔ if e = k then w ∈ (f x).lock else r.Stands k w := by
  rw [Stands, modifyEntry, getElem?_modify_of f here]
  split_ifs with same
  · constructor
    · rintro ⟨y, found, among⟩
      exact Option.some.inj found ▸ among
    · exact fun among => ⟨_, rfl, among⟩
  · exact Iff.rfl

/-- A change of an entry that leaves its lock alone moves nobody. -/
theorem stands_modifyEntry_same (e : Nat) (f : Entry → Entry) (same : ∀ x, (f x).lock = x.lock)
    (k : Nat) (w : Holder) : (r.modifyEntry e f).Stands k w ↔ r.Stands k w := by
  constructor
  · rintro ⟨y, found, among⟩
    obtain ⟨_, old⟩ | ⟨rfl, x, here, rfl⟩ := getElem?_modify_some.1 found
    · exact ⟨y, old, among⟩
    · exact ⟨x, here, same x ▸ among⟩
  · rintro ⟨x, here, among⟩
    exact getElem?_modify_keeps here among fun _ => (same x).symm ▸ among

theorem stands_enqueue {e : Nat} {x : Entry} (here : r.entries[e]? = some x) (who : Holder)
    (k : Nat) (w : Holder) :
    (r.enqueue e who).Stands k w ↔ r.Stands k w ∨ (k = e ∧ w = who) := by
  rw [enqueue, stands_modifyEntry _ here]
  split_ifs with same
  · subst same
    simp [Stands, here]
  · simp [Ne.symm same]

theorem stands_release (e : Nat) (who : Holder) (k : Nat) (w : Holder) :
    (r.release e who).Stands k w ↔ r.Stands k w ∧ ¬ (k = e ∧ w = who) := by
  cases here : r.entries[e]? with
  | none =>
      have same : r.release e who = r := by
        rw [release, modifyEntry, modify_eq_self]
        intro x found
        cases here.symm.trans found
      rw [same]
      refine ⟨fun stands => ⟨stands, ?_⟩, And.left⟩
      rintro ⟨rfl, rfl⟩
      obtain ⟨x, found, _⟩ := stands
      cases here.symm.trans found
  | some x =>
      rw [release, stands_modifyEntry _ here]
      split_ifs with same
      · subst same
        simp [Stands, here]
      · simp [Ne.symm same]

theorem lockOf?_setSubscriber {i : Nat} {s : Subscriber} (q : Subscribing)
    (found : r.subscribers[i]? = some s) (w : Holder) :
    (r.setSubscriber i q).lockOf? w = if w = .subscriber i then q.lock? else r.lockOf? w := by
  cases w with
  | closer j => rfl
  | subscriber k =>
      show ((r.subscribers.modify i _)[k]?).bind _ = _
      rw [getElem?_modify_of _ found]
      by_cases same : i = k
      · simp [same]
      · simp [same, Ne.symm same, lockOf?]

theorem lockOf?_setCloser {j : Nat} {c : Closer} (q : Closing) (found : r.closers[j]? = some c)
    (w : Holder) :
    (r.setCloser j q).lockOf? w =
      if w = .closer j then Closer.lock? ⟨c.entry, q⟩ else r.lockOf? w := by
  cases w with
  | subscriber i => rfl
  | closer k =>
      show ((r.closers.modify j _)[k]?).bind _ = _
      rw [getElem?_modify_of _ found]
      by_cases same : j = k
      · simp [same]
      · simp [same, Ne.symm same, lockOf?]

/-- New closers stand nowhere yet. -/
theorem lockOf?_addClosers (entries : List Nat) (w : Holder) :
    (r.addClosers entries).lockOf? w = r.lockOf? w := by
  cases w with
  | subscriber i => rfl
  | closer j =>
      refine Option.ext fun e => ?_
      simp only [lockOf?, Option.bind_eq_some_iff, addClosers_some]
      constructor
      · rintro ⟨c, old | ⟨k, e', _, _, rfl⟩, at?⟩
        · exact ⟨c, old, at?⟩
        · cases at?
      · rintro ⟨c, old, at?⟩
        exact ⟨c, .inl old, at?⟩

theorem lockOf?_congr (subscribers : r'.subscribers = r.subscribers)
    (closers : r'.closers = r.closers) (w : Holder) : r'.lockOf? w = r.lockOf? w := by
  cases w with
  | subscriber i => rw [lockOf?, subscribers, lockOf?]
  | closer j => rw [lockOf?, closers, lockOf?]

/-- Nobody has moved. -/
theorem Locked.keep (h : r.Locked) (stands : ∀ k w, r'.Stands k w ↔ r.Stands k w)
    (asks : ∀ w, r'.lockOf? w = r.lockOf? w) : r'.Locked := by
  constructor
  intro k w
  rw [stands, asks]
  exact h.stands k w

theorem Locked.frame (h : r.Locked) (entries : r'.entries = r.entries)
    (subscribers : r'.subscribers = r.subscribers) (closers : r'.closers = r.closers) :
    r'.Locked := by
  refine h.keep (fun k w => ?_) (lockOf?_congr subscribers closers)
  rw [Stands, entries, Stands]

/-- Somebody asks for a lock. -/
theorem Locked.ask (h : r.Locked) (e : Nat) (who : Holder) (nowhere : r.lockOf? who = none)
    (stands : ∀ k w, r'.Stands k w ↔ r.Stands k w ∨ (k = e ∧ w = who))
    (asks : ∀ w, r'.lockOf? w = if w = who then some e else r.lockOf? w) : r'.Locked := by
  constructor
  intro k w
  rw [stands, asks, h.stands k w]
  split_ifs with same
  · subst same
    simp [nowhere, eq_comm]
  · simp [same]

/-- Somebody gives a lock back, or stops waiting for it. -/
theorem Locked.leave (h : r.Locked) (e : Nat) (who : Holder) (there : r.lockOf? who = some e)
    (stands : ∀ k w, r'.Stands k w ↔ r.Stands k w ∧ ¬ (k = e ∧ w = who))
    (asks : ∀ w, r'.lockOf? w = if w = who then none else r.lockOf? w) : r'.Locked := by
  constructor
  intro k w
  rw [stands, asks, h.stands k w]
  split_ifs with same
  · subst same
    simp [there, eq_comm]
  · simp [same]

theorem lockOf?_subscriber {i : Nat} {s : Subscriber} (found : r.subscribers[i]? = some s) :
    r.lockOf? (.subscriber i) = s.phase.lock? := by
  rw [lockOf?, found]
  rfl

theorem lockOf?_closer {j : Nat} {c : Closer} (found : r.closers[j]? = some c) :
    r.lockOf? (.closer j) = c.lock? := by
  rw [lockOf?, found]
  rfl

/-- A subscriber goes on and stays where it stands. -/
theorem Locked.walk (h : r.Locked) {i : Nat} {s : Subscriber} {q : Subscribing}
    (found : r.subscribers[i]? = some s) (same : q.lock? = s.phase.lock?) :
    (r.setSubscriber i q).Locked := by
  refine h.keep (fun k w => Iff.rfl) fun w => ?_
  rw [lockOf?_setSubscriber q found]
  split_ifs with this
  · rw [this, lockOf?_subscriber found, same]
  · rfl

/-- A subscriber goes on to a phase without a lock. -/
theorem Locked.leaves (h : r.Locked) {i e : Nat} {s : Subscriber} {q : Subscribing}
    (found : r.subscribers[i]? = some s) (there : s.phase.lock? = some e) (away : q.lock? = none)
    (stands : ∀ k w, r'.Stands k w ↔ r.Stands k w) (subscribers : r'.subscribers = r.subscribers)
    (closers : r'.closers = r.closers) :
    ((r'.release e (.subscriber i)).setSubscriber i q).Locked := by
  have found' : (r'.release e (.subscriber i)).subscribers[i]? = some s :=
    (congrArg (·[i]?) subscribers).trans found
  refine h.leave e (.subscriber i) ((lockOf?_subscriber found).trans there)
    (fun k w => ?_) fun w => ?_
  · rw [← stands k w]
    exact stands_release e _ k w
  · rw [lockOf?_setSubscriber q found', away]
    split_ifs
    · rfl
    · exact lockOf?_congr subscribers closers w

/-- A closer goes on and stands nowhere. -/
theorem Locked.closerWalk (h : r.Locked) {j : Nat} {c : Closer} {q : Closing}
    (found : r.closers[j]? = some c) (same : Closer.lock? ⟨c.entry, q⟩ = c.lock?) :
    (r.setCloser j q).Locked := by
  refine h.keep (fun k w => Iff.rfl) fun w => ?_
  rw [lockOf?_setCloser q found]
  split_ifs with this
  · rw [this, lockOf?_closer found, same]
  · rfl

theorem Locked.move (h : r.Locked) (owned : r.Owned) (tended : r.Tended) (m : Move r a r') :
    r'.Locked := by
  cases m with
  | subscribe room =>
      refine h.keep (fun k w => Iff.rfl) fun w => ?_
      obtain i | j := w
      · refine Option.ext fun e => ?_
        simp only [lockOf?, subscribe, Option.bind_eq_some_iff, getElem?_push_some]
        constructor
        · rintro ⟨s, old | ⟨_, rfl⟩, at?⟩
          · exact ⟨s, old, at?⟩
          · cases at?
        · rintro ⟨s, old, at?⟩
          exact ⟨s, .inl old, at?⟩
      · rfl
  | walk found walks =>
      refine h.walk found ?_
      rw [walks.free.1]
      cases walks <;> rfl
  | find found phase => exact h.walk found (Subscribing.unlocked phase).symm
  | @create i s found phase up new =>
      have registered : (r.register s.roomId).Locked := by
        refine h.keep (fun k w => ?_) fun w => rfl
        constructor
        · rintro ⟨x, here, among⟩
          obtain old | ⟨_, rfl⟩ := getElem?_push_some.1 here
          · exact ⟨x, old, among⟩
          · cases among
        · rintro ⟨x, here, among⟩
          exact ⟨x, getElem?_push_some.2 (.inl here), among⟩
      exact registered.walk found (by rw [phase]; rfl)
  | @ask a i e s found phase =>
      obtain ⟨x, here, _⟩ := (owned.placed i s found).named e (by rw [phase]; rfl)
      refine h.ask e (.subscriber i) ?_ (stands_enqueue here _)
        (lockOf?_setSubscriber (r := r.enqueue e _) _ found)
      rw [lockOf?_subscriber found, phase]
      rfl
  | turnAway found phase | join found phase | fail found phase | failClosed found phase =>
      exact h.leaves found (by rw [phase]; rfl) rfl (fun k w => Iff.rfl) rfl rfl
  | watch found phase => exact h.walk found (by rw [phase]; rfl)
  | @watched i e s store feed found phase opened =>
      have begun : ((r.openStream s.roomId store feed).modifyEntry e
          fun x => { x with puller := some r.streams.size }).Locked :=
        h.keep (stands_modifyEntry_same (r := r.openStream s.roomId store feed) e _ fun x => rfl)
          (lockOf?_congr rfl rfl)
      exact begun.walk found (by rw [phase]; rfl)
  | start found phase | startDead found phase =>
      exact h.leaves found (by rw [phase]; rfl) rfl
        (stands_modifyEntry_same _ _ fun x => rfl) rfl rfl
  | @remove i e s found phase =>
      exact Locked.walk (r := r.unregister s.roomId) (h.frame rfl rfl rfl) found
        (by rw [phase]; rfl)
  | abort found phase =>
      refine h.leaves found ?_ rfl (fun k w => Iff.rfl) rfl rfl
      obtain phase | phase := phase <;> rw [phase] <;> rfl
  | @askToClose a j c found phase =>
      obtain ⟨inside, _⟩ := tended.assigned j c found
      refine h.ask c.entry (.closer j) ?_
        (stands_enqueue (Array.getElem?_eq_getElem inside) _)
        (lockOf?_setCloser (r := r.enqueue c.entry _) _ found)
      rw [lockOf?_closer found, Closer.lock?, phase]
  | @retire a j c x found phase here head =>
      let gone (x : Entry) : Entry := { x with retired := true, puller := none }
      have stands (k : Nat) (w : Holder) :
          ((r.modifyEntry c.entry gone).release c.entry (.closer j)).Stands k w ↔
            r.Stands k w ∧ ¬ (k = c.entry ∧ w = .closer j) :=
        (stands_release c.entry _ k w).trans
          (and_congr_left fun _ => stands_modifyEntry_same c.entry gone (fun x => rfl) k w)
      refine h.leave c.entry (.closer j) ?_ stands
        (lockOf?_setCloser (r := (r.modifyEntry c.entry gone).release c.entry _) _ found)
      rw [lockOf?_closer found, Closer.lock?, phase]
  | @closeWindow a j t c p found phase =>
      refine Locked.closerWalk (r := r.modifyStream t (·.perform .close))
        (h.frame rfl rfl rfl) found ?_
      rw [Closer.lock?, Closer.lock?, phase]
  | closeNothing found phase | closed found phase =>
      refine h.closerWalk found ?_
      rw [Closer.lock?, Closer.lock?, phase]
  | drain =>
      exact h.keep (fun k w => Iff.rfl) (lockOf?_addClosers (r := { r with registered := [] }) _)
  | @reclaim a e x here may =>
      rw [reclaim_eq here may]
      exact h.keep (stands_modifyEntry_same e _ fun x => rfl) (lockOf?_addClosers [e])
  | _ => exact h.frame rfl rfl rfl

/-- Nobody is at an entry whose lock is free. -/
theorem Locked.free (h : r.Locked) {e : Nat} {x : Entry} (here : r.entries[e]? = some x)
    (free : x.lock = []) (who : Holder) : r.lockOf? who ≠ some e := by
  intro at?
  obtain ⟨y, here', among⟩ := (h.stands e who).2 at?
  obtain rfl : x = y := Option.some.inj (here.symm.trans here')
  rw [free] at among
  cases among

theorem run?_locked {capacity channelCapacity : Nat} {acts : List Action}
    (ran : (Registry.empty capacity channelCapacity).run? acts = some r) : r.Locked :=
  ((empty_books _ _).run (fun books h m => h.move books.owned books.tended m) (empty_locked _ _)
    ran).2

end Roomcast.Registry

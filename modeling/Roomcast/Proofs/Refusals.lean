import Roomcast.Proofs.Holding
import Roomcast.Proofs.SingleRoom

/-!
# What a refused subscriber leaves behind

A subscriber that comes when a shutdown has begun is turned away by its first step, which changes
nothing but the subscriber. One that comes before may make an entry, and may be overtaken by a
shutdown. Then it does not go away as long as an entry that it has made is registered, unless its
caller gives up or its store does not grant it a feed.
-/

namespace Roomcast.Registry

variable {r r' : Registry} {a : Action} {i e : Nat}

/-- What is true of the phase of a subscriber, and is kept if it is the one that turns, is true when
one of them has turned. -/
theorem phase_setSubscriber {P : Subscribing → Prop} {j : Nat} {s s₁ : Subscriber} {q : Subscribing}
    (found : r.subscribers[i]? = some s) (phase : P s.phase) (found₁ : r.subscribers[j]? = some s₁)
    (keeps : j = i → P s₁.phase → P q) :
    ∃ s', (r.setSubscriber j q).subscribers[i]? = some s' ∧ s'.roomId = s.roomId ∧ P s'.phase := by
  refine getElem?_modify_keeps found ⟨rfl, phase⟩ fun same => ⟨rfl, keeps same ?_⟩
  subst same
  obtain rfl : s = s₁ := Option.some.inj (found.symm.trans found₁)
  exact phase

/-- A subscriber that has not got past the first check, and will not. -/
def Subscribing.IsBarred (p : Subscribing) : Prop :=
  p = .checking ∨ p = .done (.error .shuttingDown) ∨ p = .aborted

/-- A shutdown has begun, and subscriber `i` has not got past the first check. -/
structure Barred (r : Registry) (i : Nat) : Prop where
  down : r.down = true
  phase : ∃ s, r.subscribers[i]? = some s ∧ s.phase.IsBarred

theorem subscribe_barred (room : Uuid) (down : r.down = true) :
    (r.subscribe room).Barred r.subscribers.size :=
  ⟨down, ⟨room, .checking⟩, by simp [subscribe], .inl rfl⟩

theorem Barred.move (h : r.Barred i) (m : Move r a r') : r'.Barred i := by
  obtain ⟨s, found, phase⟩ := h.phase
  refine ⟨m.down h.down, ?_⟩
  have turned : ∀ {j : Nat} {s₁ : Subscriber} {q : Subscribing}, r.subscribers[j]? = some s₁ →
      (s₁.phase.IsBarred → q.IsBarred) →
      ∃ s', (r.setSubscriber j q).subscribers[i]? = some s' ∧ s'.phase.IsBarred := by
    intro j s₁ q found₁ keeps
    obtain ⟨s', found', _, barred⟩ := phase_setSubscriber found phase found₁ fun _ => keeps
    exact ⟨s', found', barred⟩
  cases m with
  | subscribe => exact ⟨s, getElem?_push_some.2 (.inl found), phase⟩
  | walk found₁ walks =>
      refine turned found₁ fun barred => ?_
      cases walks with
      | refuse => exact .inr (.inl rfl)
      | look _ up =>
          rw [h.down] at up
          cases up
      | miss phase₁ => simp [Subscribing.IsBarred, phase₁] at barred
      | again => exact .inl rfl
      | quit => exact .inr (.inr rfl)
  | find found₁ phase₁ =>
      refine turned found₁ fun barred => ?_
      obtain phase₁ | phase₁ := phase₁ <;> simp [Subscribing.IsBarred, phase₁] at barred
  | abort found₁ => exact turned found₁ fun _ => .inr (.inr rfl)
  | create found₁ phase₁ | ask found₁ phase₁ | turnAway found₁ phase₁ | join found₁ phase₁
  | watch found₁ phase₁ | watched found₁ phase₁ | fail found₁ phase₁ | failClosed found₁ phase₁
  | start found₁ phase₁ | startDead found₁ phase₁ | remove found₁ phase₁ =>
      refine turned found₁ fun barred => ?_
      simp [Subscribing.IsBarred, phase₁] at barred
  | reclaim here may =>
      rw [reclaim_eq here may]
      exact ⟨s, found, phase⟩
  | _ => exact ⟨s, found, phase⟩

theorem Barred.run (h : r.Barred i) (owned : r.Owned) {acts : List Action}
    (ran : r.run? acts = some r') : r'.Barred i :=
  (owned.run (P := fun r => r.Barred i) (fun _ _ h m => h.move m) h ran).2

/-- An action that subscriber `i` takes, or that is taken for it. -/
def Action.isOf (i : Nat) : Action → Bool
  | step (.subscriber j) | abort j | watched j _ => j = i
  | _ => false

/-- What changes when a subscriber is turned away is the subscriber. -/
theorem Barred.perform (h : r.Barred i) (own : a.isOf i = true) (did : r.perform? a = some r') :
    ∃ q, r' = r.setSubscriber i q := by
  obtain ⟨s, found, phase⟩ := h.phase
  cases a with
  | step p =>
      cases p with
      | subscriber j =>
          obtain rfl : j = i := by simpa [Action.isOf] using own
          rw [perform?, step?, stepSubscriber?, found] at did
          obtain checking | out | out := phase
          · simp only [checking, Option.some.injEq] at did
            exact ⟨_, did.symm⟩
          · simp [out] at did
          · simp [out] at did
      | _ => cases own
  | abort j =>
      obtain rfl : j = i := by simpa [Action.isOf] using own
      rw [perform?, abort?, found] at did
      obtain checking | out | out := phase
      · simp only [checking, Option.some.injEq] at did
        exact ⟨_, did.symm⟩
      · simp [out] at did
      · simp [out] at did
  | watched j failure =>
      obtain rfl : j = i := by simpa [Action.isOf] using own
      rw [perform?, watched?, found] at did
      obtain phase | phase | phase := phase <;> simp [phase] at did
  | _ => cases own

/-- A subscriber at an entry, or one that will never be refused. -/
def Subscribing.IsAt (e : Nat) (p : Subscribing) : Prop :=
  p.entry? = some e ∨ (∃ h, p = .done (.ok h)) ∨ p = .aborted

theorem Subscribing.IsAt.entry {p : Subscribing} {k : Nat} (at' : p.IsAt e)
    (here : p.entry? = some k) : k = e := by
  obtain same | ⟨g, rfl⟩ | rfl := at'
  · exact Option.some.inj (here.symm.trans same)
  · cases here
  · cases here

/-- Subscriber `i` does not go away from entry `e` as long as it is registered. -/
structure Tends (r : Registry) (i e : Nat) : Prop where
  made : e < r.entries.size
  stays : ∀ room, r.entryOf? room = some e → ∃ s, r.subscribers[i]? = some s ∧ s.phase.IsAt e

theorem Tends.move (h : r.Tends i e) (owned : r.Owned) (m : Move r a r')
    (granted : ∀ err, a ≠ .watched i (some err)) : r'.Tends i e := by
  have inside : e < r'.entries.size := by
    obtain ⟨x', here, _⟩ := m.entry owned (Array.getElem?_eq_getElem h.made)
    exact lt_size_of_getElem? here
  refine ⟨inside, fun room current' => ?_⟩
  have current := m.current h.made current'
  obtain ⟨s, found, phase⟩ := h.stays room current
  have turned : ∀ {j : Nat} {s₁ : Subscriber} {q : Subscribing}, r.subscribers[j]? = some s₁ →
      (j = i → s₁.phase.IsAt e → q.IsAt e) →
      ∃ s', (r.setSubscriber j q).subscribers[i]? = some s' ∧ s'.phase.IsAt e := by
    intro j s₁ q found₁ keeps
    obtain ⟨s', found', _, at'⟩ := phase_setSubscriber found phase found₁ keeps
    exact ⟨s', found', at'⟩
  -- Who is at an entry and goes on there is at it still.
  have goes : ∀ {j k : Nat} {s₁ : Subscriber} {q : Subscribing}, r.subscribers[j]? = some s₁ →
      s₁.phase.entry? = some k → q.entry? = some k →
      ∃ s', (r.setSubscriber j q).subscribers[i]? = some s' ∧ s'.phase.IsAt e := by
    intro j k s₁ q found₁ here here'
    exact turned found₁ fun _ at' => .inl (at'.entry here ▸ here')
  -- Who is not there has no part in it.
  have away : ∀ {j : Nat} {s₁ : Subscriber} {q : Subscribing}, r.subscribers[j]? = some s₁ →
      ¬ s₁.phase.IsAt e → ∃ s', (r.setSubscriber j q).subscribers[i]? = some s' ∧
        s'.phase.IsAt e := by
    intro j s₁ q found₁ far
    exact turned found₁ fun _ at' => absurd at' far
  -- The entry of its room that a subscriber removes is not registered any more.
  have removes : ∀ {j k : Nat} {s₁ : Subscriber} {q : Subscribing},
      r.subscribers[j]? = some s₁ → s₁.phase = .removing k →
      (r.entryOf? s₁.roomId = some k → s₁.roomId ≠ room) →
      ∃ s', (r.setSubscriber j q).subscribers[i]? = some s' ∧ s'.phase.IsAt e := by
    intro j k s₁ q found₁ phase₁ gone
    refine turned found₁ fun _ at' => ?_
    have place : s₁.phase.entry? = some k := by rw [phase₁]; rfl
    obtain rfl := at'.entry place
    obtain ⟨x, here, named⟩ := (owned.placed j s₁ found₁).named k place
    obtain ⟨x', here', named'⟩ := owned.entry_of_current current
    obtain rfl : x = x' := Option.some.inj (here.symm.trans here')
    have room : s₁.roomId = room := named.symm.trans named'
    rw [room] at gone
    exact absurd rfl (gone current)
  cases m with
  | subscribe => exact ⟨s, getElem?_push_some.2 (.inl found), phase⟩
  | walk found₁ walks =>
      cases walks with
      | refuse phase₁ =>
          refine away found₁ ?_
          obtain phase₁ | phase₁ := phase₁ <;> simp [Subscribing.IsAt, Subscribing.entry?, phase₁]
      | look phase₁ | miss phase₁ =>
          exact away found₁ (by simp [Subscribing.IsAt, Subscribing.entry?, phase₁])
      | again phase₁ other => exact removes found₁ phase₁ fun current => absurd current other
      | quit => exact turned found₁ fun _ _ => .inr (.inr rfl)
  | find found₁ phase₁ =>
      refine away found₁ ?_
      obtain phase₁ | phase₁ := phase₁ <;> simp [Subscribing.IsAt, Subscribing.entry?, phase₁]
  | create found₁ phase₁ =>
      exact away found₁ (by simp [Subscribing.IsAt, Subscribing.entry?, phase₁])
  | ask found₁ phase₁ | turnAway found₁ phase₁ | watch found₁ phase₁ | watched found₁ phase₁
  | failClosed found₁ phase₁ | startDead found₁ phase₁ =>
      exact goes found₁ (by rw [phase₁]; rfl) rfl
  | join found₁ | start found₁ => exact turned found₁ fun _ _ => .inr (.inl ⟨_, rfl⟩)
  | abort found₁ => exact turned found₁ fun _ _ => .inr (.inr rfl)
  | fail found₁ =>
      refine turned found₁ fun same => ?_
      subst same
      exact absurd rfl (granted _)
  | @remove j k s₁ found₁ phase₁ =>
      refine removes found₁ phase₁ fun _ same => ?_
      have there := (entryOf?_unregister r s₁.roomId room).symm.trans current'
      rw [if_pos same.symm] at there
      cases there
  | reclaim here may =>
      rw [reclaim_eq here may]
      exact ⟨s, found, phase⟩
  | _ => exact ⟨s, found, phase⟩

/-- A subscriber is at the entry that it has just made. -/
theorem perform?_tends (owned : r.Owned) (did : r.perform? (.step (.subscriber i)) = some r')
    (new : r.entries.size ≤ e) (made : e < r'.entries.size) : r'.Tends i e := by
  refine ⟨made, fun room _ => ?_⟩
  have fresh : ∀ {xs : Array Entry}, r'.entries = xs → xs.size = r.entries.size → False := by
    intro xs same size
    rw [same, size] at made
    exact absurd made (Nat.not_lt.2 new)
  obtain ⟨x, here⟩ : ∃ x, r'.entries[e]? = some x := ⟨_, Array.getElem?_eq_getElem made⟩
  have m := perform?_move owned.fresh (by simp) did
  obtain ⟨rfl, _⟩ := m.entry_new new here
  cases m with
  | create found =>
      exact ⟨_, by rw [setSubscriber]; exact getElem?_modify_some.2 (.inr ⟨rfl, _, found, rfl⟩),
        .inl rfl⟩
  | ask | turnAway | join | askToClose => exact (fresh rfl Array.size_modify).elim
  | start | startDead | retire => exact (fresh rfl (Array.size_modify.trans Array.size_modify)).elim
  | reclaim here' may =>
      exact (fresh (congrArg entries (reclaim_eq here' may)) Array.size_modify).elim
  | _ => exact (fresh rfl rfl).elim

theorem Tends.run (h : r.Tends i e) (owned : r.Owned) {acts : List Action}
    (ran : r.run? acts = some r') (granted : ∀ err, .watched i (some err) ∉ acts) :
    r'.Tends i e := by
  refine (owned.run (P := fun r => r.Tends i e) (fun {r r' a} among owned h m => ?_) h ran).2
  exact h.move owned m fun err same => granted err (same ▸ among)

/-- When a subscriber is refused no entry that it has made is registered. -/
theorem Tends.gone (h : r.Tends i e) {s : Subscriber} {err : StreamError}
    (found : r.subscribers[i]? = some s) (refused : s.phase = .done (.error err)) (room : Uuid) :
    r.entryOf? room ≠ some e := by
  intro current
  obtain ⟨s', found', phase⟩ := h.stays room current
  obtain rfl : s = s' := Option.some.inj (found.symm.trans found')
  rw [refused] at phase
  obtain same | ⟨g, out⟩ | out := phase
  · cases same
  · cases out
  · cases out

theorem Action.isPatrol_of_isOf (own : a.isOf i = true) : a.isPatrol = false := by
  cases a with
  | step p =>
      cases p with
      | collector => cases own
      | _ => rfl
  | abort | watched => rfl
  | _ => cases own

/-- An action of a subscriber leaves the entry of a room in the registry or removes it because it is
dead, and the only entry that it puts there is a new one. -/
theorem Kept.perform?_entryOf? (h : r.Kept) (own : a.isOf i = true) (did : r.perform? a = some r')
    (room : Uuid) :
    r'.entryOf? room = r.entryOf? room ∨
      (∃ e, a = .step (.subscriber i) ∧ r.entries.size ≤ e ∧ e < r'.entries.size ∧
        r.entryOf? room = none ∧ r'.entryOf? room = some e) ∨
      ∃ e x, r.entryOf? room = some e ∧ r.entries[e]? = some x ∧ r.Dead x ∧
        r'.entryOf? room = none := by
  have apart : ∀ j, a ≠ .step (.collector j) := by
    rintro j rfl
    cases own
  cases perform?_move h.owned.fresh apart did with
  | @create j s found phase up new =>
      obtain rfl : j = i := by simpa [Action.isOf] using own
      have there := entryOf?_register r s.roomId room
      by_cases same : s.roomId = room
      · subst same
        refine .inr (.inl ⟨r.entries.size, rfl, le_rfl, ?_, new, there.trans (if_pos rfl)⟩)
        exact (Nat.lt_succ_self _).trans_eq (Array.size_push _).symm
      · exact .inl (there.trans (if_neg fun eq => same eq.symm))
  | @remove j e s found phase current =>
      have there := entryOf?_unregister r s.roomId room
      by_cases same : s.roomId = room
      · subst same
        obtain ⟨x, here, _⟩ := h.owned.entry_of_current current
        exact .inr (.inr ⟨e, x, current, here, h.removing j e s x found phase here,
          there.trans (if_pos rfl)⟩)
      · exact .inl (there.trans (if_neg fun eq => same eq.symm))
  | reclaim _ _ patrols =>
      rw [Action.isPatrol_of_isOf own] at patrols
      cases patrols
  | drain => cases own
  | _ => exact .inl rfl

end Roomcast.Registry

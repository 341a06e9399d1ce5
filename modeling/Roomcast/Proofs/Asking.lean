import Roomcast.Proofs.Unaided

/-!
# How often a subscriber asks

A subscriber that turns away from a dead entry removes it and tries again, with an entry of its own
for which it asks the store for a feed. When the store refuses the feed the subscriber has its
answer. So over a store that refuses every feed, a subscriber that is left alone tries twice at most
and asks once at most.

One refusal is different. A subscriber that is told that the feed has ended takes its own new entry
for a dead one. It removes the entry, makes another and asks again, and so on for ever: it never
gets an answer.
-/

namespace Roomcast.Registry

variable {r r' : Registry} {a : Action} {i n : Nat} {room : Uuid} {err : StreamError}

/-- What happens when only subscriber `i` goes on, and the store refuses every feed. -/
inductive Action.Lone (i : Nat) (err : StreamError) : Action → Prop
  | step : Lone i err (.step (.subscriber i))
  | refused : Lone i err (.watched i (some err))

def tries? (r : Registry) : Action → Option Nat
  | .step (.subscriber i) => (r.subscribers[i]?).bind fun s =>
    match s.phase with
    | .checking => some i
    | _ => none
  | _ => none

/-- The tries of a run, each named by its subscriber. -/
def tries (r : Registry) (acts : List Action) : List Nat := seen tries? r acts

/-- The store has nobody to refuse a feed unless the subscriber waits for one. -/
theorem watched?_of_other {p : Subscribing} (found : r.subscribers[i]? = some ⟨room, p⟩)
    (other : ∀ e, p ≠ .watching e) (failure : Option StreamError) :
    r.watched? i failure = none := by
  cases p with
  | watching e => exact absurd rfl (other e)
  | _ => simp [watched?, found]

/-- A subscriber that does not wait for a feed goes on in one way. -/
theorem Action.Lone.step_of {p : Subscribing} (lone : Action.Lone i err a)
    (found : r.subscribers[i]? = some ⟨room, p⟩) (other : ∀ e, p ≠ .watching e)
    (did : r.perform? a = some r') : a.opening? i = none ∧ r.stepSubscriber? i = some r' := by
  cases lone with
  | step => exact ⟨rfl, did⟩
  | refused =>
      rw [perform?, watched?_of_other found other] at did
      cases did

/-- A subscriber that waits for a feed is refused it. -/
theorem Action.Lone.refused_of {e : Nat} (lone : Action.Lone i err a)
    (found : r.subscribers[i]? = some ⟨room, .watching e⟩) (did : r.perform? a = some r') :
    a.opening? i = some (some err) ∧ r' = r.conclude i e (.error err) := by
  cases lone with
  | step => simp [perform?, step?, stepSubscriber?, found] at did
  | refused =>
      simp only [perform?, watched?, found, Option.some.injEq] at did
      exact ⟨if_pos rfl, did.symm⟩

/-- A subscriber of a room without an entry is on its way to a feed for an entry of its own. The
number says how many steps it is from its answer. -/
inductive OnWay (r : Registry) (i : Nat) (room : Uuid) : Nat → Prop
  | checking (found : r.subscribers[i]? = some ⟨room, .checking⟩)
      (new : r.entryOf? room = none) : OnWay r i room 6
  | looking (found : r.subscribers[i]? = some ⟨room, .looking⟩)
      (new : r.entryOf? room = none) : OnWay r i room 5
  | creating (found : r.subscribers[i]? = some ⟨room, .creating⟩)
      (new : r.entryOf? room = none) : OnWay r i room 4
  | arriving {e : Nat} (found : r.subscribers[i]? = some ⟨room, .arriving e⟩)
      (current : r.entryOf? room = some e)
      (here : r.entries[e]? = some ⟨room, none, none, false, []⟩) : OnWay r i room 3
  | queued {e : Nat} (found : r.subscribers[i]? = some ⟨room, .queued e⟩)
      (current : r.entryOf? room = some e)
      (here : r.entries[e]? = some ⟨room, none, none, false, [.subscriber i]⟩) : OnWay r i room 2
  | watching {e : Nat} (found : r.subscribers[i]? = some ⟨room, .watching e⟩)
      (current : r.entryOf? room = some e) : OnWay r i room 1

/-- A subscriber goes on along its way, unless a shutdown has begun. -/
theorem OnWay.step (h : r.OnWay i room n) (far : 1 < n) (went : r.stepSubscriber? i = some r') :
    (r'.OnWay i room (n - 1) ∧ r'.down = r.down) ∨
      (r.down = true ∧ r'.subscribers[i]? = some ⟨room, .done (.error .shuttingDown)⟩) := by
  cases h with
  | checking found new =>
      simp only [stepSubscriber?, found, Option.some.injEq] at went
      subst went
      cases down : r.down with
      | true => exact .inr ⟨rfl, setSubscriber_self found _⟩
      | false => exact .inl ⟨.looking (setSubscriber_self found _) new, down⟩
  | looking found new =>
      simp only [stepSubscriber?, found, new, Option.some.injEq] at went
      subst went
      exact .inl ⟨.creating (setSubscriber_self found _) new, rfl⟩
  | creating found new =>
      simp only [stepSubscriber?, found, new] at went
      split_ifs at went with down
      · obtain rfl := Option.some.inj went
        exact .inr ⟨down, setSubscriber_self found _⟩
      · obtain rfl := Option.some.inj went
        refine .inl ⟨.arriving (e := r.entries.size)
          (setSubscriber_self (r := r.register room) found _) ?_ ?_, rfl⟩
        · exact (entryOf?_register r room room).trans (if_pos rfl)
        · exact getElem?_push_some.2 (.inr ⟨rfl, rfl⟩)
  | @arriving e found current here =>
      simp only [stepSubscriber?, found, Option.some.injEq] at went
      subst went
      have found' := setSubscriber_self (r := r.enqueue e (.subscriber i)) found (.queued e)
      exact .inl ⟨.queued found' current ((getElem?_modify_of _ here e).trans (if_pos rfl)), rfl⟩
  | @queued e found current here =>
      have holds : r.holds e (.subscriber i) = true := holds_iff.2 ⟨_, here, rfl⟩
      simp only [stepSubscriber?, found, holds, here, if_true, Option.map_some,
        Option.some.injEq] at went
      subst went
      exact .inl ⟨.watching (setSubscriber_self found _) current, rfl⟩
  | watching => exact absurd far (Nat.lt_irrefl 1)

/-- A subscriber that is on its way waits for a feed at its end, and not before. -/
theorem OnWay.waits (h : r.OnWay i room n) :
    (1 < n ∧ ∃ p, r.subscribers[i]? = some ⟨room, p⟩ ∧ ∀ e, p ≠ .watching e) ∨
      (n = 1 ∧ ∃ e, r.subscribers[i]? = some ⟨room, .watching e⟩ ∧ r.entryOf? room = some e) := by
  cases h with
  | watching found current => exact .inr ⟨rfl, _, found, current⟩
  | checking found | looking found | creating found | arriving found | queued found =>
      exact .inl ⟨by decide, _, found, by simp⟩

/-- A subscriber that is on its way can go on. -/
theorem OnWay.goesOn (h : r.OnWay i room n) (err : StreamError) :
    ∃ a, Action.Lone i err a ∧ (r.perform? a).isSome = true := by
  have goes : (r.stepSubscriber? i).isSome = true →
      ∃ a, Action.Lone i err a ∧ (r.perform? a).isSome = true := fun goes => ⟨_, .step, goes⟩
  cases h with
  | checking found | arriving found => exact goes (by simp [stepSubscriber?, found])
  | looking found new => exact goes (by simp [stepSubscriber?, found, new])
  | creating found new =>
      refine goes ?_
      simp only [stepSubscriber?, found, new]
      split_ifs <;> rfl
  | @queued e found current here =>
      have holds : r.holds e (.subscriber i) = true := holds_iff.2 ⟨_, here, rfl⟩
      exact goes (by simp [stepSubscriber?, found, holds, here])
  | watching found => exact ⟨_, .refused, by simp [perform?, watched?, found]⟩

/-- Somebody else has the lock of the entry of a room. -/
def IsTaken (r : Registry) (room : Uuid) : Prop :=
  ∃ e x, r.entryOf? room = some e ∧ r.entries[e]? = some x ∧ x.lock ≠ []

/-- Only those stand at an entry who are named, unless the lock is `taken`. -/
def IsFree (r : Registry) (e : Nat) (holders : List Holder) (taken : Prop) : Prop :=
  ∃ x, r.entries[e]? = some x ∧ (x.lock = holders ∨ taken)

/-- A subscriber comes nearer to its answer. It has not looked at the entry of its room yet, or is
at that entry, or is on its way to a feed for an entry of its own, or it has its answer. The number
says how many steps it is from its answer at most. -/
inductive Nears (r : Registry) (i : Nat) (room : Uuid) (taken : Prop) : Nat → Prop
  | checking (found : r.subscribers[i]? = some ⟨room, .checking⟩)
      (free : ∀ e, r.entryOf? room = some e → r.IsFree e [] taken) : Nears r i room taken 11
  | looking (found : r.subscribers[i]? = some ⟨room, .looking⟩)
      (free : ∀ e, r.entryOf? room = some e → r.IsFree e [] taken) : Nears r i room taken 10
  | arriving {e : Nat} (found : r.subscribers[i]? = some ⟨room, .arriving e⟩)
      (current : r.entryOf? room = some e) (free : r.IsFree e [] taken) : Nears r i room taken 9
  | queued {e : Nat} (found : r.subscribers[i]? = some ⟨room, .queued e⟩)
      (current : r.entryOf? room = some e) (free : r.IsFree e [.subscriber i] taken) :
      Nears r i room taken 8
  | removing {e : Nat} (found : r.subscribers[i]? = some ⟨room, .removing e⟩)
      (current : r.entryOf? room = some e) : Nears r i room taken 7
  | onWay {n : Nat} (h : r.OnWay i room n) : Nears r i room taken n
  | answered {result : Except StreamError Reader}
      (found : r.subscribers[i]? = some ⟨room, .done result⟩) : Nears r i room taken 0

/-- A subscriber that removes the entry of its room is on the way to an entry of its own. -/
theorem onWay_of_removing {e : Nat} (found : r.subscribers[i]? = some ⟨room, .removing e⟩)
    (current : r.entryOf? room = some e) (went : r.stepSubscriber? i = some r') :
    r'.OnWay i room 6 ∧ r'.down = r.down := by
  simp only [stepSubscriber?, found, current, if_true, Option.some.injEq] at went
  subst went
  refine ⟨.checking (setSubscriber_self (r := r.unregister room) found _) ?_, rfl⟩
  exact (entryOf?_unregister r room room).trans (if_pos rfl)

/-- A subscriber that gives the lock of the entry of its room back has its answer, or removes the
entry. -/
theorem nears_conclude {e : Nat} {p : Subscribing} (taken : Prop)
    (found : r.subscribers[i]? = some ⟨room, p⟩) (current : r.entryOf? room = some e)
    (result : Except StreamError Reader) :
    ∃ m, m < 8 ∧ (r.conclude i e result).Nears i room taken m := by
  obtain ⟨q, eq, rfl | ⟨rfl, -⟩⟩ := conclude_eq r i e result
  · exact ⟨0, by omega, .answered (eq ▸ setSubscriber_self (r := r.release e _) found _)⟩
  · exact ⟨7, by omega, .removing (eq ▸ setSubscriber_self (r := r.release e _) found _)
      (eq ▸ current)⟩

/-- A subscriber that has the lock of the entry of its room comes nearer to its answer. -/
theorem nears_enter {e : Nat} {x : Entry} (taken : Prop)
    (found : r.subscribers[i]? = some ⟨room, .queued e⟩) (current : r.entryOf? room = some e) :
    ∃ m, m < 8 ∧ (r.enter i e x).Nears i room taken m := by
  rw [enter]
  split_ifs
  · exact nears_conclude taken found current _
  · cases x.stream with
    | none => exact ⟨1, by omega, .onWay (.watching (setSubscriber_self found _) current)⟩
    | some t =>
        obtain ⟨streams, joined⟩ := joinStream_rest r t
        simp only [joined]
        exact nears_conclude (r := { r with streams }) taken found current _

/-- Each thing that happens to a subscriber brings it nearer to its answer. It has its answer once
it has been refused a feed. -/
theorem Nears.step {taken : Prop} (h : r.Nears i room taken n) (other : err ≠ .closed)
    (lone : Action.Lone i err a) (did : r.perform? a = some r') :
    ∃ m, m < n ∧ r'.Nears i room taken m ∧ (a.opening? i = none ∨
      (a.opening? i = some (some err) ∧
        r'.subscribers[i]? = some ⟨room, .done (.error err)⟩)) := by
  cases h with
  | checking found free =>
      obtain ⟨silent, went⟩ := lone.step_of found (by simp) did
      simp only [stepSubscriber?, found, Option.some.injEq] at went
      subst went
      cases down : r.down with
      | true => exact ⟨0, by omega, .answered (setSubscriber_self found _), .inl silent⟩
      | false => exact ⟨10, by omega, .looking (setSubscriber_self found _) free, .inl silent⟩
  | looking found free =>
      obtain ⟨silent, went⟩ := lone.step_of found (by simp) did
      simp only [stepSubscriber?, found] at went
      cases current : r.entryOf? room with
      | none =>
          simp only [current, Option.some.injEq] at went
          subst went
          exact ⟨4, by omega, .onWay (.creating (setSubscriber_self found _) current), .inl silent⟩
      | some e =>
          simp only [current, Option.some.injEq] at went
          subst went
          exact ⟨9, by omega, .arriving (setSubscriber_self found _) current (free e current),
            .inl silent⟩
  | @arriving e found current free =>
      obtain ⟨silent, went⟩ := lone.step_of found (by simp) did
      simp only [stepSubscriber?, found, Option.some.injEq] at went
      subst went
      obtain ⟨x, here, empty⟩ := free
      refine ⟨8, by omega, .queued (setSubscriber_self (r := r.enqueue e (.subscriber i)) found _)
        current ⟨{ x with lock := x.lock ++ [.subscriber i] }, ?_, ?_⟩, .inl silent⟩
      · exact (getElem?_modify_of _ here e).trans (if_pos rfl)
      · exact empty.imp_left fun none => by rw [none, List.nil_append]
  | @queued e found current free =>
      obtain ⟨silent, went⟩ := lone.step_of found (by simp) did
      obtain ⟨x, here, -⟩ := free
      simp only [stepSubscriber?, found, here, Option.map_some] at went
      split_ifs at went
      obtain rfl := Option.some.inj went
      obtain ⟨m, less, nears⟩ := nears_enter taken found current
      exact ⟨m, less, nears, .inl silent⟩
  | removing found current =>
      obtain ⟨silent, went⟩ := lone.step_of found (by simp) did
      exact ⟨6, by omega, .onWay (onWay_of_removing found current went).1, .inl silent⟩
  | answered found =>
      cases lone with
      | step => simp [perform?, step?, stepSubscriber?, found] at did
      | refused => simp [perform?, watched?, found] at did
  | onWay way =>
      obtain ⟨far, p, found, elsewhere⟩ | ⟨rfl, e, found, current⟩ := way.waits
      · obtain ⟨silent, went⟩ := lone.step_of found elsewhere did
        obtain ⟨way', -⟩ | ⟨-, barred⟩ := way.step far went
        · exact ⟨n - 1, by omega, .onWay way', .inl silent⟩
        · exact ⟨0, by omega, .answered barred, .inl silent⟩
      · obtain ⟨asked, rfl⟩ := lone.refused_of found did
        obtain ⟨q, eq, rfl | ⟨-, closed⟩⟩ := conclude_eq r i e (.error err)
        · have told := setSubscriber_self (r := r.release e (.subscriber i)) found
            (.done (.error err))
          exact ⟨0, by omega, .answered (eq ▸ told), .inr ⟨asked, eq ▸ told⟩⟩
        · exact absurd (Except.error.inj closed) other

/-- A subscriber that has no answer can go on, unless somebody else has the lock. -/
theorem Nears.goesOn {taken : Prop} (h : r.Nears i room taken n) (err : StreamError) :
    (∃ result, r.subscribers[i]? = some ⟨room, .done result⟩) ∨
      (∃ a, Action.Lone i err a ∧ (r.perform? a).isSome = true) ∨ taken := by
  have goes : (r.stepSubscriber? i).isSome = true →
      ∃ a, Action.Lone i err a ∧ (r.perform? a).isSome = true := fun goes => ⟨_, .step, goes⟩
  cases h with
  | checking found | arriving found | removing found =>
      exact .inr (.inl (goes (by simp [stepSubscriber?, found])))
  | looking found =>
      refine .inr (.inl (goes ?_))
      simp only [stepSubscriber?, found]
      split <;> rfl
  | @queued e found current free =>
      obtain ⟨x, here, alone | taken⟩ := free
      · have holds : r.holds e (.subscriber i) = true := holds_iff.2 ⟨x, here, by rw [alone]; rfl⟩
        exact .inr (.inl (goes (by simp [stepSubscriber?, found, holds, here])))
      · exact .inr (.inr taken)
  | onWay way => exact .inr (.inl (way.goesOn err))
  | answered found => exact .inl ⟨_, found⟩

/-- How many tries a subscriber begins that is so many steps from its answer. -/
def triesLeft (n : Nat) : Nat := if n < 6 then 0 else if n < 11 then 1 else 2

/-- A subscriber begins a try at two places of its way. -/
theorem Nears.tries {taken : Prop} (h : r.Nears i room taken n) (lone : Action.Lone i err a)
    {m : Nat} (nearer : m < n) : (r.tries? a).toList.length + triesLeft m ≤ triesLeft n := by
  have begins : (r.tries? a).toList.length = 0 ∨
      ((r.tries? a).toList.length = 1 ∧ (n = 6 ∨ n = 11)) := by
    cases lone with
    | refused => exact .inl rfl
    | step =>
        cases h with
        | checking found => exact .inr (by simp [tries?, found])
        | looking found | arriving found | queued found | removing found | answered found =>
            exact .inl (by simp [tries?, found])
        | onWay way =>
            cases way with
            | checking found => exact .inr (by simp [tries?, found])
            | looking found | creating found | arriving found | queued found | watching found =>
                exact .inl (by simp [tries?, found])
  simp only [triesLeft]
  split_ifs <;> omega

/-- A subscriber that is left alone comes nearer to its answer with everything that happens. -/
theorem Nears.run {taken : Prop} (h : r.Nears i room taken n) (other : err ≠ .closed)
    {more : List Action} (alone : ∀ a ∈ more, Action.Lone i err a) (ran : r.run? more = some r') :
    ∃ m, r'.Nears i room taken m ∧ more.length + m ≤ n ∧
      (r.tries more).length + triesLeft m ≤ triesLeft n ∧
      (openings i more = [] ∨ (openings i more = [some err] ∧
        r'.subscribers[i]? = some ⟨room, .done (.error err)⟩)) := by
  revert alone
  refine run?_induction (P := fun more r' => (∀ a ∈ more, Action.Lone i err a) → ∃ m,
    r'.Nears i room taken m ∧ more.length + m ≤ n ∧
      (r.tries more).length + triesLeft m ≤ triesLeft n ∧
      (openings i more = [] ∨ (openings i more = [some err] ∧
        r'.subscribers[i]? = some ⟨room, .done (.error err)⟩))) ?_ ?_ ran
  · exact fun _ => ⟨n, h, by simp, by simp [Registry.tries, seen], .inl rfl⟩
  · intro more a r₁ r₂ ran ih did alone
    obtain ⟨m, nears, short, tried, asked⟩ := ih fun b among => alone b (by simp [among])
    have lone := alone a (by simp)
    obtain unasked | ⟨-, told⟩ := asked
    · obtain ⟨m', nearer, nears', asks⟩ := nears.step other lone did
      have cost := nears.tries lone nearer
      refine ⟨m', nears', ?_, ?_, ?_⟩
      · rw [List.length_append, List.length_singleton]
        omega
      · rw [Registry.tries, seen_snoc _ a ran, List.length_append, ← Registry.tries]
        omega
      · rw [openings_snoc, unasked, List.nil_append]
        exact asks.imp (fun silent => by rw [silent]; rfl)
          (And.imp_left fun asked => by rw [asked]; rfl)
    · -- Nothing happens to a subscriber that has its answer.
      obtain ⟨-, went⟩ := lone.step_of told (by simp) did
      simp [stepSubscriber?, told] at went

theorem OnWay.le (h : r.OnWay i room n) : n ≤ 6 := by
  cases h <;> decide

/-- A subscriber that is told of every feed that it has ended goes round in a circle. The number
says how many steps it is from its next refusal. -/
inductive Circles (r : Registry) (i : Nat) (room : Uuid) : Nat → Prop
  | onWay {n : Nat} (h : r.OnWay i room (n + 1)) : Circles r i room n
  | removing {e : Nat} (found : r.subscribers[i]? = some ⟨room, .removing e⟩)
      (current : r.entryOf? room = some e) : Circles r i room 6

theorem Circles.le (h : r.Circles i room n) : n ≤ 6 := by
  cases h with
  | onWay way =>
      have := way.le
      omega
  | removing => exact Nat.le_refl 6

theorem Circles.untold (h : r.Circles i room n) :
    ∃ s, r.subscribers[i]? = some s ∧ ∀ result, s.phase ≠ .done result := by
  cases h with
  | removing found => exact ⟨_, found, by simp⟩
  | onWay way =>
      cases way with
      | checking found | looking found | creating found | arriving found | queued found
      | watching found => exact ⟨_, found, by simp⟩

theorem Circles.goesOn (h : r.Circles i room n) (err : StreamError) :
    ∃ a, Action.Lone i err a ∧ (r.perform? a).isSome = true := by
  cases h with
  | onWay way => exact way.goesOn err
  | removing found => exact ⟨_, .step, by simp [perform?, step?, stepSubscriber?, found]⟩

/-- A subscriber that is refused a feed since it has ended begins the circle again. -/
theorem Circles.step (h : r.Circles i room n) (up : r.down = false)
    (lone : Action.Lone i .closed a) (did : r.perform? a = some r') :
    ∃ m, r'.Circles i room m ∧ r'.down = false ∧
      7 * (a.opening? i).toList.length + n = 1 + m := by
  cases h with
  | removing found current =>
      obtain ⟨silent, went⟩ := lone.step_of found (by simp) did
      obtain ⟨way, same⟩ := onWay_of_removing found current went
      exact ⟨5, .onWay way, same.trans up, by rw [silent]; rfl⟩
  | onWay way =>
      obtain ⟨far, p, found, elsewhere⟩ | ⟨last, e, found, current⟩ := way.waits
      · obtain ⟨silent, went⟩ := lone.step_of found elsewhere did
        obtain ⟨way', same⟩ | ⟨down, -⟩ := way.step far went
        · obtain ⟨m, rfl⟩ : ∃ m, n = m + 1 := ⟨n - 1, by omega⟩
          exact ⟨m, .onWay way', same.trans up, by rw [silent]; simp; omega⟩
        · rw [up] at down
          cases down
      · obtain ⟨asked, rfl⟩ := lone.refused_of found did
        obtain rfl : n = 0 := by omega
        have left := setSubscriber_self (r := r.release e (.subscriber i)) found (.removing e)
        exact ⟨6, .removing left current, up, by rw [asked]; rfl⟩

theorem Circles.run (h : r.Circles i room n) (up : r.down = false) {more : List Action}
    (alone : ∀ a ∈ more, Action.Lone i .closed a) (ran : r.run? more = some r') :
    ∃ m, r'.Circles i room m ∧ r'.down = false ∧
      7 * (openings i more).length + n = more.length + m := by
  revert alone
  refine run?_induction (P := fun more r' => (∀ a ∈ more, Action.Lone i .closed a) → ∃ m,
    r'.Circles i room m ∧ r'.down = false ∧
      7 * (openings i more).length + n = more.length + m) ?_ ?_ ran
  · exact fun _ => ⟨n, h, up, by simp [openings]⟩
  · intro more a r₁ r₂ _ ih did alone
    obtain ⟨m, circles, up₁, counted⟩ := ih fun b among => alone b (by simp [among])
    obtain ⟨m', circles', up₂, step⟩ := circles.step up₁ (alone a (by simp)) did
    refine ⟨m', circles', up₂, ?_⟩
    rw [openings_snoc, List.length_append, List.length_append, List.length_singleton]
    omega

/-- What a subscriber of a room does when it is left alone from the state `r` on, over a store that
refuses every feed with the same error. -/
structure Sparing (r : Registry) (room : Uuid) (err : StreamError) (more : List Action)
    (r' : Registry) : Prop where
  /-- It takes eleven steps at most. -/
  bounded : more.length ≤ 11
  /-- It tries twice at most. -/
  tries : ((r.subscribe room).tries more).length ≤ 2
  /-- It asks for a feed once at most, and the refusal is its answer. -/
  asks : openings r.subscribers.size more = [] ∨
    (openings r.subscribers.size more = [some err] ∧
      r'.subscribers[r.subscribers.size]? = some ⟨room, .done (.error err)⟩)
  /-- If nobody has the lock of the entry of the room, it goes on until it has its answer. -/
  answered : ¬ r.IsTaken room →
    (∀ a, Action.Lone r.subscribers.size err a → r'.perform? a = none) →
    ∃ result, r'.subscribers[r.subscribers.size]? = some ⟨room, .done result⟩

/-- Whatever has happened before, a subscriber that is left alone over a store that refuses every
feed has its answer after two tries, and does not ask again after a refusal, as long as it is not
told that the feed has ended. -/
theorem run?_sparing {capacity channelCapacity : Nat} {acts more : List Action}
    (ran : (Registry.empty capacity channelCapacity).run? acts = some r) (other : err ≠ .closed)
    (alone : ∀ a ∈ more, Action.Lone r.subscribers.size err a)
    (later : (r.subscribe room).run? more = some r') : Sparing r room err more r' := by
  have owned := run?_owned ran
  have found : (r.subscribe room).subscribers[r.subscribers.size]? = some ⟨room, .checking⟩ :=
    getElem?_push_some.2 (.inr ⟨rfl, rfl⟩)
  have start : (r.subscribe room).Nears r.subscribers.size room (r.IsTaken room) 11 := by
    refine .checking found fun e current => ?_
    obtain ⟨x, here, -⟩ := owned.entry_of_current current
    refine ⟨x, here, ?_⟩
    by_cases empty : x.lock = []
    · exact .inl empty
    · exact .inr ⟨e, x, current, here, empty⟩
  obtain ⟨m, nears, short, tried, asked⟩ := start.run other alone later
  refine ⟨by omega, ?_, asked, fun free stuck => ?_⟩
  · exact (Nat.le_add_right _ _).trans tried
  · obtain answered | ⟨a, lone, goes⟩ | taken := nears.goesOn err
    · exact answered
    · rw [stuck a lone] at goes
      cases goes
    · exact absurd taken free

/-- A subscriber has a reader, and the feed of its room has ended. -/
def feedOver : List Action :=
  [.subscribe (.ofNat 7), .step (.subscriber 0), .step (.subscriber 0), .step (.subscriber 0),
    .step (.subscriber 0), .step (.subscriber 0), .watched 0 none, .step (.subscriber 0),
    .endFeed (.ofNat 7), .step (.puller 0), .step (.puller 0)]

/-- The next subscriber of the room finds the dead entry, removes it and is refused a feed for its
own. It takes all of the eleven steps. -/
theorem run?_sparing_longest : ∃ r r',
    (Registry.empty 2 1).run? feedOver = some r ∧
    (r.subscribe (.ofNat 7)).run?
        (List.replicate 10 (.step (.subscriber 1)) ++ [.watched 1 (some .cancelled)]) = some r' ∧
    r'.subscribers[1]? = some ⟨.ofNat 7, .done (.error .cancelled)⟩ := by
  have facts : ((Registry.empty 2 1).run? feedOver).map (fun r => (r.subscribers.size,
      ((r.subscribe (.ofNat 7)).run? (List.replicate 10 (.step (.subscriber 1)) ++
        [.watched 1 (some .cancelled)])).isSome)) = some (1, true) := by decide +kernel
  obtain ⟨r, ran, facts⟩ := Option.map_eq_some_iff.1 facts
  obtain ⟨size, possible⟩ := Prod.mk.inj facts
  obtain ⟨r', later⟩ := Option.isSome_iff_exists.1 possible
  have other : StreamError.cancelled ≠ .closed := by decide
  have sparing := run?_sparing ran other (fun a among => ?_) later
  · obtain unasked | ⟨-, told⟩ := sparing.asks
    · rw [size] at unasked
      cases unasked
    · rw [size] at told
      exact ⟨r, r', ran, later, told⟩
  · rw [size]
    simp only [List.mem_append, List.mem_replicate, List.mem_singleton] at among
    obtain ⟨-, rfl⟩ | rfl := among
    · exact .step
    · exact .refused

/-- What a subscriber of a room does when it is left alone from the state `r` on, and is told of
every feed that it has ended. -/
structure Insistent (r : Registry) (more : List Action) (r' : Registry) : Prop where
  /-- It has no answer. -/
  untold : ∃ s, r'.subscribers[r.subscribers.size]? = some s ∧ ∀ result, s.phase ≠ .done result
  /-- It goes on. -/
  goesOn : ∃ a, Action.Lone r.subscribers.size .closed a ∧ (r'.perform? a).isSome = true
  /-- It asks again each time that it has taken seven steps. -/
  asks : (openings r.subscribers.size more).length = (more.length + 1) / 7

/-- A subscriber of a room without an entry asks for ever if it is told of every feed that it has
ended. -/
theorem run?_insistent {more : List Action} (up : r.down = false) (new : r.entryOf? room = none)
    (alone : ∀ a ∈ more, Action.Lone r.subscribers.size .closed a)
    (later : (r.subscribe room).run? more = some r') : Insistent r more r' := by
  have found : (r.subscribe room).subscribers[r.subscribers.size]? = some ⟨room, .checking⟩ :=
    getElem?_push_some.2 (.inr ⟨rfl, rfl⟩)
  have start : (r.subscribe room).Circles r.subscribers.size room 5 := .onWay (.checking found new)
  obtain ⟨m, circles, -, counted⟩ := start.run up alone later
  have := circles.le
  exact ⟨circles.untold, circles.goesOn _, by omega⟩

/-- A subscriber has been told of two feeds that they had ended, and goes on. -/
theorem run?_insistent_twice : ∃ r acts,
    ((Registry.empty 2 1).subscribe (.ofNat 7)).run? acts = some r ∧
    openings 0 acts = [some .closed, some .closed] ∧
    ∃ s, r.subscribers[0]? = some s ∧ ∀ result, s.phase ≠ .done result := by
  let round : List Action :=
    List.replicate 5 (.step (.subscriber 0)) ++ [.watched 0 (some .closed), .step (.subscriber 0)]
  have possible : (((Registry.empty 2 1).subscribe (.ofNat 7)).run? (round ++ round)).isSome =
      true := by decide +kernel
  obtain ⟨r, ran⟩ := Option.isSome_iff_exists.1 possible
  have insistent := run?_insistent (r := .empty 2 1) rfl rfl (fun a among => ?_) ran
  · exact ⟨r, _, ran, rfl, insistent.untold⟩
  · simp only [round, List.mem_append, List.mem_replicate, List.mem_cons, List.not_mem_nil,
      or_false] at among
    obtain (⟨-, rfl⟩ | rfl | rfl) | (⟨-, rfl⟩ | rfl | rfl) := among
    exacts [.step, .refused, .step, .step, .refused, .step]

end Roomcast.Registry

import Roomcast.Proofs.Locks

/-!
# Quiet states

A state is quiet if nobody can go on and no subscriber waits for a feed. Then every lock is free:
its owner could go on otherwise. So every subscriber has its answer or has given up, and every
closer has closed the window of its entry and at most waits for the puller.
-/

namespace Roomcast.Registry

variable {r : Registry}

/-- Nobody can go on, and no subscriber waits for a feed. -/
structure Quiet (r : Registry) : Prop where
  still : ∀ p, r.step? p = none
  answered : ∀ (i e : Nat) (s : Subscriber), r.subscribers[i]? = some s → s.phase ≠ .watching e

/-- Only a party of the registry can go on. -/
theorem step?_eq_none {p : Party} (other : p ∉ r.parties) : r.step? p = none := by
  have beyond : ∀ {β : Type} {xs : Array β} {i : Nat}, i ∉ List.range xs.size → xs[i]? = none := by
    intro β xs i outside
    rw [List.mem_range] at outside
    exact Array.getElem?_eq_none (by omega)
  simp only [parties, List.mem_append, List.mem_map, not_or] at other
  obtain ⟨⟨⟨⟨puller, subscriber⟩, closer⟩, shutdown⟩, collector⟩ := other
  cases p with
  | puller t => simp [step?, stepPuller?, beyond fun h => puller ⟨t, h, rfl⟩]
  | subscriber i => simp [step?, stepSubscriber?, beyond fun h => subscriber ⟨i, h, rfl⟩]
  | closer j => simp [step?, stepCloser?, beyond fun h => closer ⟨j, h, rfl⟩]
  | shutdown k => simp [step?, stepShutdown?, beyond fun h => shutdown ⟨k, h, rfl⟩]
  | collector i => simp [step?, stepCollector?, beyond fun h => collector ⟨i, h, rfl⟩]

def AtRest (r : Registry) : Prop := ∀ p, r.step? p = none

theorem atRest_iff : (r.parties.all fun p => (r.step? p).isNone) = true ↔ r.AtRest := by
  rw [List.all_eq_true]
  constructor
  · intro still p
    by_cases party : p ∈ r.parties
    · simpa using still p party
    · exact step?_eq_none party
  · intro rest p _
    rw [rest p]
    rfl

instance : Decidable r.AtRest := decidable_of_iff _ atRest_iff

def Subscribing.isWatching : Subscribing → Bool
  | .watching _ => true
  | _ => false

def isQuiet (r : Registry) : Bool :=
  r.parties.all (fun p => (r.step? p).isNone) && r.subscribers.all (!·.phase.isWatching)

theorem isQuiet_iff : r.isQuiet = true ↔ r.Quiet := by
  rw [isQuiet, Bool.and_eq_true, atRest_iff, Array.all_eq_true']
  constructor
  · rintro ⟨still, answered⟩
    refine ⟨still, fun i e s found phase => ?_⟩
    have answered := answered s (Array.mem_of_getElem? found)
    rw [phase] at answered
    cases answered
  · intro quiet
    refine ⟨quiet.still, fun s among => ?_⟩
    obtain ⟨i, found⟩ := Array.mem_iff_getElem?.1 among
    cases phase : s.phase with
    | watching e => exact absurd phase (quiet.answered i e s found)
    | _ => rfl

instance : Decidable r.Quiet := decidable_of_iff _ isQuiet_iff

/-- Whether a subscriber waits for nothing any more. -/
def Subscribing.isOut : Subscribing → Bool
  | .done _ | .aborted => true
  | _ => false

theorem holds_iff {e : Nat} {who : Holder} :
    r.holds e who = true ↔ ∃ x, r.entries[e]? = some x ∧ x.lock.head? = some who := by
  cases here : r.entries[e]? <;> simp [holds, here]

/-- A subscriber that cannot go on is out, or waits for a feed, or for a lock that somebody else
has. -/
theorem subscriber_of_stuck {i : Nat} {s : Subscriber} (found : r.subscribers[i]? = some s)
    (stuck : r.stepSubscriber? i = none) :
    s.phase.isOut = true ∨ (∃ e, s.phase = .watching e) ∨
      ∃ e, s.phase = .queued e ∧ r.holds e (.subscriber i) = false := by
  cases phase : s.phase with
  | done result => exact .inl rfl
  | aborted => exact .inl rfl
  | watching e => exact .inr (.inl ⟨e, rfl⟩)
  | queued e =>
      refine .inr (.inr ⟨e, rfl, ?_⟩)
      by_contra holds
      rw [Bool.not_eq_false] at holds
      obtain ⟨x, here, _⟩ := holds_iff.1 holds
      simp [stepSubscriber?, found, phase, holds, here] at stuck
  | looking =>
      simp only [stepSubscriber?, found, phase] at stuck
      split at stuck <;> cases stuck
  | creating =>
      simp only [stepSubscriber?, found, phase] at stuck
      split_ifs at stuck
      split at stuck <;> cases stuck
  | checking | arriving | starting | removing => simp [stepSubscriber?, found, phase] at stuck

/-- A closer that cannot go on has closed the window of its entry, or waits for a lock that somebody
else has. -/
theorem closer_of_stuck {j : Nat} {c : Closer} (found : r.closers[j]? = some c)
    (stuck : r.stepCloser? j = none) :
    c.phase.hasClosed = true ∨ (c.phase = .queued ∧ r.holds c.entry (.closer j) = false) := by
  cases phase : c.phase with
  | joining p => exact .inl rfl
  | done => exact .inl rfl
  | queued =>
      refine .inr ⟨rfl, ?_⟩
      by_contra holds
      rw [Bool.not_eq_false] at holds
      obtain ⟨x, here, _⟩ := holds_iff.1 holds
      simp [stepCloser?, found, phase, holds, here] at stuck
  | arriving | stopping => simp [stepCloser?, found, phase] at stuck

section

variable (quiet : r.Quiet)

include quiet

/-- A subscriber that cannot go on is out, or waits for a lock that somebody else has. -/
theorem Quiet.subscriber {i : Nat} {s : Subscriber} (found : r.subscribers[i]? = some s) :
    s.phase.isOut = true ∨
      ∃ e, s.phase = .queued e ∧ r.holds e (.subscriber i) = false := by
  obtain out | ⟨e, phase⟩ | waits := subscriber_of_stuck found (quiet.still (.subscriber i))
  · exact .inl out
  · exact absurd phase (quiet.answered i e s found)
  · exact .inr waits

/-- A closer that cannot go on has closed the window of its entry, or waits for a lock that somebody
else has. -/
theorem Quiet.closer {j : Nat} {c : Closer} (found : r.closers[j]? = some c) :
    c.phase.hasClosed = true ∨ (c.phase = .queued ∧ r.holds c.entry (.closer j) = false) :=
  closer_of_stuck found (quiet.still (.closer j))

/-- Every lock is free. -/
theorem Quiet.free (locked : r.Locked) {e : Nat} {x : Entry} (here : r.entries[e]? = some x) :
    x.lock = [] := by
  cases lock : x.lock with
  | nil => rfl
  | cons who rest =>
      -- Whoever has the lock could go on.
      have holds : r.holds e who = true := holds_iff.2 ⟨x, here, by rw [lock]; rfl⟩
      have inside := (locked.stands e who).1 ⟨x, here, by simp [lock]⟩
      cases who with
      | subscriber i =>
          obtain ⟨s, found, asks⟩ := Option.bind_eq_some_iff.1 inside
          obtain out | ⟨e', phase, waits⟩ := quiet.subscriber found
          · cases phase : s.phase <;> simp [phase, Subscribing.isOut, Subscribing.lock?] at out asks
          · rw [phase] at asks
            obtain rfl := Option.some.inj asks
            rw [holds] at waits
            cases waits
      | closer j =>
          obtain ⟨c, found, asks⟩ := Option.bind_eq_some_iff.1 inside
          obtain closed | ⟨phase, waits⟩ := quiet.closer found
          · cases phase : c.phase <;> simp [phase, Closing.hasClosed, Closer.lock?] at closed asks
          · rw [Closer.lock?, phase] at asks
            obtain rfl := Option.some.inj asks
            rw [holds] at waits
            cases waits

/-- Every subscriber is out. -/
theorem Quiet.isOut (locked : r.Locked) {i : Nat} {s : Subscriber}
    (found : r.subscribers[i]? = some s) : s.phase.isOut = true := by
  obtain out | ⟨e, phase, _⟩ := quiet.subscriber found
  · exact out
  · obtain ⟨x, here, among⟩ := (locked.stands e (.subscriber i)).2 (by
      rw [lockOf?_subscriber found, phase]
      rfl)
    rw [quiet.free locked here] at among
    cases among

/-- Every closer has closed the window of its entry. -/
theorem Quiet.hasClosed (locked : r.Locked) {j : Nat} {c : Closer}
    (found : r.closers[j]? = some c) : c.phase.hasClosed = true := by
  obtain closed | ⟨phase, _⟩ := quiet.closer found
  · exact closed
  · obtain ⟨x, here, among⟩ := (locked.stands c.entry (.closer j)).2 (by
      rw [lockOf?_closer found, Closer.lock?, phase])
    rw [quiet.free locked here] at among
    cases among

/-- Every stream that was started for an entry is the stream of the entry. -/
theorem Quiet.started (locked : r.Locked) (owned : r.Owned) {e t : Nat} {x : Entry}
    (here : r.entries[e]? = some x) (started : x.started = some t) : x.stream = some t := by
  cases stream : x.stream with
  | some t' =>
      rw [Entry.started, stream] at started
      exact started
  | none =>
      rw [Entry.started, stream] at started
      obtain ⟨i, s, found, phase⟩ := owned.pending e x t here stream started
      have out := quiet.isOut locked found
      rw [phase] at out
      cases out

end

end Roomcast.Registry

import Roomcast.Proofs.Collection
import Roomcast.Proofs.Holding

/-!
# What subscribers are told

A subscriber meets entries that are retired, whose feed fails or that are replaced while it waits
for their locks. Of all this it is told nothing: it turns away from such an entry and tries again.
What it is told has one of three causes, each of which can be seen at the moment of the answer. It
has a reader of a window that an entry of its room hands out, and the reader stands at the newest
event; or a shutdown has begun; or the store has refused the feed for which it asked last, with this
error.
-/

namespace Roomcast.Registry

variable {r r' : Registry} {a : Action} {i : Nat} {room : Uuid}

/-- Why a subscriber of a room gets an answer by an action that leads from one state to another. -/
inductive Replies (r r' : Registry) (a : Action) (i : Nat) (room : Uuid) :
    Except StreamError Reader → Prop
  /-- An entry of the room that is alive hands out an open window. The reader is new in it, and
  stands at the newest event. -/
  | served {h : Reader} {e : Nat} {x : Entry} {st st' : Stream} (here : r'.entries[e]? = some x)
      (own : x.roomId = room) (live : x.retired = false) (stream : x.stream = some h.stream)
      (before : r.streams[h.stream]? = some st) (running : st.room.isClosed = false)
      (new : st.room.cursors[h.cursor]? = none) (there : r'.streams[h.stream]? = some st')
      (same : st'.room.chain = st.room.chain)
      (placed : st'.room.cursors[h.cursor]? = some ⟨st.room.chain.head, false, none⟩) :
      Replies r r' a i room (.ok h)
  /-- A shutdown has begun. -/
  | barred (down : r.down = true) : Replies r r' a i room (.error .shuttingDown)
  /-- The store has refused a feed, for another reason than that it has ended. -/
  | failed {err : StreamError} (other : err ≠ .closed) (call : a = .watched i (some err)) :
      Replies r r' a i room (.error err)

/-- Whoever joins a window has a reader at its newest event. -/
theorem Joins.replies {s : Subscriber} {h : Reader} {st : Stream} (joins : Joins r r' i s h st)
    (owned : r'.Owned) : Replies r r' a i s.roomId (.ok h) := by
  obtain ⟨e, x, here, live, stream⟩ := joins.offered
  have there : r'.streams[h.stream]? = some (st.perform .join) := by
    rw [joins.streams, getElem?_modify_of _ joins.there, if_pos rfl]
  have own := owned.stream_roomId here (Entry.started_of_stream stream) there
  have joined : (st.room.perform .join).1 = { st.room with
      readers := st.room.readers + 1
      cursors := st.room.cursors.push ⟨st.room.chain.head, false, none⟩ } := by
    simp [Room.perform, Room.join, joins.running]
  refine .served here (own.symm.trans joins.roomId) live stream joins.there joins.running ?_ there
    ?_ ?_
  · rw [joins.cursor]
    exact Array.getElem?_eq_none (Nat.le_refl _)
  · rw [Stream.perform, joined]
  · rw [Stream.perform, joined, joins.cursor, Array.getElem?_push_size]

/-- Nobody gets an answer when the store refuses a feed since it has ended. -/
theorem watched?_closed {s : Subscriber} {result : Except StreamError Reader}
    (did : r.watched? i (some .closed) = some r') (found : r'.subscribers[i]? = some s) :
    s.phase ≠ .done result := by
  rw [watched?] at did
  split at did
  · cases did
  · split at did
    case h_1 entry e phase same =>
      obtain rfl := Option.some.inj same
      obtain rfl := Option.some.inj did
      obtain ⟨other, _⟩ | ⟨_, s', _, rfl⟩ := getElem?_modify_some.1 found
      · exact absurd rfl other
      · rintro ⟨⟩
    case h_2 none => cases none
    case h_3 => cases did

/-- A step of a collector answers nobody. -/
theorem stepCollector?_subscribers {k : Nat} (went : r.stepCollector? k = some r') :
    r'.subscribers = r.subscribers := by
  rw [stepCollector?] at went
  split at went
  · cases went
  · split at went
    case h_4 candidates phase =>
      obtain rfl := Option.some.inj went
      exact (foldl_reclaim_rest r candidates).1
    case h_6 => cases went
    case h_3 | h_5 =>
      split_ifs at went
      obtain rfl := Option.some.inj went
      rfl
    all_goals
      obtain rfl := Option.some.inj went
      rfl

/-- Who has an answer after an action had it before, or gets it now. -/
theorem Owned.replies (owned : r.Owned) (did : r.perform? a = some r') {s : Subscriber}
    {result : Except StreamError Reader} (found : r'.subscribers[i]? = some s)
    (phase : s.phase = .done result) :
    r.subscribers[i]? = some s ∨
      (∃ s₀, r.subscribers[i]? = some s₀ ∧ s₀.roomId = s.roomId ∧
        ∀ result, s₀.phase ≠ .done result) ∧ Replies r r' a i s.roomId result := by
  by_cases collects : ∃ k, a = .step (.collector k)
  · obtain ⟨k, rfl⟩ := collects
    rw [stepCollector?_subscribers did] at found
    exact .inl found
  have m := perform?_move owned.fresh (fun k same => collects ⟨k, same⟩) did
  obtain ⟨s₀, old, goes⟩ | checking := m.subscriber_back owned found
  swap
  · cases checking.symm.trans phase
  by_cases waits : ∀ result, s₀.phase ≠ .done result
  swap
  · simp only [not_forall, not_not] at waits
    obtain ⟨_, answered⟩ := waits
    obtain rfl := Option.some.inj (found.symm.trans (m.answered old answered))
    exact .inl old
  refine .inr ⟨⟨s₀, old, goes.roomId.symm, waits⟩, ?_⟩
  cases result with
  | ok h =>
      have serves : s.phase.reader? = some h := by rw [phase, Subscribing.reader?]
      obtain before | ⟨st, joins⟩ := m.serves owned found serves
      · obtain rfl := Option.some.inj (old.symm.trans before)
        exact absurd phase (waits _)
      · exact joins.replies (owned.move m)
  | error err =>
      cases goes with
      | stay => exact absurd phase (waits _)
      | turn q _ _ answers =>
          obtain ⟨rfl, down⟩ | rfl := answers err phase
          · exact .barred down
          · refine .failed ?_ rfl
            rintro rfl
            exact watched?_closed did found phase
      | serve | leave | refuse => cases phase

/-- How the store has answered when asked for a feed for a subscriber, if the action is such an
answer. -/
def Action.opening? (i : Nat) : Action → Option (Option StreamError)
  | .watched j failure => if j = i then some failure else none
  | _ => none

/-- How the store has answered each time it was asked for a feed for a subscriber. -/
def openings (i : Nat) (acts : List Action) : List (Option StreamError) :=
  acts.filterMap (Action.opening? i)

theorem openings_snoc (i : Nat) (acts : List Action) (a : Action) :
    openings i (acts ++ [a]) = openings i acts ++ (a.opening? i).toList := by
  rw [openings, List.filterMap_append, ← openings]
  cases asked : a.opening? i <;> simp [asked]

/-- Nobody who has an answer waits for a feed. -/
theorem opening?_of_done {s : Subscriber} {result : Except StreamError Reader}
    (found : r.subscribers[i]? = some s) (phase : s.phase = .done result)
    (did : r.perform? a = some r') : a.opening? i = none := by
  cases a with
  | watched j failure =>
      rw [Action.opening?, if_neg]
      rintro rfl
      simp [perform?, watched?, found, phase] at did
  | _ => rfl

theorem Owned.openings_of_done (owned : r.Owned) {s : Subscriber}
    {result : Except StreamError Reader} (found : r.subscribers[i]? = some s)
    (phase : s.phase = .done result) {more : List Action} (ran : r.run? more = some r') :
    openings i more = [] := by
  refine run?_induction (P := fun more _ => openings i more = []) rfl ?_ ran
  intro more a r₁ r₂ ran none did
  have still := owned.run_answered ran found phase
  rw [openings, List.filterMap_append, ← openings, none, List.nil_append, List.filterMap_cons,
    opening?_of_done still phase did, List.filterMap_nil]

/-- The moment in a run at which a subscriber of a room has got its answer. -/
structure Moment (r₀ : Registry) (acts : List Action) (i : Nat) (room : Uuid)
    (result : Except StreamError Reader) (before : List Action) (a : Action) (after : List Action)
    (r r' : Registry) : Prop where
  /-- It is a moment of the run. -/
  inside : acts = before ++ a :: after
  ran : r₀.run? before = some r
  did : r.perform? a = some r'
  /-- The subscriber has waited for its answer until then. -/
  waited : ∃ s, r.subscribers[i]? = some s ∧ s.roomId = room ∧ ∀ result, s.phase ≠ .done result
  got : ∃ s, r'.subscribers[i]? = some s ∧ s.roomId = room ∧ s.phase = .done result
  /-- The answer has a cause. -/
  replies : Replies r r' a i room result

/-- What subscribers are told in a run, and why. -/
structure Candid (r₀ : Registry) (acts : List Action) (r : Registry) : Prop where
  /-- Every answer has a cause at the moment at which it was given. -/
  moment : ∀ (i : Nat) (s : Subscriber) (result : Except StreamError Reader),
    r.subscribers[i]? = some s → s.phase = .done result →
    ∃ before a after r₁ r₂, Moment r₀ acts i s.roomId result before a after r₁ r₂
  /-- Nobody is told that a stream has ended. Whoever is told an error is told that a shutdown has
  begun, or what the store has said when it was asked for a feed for the last time. -/
  error : ∀ (i : Nat) (s : Subscriber) (err : StreamError),
    r.subscribers[i]? = some s → s.phase = .done (.error err) →
    err ≠ .closed ∧
      ((err = .shuttingDown ∧ r.down = true) ∨ (openings i acts).getLast? = some (some err))
  /-- No entry has a stream already when one is started for it. -/
  fresh : r.Fresh

theorem run?_moment {capacity channelCapacity : Nat} {acts : List Action}
    (ran : (Registry.empty capacity channelCapacity).run? acts = some r) {i : Nat} {s : Subscriber}
    {result : Except StreamError Reader} (found : r.subscribers[i]? = some s)
    (phase : s.phase = .done result) :
    ∃ before a after r₁ r₂,
      Moment (.empty capacity channelCapacity) acts i s.roomId result before a after r₁ r₂ := by
  revert i s result
  refine run?_induction (P := fun acts r => ∀ {i : Nat} {s : Subscriber}
    {result : Except StreamError Reader}, r.subscribers[i]? = some s → s.phase = .done result →
    ∃ before a after r₁ r₂,
      Moment (.empty capacity channelCapacity) acts i s.roomId result before a after r₁ r₂)
    ?_ ?_ ran
  · intro i s result found
    simp [Registry.empty] at found
  · intro acts a r r' ran ih did i s result found phase
    obtain old | ⟨waited, replies⟩ := (run?_owned ran).replies did found phase
    · obtain ⟨before, b, after, r₁, r₂, moment⟩ := ih old phase
      refine ⟨before, b, after ++ [a], r₁, r₂, { moment with inside := ?_ }⟩
      rw [moment.inside, List.append_assoc, List.cons_append]
    · exact ⟨acts, a, [], r, r', rfl, ran, did, waited, ⟨s, found, rfl, phase⟩, replies⟩

/-- A shutdown that has begun has begun for ever. -/
theorem Owned.run_down (owned : r.Owned) {more : List Action} (ran : r.run? more = some r')
    (down : r.down = true) : r'.down = true :=
  (owned.run (P := fun r => r.down = true) (fun _ _ down m => m.down down) down ran).2

/-- Whatever happens while a subscriber is busy, its answer has a cause: a reader at the newest
event of a window of its room, a shutdown, or the error of the feed that it asked for last. -/
theorem run?_candid {capacity channelCapacity : Nat} {acts : List Action}
    (ran : (Registry.empty capacity channelCapacity).run? acts = some r) :
    Candid (.empty capacity channelCapacity) acts r := by
  constructor
  case moment => exact fun i s result found phase => run?_moment ran found phase
  case error =>
    intro i s err found phase
    obtain ⟨before, a, after, r₁, r₂, moment⟩ := run?_moment ran found phase
    obtain ⟨s', found', _, phase'⟩ := moment.got
    have owned : r₂.Owned := (run?_owned moment.ran).perform moment.did
    have rest : r₂.run? after = some r := by
      rw [moment.inside, run?_append, moment.ran, Option.bind_some, run?, moment.did] at ran
      exact ran
    cases moment.replies with
    | barred down =>
        have began : r₂.down = true := by
          refine Moves.preserve (P := fun r => r.down = true) (fun down m => m.down down) down
            (perform?_moves (run?_owned moment.ran).fresh moment.did)
        have other : StreamError.shuttingDown ≠ .closed := by decide
        exact ⟨other, .inl ⟨rfl, owned.run_down rest began⟩⟩
    | failed other call =>
        refine ⟨other, .inr ?_⟩
        have none := owned.openings_of_done found' phase' rest
        have this : a.opening? i = some (some err) := by
          rw [call, Action.opening?, if_pos rfl]
        rw [moment.inside, openings, List.filterMap_append, List.filterMap_cons, this, ← openings,
          ← openings, none, List.getLast?_append]
        rfl
  case fresh => exact (run?_owned ran).fresh

/-- One subscriber gets a reader, the store refuses the feed for which the second asks, and the
third comes when a shutdown has begun. -/
def threeAnswers : List Action :=
  [.subscribe (.ofNat 7), .step (.subscriber 0), .step (.subscriber 0), .step (.subscriber 0),
    .step (.subscriber 0), .step (.subscriber 0), .watched 0 none, .step (.subscriber 0),
    .subscribe (.ofNat 8), .step (.subscriber 1), .step (.subscriber 1), .step (.subscriber 1),
    .step (.subscriber 1), .step (.subscriber 1), .watched 1 (some .cancelled), .shutdown,
    .step (.shutdown 0), .subscribe (.ofNat 7), .step (.subscriber 2)]

def errorOf? (r : Registry) (i : Nat) : Option StreamError :=
  (r.subscribers[i]?).bind fun s =>
    match s.phase with
    | .done (.error err) => some err
    | _ => none

theorem errorOf?_eq_some {err : StreamError} :
    r.errorOf? i = some err ↔
      ∃ s, r.subscribers[i]? = some s ∧ s.phase = .done (.error err) := by
  rw [errorOf?, Option.bind_eq_some_iff]
  refine exists_congr fun s => and_congr_right fun _ => ?_
  split
  case h_1 phase => simp [phase]
  case h_2 other => simpa using other err

/-- The first subscriber has been given its reader at some moment, the second is told what the store
has said, and the third that a shutdown has begun. -/
theorem run?_candid_threeAnswers : ∃ r, (Registry.empty 2 1).run? threeAnswers = some r ∧
    (∃ room before a after r₁ r₂,
      Moment (.empty 2 1) threeAnswers 0 room (.ok ⟨0, 0⟩) before a after r₁ r₂) ∧
    (openings 1 threeAnswers).getLast? = some (some .cancelled) ∧ r.down = true := by
  have possible : ((Registry.empty 2 1).run? threeAnswers).isSome = true := by decide +kernel
  obtain ⟨r, ran⟩ := Option.isSome_iff_exists.1 possible
  have facts : ((Registry.empty 2 1).run? threeAnswers).map (fun r =>
      (r.readerOf? 0, r.errorOf? 1, r.errorOf? 2)) =
      some (some ⟨0, 0⟩, some .cancelled, some .shuttingDown) := by decide +kernel
  rw [ran] at facts
  obtain ⟨first, second, third⟩ : r.readerOf? 0 = some ⟨0, 0⟩ ∧ r.errorOf? 1 = some .cancelled ∧
      r.errorOf? 2 = some .shuttingDown := by simpa using facts
  have candid := run?_candid ran
  refine ⟨r, ran, ?_, ?_, ?_⟩
  · obtain ⟨s, found, phase⟩ := readerOf?_eq_some.1 first
    exact ⟨s.roomId, candid.moment 0 s _ found phase⟩
  · obtain ⟨s, found, phase⟩ := errorOf?_eq_some.1 second
    obtain ⟨_, ⟨no, _⟩ | asked⟩ := candid.error 1 s _ found phase
    · cases no
    · exact asked
  · obtain ⟨s, found, phase⟩ := errorOf?_eq_some.1 third
    obtain ⟨_, ⟨_, down⟩ | asked⟩ := candid.error 2 s _ found phase
    · exact down
    · cases asked

end Roomcast.Registry

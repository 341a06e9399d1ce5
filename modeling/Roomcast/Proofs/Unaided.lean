import Roomcast.Proofs.Neighbours
import Roomcast.Proofs.Quiet

/-!
# Rooms that need no other

A subscriber has to wait for the lock of an entry, and for a feed. But whoever has the lock before
it is a subscriber or a closer of the same room, and gives the lock back once it can go on, or its
feed has been opened or refused. So a subscriber gets its answer by what its own room does and what
the store answers to that room, whatever other rooms are waiting for.
-/

namespace Roomcast.Registry

variable {r r₁ r₂ : Registry} {a : Action} {room : Uuid} {answer : Option StreamError}
  {i k e t : Nat} {s : Subscriber} {x : Entry} {who : Holder}

/-- A subscriber or a closer goes on, or the store answers a subscriber. -/
inductive Action.Own (answer : Option StreamError) : Action → Prop
  | subscriber (i : Nat) : Own answer (.step (.subscriber i))
  | closer (j : Nat) : Own answer (.step (.closer j))
  | answered (i : Nat) : Own answer (.watched i answer)

def GoesOn (room : Uuid) (answer : Option StreamError) (r r' : Registry) : Prop :=
  ∃ a, Action.Own answer a ∧ r.concern? a = some room ∧ r.perform? a = some r'

abbrev GoesTo (room : Uuid) (answer : Option StreamError) : Registry → Registry → Prop :=
  Relation.ReflTransGen (GoesOn room answer)

/-- A registry over a store that can give an answer when it is asked for a feed. -/
structure Answerable (answer : Option StreamError) (r : Registry) : Prop extends r.Sane where
  told : answer ≠ some .closed
  slots : answer = none → 0 < r.store.capacity

theorem Answerable.goesOn (h : r.Answerable answer) (goes : GoesOn room answer r r₁) :
    r₁.Answerable answer := by
  obtain ⟨a, _, _, did⟩ := goes
  refine ⟨h.toSane.perform did, h.told, fun opens => ?_⟩
  exact Moves.preserve (P := fun r => 0 < r.store.capacity)
    (fun slots m => m.sizes.2 ▸ slots) (h.slots opens) (perform?_moves h.books.owned.fresh did)

theorem Answerable.goesTo (h : r.Answerable answer) (goes : GoesTo room answer r r₁) :
    r₁.Answerable answer := by
  induction goes with
  | refl => exact h
  | tail _ goes ih => exact ih.goesOn goes

/-- A subscriber goes on by itself. -/
theorem goesOn_subscriber (found : r.subscribers[i]? = some s)
    (went : r.stepSubscriber? i = some r₁) : GoesOn s.roomId answer r r₁ :=
  ⟨_, .subscriber i, by rw [concern?, found, Option.map_some], went⟩

theorem entryOf?_congr (same : r₁.registered = r.registered) (room : Uuid) :
    r₁.entryOf? room = r.entryOf? room :=
  congrArg (List.lookup room) same

theorem setSubscriber_self (found : r.subscribers[i]? = some s) (q : Subscribing) :
    (r.setSubscriber i q).subscribers[i]? = some { s with phase := q } :=
  (getElem?_modify_of _ found i).trans (if_pos rfl)

/-- Somebody does something at an entry. The list of those who wait there changes in a certain way,
no other subscriber turns, and the registry remains as it is. -/
structure Turned (who : Holder) (e : Nat) (f : List Holder → List Holder) (r r' : Registry) :
    Prop where
  registered : r'.registered = r.registered
  down : r'.down = r.down
  others : ∀ i, who ≠ .subscriber i → r'.subscribers[i]? = r.subscribers[i]?
  lock : ∀ x, r.entries[e]? = some x → ∃ y, r'.entries[e]? = some y ∧ y.lock = f x.lock

namespace Turned

variable {f g : List Holder → List Holder}

theorem trans (h : Turned who e f r r₁) (h' : Turned who e g r₁ r₂) :
    Turned who e (fun l => g (f l)) r r₂ where
  registered := h'.registered.trans h.registered
  down := h'.down.trans h.down
  others i other := (h'.others i other).trans (h.others i other)
  lock x here := by
    obtain ⟨y, here', same⟩ := h.lock x here
    obtain ⟨z, here'', same'⟩ := h'.lock y here'
    exact ⟨z, here'', same'.trans (congrArg g same)⟩

/-- The entry changes, and perhaps other things that do not matter. -/
theorem modify {F : Entry → Entry} (registered : r₁.registered = r.registered)
    (down : r₁.down = r.down) (subscribers : r₁.subscribers = r.subscribers)
    (entries : r₁.entries = r.entries.modify e F) (locks : ∀ x, (F x).lock = f x.lock) :
    Turned who e f r r₁ where
  registered := registered
  down := down
  others i _ := by rw [subscribers]
  lock x here := by
    refine ⟨F x, ?_, locks x⟩
    rw [entries, getElem?_modify_of F here, if_pos rfl]

/-- The subscriber turns. -/
theorem setSubscriber (h : Turned (.subscriber k) e f r r₁) (q : Subscribing) :
    Turned (.subscriber k) e f r (r₁.setSubscriber k q) where
  registered := h.registered
  down := h.down
  lock := h.lock
  others i other := by
    refine Eq.trans ?_ (h.others i other)
    rw [Registry.setSubscriber, Array.getElem?_modify, if_neg]
    rintro rfl
    exact other rfl

end Turned

/-- What becomes of a subscriber that gives its lock back with a result. -/
theorem conclude_eq (r : Registry) (k e : Nat) (result : Except StreamError Reader) :
    ∃ q : Subscribing, r.conclude k e result =
        (r.release e (.subscriber k)).setSubscriber k q ∧
      (q = .done result ∨ (q = .removing e ∧ result = .error .closed)) := by
  unfold conclude
  split
  · exact ⟨_, rfl, .inr ⟨rfl, rfl⟩⟩
  · exact ⟨_, rfl, .inl rfl⟩

/-- Leaving the lock of an entry. -/
theorem turned_conclude (r : Registry) (k e : Nat) (result : Except StreamError Reader) :
    Turned (.subscriber k) e (·.filter (· ≠ .subscriber k)) r (r.conclude k e result) := by
  obtain ⟨q, eq, _⟩ := conclude_eq r k e result
  have left : Turned (.subscriber k) e (·.filter (· ≠ .subscriber k)) r
      (r.release e (.subscriber k)) :=
    .modify (F := fun x => { x with lock := x.lock.filter (· ≠ .subscriber k) }) rfl rfl rfl rfl
      fun _ => rfl
  rw [eq]
  exact left.setSubscriber q

/-- A subscriber with the lock of an entry gives that back by what its room does, and has its answer
then, or turns away from the entry. -/
def Leaves (answer : Option StreamError) (r : Registry) (k e : Nat) (s : Subscriber)
    (stale : Prop) : Prop :=
  ∃ (r' : Registry) (q : Subscribing), GoesTo s.roomId answer r r' ∧
    Turned (.subscriber k) e (·.filter (· ≠ .subscriber k)) r r' ∧
    r'.subscribers[k]? = some { s with phase := q } ∧
    ((∃ result, q = .done result) ∨ (q = .removing e ∧ stale))

theorem Leaves.mono {stale stale' : Prop} (h : Leaves answer r k e s stale)
    (weaker : stale → stale') : Leaves answer r k e s stale' := by
  obtain ⟨r', q, goes, turned, found, out | ⟨removing, is⟩⟩ := h
  · exact ⟨r', q, goes, turned, found, .inl out⟩
  · exact ⟨r', q, goes, turned, found, .inr ⟨removing, weaker is⟩⟩

/-- A subscriber that goes on at its entry and gives the lock back afterwards. -/
theorem Leaves.after {p : Subscribing} {stale : Prop} (goes : GoesOn s.roomId answer r r₁)
    (turned : Turned (.subscriber k) e (fun l => l) r r₁)
    (h : Leaves answer r₁ k e { s with phase := p } stale) : Leaves answer r k e s stale := by
  obtain ⟨r', q, goes', turned', found, ends⟩ := h
  exact ⟨r', q, .head goes goes', turned.trans turned', found, ends⟩

/-- A subscriber that gives the lock back at once. -/
theorem leaves_conclude {result : Except StreamError Reader}
    (goes : GoesOn s.roomId answer r (r₁.conclude k e result))
    (found : r₁.subscribers[k]? = some s) (turned : Turned (.subscriber k) e (fun l => l) r r₁) :
    Leaves answer r k e s (result = .error .closed) := by
  obtain ⟨q, eq, ends⟩ := conclude_eq r₁ k e result
  refine ⟨_, q, .single goes, turned.trans (turned_conclude r₁ k e result), ?_,
    ends.imp_left fun done => ⟨result, done⟩⟩
  rw [eq]
  exact setSubscriber_self (r := r₁.release e (.subscriber k)) found q

/-- Asking a stream for a reader changes no more than the stream. -/
theorem joinStream_rest (r : Registry) (t : Nat) :
    ∃ streams, (r.joinStream t).1 = { r with streams } := by
  obtain ⟨_, _, _, eq⟩ | ⟨_, eq⟩ := joinStream_eq r t
  · rw [eq]
    exact ⟨_, rfl⟩
  · rw [eq]
    exact ⟨_, rfl⟩

theorem joinStream_closed {st : Stream} (there : r.streams[t]? = some st)
    (failed : (r.joinStream t).2 = .error .closed) : st.room.isClosed = true := by
  obtain ⟨_, _, _, eq⟩ | ⟨stopped, _⟩ := joinStream_eq r t
  · rw [eq] at failed
    cases failed
  · exact stopped st there

theorem Answerable.leaves_starting (h : r.Answerable answer)
    (found : r.subscribers[k]? = some s) (phase : s.phase = .starting e t) :
    Leaves answer r k e s ((r.joinStream t).2 = .error .closed) := by
  let start (x : Entry) : Entry := { x with stream := some t }
  obtain ⟨streams, joined⟩ := joinStream_rest r t
  have bare : (r.joinStream t).1.streamOf? e = none := by
    rw [joined]
    exact h.books.owned.fresh k s e t found phase
  have eq : r.complete k e t =
      ((r.joinStream t).1.modifyEntry e start).conclude k e (r.joinStream t).2 := by
    simp only [complete, bare, start]
  have went : r.stepSubscriber? k = some (r.complete k e t) := by
    simp only [stepSubscriber?, found, phase]
  have goes : GoesOn s.roomId answer r _ := goesOn_subscriber found went
  rw [eq, joined] at goes
  exact leaves_conclude goes found (.modify (F := start) rfl rfl rfl rfl fun _ => rfl)

theorem Answerable.leaves_watching (h : r.Answerable answer)
    (found : r.subscribers[k]? = some s) (phase : s.phase = .watching e) :
    Leaves answer r k e s False := by
  have own : r.concern? (.watched k answer) = some s.roomId := by
    rw [concern?, found, Option.map_some]
  cases answer with
  | some err =>
      have did : r.perform? (.watched k (some err)) = some (r.conclude k e (.error err)) := by
        simp only [perform?, watched?, found, phase]
      have goes : GoesOn s.roomId (some err) r (r.conclude k e (.error err)) :=
        ⟨_, .answered k, own, did⟩
      have same : Turned (.subscriber k) e (fun l => l) r r :=
        ⟨rfl, rfl, fun _ _ => rfl, fun x here => ⟨x, here, rfl⟩⟩
      refine (leaves_conclude goes found same).mono fun failed => h.told ?_
      rw [Except.error.inj failed]
  | none =>
      obtain ⟨⟨store, feed⟩, opened⟩ :=
        Option.isSome_iff_exists.1 (Store.watch?_isSome s.roomId (h.slots rfl))
      let pull (x : Entry) : Entry := { x with puller := some r.streams.size }
      let begun := (r.openStream s.roomId store feed).modifyEntry e pull
      have did : r.perform? (.watched k none) =
          some (begun.setSubscriber k (.starting e r.streams.size)) := by
        simp only [perform?, watched?, found, phase, opened, Option.map_some]
        rfl
      have goes : GoesOn s.roomId none r (begun.setSubscriber k (.starting e r.streams.size)) :=
        ⟨_, .answered k, own, did⟩
      have turned : Turned (.subscriber k) e (fun l => l) r begun :=
        .modify (F := pull) rfl rfl rfl rfl fun _ => rfl
      have found' : (begun.setSubscriber k (.starting e r.streams.size)).subscribers[k]? =
          some { s with phase := .starting e r.streams.size } :=
        setSubscriber_self (r := begun) found _
      refine .after goes (turned.setSubscriber _)
        (((h.goesOn goes).leaves_starting found' rfl).mono fun failed => ?_)
      -- The window of the new stream is open.
      have there : (begun.setSubscriber k (.starting e r.streams.size)).streams[r.streams.size]? =
          some ⟨s.roomId, .empty r.capacity, feed, none, .pulling⟩ :=
        getElem?_push_some.2 (.inr ⟨rfl, rfl⟩)
      exact Bool.false_ne_true (joinStream_closed there failed)

theorem Answerable.leaves_queued (h : r.Answerable answer) (found : r.subscribers[k]? = some s)
    (phase : s.phase = .queued e) (here : r.entries[e]? = some x)
    (head : x.lock.head? = some (.subscriber k)) :
    Leaves answer r k e s (x.retired = true ∨ x.stream ≠ none) := by
  have holds : r.holds e (.subscriber k) = true := holds_iff.2 ⟨x, here, head⟩
  have went : r.stepSubscriber? k = some (r.enter k e x) := by
    simp only [stepSubscriber?, found, phase, holds, here, if_true, Option.map_some]
  have goes : GoesOn s.roomId answer r _ := goesOn_subscriber found went
  have same : Turned (.subscriber k) e (fun l => l) r r :=
    ⟨rfl, rfl, fun _ _ => rfl, fun x here => ⟨x, here, rfl⟩⟩
  cases retired : x.retired with
  | true =>
      rw [enter, if_pos retired] at goes
      exact (leaves_conclude goes found same).mono fun _ => .inl rfl
  | false =>
      cases stream : x.stream with
      | some t =>
          obtain ⟨streams, joined⟩ := joinStream_rest r t
          simp only [enter, retired, stream, Bool.false_eq_true, if_false] at goes
          rw [joined] at goes
          refine (leaves_conclude goes found ?_).mono fun _ => .inr (Option.some_ne_none t)
          exact ⟨rfl, rfl, fun _ _ => rfl, fun x here => ⟨x, here, rfl⟩⟩
      | none =>
          simp only [enter, retired, stream, Bool.false_eq_true, if_false] at goes
          exact .after goes (same.setSubscriber _)
            (((h.goesOn goes).leaves_watching (setSubscriber_self found _) rfl).mono False.elim)

/-- Whoever has the lock of an entry gives it back by what its room does. It turns away from the
entry only if that is retired or somebody has started a stream for it. -/
theorem Answerable.leaves (h : r.Answerable answer) (found : r.subscribers[k]? = some s)
    (here : r.entries[e]? = some x) (head : x.lock.head? = some (.subscriber k)) :
    Leaves answer r k e s (x.retired = true ∨ x.started ≠ none) := by
  have owned := h.books.owned
  have asks : s.phase.lock? = some e := by
    have inside := (h.locked.stands e (.subscriber k)).1 ⟨x, here, List.mem_of_head? head⟩
    rwa [lockOf?_subscriber found] at inside
  cases phase : s.phase with
  | queued e' =>
      rw [phase] at asks
      obtain rfl := Option.some.inj asks
      refine (h.leaves_queued found phase here head).mono (Or.imp_right fun streams => ?_)
      obtain ⟨t, stream⟩ := Option.ne_none_iff_exists'.1 streams
      rw [Entry.started_of_stream stream]
      exact Option.some_ne_none t
  | watching e' =>
      rw [phase] at asks
      obtain rfl := Option.some.inj asks
      exact (h.leaves_watching found phase).mono False.elim
  | starting e' t =>
      rw [phase] at asks
      obtain rfl := Option.some.inj asks
      obtain ⟨y, here', _, _, _, bare, pulls⟩ := owned.starts found phase
      obtain rfl := Option.some.inj (here.symm.trans here')
      refine (h.leaves_starting found phase).mono fun _ => .inr ?_
      rw [Entry.started, bare, pulls]
      exact Option.some_ne_none t
  | checking | looking | creating | arriving | removing | done | aborted =>
      rw [phase] at asks
      cases asks

/-- The one who has the lock of an entry gives it back by what the room of the entry does. -/
theorem Answerable.clears (h : r.Answerable answer) (here : r.entries[e]? = some x)
    (head : x.lock.head? = some who) :
    ∃ r', GoesTo x.roomId answer r r' ∧ Turned who e (·.filter (· ≠ who)) r r' := by
  have inside := (h.locked.stands e who).1 ⟨x, here, List.mem_of_head? head⟩
  cases who with
  | subscriber k =>
      obtain ⟨s, found, asks⟩ := Option.bind_eq_some_iff.1 inside
      have own := h.books.owned.entry_own found (Subscribing.entry?_of_lock? asks) x here
      obtain ⟨r', q, goes, turned, _⟩ := h.leaves found here head
      exact ⟨r', own ▸ goes, turned⟩
  | closer j =>
      obtain ⟨c, found, asks⟩ := Option.bind_eq_some_iff.1 inside
      obtain ⟨phase, rfl⟩ := Closer.lock?_eq_some.1 asks
      have holds : r.holds c.entry (.closer j) = true := holds_iff.2 ⟨x, here, head⟩
      have went : r.stepCloser? j = some (r.retire j c.entry x) := by
        simp only [stepCloser?, found, phase, holds, here, if_true, Option.map_some]
      have own : r.concern? (.step (.closer j)) = some x.roomId := by
        rw [concern?, found, Option.bind_some, here, Option.map_some]
      let gone (x : Entry) : Entry := { x with retired := true, puller := none }
      let free (x : Entry) : Entry := { x with lock := x.lock.filter (· ≠ .closer j) }
      refine ⟨_, .single ⟨_, .closer j, own, went⟩, ?_⟩
      exact .modify (F := fun x => free (gone x)) rfl rfl rfl (modify_modify gone free) fun _ => rfl

/-- Whoever waits for a lock gets it by what its room does. -/
theorem Answerable.reaches (h : r.Answerable answer) (found : r.subscribers[i]? = some s)
    (phase : s.phase = .queued e) {ahead behind : List Holder} (here : r.entries[e]? = some x)
    (lock : x.lock = ahead ++ .subscriber i :: behind) :
    ∃ r' y, GoesTo s.roomId answer r r' ∧ r'.registered = r.registered ∧
      r'.subscribers[i]? = some s ∧ r'.entries[e]? = some y ∧
      y.lock.head? = some (.subscriber i) := by
  induction size : ahead.length using Nat.strong_induction_on generalizing r x ahead behind with
  | _ n ih =>
    cases ahead with
    | nil => exact ⟨r, x, .refl, rfl, found, here, by rw [lock]; rfl⟩
    | cons who ahead =>
        by_cases itself : who = .subscriber i
        · exact ⟨r, x, .refl, rfl, found, here, by rw [lock, itself]; rfl⟩
        · have own := h.books.owned.entry_own found (e := e) (by rw [phase]; rfl) x here
          have first : x.lock.head? = some who := by rw [lock]; rfl
          obtain ⟨r₁, goes, turned⟩ := h.clears here first
          rw [own] at goes
          obtain ⟨y, here₁, lock₁⟩ := turned.lock x here
          have found₁ := (turned.others i itself).trans found
          have shorter : (ahead.filter (· ≠ who)).length < n := by
            have := List.length_filter_le (fun w => decide (w ≠ who)) ahead
            rw [List.length_cons] at size
            omega
          have split : y.lock =
              ahead.filter (· ≠ who) ++ .subscriber i :: behind.filter (· ≠ who) := by
            rw [lock₁, lock]
            simp [List.filter_append, Ne.symm itself]
          obtain ⟨r', z, goes', registered, rest⟩ :=
            ih _ shorter (h.goesTo goes) found₁ here₁ split rfl
          exact ⟨r', z, goes.trans goes', registered.trans turned.registered, rest⟩

/-- A subscriber gets an answer by what its room does. -/
def Ends (answer : Option StreamError) (room : Uuid) (i : Nat) (r : Registry) : Prop :=
  ∃ r' s result, GoesTo room answer r r' ∧ r'.subscribers[i]? = some s ∧ s.phase = .done result

theorem Ends.after (goes : GoesTo room answer r r₁) (h : Ends answer room i r₁) :
    Ends answer room i r := by
  obtain ⟨r', s, result, goes', found, done⟩ := h
  exact ⟨r', s, result, goes.trans goes', found, done⟩

namespace Answerable

section

variable (h : r.Answerable answer) (found : r.subscribers[i]? = some s) (own : s.roomId = room)

include h found own

/-- A subscriber goes on by itself, and gets an answer from there. -/
theorem ends_step (went : r.stepSubscriber? i = some r₁)
    (later : r₁.Answerable answer → Ends answer room i r₁) : Ends answer room i r := by
  have goes : GoesOn room answer r r₁ := own ▸ goesOn_subscriber found went
  exact .after (.single goes) (later (h.goesOn goes))

/-- A subscriber gets an answer at once. -/
theorem ends_done {q : Except StreamError Reader}
    (went : r.stepSubscriber? i = some (r.setSubscriber i (.done q))) :
    Ends answer room i r :=
  h.ends_step found own went fun _ => ⟨_, _, q, .refl, setSubscriber_self found _, rfl⟩

/-- A subscriber finds that the registry is shutting down. -/
theorem ends_refused (phase : s.phase = .checking ∨ s.phase = .creating) (down : r.down = true) :
    Ends answer room i r := by
  refine h.ends_done found own (q := .error .shuttingDown) ?_
  obtain phase | phase := phase <;> simp only [stepSubscriber?, found, phase, down, if_true]

/-- A subscriber makes a new entry, and nobody stands before it there. -/
theorem ends_creating_new (phase : s.phase = .creating) (new : r.entryOf? room = none) :
    Ends answer room i r := by
  subst own
  cases down : r.down with
  | true => exact h.ends_refused found rfl (.inr phase) down
  | false =>
      let e := r.entries.size
      let made := (r.register s.roomId).setSubscriber i (.arriving e)
      have went : r.stepSubscriber? i = some made := by
        simp only [stepSubscriber?, found, phase, down, new, Bool.false_eq_true, if_false]
        rfl
      have found₁ : made.subscribers[i]? = some { s with phase := .arriving e } :=
        setSubscriber_self (r := r.register s.roomId) found _
      have here₁ : made.entries[e]? = some ⟨s.roomId, none, none, false, []⟩ :=
        getElem?_push_some.2 (.inr ⟨rfl, rfl⟩)
      refine h.ends_step found rfl went fun able => ?_
      let asked := (made.enqueue e (.subscriber i)).setSubscriber i (.queued e)
      have went₁ : made.stepSubscriber? i = some asked := by
        simp only [stepSubscriber?, found₁]
        rfl
      have found₂ : asked.subscribers[i]? = some { s with phase := .queued e } :=
        setSubscriber_self (r := made.enqueue e (.subscriber i)) found₁ _
      have here₂ : asked.entries[e]? = some ⟨s.roomId, none, none, false, [.subscriber i]⟩ :=
        (getElem?_modify_of _ here₁ e).trans (if_pos rfl)
      refine able.ends_step found₁ rfl went₁ fun able => ?_
      obtain ⟨r', q, goes, _, found', ⟨result, rfl⟩ | ⟨_, stale⟩⟩ := able.leaves found₂ here₂ rfl
      · exact ⟨r', _, result, goes, found', rfl⟩
      · obtain retired | started := stale
        · cases retired
        · exact absurd rfl started

/-- A subscriber begins to look for an entry, unless the registry is shutting down. -/
theorem ends_checking_of (phase : s.phase = .checking)
    (looks : ∀ r₁, r₁.Answerable answer → r₁.registered = r.registered →
      r₁.subscribers[i]? = some { s with phase := .looking } → Ends answer room i r₁) :
    Ends answer room i r := by
  cases down : r.down with
  | true => exact h.ends_refused found own (.inl phase) down
  | false =>
      have went : r.stepSubscriber? i = some (r.setSubscriber i .looking) := by
        simp only [stepSubscriber?, found, phase, down, Bool.false_eq_true, if_false]
      exact h.ends_step found own went fun able =>
        looks _ able rfl (setSubscriber_self found .looking)

theorem ends_checking_new (phase : s.phase = .checking) (new : r.entryOf? room = none) :
    Ends answer room i r := by
  refine h.ends_checking_of found own phase fun r₁ able registered found₁ => ?_
  have new₁ := (entryOf?_congr registered room).trans new
  have went : r₁.stepSubscriber? i = some (r₁.setSubscriber i .creating) := by
    simp only [stepSubscriber?, found₁, own, new₁]
  exact able.ends_step found₁ own went fun able =>
    able.ends_creating_new (setSubscriber_self found₁ .creating) own rfl new₁

/-- A subscriber that waits for the lock of an entry gets an answer there, or turns away from it. -/
theorem ends_queued_of (phase : s.phase = .queued e)
    (away : ∀ r₁, r₁.Answerable answer → r₁.registered = r.registered →
      r₁.subscribers[i]? = some { s with phase := .removing e } → Ends answer room i r₁) :
    Ends answer room i r := by
  obtain ⟨x, here, among⟩ := (h.locked.stands e (.subscriber i)).2 (by
    rw [lockOf?_subscriber found, phase, Subscribing.lock?])
  obtain ⟨ahead, behind, lock⟩ := List.append_of_mem among
  obtain ⟨r₁, y, goes, registered, found₁, here₁, head⟩ := h.reaches found phase here lock
  have able := h.goesTo goes
  obtain ⟨r', q, goes', turned, found', ⟨result, rfl⟩ | ⟨rfl, _⟩⟩ := able.leaves found₁ here₁ head
  · exact ⟨r', _, result, own ▸ goes.trans goes', found', rfl⟩
  · rw [own] at goes goes'
    exact .after (goes.trans goes')
      (away r' (able.goesTo goes') (turned.registered.trans registered) found')

/-- A subscriber takes its place in the queue of the entry that it has found. -/
theorem ends_arriving_of (phase : s.phase = .arriving e)
    (waits : ∀ r₁, r₁.Answerable answer → r₁.registered = r.registered →
      r₁.subscribers[i]? = some { s with phase := .queued e } → Ends answer room i r₁) :
    Ends answer room i r := by
  have went : r.stepSubscriber? i =
      some ((r.enqueue e (.subscriber i)).setSubscriber i (.queued e)) := by
    simp only [stepSubscriber?, found, phase]
  exact h.ends_step found own went fun able =>
    waits _ able rfl (setSubscriber_self (r := r.enqueue e (.subscriber i)) found _)

/-- A subscriber that waits for the lock of the registered entry of its room. If it turns away from
that, there is none, and it makes one of its own. -/
theorem ends_queued_current (phase : s.phase = .queued e) (current : r.entryOf? room = some e) :
    Ends answer room i r := by
  refine h.ends_queued_of found own phase fun r₁ able registered found₁ => ?_
  have current₁ := (entryOf?_congr registered room).trans current
  have went : r₁.stepSubscriber? i =
      some ((r₁.unregister s.roomId).setSubscriber i .checking) := by
    simp only [stepSubscriber?, found₁, own, current₁, if_true]
  have new : (r₁.unregister s.roomId).entryOf? room = none := by
    rw [entryOf?_unregister, if_pos own.symm]
  refine able.ends_step found₁ own went fun able => ?_
  exact able.ends_checking_new (setSubscriber_self (r := r₁.unregister s.roomId) found₁ _) own rfl
    new

/-- A subscriber that has found the registered entry of its room. -/
theorem ends_arriving_current (phase : s.phase = .arriving e)
    (current : r.entryOf? room = some e) : Ends answer room i r := by
  refine h.ends_arriving_of found own phase fun r₁ able registered found₁ => ?_
  exact able.ends_queued_current found₁ own rfl ((entryOf?_congr registered room).trans current)

theorem ends_creating (phase : s.phase = .creating) : Ends answer room i r := by
  cases current : r.entryOf? room with
  | none => exact h.ends_creating_new found own phase current
  | some e =>
      cases down : r.down with
      | true => exact h.ends_refused found own (.inr phase) down
      | false =>
          have went : r.stepSubscriber? i = some (r.setSubscriber i (.arriving e)) := by
            simp only [stepSubscriber?, found, phase, down, own, current, Bool.false_eq_true,
              if_false]
          exact h.ends_step found own went fun able =>
            able.ends_arriving_current (setSubscriber_self found _) own rfl current

theorem ends_looking (phase : s.phase = .looking) : Ends answer room i r := by
  cases current : r.entryOf? room with
  | none =>
      have went : r.stepSubscriber? i = some (r.setSubscriber i .creating) := by
        simp only [stepSubscriber?, found, phase, own, current]
      exact h.ends_step found own went fun able =>
        able.ends_creating (setSubscriber_self found _) own rfl
  | some e =>
      have went : r.stepSubscriber? i = some (r.setSubscriber i (.arriving e)) := by
        simp only [stepSubscriber?, found, phase, own, current]
      exact h.ends_step found own went fun able =>
        able.ends_arriving_current (setSubscriber_self found _) own rfl current

theorem ends_checking (phase : s.phase = .checking) : Ends answer room i r :=
  h.ends_checking_of found own phase fun _ able _ found₁ => able.ends_looking found₁ own rfl

theorem ends_removing (phase : s.phase = .removing e) : Ends answer room i r := by
  let rest := if r.entryOf? s.roomId = some e then r.unregister s.roomId else r
  have went : r.stepSubscriber? i = some (rest.setSubscriber i .checking) := by
    simp only [stepSubscriber?, found, phase, rest]
  have found₁ : rest.subscribers[i]? = some s := by
    simp only [rest]
    split <;> exact found
  exact h.ends_step found own went fun able =>
    able.ends_checking (setSubscriber_self found₁ _) own rfl

theorem ends_queued (phase : s.phase = .queued e) : Ends answer room i r :=
  h.ends_queued_of found own phase fun _ able _ found₁ => able.ends_removing found₁ own rfl

/-- Whoever subscribes and does not give up gets an answer by what its room does. -/
theorem ends (stays : s.phase ≠ .aborted) : Ends answer room i r := by
  cases phase : s.phase with
  | checking => exact h.ends_checking found own phase
  | looking => exact h.ends_looking found own phase
  | creating => exact h.ends_creating found own phase
  | removing e => exact h.ends_removing found own phase
  | queued e => exact h.ends_queued found own phase
  | arriving e =>
      exact h.ends_arriving_of found own phase fun _ able _ found₁ =>
        able.ends_queued found₁ own rfl
  | watching e =>
      obtain ⟨r', q, goes, _, found', ⟨result, rfl⟩ | ⟨_, stale⟩⟩ := h.leaves_watching found phase
      · exact ⟨r', _, result, own ▸ goes, found', rfl⟩
      · exact stale.elim
  | starting e t =>
      obtain ⟨r', q, goes, _, found', ⟨result, rfl⟩ | ⟨rfl, _⟩⟩ := h.leaves_starting found phase
      · exact ⟨r', _, result, own ▸ goes, found', rfl⟩
      · rw [own] at goes
        exact .after goes ((h.goesTo goes).ends_removing found' own rfl)
  | done result => exact ⟨r, s, result, .refl, found, phase⟩
  | aborted => exact absurd phase stays

end

end Answerable

end Roomcast.Registry

import Roomcast.Proofs.Arriving
import Roomcast.Proofs.Progress

/-!
# No history wedges a room

Whatever has happened before, whoever subscribes once nobody else can go on gets a reader: it walks
around dead entries, waits for the locks of others, whose feeds open in time, and comes to an entry
that it or somebody else brings to life. Nobody in its way can stop, since all that the others do is
bounded as well. And the next event that is sent to the room is the first one that it reads.
-/

namespace Roomcast.Registry

variable {r r' : Registry} {a : Action}

/-- A subscriber of a room has neither given up nor failed, and if it has a reader, that has seen
all there was to see. -/
def Expects (r : Registry) (i : Nat) (room : Uuid) : Prop :=
  ∃ s, r.subscribers[i]? = some s ∧ s.roomId = room ∧ s.phase ≠ .aborted ∧
    (∀ err, s.phase ≠ .done (.error err)) ∧
    ∀ h, s.phase.reader? = some h → r.Feeds room h [] [] 0

/-- While only time passes, a subscriber gets no answer but a reader. -/
theorem Expects.drift {i : Nat} {room : Uuid} (h : r.Expects i room) (calm : r.Calm)
    (d : Drift r a r') : r'.Expects i room := by
  obtain ⟨s, found, rfl, goesOn, clean, feeds⟩ := h
  have owned := calm.books.owned
  obtain ⟨s', found', goes⟩ := d.move.subscriber owned found
  have passes := d.passes
  refine ⟨s', found', goes.roomId, ?_, ?_, ?_⟩
  · cases goes with
    | stay => exact goesOn
    | turn q _ _ _ quits =>
        intro eq
        rw [quits eq] at passes
        cases passes
    | serve | leave | refuse => nofun
  · cases goes with
    | stay => exact clean
    | turn q _ _ answers =>
        intro err eq
        obtain ⟨_, down⟩ | answered := answers err eq
        · rw [calm.up] at down
          cases down
        · rw [answered] at passes
          cases passes
    | serve | leave | refuse => nofun
  · intro g serves
    rw [← goes.roomId]
    obtain old | ⟨st, joins⟩ := d.move.serves owned found' serves
    · obtain rfl : s = s' := Option.some.inj (found.symm.trans old)
      obtain ⟨left, less, feeds'⟩ :=
        (feeds g serves).drift calm.toSteady (Nat.zero_le _) (Nat.zero_le _) d
      obtain rfl := Nat.le_zero.1 less
      exact feeds'
    · exact joins.feeds calm d

/-- A new subscriber disturbs nobody. -/
theorem Calm.subscribe (calm : r.Calm) (room : Uuid) : (r.subscribe room).Calm := by
  refine ⟨calm.toSteady.move (.subscribe room) calm.shutdowns, calm.waiting, ?_⟩
  intro i e t s st found phase there
  obtain old | ⟨_, rfl⟩ := getElem?_push_some.1 found
  · exact calm.starting i e t s st old phase there
  · cases phase

/-- What holds while a subscriber of a room is on its way and only time passes. -/
structure Approaching (r : Registry) (i : Nat) (room : Uuid) : Prop extends Calm r where
  patrolled : r.Patrolled
  expects : r.Expects i room
  wide : 0 < r.capacity
  slots : 0 < r.store.capacity

theorem Approaching.perform {i : Nat} {room : Uuid} (h : r.Approaching i room)
    (passes : a.passes = true) (did : r.perform? a = some r') : r'.Approaching i room := by
  have fresh := h.books.owned.fresh
  have patrolled := h.patrolled.perform fresh passes did
  have chain := perform?_drifts h.patrolled fresh passes did
  clear did
  have kept : r'.Calm ∧ r'.Expects i room ∧ 0 < r'.capacity ∧ 0 < r'.store.capacity := by
    clear patrolled
    induction chain with
    | refl => exact ⟨h.toCalm, h.expects, h.wide, h.slots⟩
    | tail _ d ih =>
        obtain ⟨calm, expects, wide, slots⟩ := ih
        obtain ⟨same, same'⟩ := d.move.sizes
        exact ⟨calm.drift d, expects.drift calm d, same.symm ▸ wide, same'.symm ▸ slots⟩
  obtain ⟨calm, expects, wide, slots⟩ := kept
  exact ⟨calm, patrolled, expects, wide, slots⟩

theorem Approaching.run {i : Nat} {room : Uuid} (h : r.Approaching i room) {acts : List Action}
    (passes : ∀ a ∈ acts, a.passes = true) (ran : r.run? acts = some r') :
    r'.Approaching i room :=
  run?_induction (P := fun acts r' => (∀ a ∈ acts, a.passes = true) → r'.Approaching i room)
    (fun _ => h)
    (fun _ _ _ _ _ ih did passes =>
      (ih fun b among => passes b (List.mem_append_left _ among)).perform (passes _ (by simp)) did)
    ran passes

/-- Until a period ends, only so much can happen. -/
theorem Approaching.bounded {i : Nat} {room : Uuid} (h : r.Approaching i room)
    {acts : List Action} (swift : ∀ a ∈ acts, a.passes = true ∧ ∀ k, a ≠ .elapsed k)
    (ran : r.run? acts = some r') : acts.length ≤ r.toGo := by
  have counts : acts.length + r'.toGo ≤ r.toGo := by
    refine run?_induction (P := fun acts r' =>
      (∀ a ∈ acts, a.passes = true ∧ ∀ k, a ≠ .elapsed k) → acts.length + r'.toGo ≤ r.toGo)
      (fun _ => (Nat.zero_add _).le) (fun acts a r₁ r₂ before ih did swift => ?_) ran swift
    have earlier := fun b among => swift b (List.mem_append_left _ among)
    have there := h.run (fun b among => (earlier b among).1) before
    obtain ⟨passes, still⟩ := swift a (by simp)
    have less := there.toCalm.toGo there.patrolled passes still did
    have sofar := ih earlier
    rw [List.length_append, List.length_singleton]
    omega
  omega

/-- Somebody can go on, or a feed for which somebody waits can be opened, unless all is quiet. -/
theorem Approaching.goesOn {i : Nat} {room : Uuid} (h : r.Approaching i room)
    (busy : ¬ r.Quiet) :
    ∃ a : Action, a.passes = true ∧ (∀ k, a ≠ .elapsed k) ∧ (r.perform? a).isSome = true := by
  by_cases rest : r.AtRest
  · have watching : ∃ (k e : Nat) (s : Subscriber), r.subscribers[k]? = some s ∧
        s.phase = .watching e := by
      by_contra none
      exact busy ⟨rest, fun k e s found phase => none ⟨k, e, s, found, phase⟩⟩
    obtain ⟨k, e, s, found, phase⟩ := watching
    refine ⟨.watched k none, rfl, by simp, ?_⟩
    simp only [perform?, watched?, found, phase, Option.isSome_map]
    exact Store.watch?_isSome s.roomId h.slots
  · obtain ⟨p, goes⟩ := not_forall.1 rest
    exact ⟨.step p, rfl, by simp, Option.isSome_iff_ne_none.2 goes⟩

/-- The next event of a room that is sent is the first one that a reader gets. -/
def ReadsNext (r : Registry) (room : Uuid) (h : Reader) : Prop :=
  ∀ (before : List Action) (r₁ : Registry) (e : Event), (∀ a ∈ before, a.waits h = true) →
    r.run? before = some r₁ → e.roomId = room →
    r.reads h before = [] ∧ ∃ r₂, r₁.emit? e = some r₂ ∧
      ∀ (after : List Action) (r₃ : Registry), (∀ a ∈ after, a.waits h = true) →
        r₂.run? after = some r₃ →
        r₂.reads h after = [e] ∨
          (r₂.reads h after = [] ∧
            (r₃.readOn h = some (.ok e) ∨
              (r₃.readOn h = none ∧ (r₃.step? (.puller h.stream)).isSome = true ∧
                after.countP (·.pulls h.stream) < 2)))

theorem prefix_singleton {β : Type} {l : List β} {x : β} (inside : l <+: [x]) :
    l = [] ∨ l = [x] := by
  cases l with
  | nil => exact .inl rfl
  | cons y ys =>
      obtain ⟨rfl, rest⟩ := List.cons_prefix_cons.1 inside
      rw [List.prefix_nil.1 rest]
      exact .inr rfl

/-- A reader to which one event has been sent gets that event first. -/
theorem Awaiting.first {room : Uuid} {h : Reader} {e : Event} {left : Nat}
    (awaiting : r.Awaiting room h [] [e] left) {acts : List Action}
    (waits : ∀ a ∈ acts, a.waits h = true) (ran : r.run? acts = some r') :
    r.reads h acts = [e] ∨
      (r.reads h acts = [] ∧
        (r'.readOn h = some (.ok e) ∨
          (r'.readOn h = none ∧ (r'.step? (.puller h.stream)).isSome = true ∧
            acts.countP (·.pulls h.stream) < left))) := by
  obtain ⟨left', fewer, after⟩ := awaiting.run waits ran
  rw [List.nil_append] at after
  obtain nothing | all := prefix_singleton after.feeds.isPrefix
  · rw [nothing] at after
    refine .inr ⟨nothing, ?_⟩
    obtain got | ⟨waiting, more⟩ := after.feeds.readOn
    · exact .inl got
    · exact .inr ⟨waiting, after.feeds.step? after.steady after.narrow more, by omega⟩
  · exact .inl all

/-- A reader that has seen all there was to see reads what comes next. -/
theorem Awaiting.readsNext {room : Uuid} {h : Reader} (awaiting : r.Awaiting room h [] [] 0)
    (wide : 0 < r.capacity) (slots : 0 < r.store.capacity) : r.ReadsNext room h := by
  intro before r₁ e waits ran here
  -- Nothing but the event is there to be read, and the window and the channel have room for it.
  obtain ⟨left, none, awaiting₁⟩ := awaiting.run waits ran
  have nothing : r.reads h before = [] := List.prefix_nil.1 awaiting₁.feeds.isPrefix
  rw [nothing] at awaiting₁
  obtain rfl : left = 0 := by omega
  obtain ⟨capacity, storeCapacity⟩ := awaiting.steady.books.owned.sizes ran
  obtain ⟨store, stored⟩ := Option.isSome_iff_exists.1
    (Store.emit?_isSome e (storeCapacity.symm ▸ slots))
  have did : r₁.emit? e = some { r₁ with store } := by
    rw [Registry.emit?, stored]
    rfl
  have m : Move r₁ (.emit e) { r₁ with store } := .emit stored
  refine ⟨nothing, _, did, fun after r₃ waits' ran' => ?_⟩
  have sent : Registry.Awaiting { r₁ with store } room h [] [e] 2 := by
    refine ⟨awaiting₁.steady.move m awaiting₁.steady.shutdowns, ?_, ?_, Store.ringSize_pos store,
      awaiting₁.feeds.emit awaiting₁.steady here did⟩
    · exact awaiting₁.patrolled
    · show 0 < r₁.capacity
      rw [capacity]
      exact wide
  exact sent.first waits' ran'

/-- What is true after somebody has subscribed to a room and time has passed. -/
structure Unwedged (r : Registry) (room : Uuid) (r' : Registry) : Prop where
  /-- Until a period ends, only so much can happen. -/
  bounded : ∃ n, ∀ (after : List Action) (r₁ : Registry),
    (∀ a ∈ after, a.passes = true ∧ ∀ k, a ≠ .elapsed k) → r'.run? after = some r₁ →
    after.length ≤ n
  /-- It does happen: somebody can go on, or a feed can be opened, until all is quiet. -/
  goesOn : ¬ r'.Quiet →
    ∃ a : Action, a.passes = true ∧ (∀ k, a ≠ .elapsed k) ∧ (r'.perform? a).isSome = true
  /-- By then the subscriber has its answer. -/
  answered : r'.Quiet → ∃ s, r'.subscribers[r.subscribers.size]? = some s ∧ s.phase.isOut = true
  /-- The answer is an open reader, which reads whatever is sent next to the room. -/
  served : ∀ s, r'.subscribers[r.subscribers.size]? = some s → s.phase.isOut = true →
    ∃ h, s = ⟨room, .done (.ok h)⟩ ∧ r'.hasLeft h = false ∧ r'.ReadsNext room h

/-- Whatever has happened, if nobody can go on, no shutdown has begun and no feed has taken its
puller down, whoever subscribes to a room then gets an open reader, in no more than the time that it
takes to open feeds. What is sent next to the room is the first that it reads. -/
theorem run?_unwedged {capacity channelCapacity : Nat} {acts more : List Action} {room : Uuid}
    (ran : (Registry.empty capacity channelCapacity).run? acts = some r) (rest : r.AtRest)
    (up : r.down = false)
    (whole : ∀ (t : Nat) (st : Stream), r.streams[t]? = some st → st.puller ≠ .crashed)
    (wide : 0 < capacity) (slots : 0 < channelCapacity)
    (passes : ∀ a ∈ more, a.passes = true) (later : (r.subscribe room).run? more = some r') :
    Unwedged r room r' := by
  have books := run?_books ran
  obtain ⟨wide', slots'⟩ := (empty_owned capacity channelCapacity).sizes ran
  have calm := (rest.calm books (run?_sourced ran) up whole).subscribe room
  have start : (r.subscribe room).Approaching r.subscribers.size room := by
    refine ⟨calm, rest.patrolled, ⟨⟨room, .checking⟩, ?_, rfl, nofun, nofun, nofun⟩, ?_, ?_⟩
    · exact getElem?_push_some.2 (.inr ⟨rfl, rfl⟩)
    · exact wide'.symm ▸ wide
    · exact slots'.symm ▸ slots
  have there := start.run passes later
  obtain ⟨s, found, rfl, goesOn, clean, feeds⟩ := there.expects
  refine ⟨⟨r'.toGo, fun after r₁ swift ran => there.bounded swift ran⟩, there.goesOn, ?_, ?_⟩
  · intro quiet
    have whole : (Registry.empty capacity channelCapacity).run?
        (acts ++ .subscribe s.roomId :: more) = some r' := by
      rw [run?_append, ran]
      exact later
    exact ⟨s, found, quiet.isOut (run?_locked whole) found⟩
  · intro s' found' out
    obtain rfl : s = s' := Option.some.inj (found.symm.trans found')
    obtain ⟨roomId, phase⟩ := s
    cases phase with
    | done result =>
        cases result with
        | error err => exact absurd rfl (clean err)
        | ok h =>
            have fed := feeds h rfl
            have awaiting : r'.Awaiting roomId h [] [] 0 :=
              ⟨there.toSteady, there.patrolled, Nat.zero_le _, Nat.zero_le _, fed⟩
            exact ⟨h, rfl, fed.hasLeft, awaiting.readsNext there.wide there.slots⟩
    | aborted => exact absurd rfl goesOn
    | _ => cases out

/-- A feed has failed and takes its time to close. Another subscriber has removed its entry, and has
the lock of a new one, for which a feed takes its time to open. -/
def sluggish : List Action :=
  [.subscribe (.ofNat 7), .step (.subscriber 0), .step (.subscriber 0), .step (.subscriber 0),
    .step (.subscriber 0), .step (.subscriber 0), .watched 0 none, .step (.subscriber 0),
    .fault (.ofNat 7) (.error .closed), .step (.puller 0), .step (.puller 0),
    .subscribe (.ofNat 7), .step (.subscriber 1), .step (.subscriber 1), .step (.subscriber 1),
    .step (.subscriber 1), .step (.subscriber 1), .step (.subscriber 1), .step (.subscriber 1),
    .step (.subscriber 1), .step (.subscriber 1), .step (.subscriber 1)]

/-- A third subscriber waits for the lock, and gets a reader once the feed is open. -/
def atLast : List Action :=
  [.step (.subscriber 2), .step (.subscriber 2), .step (.subscriber 2), .watched 1 none,
    .step (.subscriber 1), .step (.subscriber 2)]

/-- Neither the failed feed nor the slow one keeps the third subscriber from its reader. -/
theorem run?_unwedged_sluggish : ∃ r r', (Registry.empty 1 1).run? sluggish = some r ∧
    (r.subscribe (.ofNat 7)).run? atLast = some r' ∧ Unwedged r (.ofNat 7) r' ∧
    ∃ h, r'.subscribers[2]? = some ⟨.ofNat 7, .done (.ok h)⟩ := by
  have possible : ((Registry.empty 1 1).run? sluggish).isSome = true := by decide +kernel
  obtain ⟨r, ran⟩ := Option.isSome_iff_exists.1 possible
  have facts : ((Registry.empty 1 1).run? sluggish).map (fun r =>
      (decide r.AtRest, r.down, r.streams.any fun st => st.puller matches .crashed,
        r.subscribers.size, ((r.subscribe (.ofNat 7)).run? atLast).map fun r' =>
          (r'.subscribers[2]?).any fun s => s.phase.isOut)) =
      some (true, false, false, 2, some true) := by decide +kernel
  rw [ran] at facts
  simp only [Option.map_some, Option.some.injEq, Prod.mk.injEq, decide_eq_true_eq] at facts
  obtain ⟨rest, up, whole, size, later⟩ := facts
  obtain ⟨r', later, out⟩ := Option.map_eq_some_iff.1 later
  have sound : ∀ (t : Nat) (st : Stream), r.streams[t]? = some st → st.puller ≠ .crashed := by
    intro t st there crashed
    have among := Array.mem_of_getElem? there
    rw [Array.any_eq_false'] at whole
    exact whole st among (by rw [crashed])
  have unwedged := run?_unwedged ran rest up sound (by decide) (by decide) (by decide) later
  refine ⟨r, r', ran, later, unwedged, ?_⟩
  obtain ⟨s, found, out⟩ := (Option.any_eq_true _ _).1 out
  obtain ⟨h, rfl, _⟩ := unwedged.served s (size ▸ found) out
  exact ⟨h, found⟩

end Roomcast.Registry

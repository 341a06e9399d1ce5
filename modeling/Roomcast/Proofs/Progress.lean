import Roomcast.Proofs.Calm

/-!
# How far everybody has to go

While only time passes and no period ends, every party has only so many steps to take. A subscriber
that comes to a dead entry removes it and begins again, but nobody makes another dead entry, so that
happens at most once for each dead entry that lies ahead. A closer that closes a window gives its
puller something to do, and a collector that reclaims entries gives something to everybody: what
they still have to do is counted with it.
-/

namespace Roomcast.Registry

variable {r r' : Registry} {a : Action}

/-- Whether nobody can get a reader from an entry any more. -/
def isDead (r : Registry) (entry : Nat) : Bool :=
  (r.entries[entry]?).any fun x =>
    x.retired || x.stream.any fun t => (r.streams[t]?).all (·.room.isClosed)

theorem isDead_iff {e : Nat} : r.isDead e = true ↔ ∃ x, r.entries[e]? = some x ∧ r.Dead x := by
  have closed : ∀ t : Nat, (r.streams[t]?).all (fun st => st.room.isClosed) = true ↔
      ∀ st : Stream, r.streams[t]? = some st → st.room.isClosed = true := by
    intro t
    cases r.streams[t]? <;> simp
  rw [isDead, Option.any_eq_true]
  refine exists_congr fun x => and_congr_right fun _ => ?_
  simp only [Dead, Bool.or_eq_true, Option.any_eq_true, closed]

/-- Whether a room has a registered entry that is dead, and that is not the one already known. -/
def lures (r : Registry) (room : Uuid) (known : Option Nat) : Bool :=
  (r.entryOf? room).any fun e => known ≠ some e && r.isDead e

/-- The number of steps that a subscriber takes if it comes to no dead entry. -/
def Subscribing.toGo : Subscribing → Nat
  | .removing _ => 8
  | .checking => 7
  | .looking => 6
  | .creating => 5
  | .arriving _ => 4
  | .queued _ => 3
  | .watching _ => 2
  | .starting .. => 1
  | .done _ | .aborted => 0

/-- The number of dead entries that a subscriber may come to. -/
def deadAhead (r : Registry) (s : Subscriber) : Nat :=
  match s.phase with
  | .checking | .looking | .creating => (r.lures s.roomId none).toNat
  | .arriving e | .queued e => (r.isDead e).toNat + (r.lures s.roomId (some e)).toNat
  | .removing e => (r.lures s.roomId (some e)).toNat
  | _ => 0

/-- A bound on the steps of a subscriber: each dead entry sends it back once. -/
def subscriberToGo (r : Registry) (s : Subscriber) : Nat := s.phase.toGo + 6 * r.deadAhead s

/-- A bound on the steps of a closer, with those that it gives to a puller. -/
def Closer.toGo (c : Closer) : Nat :=
  match c.phase with
  | .arriving => 7
  | .queued => 6
  | .stopping _ => 5
  | .joining _ => 1
  | .done => 0

/-- A bound on the steps of the puller of a closed window. -/
def Stream.toGo (st : Stream) : Nat :=
  if st.room.isClosed then
    match st.puller with
    | .pulling | .holding _ => 3
    | .stopping => 2
    | .closing => 1
    | .ended | .crashed => 0
  else 0

/-- A bound on the steps of a collector until a period has to pass, with those that it gives to
closers and to so many subscribers. -/
def Collecting.toGo (subscribers : Nat) : Collecting → Nat
  | .reclaiming candidates => 3 + candidates.length * (7 + 12 * subscribers)
  | .checking => 2
  | .scanning => 1
  | .sleeping _ | .stopping _ | .done _ => 0

/-- A bound on the steps of everybody but the collectors. -/
def business (r : Registry) : Nat :=
  total r.subscriberToGo r.subscribers + total Closer.toGo r.closers + total Stream.toGo r.streams

/-- A bound on the steps of everybody until a period has to pass. -/
def toGo (r : Registry) : Nat :=
  r.business + total (fun c => c.phase.toGo r.subscribers.size) r.collectors

theorem Stream.toGo_le (st : Stream) : st.toGo ≤ 3 := by
  rw [toGo]
  split_ifs
  · cases st.puller <;> simp
  · exact Nat.zero_le _

theorem deadAhead_le (r : Registry) (s : Subscriber) : r.deadAhead s ≤ 2 := by
  have one : ∀ b : Bool, b.toNat ≤ 1 := Bool.toNat_le
  have first := one (r.lures s.roomId none)
  rw [deadAhead]
  cases s.phase with
  | arriving e | queued e =>
      have dead := one (r.isDead e)
      have other := one (r.lures s.roomId (some e))
      dsimp only
      omega
  | removing e =>
      have other := one (r.lures s.roomId (some e))
      dsimp only
      omega
  | checking | looking | creating =>
      dsimp only
      omega
  | _ => exact Nat.zero_le _

/-- A room without an entry lures nobody. -/
theorem lures_of_none {room : Uuid} (none : r.entryOf? room = none) (known : Option Nat) :
    r.lures room known = false := by
  rw [lures, none, Option.any_none]

/-- A room lures those who do not know its entry if that is dead, and nobody else. -/
theorem lures_of_current {room : Uuid} {e : Nat} (current : r.entryOf? room = some e) :
    r.lures room Option.none = r.isDead e ∧ r.lures room (some e) = false := by
  simp [lures, current]

/-- Who knows an entry that is not the one of the room knows nothing. -/
theorem lures_of_other {room : Uuid} {e : Nat} (other : r.entryOf? room ≠ some e) :
    r.lures room (some e) = r.lures room none := by
  rw [lures, lures]
  cases current : r.entryOf? room with
  | none => rfl
  | some e' =>
      rw [current] at other
      simp [Ne.symm (fun same => other (congrArg some same) : e' ≠ e)]

/-- No entry has become dead, and no dead entry has got into the registry. -/
structure Eases (r r' : Registry) : Prop where
  dead : ∀ e, r'.isDead e = true → r.isDead e = true
  current : ∀ room e, r'.entryOf? room = some e → r'.isDead e = true → r.entryOf? room = some e

theorem Eases.lures (h : r.Eases r') (room : Uuid) (known : Option Nat) :
    (r'.lures room known).toNat ≤ (r.lures room known).toNat := by
  refine Bool.toNat_le_toNat fun lures => ?_
  obtain ⟨e, current, other⟩ := (Option.any_eq_true _ _).1 lures
  obtain ⟨other, dead⟩ := Bool.and_eq_true_iff.1 other
  exact (Option.any_eq_true _ _).2
    ⟨e, h.current room e current dead, Bool.and_eq_true_iff.2 ⟨other, h.dead e dead⟩⟩

theorem Eases.isDead (h : r.Eases r') (e : Nat) : (r'.isDead e).toNat ≤ (r.isDead e).toNat :=
  Bool.toNat_le_toNat (h.dead e)

/-- Nobody has farther to go. -/
theorem Eases.toGo (h : r.Eases r') (s : Subscriber) :
    r'.subscriberToGo s ≤ r.subscriberToGo s := by
  refine Nat.add_le_add_left (Nat.mul_le_mul_left 6 ?_) _
  rw [deadAhead, deadAhead]
  cases s.phase with
  | checking | looking | creating => exact h.lures _ _
  | arriving e | queued e => exact Nat.add_le_add (h.isDead e) (h.lures _ _)
  | removing e => exact h.lures _ _
  | _ => exact Nat.le_refl _

/-- No subscriber comes. -/
theorem Drift.subscribers_size (d : Drift r a r') : r'.subscribers.size = r.subscribers.size := by
  refine d.move.subscribers_size fun room same => ?_
  have passes := d.passes
  rw [same] at passes
  cases passes

/-- Closers come only to reclaimed entries. -/
theorem Drift.closers_size (d : Drift r a r') (none : r.shutdowns = #[])
    (apart : a.isPatrol = false) : r'.closers.size = r.closers.size := by
  obtain ⟨m, passes, calls⟩ := d
  cases m with
  | drain found =>
      rw [none] at found
      cases found
  | reclaim here may patrols =>
      rw [patrols] at apart
      cases apart
  | askToClose | retire | closeWindow | closeNothing | closed => exact Array.size_modify
  | _ => rfl

/-- The window of a stream closes only if its entry is retired. -/
theorem Calm.closes (calm : r.Calm) (d : Drift r a r') {e t : Nat} {x : Entry}
    (here : r.entries[e]? = some x) (stream : x.started = some t)
    (closed : ∀ st', r'.streams[t]? = some st' → st'.room.isClosed = true) :
    x.retired = true ∨ ∀ st, r.streams[t]? = some st → st.room.isClosed = true := by
  have books := calm.books
  obtain ⟨st, there⟩ : ∃ st, r.streams[t]? = some st :=
    ⟨_, Array.getElem?_eq_getElem (books.owned.started_lt here stream)⟩
  cases running : st.room.isClosed with
  | true =>
      refine .inr fun st same => ?_
      rw [← Option.some.inj (there.symm.trans same)]
      exact running
  | false =>
      refine .inl ?_
      by_contra live
      obtain ⟨st', there', goes⟩ := d.stream there
      have waits := calm.waiting t _ there running
      have keeps := (waits.drifts calm.sourced.sound books.laid there running goes).2
      rw [closed st' there'] at keeps
      refine absurd (keeps fun j c p found phase same => live ?_) (by simp)
      obtain ⟨y, here', stream'⟩ := Option.bind_eq_some_iff.1 same
      obtain rfl := books.owned.unshared _ _ x y t here here' stream
        (Entry.started_of_stream stream')
      exact (books.withheld calm.up).closing j c x found here

theorem Calm.eases (calm : r.Calm) (d : Drift r a r') (apart : a.isPatrol = false) :
    r.Eases r' := by
  have books := calm.books
  have owned := books.owned
  -- A closer is the closer of an entry that was retired before.
  have closer : ∀ {j : Nat} {c' : Closer} {x : Entry}, r'.closers[j]? = some c' →
      r.entries[c'.entry]? = some x → x.retired = true := by
    intro j c' x found here
    obtain ⟨c, old, goes⟩ | new := d.move.closer_back found
    · rw [goes.entry] at here
      exact (books.withheld calm.up).closing j c x old here
    · rw [← d.closers_size calm.shutdowns apart] at new
      exact absurd (lt_size_of_getElem? found) (Nat.not_lt.2 new)
  have dead : ∀ e, r'.isDead e = true → r.isDead e = true := by
    intro e dead
    obtain ⟨x', here', dead⟩ := isDead_iff.1 dead
    obtain ⟨x, here, goes⟩ | ⟨_, _, _, new⟩ := d.move.entry_back owned here'
    · refine isDead_iff.2 ⟨x, here, ?_⟩
      have window : ∀ t, x.started = some t →
          (∀ st', r'.streams[t]? = some st' → st'.room.isClosed = true) → x.stream = some t →
          r.Dead x := by
        intro t started closed stream
        obtain gone | closed := calm.closes d here started closed
        · exact .inl gone
        · exact .inr ⟨t, stream, closed⟩
      cases goes with
      | relock lock =>
          obtain gone | ⟨t, stream, closed⟩ := dead
          · exact .inl gone
          · exact window t (Entry.started_of_stream stream) closed stream
      | begin t live bare =>
          obtain gone | ⟨t', stream, _⟩ := dead
          · exact .inl gone
          · exact absurd (bare.symm.trans stream) nofun
      | start t lock live bare pulls =>
          obtain gone | ⟨t', stream, closed⟩ := dead
          · exact .inl gone
          · -- The window of a stream that is started is open.
            obtain rfl := Option.some.inj stream
            have started : x.started = some t := by rw [Entry.started, bare, Option.none_or, pulls]
            obtain ⟨i, s, found, phase⟩ := owned.pending e x t here bare pulls
            obtain ⟨st, there, running⟩ := calm.isOpen_of_starting found phase
            obtain gone | closed := calm.closes d here started closed
            · exact .inl gone
            · rw [closed st there] at running
              cases running
      | retire lock _ closes =>
          obtain ⟨j, found⟩ := closes
          exact .inl (closer found here)
      | reclaim _ _ _ closes =>
          obtain ⟨j, c, found, rfl⟩ := closes
          exact .inl (closer found here)
    · rw [new] at dead
      obtain gone | ⟨t, stream, _⟩ := dead
      · cases gone
      · cases stream
  refine ⟨dead, fun room e current gone => ?_⟩
  obtain ⟨x, here, _⟩ := isDead_iff.1 (dead e gone)
  exact d.move.current (lt_size_of_getElem? here) current

/-- The way a subscriber goes is shorter by what it has gone, and no other way is longer. -/
theorem Eases.turn (eases : r.Eases r') {i : Nat} {s : Subscriber} {q : Subscribing}
    (found : r.subscribers[i]? = some s)
    (turned : r'.subscribers = r.subscribers.modify i fun s => { s with phase := q })
    (less : r'.subscriberToGo { s with phase := q } < r.subscriberToGo s)
    (closers : r'.closers = r.closers)
    (streams : total Stream.toGo r'.streams ≤ total Stream.toGo r.streams) :
    r'.business < r.business := by
  have changed := total_modify eases.toGo (fun s => { s with phase := q }) found
  rw [business, business, closers, turned]
  omega

/-- A subscriber that goes on by itself has a shorter way to go. -/
theorem Eases.walk (eases : r.Eases r') {i : Nat} {s : Subscriber} {q : Subscribing}
    (walks : s.Walks r a i q) (up : r.down = false) (passes : a.passes = true) :
    r'.subscriberToGo { s with phase := q } < r.subscriberToGo s := by
  cases walks with
  | refuse _ down =>
      rw [up] at down
      cases down
  | look phase | miss phase =>
      have fewer := eases.lures s.roomId none
      simp only [subscriberToGo, deadAhead, Subscribing.toGo, phase]
      omega
  | @again e phase other =>
      have fewer := eases.lures s.roomId none
      simp only [subscriberToGo, deadAhead, Subscribing.toGo, phase]
      rw [lures_of_other other]
      omega
  | quit _ _ called =>
      rw [called] at passes
      cases passes

/-- The way a closer goes is shorter by more than what it makes the pullers do. -/
theorem Eases.close (eases : r.Eases r') (gives : Nat) {j : Nat} {c : Closer} {q : Closing}
    (found : r.closers[j]? = some c)
    (turned : r'.closers = r.closers.modify j fun c => { c with phase := q })
    (less : Closer.toGo { c with phase := q } + gives < c.toGo)
    (subscribers : r'.subscribers = r.subscribers)
    (streams : total Stream.toGo r'.streams ≤ total Stream.toGo r.streams + gives) :
    r'.business < r.business := by
  have changed : total Closer.toGo (r.closers.modify j fun c => { c with phase := q }) + c.toGo ≤
      total Closer.toGo r.closers + Closer.toGo { c with phase := q } :=
    total_modify (fun _ => Nat.le_refl _) _ found
  have eased := total_le eases.toGo r.subscribers
  rw [business, business, subscribers, turned]
  omega

/-- What is done to a stream changes what its puller has left to do, and nothing else. -/
theorem total_modifyStream {t : Nat} {st : Stream} (f : Stream → Stream)
    (there : r.streams[t]? = some st) :
    total Stream.toGo (r.streams.modify t f) + st.toGo ≤
      total Stream.toGo r.streams + (f st).toGo :=
  total_modify (fun _ => Nat.le_refl _) f there

/-- A puller does not get more to do by a reader that joins. -/
theorem total_join (laid : r.Laid) {t : Nat} {st : Stream} (there : r.streams[t]? = some st) :
    total Stream.toGo (r.streams.modify t (·.perform .join)) ≤ total Stream.toGo r.streams := by
  obtain ⟨v, valid, layout⟩ := laid t st there
  have same : (st.perform .join).toGo = st.toGo := by
    rw [Stream.toGo, Stream.isClosed_join valid layout]
    rfl
  have joined := total_modifyStream (·.perform .join) there
  rw [same] at joined
  exact Nat.le_of_add_le_add_right joined

/-- The way of a puller is shorter by what it has gone. -/
theorem Eases.spend (eases : r.Eases r') {t : Nat} {st : Stream} (f : Stream → Stream)
    (there : r.streams[t]? = some st) (less : (f st).toGo < st.toGo)
    (subscribers : r'.subscribers = r.subscribers) (closers : r'.closers = r.closers)
    (streams : r'.streams = r.streams.modify t f) : r'.business < r.business := by
  have spent := total_modifyStream f there
  have eased := total_le eases.toGo r.subscribers
  rw [business, business, subscribers, closers, streams]
  omega

/-- A puller that goes on has less left to do. -/
theorem Calm.pull (calm : r.Calm) {t : Nat} {st st' : Stream} (there : r.streams[t]? = some st)
    (went : st.Pull r.store st') : st'.toGo < st.toGo := by
  cases running : st.room.isClosed with
  | false => exact absurd went ((calm.waiting t st there running).still calm.sourced.sound running)
  | true =>
      cases went with
      | cut pulling => simp [Stream.toGo, running, pulling]
      | refuse holding => simp [Stream.toGo, running, holding]
      | stop stopping =>
          have shut : (st.perform .close).room.isClosed = true := Room.isClosed_close _
          simp [Stream.toGo, running, stopping, shut]
      | crash _ isOpen | fail _ isOpen | item _ isOpen | finish _ isOpen =>
          rw [running] at isOpen
          cases isOpen
      | push holding appended =>
          have ended : st.room.chain.closed = true := running
          rw [Room.append, Room.Chain.append, if_pos ended] at appended
          cases appended

/-- Whoever goes on has less left to do, with what others get to do from that. -/
theorem Calm.lowers (calm : r.Calm) (d : Drift r a r') (apart : a.isPatrol = false) :
    r'.business < r.business := by
  have eases := calm.eases d apart
  have books := calm.books
  obtain ⟨m, passes, calls⟩ := d
  cases m with
  | subscribe | fail | failClosed | abort | emit | endFeed | fault => cases passes
  | use used =>
      rw [Action.use?_of_passes passes] at used
      cases used
  | patrol _ patrols | reclaim _ _ patrols =>
      rw [patrols] at apart
      cases apart
  | shutdown called =>
      obtain rfl | patrols := called
      · cases passes
      · rw [patrols] at apart
        cases apart
  | goDown found | drain found | drained found | take found | stop found =>
      rw [calm.shutdowns] at found
      cases found
  | walk found walks =>
      exact eases.turn found rfl (eases.walk walks calm.up passes) rfl (Nat.le_refl _)
  | @find _ i e s found phase current =>
      refine eases.turn found rfl ?_ rfl (Nat.le_refl _)
      have dead := eases.isDead e
      have other := eases.lures s.roomId (some e)
      obtain ⟨mine, known⟩ := lures_of_current current
      rw [known] at other
      obtain phase | phase := phase
      all_goals
        simp only [subscriberToGo, deadAhead, Subscribing.toGo, phase, mine]
        simp only [Bool.toNat_false] at other
        omega
  | @create i s found phase up new =>
      refine eases.turn found rfl ?_ rfl (Nat.le_refl _)
      have current := (entryOf?_register r s.roomId s.roomId).trans (if_pos rfl)
      have known := (lures_of_current current).2
      have fresh : (r.register s.roomId).isDead r.entries.size = false := by
        simp [isDead, register]
      simp only [subscriberToGo, deadAhead, Subscribing.toGo, phase]
      show 4 + 6 * (((r.register s.roomId).isDead r.entries.size).toNat +
        ((r.register s.roomId).lures s.roomId (some r.entries.size)).toNat) < _
      rw [fresh, known, Bool.toNat_false]
      omega
  | @ask _ i e s found phase =>
      refine eases.turn found rfl ?_ rfl (Nat.le_refl _)
      have dead := eases.isDead e
      have other := eases.lures s.roomId (some e)
      simp only [subscriberToGo, deadAhead, Subscribing.toGo, phase]
      omega
  | @turnAway _ i e s x found phase here head dead =>
      refine eases.turn found rfl ?_ rfl (Nat.le_refl _)
      have other := eases.lures s.roomId (some e)
      have gone : (r.isDead e).toNat = 1 := by rw [isDead_iff.2 ⟨x, here, dead⟩]; rfl
      simp only [subscriberToGo, deadAhead, Subscribing.toGo, phase]
      omega
  | @join i e t s x st found phase here head live stream there running =>
      refine eases.turn found rfl ?_ rfl (total_join books.laid there)
      simp only [subscriberToGo, deadAhead, Subscribing.toGo, phase]
      omega
  | @watch _ i e s x found phase here head live bare =>
      refine eases.turn found rfl ?_ rfl (Nat.le_refl _)
      simp only [subscriberToGo, deadAhead, Subscribing.toGo, phase]
      omega
  | @watched i e s store feed found phase opened =>
      refine eases.turn found rfl ?_ rfl ?_
      · simp only [subscriberToGo, deadAhead, Subscribing.toGo, phase]
        omega
      · exact (total_push Stream.toGo).le
  | @start i e t s st found phase there running =>
      refine eases.turn found rfl ?_ rfl (total_join books.laid there)
      simp only [subscriberToGo, deadAhead, Subscribing.toGo, phase]
      omega
  | startDead found phase stopped =>
      obtain ⟨st, there, running⟩ := calm.isOpen_of_starting found phase
      rw [stopped st there] at running
      cases running
  | @remove i e s found phase current =>
      refine eases.turn found rfl ?_ rfl (Nat.le_refl _)
      have gone := (entryOf?_unregister r s.roomId s.roomId).trans (if_pos rfl)
      simp only [subscriberToGo, deadAhead, Subscribing.toGo, phase]
      show 7 + 6 * ((r.unregister s.roomId).lures s.roomId none).toNat < _
      rw [lures_of_none gone, Bool.toNat_false]
      omega
  | askToClose found phase =>
      refine eases.close 0 found rfl ?_ rfl (Nat.le_refl _)
      simp [Closer.toGo, phase]
  | retire found phase here head =>
      refine eases.close 0 found rfl ?_ rfl (Nat.le_refl _)
      simp [Closer.toGo, phase]
  | @closeWindow _ j t c p found phase stream =>
      refine eases.close 3 found rfl ?_ rfl ?_
      · simp [Closer.toGo, phase]
      · obtain ⟨x, here, streams⟩ := Option.bind_eq_some_iff.1 stream
        have inside := books.owned.started_lt here (Entry.started_of_stream streams)
        have closed := total_modifyStream (·.perform .close) (Array.getElem?_eq_getElem inside)
        have few := Stream.toGo_le (r.streams[t].perform .close)
        show total Stream.toGo (r.streams.modify t _) ≤ _
        omega
  | closeNothing found phase =>
      refine eases.close 0 found rfl ?_ rfl (Nat.le_refl _)
      simp [Closer.toGo, phase]
  | closed found phase =>
      refine eases.close 0 found rfl ?_ rfl (Nat.le_refl _)
      simp [Closer.toGo, phase]
  | @pull t st st' there went =>
      exact eases.spend (fun _ => st') there (calm.pull there went) rfl rfl rfl
  | @close _ t st there closing =>
      have shut := (calm.sourced.streams t st there).ended (.inl closing)
      refine eases.spend (fun st => { st with feed := st.feed.close, puller := .ended }) there ?_
        rfl rfl rfl
      simp [Stream.toGo, shut, closing]

/-- Reclaiming an entry gives something to do to its closer, and to those who come to it. -/
theorem business_reclaim (r : Registry) (e : Nat) :
    (r.reclaim e).business ≤ r.business + (7 + 12 * r.subscribers.size) ∧
      (r.reclaim e).subscribers = r.subscribers := by
  cases here : r.entries[e]? with
  | none =>
      rw [reclaim, here]
      exact ⟨Nat.le_add_right _ _, rfl⟩
  | some x =>
      by_cases may : r.reclaimable e = true
      · have subscribers : (r.reclaim e).subscribers = r.subscribers := by
          rw [reclaim_eq here may]
        have few : ∀ s, (r.reclaim e).subscriberToGo s ≤ r.subscriberToGo s + 12 := by
          intro s
          have bound := deadAhead_le (r.reclaim e) s
          rw [subscriberToGo, subscriberToGo]
          omega
        have most := total_le_add few r.subscribers
        have closers :
            total Closer.toGo (r.reclaim e).closers = total Closer.toGo r.closers + 7 := by
          rw [reclaim_eq here may]
          exact total_append _ _ _
        have streams : (r.reclaim e).streams = r.streams := by
          rw [reclaim_eq here may]
        refine ⟨?_, subscribers⟩
        rw [business, business, subscribers, closers, streams]
        omega
      · rw [show r.reclaim e = r by simp [reclaim, here, may]]
        exact ⟨Nat.le_add_right _ _, rfl⟩

theorem business_foldl_reclaim (r : Registry) (candidates : List Nat) :
    (candidates.foldl reclaim r).business ≤
        r.business + candidates.length * (7 + 12 * r.subscribers.size) ∧
      (candidates.foldl reclaim r).subscribers = r.subscribers := by
  induction candidates generalizing r with
  | nil => exact ⟨Nat.le_add_right _ _, rfl⟩
  | cons e rest ih =>
      obtain ⟨first, same⟩ := business_reclaim r e
      obtain ⟨others, still⟩ := ih (r.reclaim e)
      rw [same] at others still
      refine ⟨?_, still⟩
      rw [List.foldl_cons, List.length_cons, Nat.succ_mul]
      omega

/-- Until a period ends, whatever happens while time passes brings everybody nearer to rest. -/
theorem Calm.toGo (calm : r.Calm) (patrolled : r.Patrolled) (passes : a.passes = true)
    (swift : ∀ i, a ≠ .elapsed i) (did : r.perform? a = some r') : r'.toGo < r.toGo := by
  by_cases collects : ∃ i, a = .step (.collector i)
  · obtain ⟨i, rfl⟩ := collects
    -- The collector goes on, and nobody else gets more to do than it has accounted for.
    have turn : ∀ {c : Collector} {q : Collecting} {r₁ : Registry} (gives : Nat),
        r.collectors[i]? = some c → r₁.collectors = r.collectors →
        r₁.subscribers = r.subscribers → r₁.business ≤ r.business + gives →
        q.toGo r.subscribers.size + gives < c.phase.toGo r.subscribers.size →
        (r₁.setCollector i q).toGo < r.toGo := by
      intro c q r₁ gives found same subscribers busy less
      have turned := total_modify
        (fun c : Collector => Nat.le_refl (c.phase.toGo r.subscribers.size))
        (fun c => { c with phase := q }) found
      dsimp only at turned
      show r₁.business + total (fun c => c.phase.toGo r₁.subscribers.size)
        (r₁.collectors.modify i fun c => { c with phase := q }) < _
      rw [Registry.toGo, subscribers, same]
      omega
    simp only [perform?, step?, stepCollector?] at did
    cases found : r.collectors[i]? with
    | none => simp [found] at did
    | some c =>
        simp only [found] at did
        cases phase : c.phase with
        | checking =>
            simp only [phase, calm.up, Bool.false_eq_true, if_false, Option.some.injEq] at did
            subst did
            refine turn 0 found rfl rfl (Nat.le_refl _) ?_
            simp [phase, Collecting.toGo]
        | scanning =>
            simp only [phase, Option.some.injEq] at did
            subst did
            refine turn 0 found rfl rfl (Nat.le_refl _) ?_
            simp [phase, Collecting.toGo]
        | sleeping candidates =>
            simp only [phase] at did
            split_ifs at did with cancelled
            have out := patrolled i c found cancelled
            rw [phase] at out
            cases out
        | reclaiming candidates =>
            simp only [phase, Option.some.injEq] at did
            subst did
            obtain ⟨busy, subscribers⟩ := business_foldl_reclaim r candidates
            refine turn _ found (foldl_reclaim_collectors r candidates) subscribers busy ?_
            simp only [phase, Collecting.toGo]
            omega
        | stopping shutdown =>
            simp [phase, shutdownDone, calm.shutdowns] at did
        | done result => simp [phase] at did
  · have m := perform?_move calm.books.owned.fresh (fun i eq => collects ⟨i, eq⟩) did
    have apart : a.isPatrol = false := by
      cases a with
      | step p =>
          cases p with
          | collector i => exact absurd ⟨i, rfl⟩ collects
          | _ => rfl
      | elapsed i => exact absurd rfl (swift i)
      | collect | cancelCollector => cases passes
      | _ => rfl
    have d : Drift r a r' := by
      refine ⟨m, passes, m.shutdowns ?_ apart⟩
      rintro rfl
      cases passes
    have less := calm.lowers d apart
    rw [Registry.toGo, Registry.toGo, m.collectors apart, d.subscribers_size]
    omega

end Roomcast.Registry

import Roomcast.Proofs.Ownership

/-!
# How streams, entries and subscribers evolve

A move changes at most a few rows of the tables of a registry. Here is what can become of one
stream, of one entry and of one subscriber, whichever move it is: a puller that has ended stays so,
a closed window stays closed, a retired entry keeps its stream, and readers come only from entries
that are not retired. New rows are never in the way of old ones.
-/

namespace Roomcast.Registry

variable {r r' : Registry} {a : Action}

/-- An entry that is not retired hands out readers of a stream. -/
def Offers (r : Registry) (t : Nat) : Prop :=
  ∃ (e : Nat) (x : Entry), r.entries[e]? = some x ∧ x.retired = false ∧ x.stream = some t

/-- An entry hands out readers when its lock is given back, if it is not retired. -/
theorem offers_release {e t : Nat} {x : Entry} (who : Holder) (here : r.entries[e]? = some x)
    (live : x.retired = false) (stream : x.stream = some t) : (r.release e who).Offers t :=
  ⟨e, { x with lock := x.lock.filter (· ≠ who) },
    getElem?_modify_some.2 (.inr ⟨rfl, x, here, rfl⟩), live, stream⟩

/-- An entry hands out readers of a stream that has just been started. -/
theorem offers_started {e : Nat} {x : Entry} (t : Nat) (who : Holder)
    (here : r.entries[e]? = some x) (live : x.retired = false) :
    ((r.modifyEntry e fun x => { x with stream := some t }).release e who).Offers t :=
  offers_release (x := { x with stream := some t }) who
    (getElem?_modify_some.2 (.inr ⟨rfl, x, here, rfl⟩)) live rfl

/-- What a move can make of a stream. It gets a new reader only if an entry hands out readers. -/
inductive Stream.Goes (store : Store) (offers : Prop) (st : Stream) : Stream → Prop
  | stay : Goes store offers st st
  | join (offered : offers) : Goes store offers st (st.perform .join)
  | perform (op : Room.Op Event) (other : op ≠ .join) : Goes store offers st (st.perform op)
  | pull {st' : Stream} (went : st.Pull store st') : Goes store offers st st'
  | close (closing : st.puller = .closing) :
      Goes store offers st { st with feed := st.feed.close, puller := .ended }
  | fault (fault : Option Fault) : Goes store offers st { st with fault }

/-- Using a reader is not joining. -/
theorem Action.use?_ne_join {h : Reader} {op : Room.Op Event} (used : a.use? = some (h, op)) :
    op ≠ .join := by
  rintro rfl
  cases a <;> simp [use?] at used

/-- Every stream goes on in one of these ways. -/
theorem Move.stream (m : Move r a r') (owned : r.Owned) {k : Nat} {st : Stream}
    (there : r.streams[k]? = some st) :
    ∃ st', r'.streams[k]? = some st' ∧ st.Goes r.store (r'.Offers k) st' := by
  cases m with
  | @join i e t s x st₁ found phase here head live stream =>
      exact getElem?_modify_keeps there .stay fun same =>
        .join (same ▸ offers_release _ here live stream)
  | @start i e t s st₁ found phase =>
      obtain ⟨x, here, _, _, live, _⟩ := owned.starts found phase
      exact getElem?_modify_keeps there .stay fun same =>
        .join (same ▸ offers_started t _ here live)
  | closeWindow => exact getElem?_modify_keeps there .stay fun _ => .perform _ nofun
  | use used =>
      exact getElem?_modify_keeps there .stay fun _ => .perform _ (Action.use?_ne_join used)
  | watched => exact ⟨st, getElem?_push_some.2 (.inl there), .stay⟩
  | fault room f =>
      rw [injectFault, Array.getElem?_map, there, Option.map_some]
      split_ifs
      · exact ⟨_, rfl, .fault _⟩
      · exact ⟨st, rfl, .stay⟩
  | @pull t st₁ st' there₁ went =>
      refine getElem?_modify_keeps there .stay fun here => ?_
      subst here
      obtain rfl : st = st₁ := Option.some.inj (there.symm.trans there₁)
      exact .pull went
  | @close a t st₁ there₁ closing =>
      refine getElem?_modify_keeps there .stay fun here => ?_
      subst here
      obtain rfl : st = st₁ := Option.some.inj (there.symm.trans there₁)
      exact .close closing
  | reclaim here may =>
      rw [reclaim_eq here may]
      exact ⟨st, there, .stay⟩
  | _ => exact ⟨st, there, .stay⟩

/-- A stream that was not there before has just been opened. -/
theorem Move.stream_new (m : Move r a r') {k : Nat} {st : Stream} (new : r.streams.size ≤ k)
    (there : r'.streams[k]? = some st) :
    k = r.streams.size ∧ ∃ room feed, st = ⟨room, .empty r.capacity, feed, none, .pulling⟩ := by
  have old : ∀ {ys : Array Stream}, ys.size = r.streams.size → ys[k]? ≠ some st :=
    getElem?_ne_some new
  cases m with
  | join | start | closeWindow | pull | close | use =>
      exact absurd there (old Array.size_modify)
  | watched =>
      obtain found | ⟨eq, rfl⟩ := getElem?_push_some.1 there
      · exact absurd found (old rfl)
      · exact ⟨eq, _, _, rfl⟩
  | fault room f => exact absurd there (old Array.size_map)
  | reclaim here may =>
      rw [reclaim_eq here may] at there
      exact absurd there (old rfl)
  | _ => exact absurd there (old rfl)

/-- Every stream was there before, or has just been opened. -/
theorem Move.stream_back (m : Move r a r') (owned : r.Owned) {k : Nat} {st' : Stream}
    (there : r'.streams[k]? = some st') :
    (∃ st, r.streams[k]? = some st ∧ st.Goes r.store (r'.Offers k) st') ∨
      (k = r.streams.size ∧
        ∃ room feed, st' = ⟨room, .empty r.capacity, feed, none, .pulling⟩) := by
  obtain old | new := getElem?_back (fun st => m.stream owned) there
  · exact .inl old
  · exact .inr (m.stream_new new there)

theorem pullerEnded_iff {t : Nat} :
    r.pullerEnded t = true ↔
      ∃ st, r.streams[t]? = some st ∧ (st.puller = .ended ∨ st.puller = .crashed) := by
  rw [pullerEnded]
  cases r.streams[t]? with
  | none => simp
  | some st => cases phase : st.puller <;> simp [phase]

/-- A puller that has ended stays so. -/
theorem Stream.Goes.ended {store : Store} {offers : Prop} {st st' : Stream}
    (goes : st.Goes store offers st') (ended : st.puller = .ended ∨ st.puller = .crashed) :
    st'.puller = .ended ∨ st'.puller = .crashed := by
  cases goes with
  | stay | join | perform | fault => exact ended
  | close => exact .inl rfl
  | pull went => cases went <;> simp_all

theorem Move.pullerEnded (m : Move r a r') (owned : r.Owned) {t : Nat}
    (ended : r.pullerEnded t = true) : r'.pullerEnded t = true := by
  obtain ⟨st, there, phase⟩ := pullerEnded_iff.1 ended
  obtain ⟨st', there', goes⟩ := m.stream owned there
  exact pullerEnded_iff.2 ⟨st', there', goes.ended phase⟩

/-- A closer has just taken the puller of an entry. -/
def Takes (r : Registry) (e : Nat) (p : Option Nat) : Prop :=
  ∃ j : Nat, r.closers[j]? = some ⟨e, .stopping p⟩

/-- What a move can make of entry `e`. Only a closer takes the puller, and only an entry without
readers is reclaimed. -/
inductive Entry.Goes (r r' : Registry) (e : Nat) (x : Entry) : Entry → Prop
  | relock (lock : List Holder) : Goes r r' e x { x with lock }
  | begin (t : Nat) (live : x.retired = false) (bare : x.stream = none) (idle : x.puller = none) :
      Goes r r' e x { x with puller := some t }
  | start (t : Nat) (lock : List Holder) (live : x.retired = false) (bare : x.stream = none)
      (pulls : x.puller = some t) : Goes r r' e x { x with stream := some t, lock }
  | retire (lock : List Holder) (bare : x.stream = none → x.puller = none)
      (closes : r'.Takes e x.puller) :
      Goes r r' e x { x with retired := true, puller := none, lock }
  | reclaim (live : x.retired = false) (free : x.lock = []) (unread : r.readersOf e = 0)
      (closes : ∃ (j : Nat) (c : Closer), r'.closers[j]? = some c ∧ c.entry = e) :
      Goes r r' e x { x with retired := true }

section

variable {e : Nat} {x x' : Entry}

theorem Entry.Goes.roomId (goes : x.Goes r r' e x') : x'.roomId = x.roomId := by
  cases goes <;> rfl

/-- A retired entry stays retired and keeps its stream, and gets no puller. -/
theorem Entry.Goes.retired (goes : x.Goes r r' e x') (gone : x.retired = true) :
    x'.retired = true ∧ x'.stream = x.stream ∧ (x.puller = none → x'.puller = none) := by
  cases goes with
  | relock lock => exact ⟨gone, rfl, id⟩
  | retire lock bare => exact ⟨rfl, rfl, fun _ => rfl⟩
  | begin t live | start t lock live | reclaim live => simp [live] at gone

/-- An entry keeps its stream. -/
theorem Entry.Goes.stream {t : Nat} (goes : x.Goes r r' e x') (streams : x.stream = some t) :
    x'.stream = some t := by
  cases goes with
  | relock | retire | reclaim => exact streams
  | begin t' live bare =>
      rw [bare] at streams
      cases streams
  | start t' lock live bare pulls =>
      rw [bare] at streams
      cases streams

/-- An entry keeps the stream that has been started for it. -/
theorem Entry.Goes.started {t : Nat} (goes : x.Goes r r' e x') (started : x.started = some t) :
    x'.started = some t := by
  cases goes with
  | relock | reclaim => exact started
  | begin t' live bare idle =>
      rw [Entry.started, bare, idle] at started
      cases started
  | start t' lock live bare pulls =>
      rw [Entry.started, bare, pulls] at started
      exact started
  | retire lock settled =>
      cases streams : x.stream with
      | some t' =>
          rw [Entry.started, streams] at started
          exact started
      | none =>
          rw [Entry.started, streams, settled streams] at started
          cases started

end

@[simp] theorem setSubscriber_entries (r : Registry) (i : Nat) (q : Subscribing) :
    (r.setSubscriber i q).entries = r.entries := rfl

@[simp] theorem setCloser_entries (r : Registry) (j : Nat) (q : Closing) :
    (r.setCloser j q).entries = r.entries := rfl

@[simp] theorem modifyStream_entries (r : Registry) (t : Nat) (f : Stream → Stream) :
    (r.modifyStream t f).entries = r.entries := rfl

/-- An entry changes and its lock is given back. -/
theorem release_modifyEntry (r : Registry) (e : Nat) (f : Entry → Entry) (who : Holder) :
    ((r.modifyEntry e f).release e who).entries =
      r.entries.modify e fun x => { f x with lock := (f x).lock.filter (· ≠ who) } :=
  modify_modify f fun x => { x with lock := x.lock.filter (· ≠ who) }

/-- Every entry goes on in one of these ways. -/
theorem Move.entry (m : Move r a r') (owned : r.Owned) {k : Nat} {x : Entry}
    (here : r.entries[k]? = some x) :
    ∃ x', r'.entries[k]? = some x' ∧ x.Goes r r' k x' := by
  have stays : ∃ x', r.entries[k]? = some x' ∧ x.Goes r r' k x' := ⟨x, here, .relock x.lock⟩
  cases m with
  | create => exact ⟨x, getElem?_push_some.2 (.inl here), .relock x.lock⟩
  | ask | turnAway | join | fail | failClosed | abort | askToClose =>
      exact getElem?_modify_keeps here (.relock x.lock) fun _ => .relock _
  | @watched i e s store feed found phase opened =>
      refine getElem?_modify_keeps here (.relock x.lock) fun same => ?_
      subst same
      obtain ⟨y, here', _, _, live, bare, idle⟩ := owned.watches found phase
      obtain rfl : x = y := Option.some.inj (here.symm.trans here')
      exact .begin _ live bare idle
  | @start i e t s st found phase there running =>
      rw [setSubscriber_entries, release_modifyEntry, modifyStream_entries]
      refine getElem?_modify_keeps here (.relock x.lock) fun same => ?_
      subst same
      obtain ⟨y, here', _, _, live, bare, pulls⟩ := owned.starts found phase
      obtain rfl : x = y := Option.some.inj (here.symm.trans here')
      exact .start t _ live bare pulls
  | @startDead a i e t s found phase stopped =>
      rw [setSubscriber_entries, release_modifyEntry]
      refine getElem?_modify_keeps here (.relock x.lock) fun same => ?_
      subst same
      obtain ⟨y, here', _, _, live, bare, pulls⟩ := owned.starts found phase
      obtain rfl : x = y := Option.some.inj (here.symm.trans here')
      exact .start t _ live bare pulls
  | @retire a j c y found phase here' head =>
      rw [Registry.retire, setCloser_entries, release_modifyEntry]
      refine getElem?_modify_keeps here (.relock x.lock) fun same => ?_
      subst same
      obtain rfl : x = y := Option.some.inj (here.symm.trans here')
      refine .retire _ (fun bare => owned.settled here bare fun i s t _ _ head' => ?_) ⟨j, ?_⟩
      · rw [head] at head'
        cases head'
      · exact getElem?_modify_some.2 (.inr ⟨rfl, c, found, rfl⟩)
  | @reclaim a e y here' may =>
      rw [reclaim_eq here' may]
      obtain ⟨_, free, live, unread⟩ := (reclaimable_iff here').1 may
      refine getElem?_modify_keeps here (.relock x.lock) fun same => ?_
      subst same
      obtain rfl : x = y := Option.some.inj (here.symm.trans here')
      exact .reclaim live free unread ⟨r.closers.size, ⟨e, .arriving⟩, by simp, rfl⟩
  | _ => exact stays

theorem entryOf?_register (r : Registry) (room other : Uuid) :
    (r.register room).entryOf? other =
      if other = room then some r.entries.size else r.entryOf? other := by
  rw [entryOf?, register, List.lookup_cons]
  by_cases same : other = room
  · simp [same]
  · simp [same, entryOf?, show (other == room) = false from beq_false_of_ne same]

theorem entryOf?_unregister (r : Registry) (room other : Uuid) :
    (r.unregister room).entryOf? other = if other = room then none else r.entryOf? other :=
  lookup_filter_ne r.registered room other

/-- An entry that was not there before has just been made, for a room that had none. -/
theorem Move.entry_new (m : Move r a r') {k : Nat} {x : Entry} (new : r.entries.size ≤ k)
    (here : r'.entries[k]? = some x) :
    k = r.entries.size ∧ r.entryOf? x.roomId = none ∧ r'.entryOf? x.roomId = some k ∧
      x = ⟨x.roomId, none, none, false, []⟩ := by
  have old : ∀ {ys : Array Entry}, ys.size = r.entries.size → ys[k]? ≠ some x :=
    getElem?_ne_some new
  cases m with
  | @create i s found phase up none =>
      obtain found | ⟨rfl, rfl⟩ := getElem?_push_some.1 here
      · exact absurd found (old rfl)
      · exact ⟨rfl, none, (entryOf?_register r s.roomId _).trans (if_pos rfl), rfl⟩
  | ask | turnAway | join | fail | failClosed | abort | askToClose | watched =>
      exact absurd here (old Array.size_modify)
  | start | startDead | retire =>
      exact absurd here (old (Array.size_modify.trans Array.size_modify))
  | reclaim here' may =>
      rw [reclaim_eq here' may] at here
      exact absurd here (old Array.size_modify)
  | _ => exact absurd here (old rfl)

/-- Every entry was there before, or has just been made. -/
theorem Move.entry_back (m : Move r a r') (owned : r.Owned) {k : Nat} {x' : Entry}
    (here : r'.entries[k]? = some x') :
    (∃ x, r.entries[k]? = some x ∧ x.Goes r r' k x') ∨
      (k = r.entries.size ∧ r.entryOf? x'.roomId = none ∧ r'.entryOf? x'.roomId = some k ∧
        x' = ⟨x'.roomId, none, none, false, []⟩) := by
  obtain old | new := getElem?_back (fun x => m.entry owned) here
  · exact .inl old
  · exact .inr (m.entry_new new here)

/-- What has become of an entry has become of it in one of these ways. -/
theorem Move.entry_goes (m : Move r a r') (owned : r.Owned) {k : Nat} {x x' : Entry}
    (was : r.entries[k]? = some x) (here : r'.entries[k]? = some x') : x.Goes r r' k x' := by
  obtain ⟨y, here', goes⟩ := m.entry owned was
  obtain rfl : x' = y := Option.some.inj (here.symm.trans here')
  exact goes

/-- No old entry gets into the registry again. -/
theorem Move.current (m : Move r a r') {room : Uuid} {k : Nat} (old : k < r.entries.size)
    (current : r'.entryOf? room = some k) : r.entryOf? room = some k := by
  cases m with
  | @create i s found phase up none =>
      have there := (entryOf?_register r s.roomId room).symm.trans current
      split_ifs at there
      · obtain rfl := Option.some.inj there
        exact absurd old (Nat.lt_irrefl _)
      · exact there
  | @remove i e s found phase here =>
      have there := (entryOf?_unregister r s.roomId room).symm.trans current
      split_ifs at there
      exact there
  | @reclaim a e x here may =>
      rw [reclaim_eq here may] at current
      have there := (entryOf?_unregister r x.roomId room).symm.trans current
      split_ifs at there
      exact there
  | drain => cases current
  | _ => exact current

/-- What a move can make of subscriber `i`. It gets a reader only of an open window, from an entry
that hands out readers, and turns to removing an entry only if that is dead or if the store has
refused a feed as closed. It gets an error only from a shutdown or from the store, and gives up only
when its caller does. -/
inductive Subscriber.Goes (r r' : Registry) (a : Action) (i : Nat) (s : Subscriber) :
    Subscriber → Prop
  | stay : Goes r r' a i s s
  | turn (q : Subscribing) (unserved : q.reader? = none) (keeps : ∀ e, q ≠ .removing e)
      (answers : ∀ err, q = .done (.error err) →
        (err = .shuttingDown ∧ r.down = true) ∨ a = .watched i (some err))
      (quits : q = .aborted → a = .abort i) :
      Goes r r' a i s { s with phase := q }
  | serve {t : Nat} {st : Stream} (there : r.streams[t]? = some st)
      (running : st.room.isClosed = false) (offers : r'.Offers t) :
      Goes r r' a i s { s with phase := .done (.ok ⟨t, st.room.cursors.size⟩) }
  | leave {e : Nat} {x : Entry} (here : r'.entries[e]? = some x) (dead : r'.Dead x) :
      Goes r r' a i s { s with phase := .removing e }
  | refuse (e : Nat) (refused : a = .watched i (some .closed)) :
      Goes r r' a i s { s with phase := .removing e }

theorem Subscriber.Goes.roomId {i : Nat} {s s' : Subscriber} (goes : s.Goes r r' a i s') :
    s'.roomId = s.roomId := by
  cases goes <;> rfl

/-- Every subscriber goes on in one of these ways. -/
theorem Move.subscriber (m : Move r a r') (owned : r.Owned) {k : Nat} {s : Subscriber}
    (found : r.subscribers[k]? = some s) :
    ∃ s', r'.subscribers[k]? = some s' ∧ s.Goes r r' a k s' := by
  cases m with
  | subscribe => exact ⟨s, getElem?_push_some.2 (.inl found), .stay⟩
  | walk _ walks =>
      refine getElem?_modify_keeps found .stay fun same =>
        .turn _ walks.nowhere.2 (fun e eq => ?_) (fun err eq => .inl ?_) fun eq => ?_
      · subst eq
        cases walks
      · subst eq
        cases walks with
        | refuse _ down => exact ⟨rfl, down⟩
      · subst eq
        cases walks with
        | quit _ _ called => rw [called, same]
  | find | create | ask | watch | watched | remove =>
      exact getElem?_modify_keeps found .stay fun _ => .turn _ rfl nofun nofun nofun
  | abort =>
      exact getElem?_modify_keeps found .stay fun same => .turn _ rfl nofun nofun fun _ => by
        rw [same]
  | fail =>
      refine getElem?_modify_keeps found .stay fun same =>
        .turn _ rfl nofun (fun err eq => .inr ?_) nofun
      rw [same, Except.error.inj (Subscribing.done.inj eq)]
  | @turnAway a i e s₁ x found₁ phase here head dead =>
      refine getElem?_modify_keeps found .stay fun _ =>
        .leave (x := { x with lock := x.lock.filter (· ≠ .subscriber i) }) ?_ dead
      exact getElem?_modify_some.2 (.inr ⟨rfl, x, here, rfl⟩)
  | join _ _ here head live stream there running =>
      exact getElem?_modify_keeps found .stay fun _ =>
        .serve there running (offers_release _ here live stream)
  | failClosed => exact getElem?_modify_keeps found .stay fun same => .refuse _ (by rw [same])
  | @start i e t s₁ st found₁ phase there running =>
      obtain ⟨x, here, _, _, live, _⟩ := owned.starts found₁ phase
      exact getElem?_modify_keeps found .stay fun _ =>
        .serve there running (offers_started t _ here live)
  | @startDead a i e t s₁ found₁ phase stopped =>
      obtain ⟨x, here, _⟩ := owned.starts found₁ phase
      refine getElem?_modify_keeps found .stay fun _ => .leave
        (x := { x with stream := some t, lock := x.lock.filter (· ≠ .subscriber i) }) ?_
        (.inr ⟨t, rfl, stopped⟩)
      refine getElem?_modify_some.2 (.inr ⟨rfl, { x with stream := some t }, ?_, rfl⟩)
      exact getElem?_modify_some.2 (.inr ⟨rfl, x, here, rfl⟩)
  | reclaim here may =>
      rw [reclaim_eq here may]
      exact ⟨s, found, .stay⟩
  | _ => exact ⟨s, found, .stay⟩

/-- Only a request for a reader brings a subscriber. -/
theorem Move.subscribers_size (m : Move r a r') (other : ∀ room, a ≠ .subscribe room) :
    r'.subscribers.size = r.subscribers.size := by
  cases m with
  | subscribe => exact absurd rfl (other _)
  | walk | find | create | ask | turnAway | join | watch | watched | fail | failClosed | start
  | startDead | remove | abort => exact Array.size_modify
  | reclaim here may => rw [reclaim_eq here may]
  | _ => rfl

/-- A subscriber that was not there before has just come. -/
theorem Move.subscriber_new (m : Move r a r') {k : Nat} {s : Subscriber}
    (new : r.subscribers.size ≤ k) (found : r'.subscribers[k]? = some s) : s.phase = .checking := by
  have old : ∀ {ys : Array Subscriber}, ys.size = r.subscribers.size → ys[k]? ≠ some s :=
    getElem?_ne_some new
  cases m with
  | subscribe =>
      obtain there | ⟨_, rfl⟩ := getElem?_push_some.1 found
      · exact absurd there (old rfl)
      · rfl
  | walk | find | create | ask | turnAway | join | watch | watched | fail | failClosed | start
  | startDead | remove | abort => exact absurd found (old Array.size_modify)
  | reclaim here may =>
      rw [reclaim_eq here may] at found
      exact absurd found (old rfl)
  | _ => exact absurd found (old rfl)

/-- Every subscriber was there before, or has just come. -/
theorem Move.subscriber_back (m : Move r a r') (owned : r.Owned) {k : Nat} {s' : Subscriber}
    (found : r'.subscribers[k]? = some s') :
    (∃ s, r.subscribers[k]? = some s ∧ s.Goes r r' a k s') ∨ s'.phase = .checking := by
  obtain old | new := getElem?_back (fun s => m.subscriber owned) found
  · exact .inl old
  · exact .inr (m.subscriber_new new found)

end Roomcast.Registry

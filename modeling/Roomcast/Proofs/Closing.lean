import Roomcast.Proofs.Delivery
import Roomcast.Proofs.Windows

/-!
# Closing

A closer takes the puller of its entry and waits for it. An entry gets a closer when it is reclaimed
and when a shutdown drains the registry, and no entry gets two. So whatever stream has been started
for an entry that has a closer is a stream for which that closer waits.
-/

namespace Roomcast.Registry

variable {r r' : Registry} {a : Action}

def Closing.isPast : Closing → Bool
  | .arriving | .queued => false
  | .stopping _ | .joining _ | .done => true

def Closing.hasClosed : Closing → Bool
  | .arriving | .queued | .stopping _ => false
  | .joining _ | .done => true

/-- What a closer has taken from its entry, and what it has waited for. -/
def Took (r : Registry) (x : Entry) : Closing → Prop
  | .arriving | .queued => True
  | .stopping p | .joining p => x.retired = true ∧ x.puller = none ∧ p = x.stream
  | .done => x.retired = true ∧ x.puller = none ∧ ∀ t, x.stream = some t → r.pullerEnded t = true

/-- What a move can make of closer `j`. -/
inductive Closer.Goes (r r' : Registry) (j : Nat) (c : Closer) : Closer → Prop
  | stay : Goes r r' j c c
  | ask (arriving : c.phase = .arriving) : Goes r r' j c { c with phase := .queued }
  | retire {x : Entry} (lock : List Holder) (queued : c.phase = .queued)
      (here : r.entries[c.entry]? = some x) (head : x.lock.head? = some (.closer j))
      (now : r'.entries[c.entry]? = some { x with retired := true, puller := none, lock }) :
      Goes r r' j c { c with phase := .stopping x.puller }
  | close {p : Option Nat} (stopping : c.phase = .stopping p)
      (shuts : ∀ (x : Entry) (t : Nat) (st : Stream), r'.entries[c.entry]? = some x →
        x.stream = some t → r'.streams[t]? = some st → st.room.isClosed = true) :
      Goes r r' j c { c with phase := .joining p }
  | finish {p : Option Nat} (joining : c.phase = .joining p)
      (ended : ∀ t, p = some t → r.pullerEnded t = true) : Goes r r' j c { c with phase := .done }

theorem Closer.Goes.entry {j : Nat} {c c' : Closer} (goes : c.Goes r r' j c') :
    c'.entry = c.entry := by
  cases goes <;> rfl

theorem Closer.Goes.done {j : Nat} {c c' : Closer} (goes : c.Goes r r' j c')
    (done : c.phase = .done) : c'.phase = .done := by
  cases goes <;> simp_all

/-- A closer has closed the window of its entry before, or has just done so. -/
theorem Closer.Goes.hasClosed {j : Nat} {c c' : Closer} (goes : c.Goes r r' j c')
    (closed : c'.phase.hasClosed = true) :
    c.phase.hasClosed = true ∨ ∀ (x : Entry) (t : Nat) (st : Stream),
      r'.entries[c.entry]? = some x → x.stream = some t → r'.streams[t]? = some st →
        st.room.isClosed = true := by
  cases goes with
  | stay => exact .inl closed
  | ask | retire => cases closed
  | close stopping shuts => exact .inr shuts
  | finish joining =>
      rw [joining]
      exact .inl rfl

theorem Closer.Goes.past {j : Nat} {c c' : Closer} (goes : c.Goes r r' j c')
    (past : c.phase.isPast = true) : c'.phase.isPast = true := by
  cases goes <;> simp_all [Closing.isPast]

/-- Who closes after new closers came: the old ones and one for each entry. -/
theorem addClosers_some (r : Registry) (entries : List Nat) {j : Nat} {c : Closer} :
    (r.addClosers entries).closers[j]? = some c ↔
      r.closers[j]? = some c ∨
        ∃ k e, j = r.closers.size + k ∧ entries[k]? = some e ∧ c = ⟨e, .arriving⟩ := by
  rw [addClosers, Array.getElem?_append]
  split_ifs with old
  · refine ⟨.inl, ?_⟩
    intro either
    obtain found | ⟨k, e, rfl, _⟩ := either
    · exact found
    · omega
  · have none : r.closers[j]? = none := Array.getElem?_eq_none (by omega)
    rw [List.getElem?_toArray, List.getElem?_map, none]
    constructor
    · intro found
      obtain ⟨e, listed, rfl⟩ := Option.map_eq_some_iff.1 found
      exact .inr ⟨j - r.closers.size, e, by omega, listed, rfl⟩
    · rintro (found | ⟨k, e, rfl, listed, rfl⟩)
      · cases found
      · rw [Nat.add_sub_cancel_left, listed]
        rfl

theorem streamOf?_of {e t : Nat} {x : Entry} (here : r.entries[e]? = some x)
    (stream : x.stream = some t) : r.streamOf? e = some t := by
  rw [streamOf?, here]
  exact stream

/-- Every closer goes on in one of these ways. -/
theorem Move.closer (m : Move r a r') {k : Nat} {c : Closer} (found : r.closers[k]? = some c) :
    ∃ c', r'.closers[k]? = some c' ∧ c.Goes r r' k c' := by
  cases m with
  | askToClose found₁ phase => exact getElem?_modify_one found found₁ .stay (.ask phase)
  | @retire a j c₁ x found₁ phase here head =>
      refine getElem?_modify_one found found₁ .stay
        (.retire (x.lock.filter (· ≠ .closer j)) phase here head ?_)
      rw [Registry.retire, setCloser_entries, release_modifyEntry, getElem?_modify_of _ here,
        if_pos rfl]
  | @closeWindow a j t c₁ p found₁ phase stream =>
      refine getElem?_modify_one found found₁ .stay
        (.close phase fun x t' st here streams there => ?_)
      obtain rfl : t = t' := Option.some.inj (stream.symm.trans (streamOf?_of here streams))
      obtain ⟨other, _⟩ | ⟨_, st₁, _, rfl⟩ := getElem?_modify_some.1 there
      · exact absurd rfl other
      · exact Room.isClosed_close _
  | @closeNothing a j c₁ p found₁ phase bare =>
      refine getElem?_modify_one found found₁ .stay (.close phase fun x t st here streams _ => ?_)
      cases bare.symm.trans (streamOf?_of here streams)
  | closed found₁ phase ended => exact getElem?_modify_one found found₁ .stay (.finish phase ended)
  | drain => exact ⟨c, (addClosers_some _ _).2 (.inl found), .stay⟩
  | @reclaim a e x here may =>
      rw [reclaim_eq here may]
      exact ⟨c, (addClosers_some _ [e]).2 (.inl found), .stay⟩
  | _ => exact ⟨c, found, .stay⟩

def Stopping.waitsFor : Stopping → List Nat
  | .closing closers | .joining closers => closers
  | _ => []

def Awaits (r : Registry) (j : Nat) : Prop :=
  ∃ (k : Nat) (p : Stopping), r.shutdowns[k]? = some p ∧ j ∈ p.waitsFor

/-- A new closer closes an entry that was registered until now, and no other closer does. Either the
entry has just been reclaimed, or a shutdown waits for the closer. -/
theorem Move.closer_new (m : Move r a r') (owned : r.Owned) {j : Nat} {c : Closer}
    (new : r.closers.size ≤ j) (found : r'.closers[j]? = some c) :
    c.phase = .arriving ∧
      (∃ x, r.entries[c.entry]? = some x ∧ r.entryOf? x.roomId = some c.entry) ∧
      (∀ room, r'.entryOf? room ≠ some c.entry) ∧
      (∀ (k : Nat) (c' : Closer), r.closers.size ≤ k → r'.closers[k]? = some c' →
        c'.entry = c.entry → k = j) ∧
      ((j ∈ r'.reclaims ∧ ∃ x, r'.entries[c.entry]? = some x ∧ x.retired = true) ∨
        r'.Awaits j) := by
  have old : ∀ {ys : Array Closer}, ys.size = r.closers.size → ys[j]? ≠ some c :=
    getElem?_ne_some new
  cases m with
  | askToClose | retire | closeWindow | closeNothing | closed =>
      exact absurd found (old Array.size_modify)
  | @drain k shut =>
      obtain found | ⟨n, e, rfl, listed, rfl⟩ := (addClosers_some _ _).1 found
      · exact absurd found (old rfl)
      obtain ⟨⟨room, _⟩, there, rfl⟩ := List.mem_map.1 (List.mem_of_getElem? listed)
      obtain ⟨x, here, named⟩ := owned.listed room _ there
      refine ⟨rfl, ⟨x, here, ?_⟩, fun room current => ?_, fun n' c' new' found' same => ?_,
        .inr ⟨k, _, getElem?_modify_some.2 (.inr ⟨rfl, _, shut, rfl⟩), ?_⟩⟩
      · rw [named]
        exact owned.current_of_mem there
      · cases current
      · obtain found' | ⟨n', e', rfl, listed', rfl⟩ := (addClosers_some _ _).1 found'
        · exact absurd (lt_size_of_getElem? found') (Nat.not_lt.2 new')
        · obtain rfl : e' = _ := same
          have index := (List.getElem?_inj (List.getElem?_eq_some_iff.1 listed').1
            owned.entries_nodup).1 (listed'.trans listed.symm)
          rw [index]
      · have inside := (List.getElem?_eq_some_iff.1 listed).1
        rw [List.length_map] at inside
        exact List.mem_map.2 ⟨n, List.mem_range.2 inside, rfl⟩
  | @reclaim a e x here may =>
      rw [reclaim_eq here may] at found ⊢
      obtain ⟨current, _⟩ := (reclaimable_iff here).1 may
      obtain found | ⟨n, e', rfl, listed, rfl⟩ :=
        (addClosers_some r [e]).1 found
      · exact absurd found (old rfl)
      have only : ∀ {n e' : Nat}, [e][n]? = some e' → n = 0 ∧ e' = e := by
        intro n e' listed
        cases n with
        | zero => exact ⟨rfl, (Option.some.inj listed).symm⟩
        | succ n => cases listed
      obtain ⟨rfl, rfl⟩ := only listed
      refine ⟨rfl, ⟨x, here, current⟩, fun room there => ?_, fun n' c' new' found' same => ?_,
        .inl ⟨List.mem_append_right _ (List.mem_singleton_self _), { x with retired := true },
          getElem?_modify_some.2 (.inr ⟨rfl, x, here, rfl⟩), rfl⟩⟩
      · have there' := (entryOf?_unregister r x.roomId room).symm.trans there
        split_ifs at there' with other
        obtain ⟨y, here', named⟩ := owned.entry_of_current there'
        obtain rfl : x = y := Option.some.inj (here.symm.trans here')
        exact other named.symm
      · obtain found' | ⟨n', e'', rfl, listed', rfl⟩ :=
          (addClosers_some r [e']).1 found'
        · exact absurd (lt_size_of_getElem? found') (Nat.not_lt.2 new')
        · rw [(only listed').1]
  | _ => exact absurd found (old rfl)

/-- Every closer was there before, or is new. -/
theorem Move.closer_back (m : Move r a r') {j : Nat} {c' : Closer}
    (found : r'.closers[j]? = some c') :
    (∃ c, r.closers[j]? = some c ∧ c.Goes r r' j c') ∨ r.closers.size ≤ j :=
  getElem?_back (fun _ => m.closer) found

/-- Each closer has an entry of its own that is not registered any more, and takes the puller of its
stream. -/
structure Tended (r : Registry) : Prop where
  assigned : ∀ (j : Nat) (c : Closer), r.closers[j]? = some c →
    c.entry < r.entries.size ∧ ∀ room, r.entryOf? room ≠ some c.entry
  alone : ∀ (j j' : Nat) (c c' : Closer), r.closers[j]? = some c → r.closers[j']? = some c' →
    c'.entry = c.entry → j' = j
  took : ∀ (j : Nat) (c : Closer) (x : Entry), r.closers[j]? = some c →
    r.entries[c.entry]? = some x → r.Took x c.phase
  kept : ∀ (e : Nat) (x : Entry) (t : Nat), r.entries[e]? = some x → x.stream = some t →
    x.puller = some t ∨ ∃ (j : Nat) (c : Closer), r.closers[j]? = some c ∧ c.entry = e ∧
      c.phase.isPast = true

theorem empty_tended (capacity channelCapacity : Nat) :
    (Registry.empty capacity channelCapacity).Tended := by
  constructor <;> simp [Registry.empty]

/-- A closer that has not retired its entry finds the puller of the stream there. -/
theorem Tended.puller_eq (h : r.Tended) (owned : r.Owned) {j : Nat} {c : Closer} {x : Entry}
    (found : r.closers[j]? = some c) (queued : c.phase = .queued)
    (here : r.entries[c.entry]? = some x) (head : x.lock.head? = some (.closer j)) :
    x.puller = x.stream := by
  cases streams : x.stream with
  | none =>
      refine owned.settled here streams fun i s t _ _ head' => ?_
      rw [head] at head'
      cases head'
  | some t =>
      obtain pulls | ⟨j', c', found', same, past⟩ := h.kept c.entry x t here streams
      · exact pulls
      · obtain rfl := h.alone j j' c c' found found' same
        obtain rfl : c = c' := Option.some.inj (found.symm.trans found')
        rw [queued] at past
        cases past

/-- What a closer has taken stays taken. -/
theorem Took.goes {e : Nat} {x x' : Entry} {p : Closing} (took : r.Took x p) (owned : r.Owned)
    (m : Move r a r') (goes : x.Goes r r' e x') : r'.Took x' p := by
  cases p with
  | arriving | queued => trivial
  | stopping p | joining p =>
      obtain ⟨gone, none, same⟩ := took
      obtain ⟨gone', stream, none'⟩ := goes.retired gone
      exact ⟨gone', none' none, same.trans stream.symm⟩
  | done =>
      obtain ⟨gone, none, ended⟩ := took
      obtain ⟨gone', stream, none'⟩ := goes.retired gone
      exact ⟨gone', none' none, fun t streams => m.pullerEnded owned (ended t (stream ▸ streams))⟩

section

variable (h : r.Tended) (owned : r.Owned) (m : Move r a r')

include h owned m

theorem Tended.still_assigned (j : Nat) (c' : Closer) (found : r'.closers[j]? = some c') :
    c'.entry < r'.entries.size ∧ ∀ room, r'.entryOf? room ≠ some c'.entry := by
  obtain ⟨c, old, goes⟩ | new := m.closer_back found
  · obtain ⟨inside, apart⟩ := h.assigned j c old
    obtain ⟨x', here, _⟩ := m.entry owned (Array.getElem?_eq_getElem inside)
    rw [goes.entry]
    exact ⟨lt_size_of_getElem? here, fun room current => apart room (m.current inside current)⟩
  · obtain ⟨_, ⟨x, here, _⟩, apart, _⟩ := m.closer_new owned new found
    obtain ⟨x', here', _⟩ := m.entry owned here
    exact ⟨lt_size_of_getElem? here', apart⟩

/-- A new closer comes to an entry that was registered, and no closer had that. -/
theorem Tended.still_alone (j j' : Nat) (c c' : Closer) (found : r'.closers[j]? = some c)
    (found' : r'.closers[j']? = some c') (same : c'.entry = c.entry) : j' = j := by
  obtain ⟨c₀, old, goes⟩ | new := m.closer_back found
  · obtain ⟨c₁, old', goes'⟩ | new' := m.closer_back found'
    · exact h.alone j j' c₀ c₁ old old' (goes'.entry.symm.trans (same.trans goes.entry))
    · obtain ⟨_, ⟨x, _, current⟩, _⟩ := m.closer_new owned new' found'
      rw [same, goes.entry] at current
      exact absurd current ((h.assigned j c₀ old).2 _)
  · obtain ⟨c₁, old', goes'⟩ | new' := m.closer_back found'
    · obtain ⟨_, ⟨x, _, current⟩, _⟩ := m.closer_new owned new found
      rw [← same, goes'.entry] at current
      exact absurd current ((h.assigned j' c₁ old').2 _)
    · obtain ⟨_, _, _, alone, _⟩ := m.closer_new owned new found
      exact alone j' c' new' found' same

theorem Tended.still_took (j : Nat) (c' : Closer) (x' : Entry) (found : r'.closers[j]? = some c')
    (here : r'.entries[c'.entry]? = some x') : r'.Took x' c'.phase := by
  obtain ⟨c, old, goes⟩ | new := m.closer_back found
  · obtain ⟨inside, _⟩ := h.assigned j c old
    have was := Array.getElem?_eq_getElem inside
    rw [goes.entry] at here
    have became := m.entry_goes owned was here
    have took := h.took j c _ old was
    cases goes with
    | stay => exact took.goes owned m became
    | ask => trivial
    | @retire x lock queued here₁ head now =>
        obtain rfl : x = _ := Option.some.inj (here₁.symm.trans was)
        obtain rfl := Option.some.inj (here.symm.trans now)
        exact ⟨rfl, rfl, h.puller_eq owned old queued here₁ head⟩
    | close stopping =>
        rw [stopping] at took
        exact took.goes owned m became
    | finish joining ended =>
        rw [joining] at took
        obtain ⟨gone, none, same⟩ := took
        obtain ⟨gone', stream, none'⟩ := became.retired gone
        refine ⟨gone', none' none, ?_⟩
        intro t streams
        exact m.pullerEnded owned (ended t (same.trans (stream ▸ streams)))
  · obtain ⟨arriving, _⟩ := m.closer_new owned new found
    rw [arriving]
    trivial

theorem Tended.still_kept (e : Nat) (x' : Entry) (t : Nat) (here : r'.entries[e]? = some x')
    (streams : x'.stream = some t) :
    x'.puller = some t ∨ ∃ (j : Nat) (c : Closer), r'.closers[j]? = some c ∧ c.entry = e ∧
      c.phase.isPast = true := by
  obtain ⟨x, was, became⟩ | ⟨_, _, _, fresh⟩ := m.entry_back owned here
  · -- Who had retired the entry before has still done so.
    have before : x.stream = some t → x.puller = some t ∨ ∃ (j : Nat) (c : Closer),
        r'.closers[j]? = some c ∧ c.entry = e ∧ c.phase.isPast = true := by
      intro streams
      obtain pulls | ⟨j, c, found, same, past⟩ := h.kept e x t was streams
      · exact .inl pulls
      · obtain ⟨c', found', goes⟩ := m.closer found
        exact .inr ⟨j, c', found', goes.entry.trans same, goes.past past⟩
    cases became with
    | relock | reclaim => exact before streams
    | begin t' live bare =>
        rw [bare] at streams
        cases streams
    | start t' lock live bare pulls =>
        obtain rfl := Option.some.inj streams
        exact .inl pulls
    | retire lock bare closes =>
        obtain ⟨j, found⟩ := closes
        exact .inr ⟨j, _, found, rfl, rfl⟩
  · rw [fresh] at streams
    cases streams

theorem Tended.move : r'.Tended :=
  ⟨h.still_assigned owned m, h.still_alone owned m, h.still_took owned m, h.still_kept owned m⟩

end

/-- A retired entry has a closer, and when that has closed the window, the window is closed. -/
structure Sealed (r : Registry) : Prop where
  closer : ∀ (e : Nat) (x : Entry), r.entries[e]? = some x → x.retired = true →
    ∃ (j : Nat) (c : Closer), r.closers[j]? = some c ∧ c.entry = e
  closed : ∀ (j t : Nat) (c : Closer) (x : Entry) (st : Stream), r.closers[j]? = some c →
    c.phase.hasClosed = true → r.entries[c.entry]? = some x → x.stream = some t →
    r.streams[t]? = some st → st.room.isClosed = true

theorem empty_sealed (capacity channelCapacity : Nat) :
    (Registry.empty capacity channelCapacity).Sealed := by
  constructor <;> simp [Registry.empty]

theorem Took.retired {x : Entry} {p : Closing} (took : r.Took x p) (closed : p.hasClosed = true) :
    x.retired = true := by
  cases p with
  | joining | done => exact took.1
  | arriving | queued | stopping => cases closed

/-- A closer that has closed the window of its entry has found the stream there. -/
theorem Took.stream {x : Entry} {p : Closing} {t : Nat} (took : r.Took x p)
    (closed : p.hasClosed = true) (started : x.started = some t) : x.stream = some t := by
  have none : x.puller = none := by
    cases p with
    | joining | done => exact took.2.1
    | arriving | queued | stopping => cases closed
  rw [Entry.started, none, Option.or_none] at started
  exact started

theorem Sealed.move (h : r.Sealed) (owned : r.Owned) (tended : r.Tended) (laid : r.Laid)
    (m : Move r a r') : r'.Sealed := by
  constructor
  · intro e x' here gone
    obtain ⟨x, was, goes⟩ | ⟨_, _, _, fresh⟩ := m.entry_back owned here
    · -- Who had the entry before has it still.
      have before : x.retired = true → ∃ (j : Nat) (c : Closer), r'.closers[j]? = some c ∧
          c.entry = e := by
        intro gone
        obtain ⟨j, c, found, same⟩ := h.closer e x was gone
        obtain ⟨c', found', went⟩ := m.closer found
        exact ⟨j, c', found', went.entry.trans same⟩
      cases goes with
      | relock | begin | start => exact before gone
      | retire lock bare closes =>
          obtain ⟨j, found⟩ := closes
          exact ⟨j, _, found, rfl⟩
      | reclaim live free unread closes => exact closes
    · rw [fresh] at gone
      cases gone
  · intro j t c' x' st' found closed here stream there
    obtain ⟨c, old, went⟩ | new := m.closer_back found
    · rw [went.entry] at here
      obtain before | shuts := went.hasClosed closed
      · -- The entry was retired already, so it has kept its stream.
        obtain ⟨inside, _⟩ := tended.assigned j c old
        have was := Array.getElem?_eq_getElem inside
        have gone := (tended.took j c _ old was).retired before
        obtain ⟨_, same, _⟩ := (m.entry_goes owned was here).retired gone
        have streamed := same.symm.trans stream
        have older := owned.started_lt was (Entry.started_of_stream streamed)
        exact laid.still_closed owned m older
          (fun st there => h.closed j t c _ st old before was streamed there) there
      · exact shuts x' t st' here stream there
    · obtain ⟨arriving, _⟩ := m.closer_new owned new found
      rw [arriving] at closed
      cases closed

end Roomcast.Registry

import Roomcast.Proofs.Endings
import Roomcast.Proofs.Locks

/-!
# Collecting

A collector decides by a list that is one period old. Meanwhile readers may have come and gone, and
entries may have been replaced. So it looks at each entry again before it reclaims it, and what it
sees then is enough: exactly those of its candidates go that are still registered, alive, unread and
free, and nobody is inside such an entry or will ever read its window again.
-/

namespace Roomcast.Registry

variable {r r' r'' : Registry} {a : Action}

/-- An entry that may be reclaimed: it is the registered one of its room, it is not retired, its
lock is free and it counts no readers. -/
structure Spare (r : Registry) (e : Nat) (x : Entry) : Prop where
  here : r.entries[e]? = some x
  current : r.entryOf? x.roomId = some e
  free : x.lock = []
  live : x.retired = false
  unread : r.readersOf e = 0

theorem reclaimable_iff_spare {e : Nat} : r.reclaimable e = true ↔ ∃ x, r.Spare e x := by
  cases here : r.entries[e]? with
  | none =>
      constructor
      · intro may
        simp [reclaimable, here] at may
      · rintro ⟨x, spare⟩
        cases here.symm.trans spare.here
  | some x =>
      rw [reclaimable_iff here]
      constructor
      · rintro ⟨current, free, live, unread⟩
        exact ⟨x, here, current, free, live, unread⟩
      · rintro ⟨y, spare⟩
        obtain rfl := Option.some.inj (here.symm.trans spare.here)
        exact ⟨spare.current, spare.free, spare.live, spare.unread⟩

/-- `r'` is `r` after some entries were reclaimed: these are retired and not registered any more,
and each has a new closer. Nothing else has changed. -/
structure Reclaimed (r : Registry) (gone : List Nat) (r' : Registry) : Prop where
  entries : ∀ e : Nat, r'.entries[e]? =
    (r.entries[e]?).map fun x => if e ∈ gone then { x with retired := true } else x
  registered : ∀ room e, r'.entryOf? room = some e ↔ r.entryOf? room = some e ∧ e ∉ gone
  closers : r'.closers = r.closers ++ (gone.map fun e => (⟨e, .arriving⟩ : Closer)).toArray
  reclaims : r'.reclaims = r.reclaims ++ (List.range gone.length).map (r.closers.size + ·)
  rest : r' = { r with
    entries := r'.entries, registered := r'.registered, closers := r'.closers
    reclaims := r'.reclaims }

theorem Reclaimed.refl (r : Registry) : r.Reclaimed [] r := by
  constructor <;> simp

theorem Reclaimed.trans {gone gone' : List Nat} (h : r.Reclaimed gone r')
    (h' : r'.Reclaimed gone' r'') : r.Reclaimed (gone ++ gone') r'' where
  entries e := by
    rw [h'.entries, h.entries]
    cases r.entries[e]? with
    | none => rfl
    | some x =>
        simp only [Option.map_some, List.mem_append]
        split_ifs <;> simp_all
  registered room e := by
    rw [h'.registered, h.registered, List.mem_append, not_or, and_assoc]
  closers := by
    rw [h'.closers, h.closers]
    simp
  reclaims := by
    rw [h'.reclaims, h.reclaims, h.closers, List.length_append, List.range_add]
    simp [Nat.add_assoc]
  rest := by
    rw [h'.rest, h.rest]

/-- Reclaiming one entry. -/
theorem Spare.reclaim {e : Nat} {x : Entry} (spare : r.Spare e x) (owned : r.Owned) :
    r.Reclaimed [e] (r.reclaim e) := by
  rw [reclaim_eq spare.here (reclaimable_iff_spare.2 ⟨x, spare⟩)]
  constructor
  · intro k
    rw [Array.getElem?_modify]
    by_cases same : e = k
    · simp [same]
    · simp [same, Ne.symm same]
  · intro room k
    show (r.unregister x.roomId).entryOf? room = some k ↔ _
    rw [entryOf?_unregister, List.mem_singleton]
    split_ifs with same
    · subst same
      rw [spare.current]
      simp [eq_comm]
    · refine ⟨fun current => ⟨current, ?_⟩, And.left⟩
      rintro rfl
      obtain ⟨y, here, named⟩ := owned.entry_of_current current
      obtain rfl := Option.some.inj (spare.here.symm.trans here)
      exact same named.symm
  · rfl
  · rfl
  · rfl

/-- Who is not reclaimed may be reclaimed as before. -/
theorem Reclaimed.reclaimable {gone : List Nat} (h : r.Reclaimed gone r') {k : Nat}
    (kept : k ∉ gone) : r'.reclaimable k = r.reclaimable k := by
  have here : r'.entries[k]? = r.entries[k]? := by
    rw [h.entries]
    simp [kept]
  have read : r'.readersOf k = r.readersOf k := by
    rw [readersOf, streamOf?, here, h.rest]
    rfl
  rw [Registry.reclaimable, here, read, Registry.reclaimable]
  simp only [h.registered, kept, not_false_iff, and_true]

/-- A collector reclaims those of its candidates that may be reclaimed, and no others. -/
theorem foldl_reclaim (owned : r.Owned) {candidates : List Nat} (single : candidates.Nodup) :
    r.Reclaimed (candidates.filter r.reclaimable) (candidates.foldl reclaim r) := by
  induction candidates generalizing r with
  | nil => exact .refl r
  | cons e rest ih =>
      obtain ⟨fresh, single⟩ := List.nodup_cons.1 single
      rw [List.foldl_cons]
      by_cases may : r.reclaimable e = true
      · obtain ⟨x, spare⟩ := reclaimable_iff_spare.1 may
        have first := spare.reclaim owned
        have same : rest.filter (r.reclaim e).reclaimable = rest.filter r.reclaimable := by
          refine List.filter_congr fun k among => first.reclaimable ?_
          rw [List.mem_singleton]
          rintro rfl
          exact fresh among
        rw [List.filter_cons_of_pos may, ← same]
        have still := owned.move (.reclaim (a := .elapsed 0) spare.here may rfl)
        exact first.trans (ih still single)
      · have same : r.reclaim e = r := by
          rw [Registry.reclaim]
          split
          · rfl
          · exact if_neg may
        rw [List.filter_cons_of_neg may, same]
        exact ih owned single

def Collecting.candidates? : Collecting → Option (List Nat)
  | .sleeping candidates | .reclaiming candidates => some candidates
  | _ => none

/-- A move that is none of a collector's leaves the collectors alone. -/
theorem Move.collectors (m : Move r a r') (other : a.isPatrol = false) :
    r'.collectors = r.collectors := by
  cases m with
  | patrol collectors patrols =>
      rw [other] at patrols
      cases patrols
  | reclaim here may => rw [reclaim_eq here may]
  | _ => rfl

theorem foldl_reclaim_collectors (r : Registry) (candidates : List Nat) :
    (candidates.foldl reclaim r).collectors = r.collectors := by
  induction candidates generalizing r with
  | nil => rfl
  | cons e rest ih =>
      refine (ih (r.reclaim e)).trans ?_
      rw [Registry.reclaim]
      split
      · rfl
      · split_ifs <;> rfl

/-- Whatever a collector reclaims, it changes neither the subscribers nor the streams. -/
theorem foldl_reclaim_rest (r : Registry) (candidates : List Nat) :
    (candidates.foldl reclaim r).subscribers = r.subscribers ∧
      (candidates.foldl reclaim r).streams = r.streams := by
  induction candidates generalizing r with
  | nil => exact ⟨rfl, rfl⟩
  | cons e rest ih =>
      have one : (r.reclaim e).subscribers = r.subscribers ∧ (r.reclaim e).streams = r.streams := by
        rw [Registry.reclaim]
        split
        · exact ⟨rfl, rfl⟩
        · split_ifs <;> exact ⟨rfl, rfl⟩
      exact ⟨(ih (r.reclaim e)).1.trans one.1, (ih (r.reclaim e)).2.trans one.2⟩

/-- A collector with these candidates has noted them before, or notes them now: they are the idle
entries. -/
def Notes (r : Registry) (c : Collector) (candidates : List Nat) : Prop :=
  c.phase.candidates? = some candidates ∨ (c.phase = .scanning ∧ candidates = r.idle)

/-- What a collector has after its step it had before, or has just noted. -/
theorem stepCollector?_notes {k : Nat} (went : r.stepCollector? k = some r') {i : Nat}
    {c' : Collector} {candidates : List Nat} (found : r'.collectors[i]? = some c')
    (has : c'.phase.candidates? = some candidates) :
    ∃ c, r.collectors[i]? = some c ∧ r.Notes c candidates := by
  rw [stepCollector?] at went
  cases found₀ : r.collectors[k]? with
  | none => simp [found₀] at went
  | some c₀ =>
      -- Collector `k` goes on to phase `q`, and the others stay.
      have turn : ∀ q : Collecting, r'.collectors = (r.setCollector k q).collectors →
          (∀ l, q.candidates? = some l → r.Notes c₀ l) →
          ∃ c, r.collectors[i]? = some c ∧ r.Notes c candidates := by
        intro q same notes
        rw [same] at found
        obtain ⟨_, old⟩ | ⟨rfl, c, old, rfl⟩ := getElem?_modify_some.1 found
        · exact ⟨c', old, .inl has⟩
        · obtain rfl := Option.some.inj (found₀.symm.trans old)
          exact ⟨_, old, notes candidates has⟩
      simp only [found₀] at went
      cases phase : c₀.phase with
      | checking =>
          simp only [phase, Option.some.injEq] at went
          subst went
          refine turn _ rfl fun l notes => ?_
          split_ifs at notes <;> cases notes
      | scanning =>
          simp only [phase, Option.some.injEq] at went
          subst went
          exact turn _ rfl fun l notes => .inr ⟨phase, (Option.some.inj notes).symm⟩
      | sleeping candidates =>
          simp only [phase] at went
          split_ifs at went with cancelled
          obtain rfl := Option.some.inj went
          exact turn _ rfl fun _ notes => by cases notes
      | reclaiming candidates =>
          simp only [phase, Option.some.injEq] at went
          subst went
          refine turn .checking ?_ fun _ notes => by cases notes
          rw [setCollector, foldl_reclaim_collectors]
          rfl
      | stopping shutdown =>
          simp only [phase] at went
          split_ifs at went with done
          obtain rfl := Option.some.inj went
          exact turn _ rfl fun _ notes => by cases notes
      | done result => simp [phase] at went

/-- What a collector has after an action it had before, or has just noted. -/
theorem perform?_notes (owned : r.Owned) (did : r.perform? a = some r') {i : Nat} {c' : Collector}
    {candidates : List Nat} (found : r'.collectors[i]? = some c')
    (has : c'.phase.candidates? = some candidates) :
    ∃ c, r.collectors[i]? = some c ∧ r.Notes c candidates := by
  cases patrols : a.isPatrol with
  | false =>
      have other : ∀ k, a ≠ .step (.collector k) := by
        rintro k rfl
        cases patrols
      rw [(perform?_move owned.fresh other did).collectors patrols] at found
      exact ⟨c', found, .inl has⟩
  | true =>
      cases a with
      | step p =>
          cases p with
          | collector k => exact stepCollector?_notes did found has
          | _ => cases patrols
      | collect period cancelled =>
          obtain rfl := Option.some.inj did
          obtain old | ⟨_, rfl⟩ := getElem?_push_some.1 found
          · exact ⟨c', old, .inl has⟩
          · cases has
      | cancelCollector k =>
          obtain rfl := Option.some.inj did
          obtain ⟨_, old⟩ | ⟨rfl, c, old, rfl⟩ := getElem?_modify_some.1 found
          · exact ⟨c', old, .inl has⟩
          · exact ⟨c, old, .inl has⟩
      | elapsed k =>
          simp only [perform?, elapsed?] at did
          split at did
          · next period cancelled noted found₀ =>
            obtain rfl := Option.some.inj did
            obtain ⟨_, old⟩ | ⟨rfl, c, old, rfl⟩ := getElem?_modify_some.1 found
            · exact ⟨c', old, .inl has⟩
            · obtain rfl := Option.some.inj (found₀.symm.trans old)
              exact ⟨_, old, .inl has⟩
          · cases did
      | _ => cases patrols

/-- A collector has noted these candidates in a run: they were the idle entries of a state in which
it scanned them. -/
def Noted (r₀ : Registry) (acts : List Action) (i : Nat) (candidates : List Nat) : Prop :=
  ∃ r c, r₀.Passes acts r ∧ r.collectors[i]? = some c ∧ c.phase = .scanning ∧ candidates = r.idle

theorem run?_noted {capacity channelCapacity : Nat} {acts : List Action}
    (ran : (Registry.empty capacity channelCapacity).run? acts = some r) :
    ∀ (i : Nat) (c : Collector) (candidates : List Nat), r.collectors[i]? = some c →
      c.phase.candidates? = some candidates →
      (Registry.empty capacity channelCapacity).Noted acts i candidates := by
  refine run?_induction (P := fun acts r => ∀ (i : Nat) (c : Collector) (candidates : List Nat),
    r.collectors[i]? = some c → c.phase.candidates? = some candidates →
      (Registry.empty capacity channelCapacity).Noted acts i candidates) ?_ ?_ ran
  · intro i c candidates found
    simp [Registry.empty] at found
  · intro acts a r r' before ih did i c' candidates found has
    obtain ⟨c, old, has₀ | ⟨scans, idle⟩⟩ := perform?_notes (run?_owned before) did found has
    · obtain ⟨r₁, c₁, ⟨earlier, inside, reached⟩, scanned⟩ := ih i c candidates old has₀
      exact ⟨r₁, c₁, ⟨earlier, inside.trans (List.prefix_append _ _), reached⟩, scanned⟩
    · exact ⟨r, c, ⟨acts, List.prefix_append _ _, before⟩, old, scans, idle⟩

/-- A collector notes no entry twice. -/
theorem Noted.nodup {capacity channelCapacity : Nat} {acts : List Action} {i : Nat}
    {candidates : List Nat}
    (noted : (Registry.empty capacity channelCapacity).Noted acts i candidates) :
    candidates.Nodup := by
  obtain ⟨r, c, ⟨before, _, reached⟩, _, _, rfl⟩ := noted
  exact (run?_owned reached).entries_nodup.filter _

/-- Entry `e` is out of use: it is retired and in no registry, nobody has an open reader of its
stream, and whoever is inside waits only to be turned away. -/
structure Abandoned (r : Registry) (e : Nat) (stream : Option Nat) : Prop where
  retired : ∃ x, r.entries[e]? = some x ∧ x.retired = true ∧ x.stream = stream
  apart : ∀ room, r.entryOf? room ≠ some e
  unread : ∀ (t : Nat) (st : Stream) (c : Nat), stream = some t → r.streams[t]? = some st →
    st.room.hasLeft c = true
  waiting : ∀ (i : Nat) (s : Subscriber), r.subscribers[i]? = some s → s.phase.lock? = some e →
    s.phase = .queued e

theorem Owned.waiting (h : r.Owned) {e : Nat} {x : Entry} (here : r.entries[e]? = some x)
    (gone : x.retired = true) {i : Nat} {s : Subscriber} (found : r.subscribers[i]? = some s)
    (inside : s.phase.lock? = some e) : s.phase = .queued e := by
  -- Whoever opens a feed for an entry knows that it is not retired.
  have works : ∀ p, s.phase.works? ≠ some (e, p) := by
    intro p works
    obtain ⟨y, here', _, live, _⟩ := (h.placed i s found).working e p works
    obtain rfl := Option.some.inj (here.symm.trans here')
    rw [gone] at live
    cases live
  cases phase : s.phase with
  | queued k =>
      rw [phase] at inside
      rw [Option.some.inj inside]
  | watching k =>
      rw [phase] at inside
      refine absurd ?_ (works none)
      rw [phase, ← Option.some.inj inside]
      rfl
  | starting k t =>
      rw [phase] at inside
      refine absurd ?_ (works (some t))
      rw [phase, ← Option.some.inj inside]
      rfl
  | checking | looking | creating | arriving | removing | done | aborted =>
      rw [phase] at inside
      cases inside

theorem Abandoned.move {e : Nat} {stream : Option Nat} (h : r.Abandoned e stream)
    (owned : r.Owned) (laid : r.Laid) (m : Move r a r') : r'.Abandoned e stream := by
  obtain ⟨x, here, gone, rfl⟩ := h.retired
  obtain ⟨x', here', goes⟩ := m.entry owned here
  obtain ⟨gone', same, _⟩ := goes.retired gone
  have owned' := owned.move m
  refine ⟨⟨x', here', gone', same⟩, ?_, ?_, ?_⟩
  · intro room current
    exact h.apart room (m.current (lt_size_of_getElem? here) current)
  · intro t st' c stream there
    have started : x'.started = some t := Entry.started_of_stream (same.trans stream)
    obtain ⟨st, old, went⟩ | ⟨_, room, feed, rfl⟩ := m.stream_back owned there
    · obtain ⟨v, valid, laid⟩ := laid t st old
      exact went.hasLeft valid laid (owned'.unoffered here' (.inl gone') started)
        (h.unread t st c stream old)
    · rfl
  · intro i s found inside
    exact owned'.waiting here' gone' found inside

/-- Nobody is inside an entry that may be reclaimed. -/
theorem Spare.nobody {e : Nat} {x : Entry} (spare : r.Spare e x) (locked : r.Locked) {i : Nat}
    {s : Subscriber} (found : r.subscribers[i]? = some s) : s.phase.lock? ≠ some e := by
  intro inside
  refine locked.free spare.here spare.free (.subscriber i) ?_
  rw [lockOf?_subscriber found]
  exact inside

/-- An entry that has been reclaimed is out of use. -/
theorem Reclaimed.abandoned {gone : List Nat} (h : r.Reclaimed gone r') {e : Nat} {x : Entry}
    (spare : r.Spare e x) (among : e ∈ gone) (locked : r.Locked) (laid : r.Laid) :
    r'.Abandoned e x.stream where
  retired := by
    refine ⟨{ x with retired := true }, ?_, rfl, rfl⟩
    rw [h.entries, spare.here]
    simp [among]
  apart room current := ((h.registered room e).1 current).2 among
  unread t st c stream there := by
    rw [h.rest] at there
    exact laid.hasLeft spare.here stream there spare.unread c
  waiting i s found inside := by
    rw [h.rest] at found
    exact absurd inside (spare.nobody locked found)

/-- What is out of use stays so. -/
theorem Abandoned.run {e : Nat} {stream : Option Nat} (h : r.Abandoned e stream) (books : r.Books)
    {more : List Action} (ran : r.run? more = some r') : r'.Abandoned e stream :=
  (books.run (P := fun r => r.Abandoned e stream)
    (fun books h m => h.move books.owned books.laid m) h ran).2

/-- What collectors do in the state `r` to which a run leads, and what they never do. -/
structure SafelyCollected (r₀ : Registry) (acts : List Action) (r : Registry) : Prop where
  /-- A collector at the end of its period can go on. Its candidates are what was idle when it
  scanned, whatever has happened since. Those of them that may be reclaimed at this moment are
  reclaimed, and nothing else changes. -/
  exact : ∀ (i : Nat) (c : Collector) (candidates : List Nat), r.collectors[i]? = some c →
    c.phase = .reclaiming candidates → r₀.Noted acts i candidates ∧
      ∃ (gone : List Nat) (r' : Registry), r.Reclaimed gone r' ∧
        r.perform? (.step (.collector i)) = some (r'.setCollector i .checking) ∧
        ∀ e, e ∈ gone ↔ e ∈ candidates ∧ ∃ x, r.Spare e x
  /-- Nobody is inside an entry that may be reclaimed, and nobody has an open reader of it. -/
  unused : ∀ (e : Nat) (x : Entry), r.Spare e x →
    (∀ (i : Nat) (s : Subscriber), r.subscribers[i]? = some s → s.phase.lock? ≠ some e) ∧
      ∀ (t : Nat) (st : Stream) (c : Nat), x.stream = some t → r.streams[t]? = some st →
        st.room.hasLeft c = true
  /-- An entry that was reclaimed is out of use for ever, so also when its window is closed. -/
  abandoned : ∀ (i e : Nat) (c : Collector) (candidates : List Nat) (x : Entry) (more : List Action)
    (r' : Registry), r.collectors[i]? = some c → c.phase = .reclaiming candidates →
      e ∈ candidates → r.Spare e x → r.run? (.step (.collector i) :: more) = some r' →
      r'.Abandoned e x.stream
  /-- Until a shutdown begins, a reader that learns that its window is closed was closed before, or
  has fallen behind, or its feed has failed or ended. -/
  told : r.down = false → ∀ h, r.TellsClosed h → r.hasLeft h = true ∨ r.isBehind h = true ∨
    h.stream ∈ r₀.failures acts

/-- In every run, collectors reclaim exactly what may be reclaimed, and nobody loses a reader by
it. -/
theorem run?_safelyCollected {capacity channelCapacity : Nat} {acts : List Action}
    (ran : (Registry.empty capacity channelCapacity).run? acts = some r) :
    (Registry.empty capacity channelCapacity).SafelyCollected acts r := by
  have books := run?_books ran
  have locked := run?_locked ran
  -- The step of a collector whose period has passed.
  have step : ∀ {i : Nat} {c : Collector} {candidates : List Nat}, r.collectors[i]? = some c →
      c.phase = .reclaiming candidates → r.perform? (.step (.collector i)) =
        some ((candidates.foldl reclaim r).setCollector i .checking) := by
    intro i c candidates found phase
    simp only [perform?, step?, stepCollector?, found, phase]
  have noted : ∀ {i : Nat} {c : Collector} {candidates : List Nat}, r.collectors[i]? = some c →
      c.phase = .reclaiming candidates →
        (Registry.empty capacity channelCapacity).Noted acts i candidates := by
    intro i c candidates found phase
    exact run?_noted ran i c candidates found (by rw [phase]; rfl)
  have mem : ∀ {candidates : List Nat} {e : Nat}, e ∈ candidates.filter r.reclaimable ↔
      e ∈ candidates ∧ ∃ x, r.Spare e x := by
    intro candidates e
    rw [List.mem_filter, reclaimable_iff_spare]
  constructor
  · intro i c candidates found phase
    have single := (noted found phase).nodup
    exact ⟨noted found phase, _, _, foldl_reclaim books.owned single, step found phase,
      fun e => mem⟩
  · intro e x spare
    refine ⟨fun i s found => spare.nobody locked found, ?_⟩
    intro t st c stream there
    exact books.laid.hasLeft spare.here stream there spare.unread c
  · intro i e c candidates x more r' found phase among spare later
    obtain ⟨r₁, did, rest⟩ := Option.bind_eq_some_iff.1 later
    obtain rfl := Option.some.inj ((step found phase).symm.trans did)
    have after := (foldl_reclaim books.owned (noted found phase).nodup).abandoned spare
      (mem.2 ⟨among, x, spare⟩) locked books.laid
    have after' : ((candidates.foldl reclaim r).setCollector i .checking).Abandoned e x.stream :=
      ⟨after.retired, after.apart, after.unread, after.waiting⟩
    exact after'.run (run?_books (run?_snoc.2 ⟨r, ran, step found phase⟩)) rest
  · intro up h tells
    exact run?_tells ran up tells

/-- The readers of two rooms leave. A collector notes both entries, and before its period has passed
one of the rooms has a reader again. -/
def regained : List Action :=
  [.subscribe (.ofNat 7), .step (.subscriber 0), .step (.subscriber 0), .step (.subscriber 0),
    .step (.subscriber 0), .step (.subscriber 0), .watched 0 none, .step (.subscriber 0),
    .subscribe (.ofNat 8), .step (.subscriber 1), .step (.subscriber 1), .step (.subscriber 1),
    .step (.subscriber 1), .step (.subscriber 1), .watched 1 none, .step (.subscriber 1),
    .leave ⟨0, 0⟩, .leave ⟨1, 0⟩, .collect 1000 false, .step (.collector 0), .step (.collector 0),
    .subscribe (.ofNat 8), .step (.subscriber 2), .step (.subscriber 2), .step (.subscriber 2),
    .step (.subscriber 2), .elapsed 0]

/-- The collector reclaims the entry that has no reader and spares the other. -/
theorem run?_safelyCollected_regained : ∃ r c gone r',
    (Registry.empty 2 1).run? regained = some r ∧ r.collectors[0]? = some c ∧
      c.phase = .reclaiming [1, 0] ∧ r.Reclaimed gone r' ∧
      r.perform? (.step (.collector 0)) = some (r'.setCollector 0 .checking) ∧
      0 ∈ gone ∧ 1 ∉ gone := by
  have possible : ((Registry.empty 2 1).run? regained).isSome = true := by decide +kernel
  obtain ⟨r, ran⟩ := Option.isSome_iff_exists.1 possible
  have facts : ((Registry.empty 2 1).run? regained).map (fun r =>
      ((r.collectors[0]?).bind fun c => match c.phase with
        | .reclaiming candidates => some candidates
        | _ => none, r.reclaimable 0, r.reclaimable 1)) =
      some (some [1, 0], true, false) := by decide +kernel
  rw [ran] at facts
  obtain ⟨noted, may, spared⟩ := by simpa only [Option.map_some, Option.some.injEq, Prod.mk.injEq]
    using facts
  obtain ⟨c, found, noted⟩ := Option.bind_eq_some_iff.1 noted
  have phase : c.phase = .reclaiming [1, 0] := by
    split at noted
    · next candidates phase => rw [phase, Option.some.inj noted]
    · cases noted
  have collected := run?_safelyCollected ran
  obtain ⟨_, gone, r', reclaimed, step, goes⟩ := collected.exact 0 c [1, 0] found phase
  refine ⟨r, c, gone, r', ran, found, phase, reclaimed, step, ?_, ?_⟩
  · exact (goes 0).2 ⟨by simp, reclaimable_iff_spare.1 may⟩
  · intro among
    rw [reclaimable_iff_spare.2 ((goes 1).1 among).2] at spared
    cases spared

end Roomcast.Registry

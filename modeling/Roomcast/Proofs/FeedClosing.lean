import Roomcast.Proofs.Quiet

/-!
# Closing feeds

A puller closes its feed once, in the step that closes the window, and reads nothing after that. A
window may be closed by others before, but then its puller can go on until it has closed the feed as
well. So in a quiet state the feeds that have been closed are those of closed windows, and what is
left open is one feed for each room whose entry has an open window.
-/

namespace Roomcast.Registry

variable {r r' : Registry} {a : Action}

def Puller.hasClosed : Puller → Bool
  | .closing | .ended => true
  | _ => false

/-- The stream whose feed is told to close in an action. -/
def closes? (r : Registry) : Action → Option Nat
  | .step (.puller t) => (r.streams[t]?).bind fun st =>
    match st.puller with
    | .stopping => some t
    | _ => none
  | _ => none

def closings (r : Registry) (acts : List Action) : List Nat := seen closes? r acts

def IsClosing (r : Registry) (t : Nat) : Prop :=
  ∃ st, r.streams[t]? = some st ∧ st.puller.hasClosed = true

theorem Stream.Goes.hasClosed {store : Store} {offers : Prop} {st st' : Stream}
    (goes : st.Goes store offers st') (closed : st.puller.hasClosed = true) :
    st'.puller.hasClosed = true := by
  cases goes with
  | stay | join | perform | fault => exact closed
  | close => rfl
  | pull went => cases went <;> simp_all [Puller.hasClosed]

theorem IsClosing.move {t : Nat} (h : r.IsClosing t) (owned : r.Owned) (m : Move r a r') :
    r'.IsClosing t := by
  obtain ⟨st, there, closed⟩ := h
  obtain ⟨st', there', goes⟩ := m.stream owned there
  exact ⟨st', there', goes.hasClosed closed⟩

/-- A feed is told to close only if it has not been told before. -/
theorem closes?_fresh {t : Nat} (closes : r.closes? a = some t) (did : r.perform? a = some r') :
    ¬ r.IsClosing t ∧ r'.IsClosing t := by
  unfold closes? at closes
  split at closes
  case h_2 => cases closes
  case h_1 k =>
    obtain ⟨st, there, closes⟩ := Option.bind_eq_some_iff.1 closes
    split at closes
    case h_2 => cases closes
    case h_1 stopping =>
      obtain rfl := Option.some.inj closes
      constructor
      · rintro ⟨st₁, there₁, closed⟩
        obtain rfl : st = st₁ := Option.some.inj (there.symm.trans there₁)
        rw [stopping] at closed
        cases closed
      · simp only [perform?, step?, stepPuller?, there, Option.bind_some, Stream.step?, stopping,
          Option.map_some, Option.some.injEq] at did
        subst did
        exact ⟨_, getElem?_modify_some.2 (.inr ⟨rfl, st, there, rfl⟩), rfl⟩

/-- What a move can make of the puller of a stream. -/
theorem Move.puller (m : Move r a r') {k : Nat} {st' : Stream} (there : r'.streams[k]? = some st') :
    (∃ st, r.streams[k]? = some st ∧
      (st'.puller = st.puller ∨ (st.puller = .closing ∧ st'.puller = .ended) ∨
        (a = .step (.puller k) ∧ st.Pull r.store st'))) ∨ st'.puller = .pulling := by
  -- What is done in a window leaves the puller alone.
  have still : ∀ {t : Nat} {op : Room.Op Event},
      (r.streams.modify t (·.perform op))[k]? = some st' →
      ∃ st, r.streams[k]? = some st ∧ st'.puller = st.puller := by
    intro t op there
    obtain ⟨_, old⟩ | ⟨rfl, st, old, rfl⟩ := getElem?_modify_some.1 there
    · exact ⟨st', old, rfl⟩
    · exact ⟨st, old, rfl⟩
  cases m with
  | join | start | closeWindow | use =>
      obtain ⟨st, old, same⟩ := still there
      exact .inl ⟨st, old, .inl same⟩
  | watched =>
      obtain old | ⟨_, rfl⟩ := getElem?_push_some.1 there
      · exact .inl ⟨st', old, .inl rfl⟩
      · exact .inr rfl
  | fault room f =>
      rw [injectFault, Array.getElem?_map] at there
      obtain ⟨st, old, rfl⟩ := Option.map_eq_some_iff.1 there
      refine .inl ⟨st, old, .inl ?_⟩
      split_ifs <;> rfl
  | pull there₁ went =>
      obtain ⟨_, old⟩ | ⟨rfl, st, old, rfl⟩ := getElem?_modify_some.1 there
      · exact .inl ⟨st', old, .inl rfl⟩
      · exact .inl ⟨_, there₁, .inr (.inr ⟨rfl, went⟩)⟩
  | close there₁ closing =>
      obtain ⟨_, old⟩ | ⟨rfl, st, old, rfl⟩ := getElem?_modify_some.1 there
      · exact .inl ⟨st', old, .inl rfl⟩
      · exact .inl ⟨_, there₁, .inr (.inl ⟨closing, rfl⟩)⟩
  | reclaim here may =>
      rw [reclaim_eq here may] at there
      exact .inl ⟨st', there, .inl rfl⟩
  | _ => exact .inl ⟨st', there, .inl rfl⟩

/-- Whoever has told its feed to close did so before, or does so now. -/
theorem Move.closing (m : Move r a r') {k : Nat} (closing : r'.IsClosing k) :
    r.IsClosing k ∨ r.closes? a = some k := by
  obtain ⟨st', there, closed⟩ := closing
  obtain ⟨st, old, same | ⟨was, _⟩ | ⟨rfl, went⟩⟩ | pulling := m.puller there
  · rw [same] at closed
    exact .inl ⟨st, old, closed⟩
  · exact .inl ⟨st, old, by rw [was]; rfl⟩
  · cases went with
    | stop stopping =>
        refine .inr ?_
        rw [closes?, old]
        simp [stopping]
    | cut | crash | fail | item | finish | push | refuse => cases closed
  · rw [pulling] at closed
    cases closed

/-- The feeds that were told to close are those whose pullers have got so far, and each was told
once. -/
theorem run?_closings {capacity channelCapacity : Nat} {acts : List Action}
    (ran : (Registry.empty capacity channelCapacity).run? acts = some r) :
    ((Registry.empty capacity channelCapacity).closings acts).Nodup ∧
      ∀ t, t ∈ (Registry.empty capacity channelCapacity).closings acts ↔ r.IsClosing t := by
  have once : Once r.IsClosing ((Registry.empty capacity channelCapacity).closings acts) :=
    run?_once (P := IsClosing) (fun owned closing m => closing.move owned m)
      (fun _ closes did => closes?_fresh closes did) ran
  have complete : ∀ t, r.IsClosing t →
      t ∈ (Registry.empty capacity channelCapacity).closings acts := by
    refine run?_account (P := fun r l => ∀ t, r.IsClosing t → t ∈ l) (fun r i => rfl) ?_ ?_ ran
    · intro r r' a l _ before m t closing
      obtain old | new := m.closing closing
      · exact List.mem_append_left _ (before t old)
      · exact List.mem_append_right _ (by simp [new])
    · rintro t ⟨st, there, _⟩
      simp [Registry.empty] at there
  exact ⟨once.nodup, fun t => ⟨once.all t, complete t⟩⟩

/-- A feed that was told to close does not fill a window that is open, and is not read any more. -/
theorem Describes.closing {l : Ledger} (describes : Describes r l) {t : Nat} {st : Stream}
    (there : r.streams[t]? = some st) (closed : st.puller.hasClosed = true) :
    st.room.isClosed = true ∧ st.isLive = false := by
  have fed := describes.fed t st there
  constructor
  · rw [fed.laid]
    refine fed.ended ?_
    cases phase : st.puller <;> simp_all [Puller.hasClosed]
  · rw [Stream.isLive]
    cases phase : st.puller <;> simp_all [Puller.hasClosed]

/-- A puller that cannot go on has told its feed to close if the window is closed, unless the feed
has taken it down. -/
theorem Quiet.closing (quiet : r.Quiet) {t : Nat} {st : Stream} (there : r.streams[t]? = some st)
    (closed : st.room.isClosed = true) (whole : st.puller ≠ .crashed) : r.IsClosing t := by
  have stuck : r.stepPuller? t = none := quiet.still (.puller t)
  simp only [stepPuller?, there, Option.bind_some, Option.map_eq_none_iff] at stuck
  refine ⟨st, there, ?_⟩
  cases phase : st.puller with
  | closing | ended => rfl
  | crashed => exact absurd phase whole
  | pulling => simp [Stream.step?, phase, Stream.pull?, closed] at stuck
  | holding | stopping => simp [Stream.step?, phase] at stuck

/-- In a quiet state the feeds that were told to close are those of closed windows. -/
theorem Quiet.closing_iff {l : Ledger} (quiet : r.Quiet) (describes : Describes r l) {t : Nat}
    {st : Stream} (there : r.streams[t]? = some st) :
    r.IsClosing t ↔ st.room.isClosed = true := by
  constructor
  · rintro ⟨st₁, there₁, closed⟩
    obtain rfl : st = st₁ := Option.some.inj (there.symm.trans there₁)
    exact (describes.closing there closed).1
  · intro closed
    exact quiet.closing there closed (describes.fed t st there).whole.2

/-- In a quiet state before a shutdown, a stream whose window is open is that of the registered
entry of its room. -/
theorem Quiet.registered (quiet : r.Quiet) (locked : r.Locked) (kept : r.Kept)
    (up : r.down = false) {t : Nat} {st : Stream} (there : r.streams[t]? = some st)
    (running : st.room.isClosed = false) :
    ∃ e x, r.entryOf? st.roomId = some e ∧ r.entries[e]? = some x ∧ x.stream = some t := by
  obtain ⟨e, x, here, started⟩ := kept.owned.owner_of there
  have stream := quiet.started locked kept.owned here started
  -- A retired entry has a closer, and that has closed the window.
  have live : x.retired = false := by
    by_contra gone
    rw [Bool.not_eq_false] at gone
    obtain ⟨j, c, found, rfl⟩ := kept.sealed.closer e x here gone
    have closed := kept.sealed.closed j t c x st found (quiet.hasClosed locked found) here stream
      there
    rw [closed] at running
    cases running
  exact ⟨e, x, kept.current_of_open up here live stream there running, here, stream⟩

/-- In a quiet state before a shutdown, a room has at most one stream whose window is open. -/
theorem Quiet.alone (quiet : r.Quiet) (locked : r.Locked) (kept : r.Kept) (up : r.down = false)
    {t t' : Nat} {st st' : Stream} (there : r.streams[t]? = some st)
    (there' : r.streams[t']? = some st') (same : st.roomId = st'.roomId)
    (running : st.room.isClosed = false) (running' : st'.room.isClosed = false) : t = t' := by
  obtain ⟨e, x, current, here, stream⟩ := quiet.registered locked kept up there running
  obtain ⟨e', x', current', here', stream'⟩ := quiet.registered locked kept up there' running'
  rw [same, current'] at current
  obtain rfl := Option.some.inj current
  obtain rfl : x = x' := Option.some.inj (here.symm.trans here')
  exact Option.some.inj (stream.symm.trans stream')

/-- How feeds are closed in a run that leads to the state `r`. -/
structure FeedsClosed (r₀ : Registry) (acts : List Action) (r : Registry) : Prop where
  /-- No feed is told to close twice. -/
  once : (r₀.closings acts).Nodup
  /-- Once a feed was told to close its window is closed, and the feed is not read any more. -/
  after : ∀ t ∈ r₀.closings acts, ∃ st, r.streams[t]? = some st ∧ st.room.isClosed = true ∧
    st.isLive = false
  /-- In a quiet state the feeds that were told to close are those of closed windows. -/
  closed : r.Quiet → ∀ (t : Nat) (st : Stream), r.streams[t]? = some st →
    (t ∈ r₀.closings acts ↔ st.room.isClosed = true)
  /-- In a quiet state before a shutdown, a room has at most one feed that was not told to close. -/
  alone : r.Quiet → r.down = false → ∀ (t t' : Nat) (st st' : Stream), r.streams[t]? = some st →
    r.streams[t']? = some st' → st.roomId = st'.roomId → t ∉ r₀.closings acts →
    t' ∉ r₀.closings acts → t = t'
  /-- In a quiet state before a shutdown, a room has such a feed if and only if its registered entry
  has an open window. -/
  present : r.Quiet → r.down = false → ∀ room,
    (∃ (t : Nat) (st : Stream), r.streams[t]? = some st ∧ st.roomId = room ∧
      t ∉ r₀.closings acts) ↔
    ∃ (e t : Nat) (x : Entry) (st : Stream), r.entryOf? room = some e ∧ r.entries[e]? = some x ∧
      x.stream = some t ∧ r.streams[t]? = some st ∧ st.room.isClosed = false

/-- In every run feeds are closed once, after their windows, and none is forgotten, as long as no
feed takes its puller down and the store refuses no feed as closed. -/
theorem run?_feedsClosed {capacity channelCapacity : Nat} {acts : List Action}
    (ran : (Registry.empty capacity channelCapacity).run? acts = some r)
    (granted : ∀ i, Action.watched i (some .closed) ∉ acts)
    (calm : ∀ room, Action.fault room .crash ∉ acts) :
    (Registry.empty capacity channelCapacity).FeedsClosed acts r := by
  have kept := run?_kept ran granted
  have locked := run?_locked ran
  obtain ⟨once, told⟩ := run?_closings ran
  obtain ⟨l, history⟩ := run?_history ran calm
  have closed : r.Quiet → ∀ (t : Nat) (st : Stream), r.streams[t]? = some st →
      (t ∈ (Registry.empty capacity channelCapacity).closings acts ↔
        st.room.isClosed = true) := by
    intro quiet t st there
    rw [told]
    exact quiet.closing_iff history.describes there
  have running : r.Quiet → ∀ {t : Nat} {st : Stream}, r.streams[t]? = some st →
      t ∉ (Registry.empty capacity channelCapacity).closings acts → st.room.isClosed = false := by
    intro quiet t st there left
    rwa [closed quiet t st there, Bool.not_eq_true] at left
  constructor
  · exact once
  · intro t among
    obtain ⟨st, there, closed⟩ := (told t).1 among
    exact ⟨st, there, history.describes.closing there closed⟩
  · exact closed
  · intro quiet up t t' st st' there there' same left left'
    exact quiet.alone locked kept up there there' same (running quiet there left)
      (running quiet there' left')
  · intro quiet up room
    constructor
    · rintro ⟨t, st, there, rfl, left⟩
      have opened := running quiet there left
      obtain ⟨e, x, current, here, stream⟩ := quiet.registered locked kept up there opened
      exact ⟨e, t, x, st, current, here, stream, there, opened⟩
    · rintro ⟨e, t, x, st, current, here, stream, there, opened⟩
      refine ⟨t, st, there, kept.owned.roomId_of_current current here stream there, ?_⟩
      rw [closed quiet t st there, opened]
      exact Bool.false_ne_true

/-- The feed of a room has ended and has closed, and another one was opened for the room. -/
def reopened : List Action := replacement ++ [.feedClosed 0]

/-- The state is quiet. The old feed was told to close, once, and the new one is the only other. -/
theorem run?_feedsClosed_reopened : ∃ r, (Registry.empty 2 1).run? reopened = some r ∧ r.Quiet ∧
    r.down = false ∧ (Registry.empty 2 1).closings reopened = [0] ∧
    ∀ (t : Nat) (st : Stream), r.streams[t]? = some st →
      (t ∈ (Registry.empty 2 1).closings reopened ↔ st.room.isClosed = true) := by
  have possible : ((Registry.empty 2 1).run? reopened).isSome = true := by decide +kernel
  obtain ⟨r, ran⟩ := Option.isSome_iff_exists.1 possible
  have granted : ∀ i, Action.watched i (some .closed) ∉ reopened := by simp [reopened, replacement]
  have calm : ∀ room, Action.fault room .crash ∉ reopened := by simp [reopened, replacement]
  have facts : ((Registry.empty 2 1).run? reopened).map (fun r => (r.down, r.isQuiet)) =
      some (false, true) := by decide +kernel
  have told : (Registry.empty 2 1).closings reopened = [0] := by decide +kernel
  rw [ran] at facts
  obtain ⟨up, quiet⟩ : r.down = false ∧ r.isQuiet = true := by simpa using facts
  have closes := run?_feedsClosed ran granted calm
  exact ⟨r, ran, isQuiet_iff.1 quiet, up, told, closes.closed (isQuiet_iff.1 quiet)⟩

end Roomcast.Registry

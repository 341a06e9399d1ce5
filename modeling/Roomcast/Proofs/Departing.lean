import Roomcast.Proofs.Finality
import Roomcast.Proofs.Ledger
import Roomcast.Proofs.Quiet
import Roomcast.Proofs.Refusals

/-!
# What requests leave behind

A request that does not pass the checks is answered at once and changes nothing. One that is
refused later opens no reader, and leaves no room in the registry that it has put there. What it may
do is take a dead entry of its room out before it meets the flag of a shutdown. One that is answered
with a websocket has opened one reader by then, and its session has closed the reader when it ends,
however it comes to that. So a room that all sessions have left has no open reader.
-/

namespace Roomcast.Registry

/-- The entry of a room has no open reader if no window of the room has one. -/
theorem Owned.readersOf_eq_zero {r : Registry} (owned : r.Owned) {room : Uuid} {e : Nat}
    (current : r.entryOf? room = some e)
    (unread : ∀ (t : Nat) (st : Stream), r.streams[t]? = some st → st.roomId = room →
      st.room.readers = 0) : r.readersOf e = 0 := by
  obtain ⟨y, here, _⟩ := owned.entry_of_current current
  rw [readersOf, streamOf?, here, Option.bind_some]
  cases stream : y.stream with
  | none => rfl
  | some t =>
      cases there : r.streams[t]? with
      | none => simp [there]
      | some st =>
          have named := owned.roomId_of_current current here stream there
          simpa [there] using unread t st there named

end Roomcast.Registry

namespace Roomcast.Http

open Peer Service
open Registry (Receipt)

/-- Whether a happening is one of the subscriber of a visit, or of the visit itself. -/
def Happening.isOf (v : Nat) : Happening → Bool
  | .registry a => a.isOf v
  | .visit w => w = v
  | _ => false

namespace Site

variable {capacity channelCapacity : Nat} {x₀ x y u u' : Site} {hs : List Happening} {e : Happening}

/-- A run has a happening that leads from one site to another. -/
def Passes (x : Site) (hs : List Happening) (u : Site) (e : Happening) (u' : Site) : Prop :=
  ∃ before after, hs = before ++ e :: after ∧ x.run? before = some u ∧ u.next? e = some u'

theorem run?_cons {x y : Site} (happened : x.next? e = some y) :
    x.run? (e :: hs) = y.run? hs := by
  rw [run?, List.foldlM_cons, happened]
  rfl

theorem Passes.happened (passes : x₀.Passes hs u e u') : u.next? e = some u' := by
  obtain ⟨_, _, _, _, happened⟩ := passes
  exact happened

theorem Passes.rest (passes : x₀.Passes hs u e u') (ran : x₀.run? hs = some x) :
    ∃ after, u'.run? after = some x := by
  obtain ⟨before, after, rfl, reached, happened⟩ := passes
  rw [run?, List.foldlM_append] at ran
  obtain ⟨w, there, rest⟩ := Option.bind_eq_some_iff.1 ran
  obtain rfl : u = w := Option.some.inj (reached.symm.trans there)
  exact ⟨after, (run?_cons happened).symm.trans rest⟩

/-- What a happening of a run leads to. -/
theorem Passes.kept (passes : x₀.Passes hs u e u') (h : x₀.Kept capacity channelCapacity) :
    u.Kept capacity channelCapacity ∧ u'.Kept capacity channelCapacity := by
  obtain ⟨_, _, _, reached, happened⟩ := passes
  have kept := (h.run reached).1
  obtain ⟨_, leads⟩ := kept.next? happened
  exact ⟨kept, kept.leads leads⟩

theorem Passes.receipt_mem (passes : x₀.Passes hs u e u') {note : Receipt}
    (noted : receipt? u u' e = some note) : note ∈ x₀.ledger hs := by
  obtain ⟨before, after, rfl, reached, happened⟩ := passes
  induction before generalizing x₀ with
  | nil =>
      obtain rfl := Option.some.inj reached
      rw [List.nil_append, ledger, happened]
      exact List.mem_append_left _ (Option.mem_toList.2 noted)
  | cons d before ih =>
      rw [run?, List.foldlM_cons] at reached
      obtain ⟨x₁, first, rest⟩ := Option.bind_eq_some_iff.1 reached
      rw [List.cons_append, ledger, first]
      exact List.mem_append_right _ (ih rest)

theorem Kept.plain_watched (h : x.Kept capacity channelCapacity) (i : Nat) (err : StreamError) :
    .watched i (some err) ∉ x.acts := fun among => nomatch h.plain _ among

theorem Kept.plain_crash (h : x.Kept capacity channelCapacity) (room : Uuid) :
    .fault room .crash ∉ x.acts := fun among => nomatch h.plain _ among

/-- What a request to join a room leaves behind that has been refused. -/
structure Rejected (x₀ : Site) (hs : List Happening) (x : Site) (v : Nat) (err : StreamError) :
    Prop where
  /-- The service shuts down. -/
  error : err = .shuttingDown
  /-- It has not got a reader, and nothing that it did has changed the number of open readers of any
  window. -/
  unopened : ∀ g, .opened v g ∉ x₀.ledger hs
  readers : ∀ {u e u'}, x₀.Passes hs u e u' → e.isOf v = true → ∀ t,
    u'.registry.readersOn t = u.registry.readersOn t
  /-- The entries that it has put into the registry are not there any more, and those that it has
  removed were dead. -/
  rooms : ∀ {u e u'}, x₀.Passes hs u e u' → e.isOf v = true → ∀ room,
    u'.registry.entryOf? room = u.registry.entryOf? room ∨
      (∃ n, u.registry.entryOf? room = none ∧ u'.registry.entryOf? room = some n ∧
        ∀ room', x.registry.entryOf? room' ≠ some n) ∨
      ∃ n entry, u.registry.entryOf? room = some n ∧ u.registry.entries[n]? = some entry ∧
        u.registry.Dead entry ∧ u'.registry.entryOf? room = none
  /-- If it came when the shutdown had begun, it has not touched any room. -/
  late : ∀ {before r after z}, hs = before ++ .request r :: after → x₀.run? before = some z →
    (z.server.respond r).2 = .later v → z.registry.down = true →
      ∀ {u e u'}, z.Passes (.request r :: after) u e u' → e.isOf v = true →
        u'.registry.registered = u.registry.registered ∧
          u'.registry.entries = u.registry.entries ∧ u'.registry.streams = u.registry.streams

/-- What a happening of a subscriber or a visit does to the registry. -/
theorem next?_isOf {v : Nat} (happened : u.next? e = some u') (own : e.isOf v = true) :
    u'.registry = u.registry ∨
      ∃ a, e = .registry a ∧ a.isOf v = true ∧ u.registry.perform? a = some u'.registry := by
  cases e with
  | registry a =>
      obtain ⟨_, went⟩ := Option.ite_none_right_eq_some.1 happened
      obtain ⟨r', did, rfl⟩ := Option.map_eq_some_iff.1 went
      exact .inr ⟨a, rfl, own, did⟩
  | visit w =>
      obtain ⟨service, stepped, rfl⟩ := Option.map_eq_some_iff.1 happened
      refine .inl ?_
      rw [Service.stepVisit?] at stepped
      split at stepped
      · split at stepped <;> cases stepped <;> rfl
      · cases stepped
  | _ => cases own

/-- The only receipts that a subscriber can get are for readers of its own. -/
theorem receipt?_isOf {v : Nat} {note : Receipt} (own : e.isOf v = true)
    (noted : receipt? u u' e = some note) : ∃ g, note = .opened v g := by
  cases e with
  | registry a =>
      cases a with
      | step p =>
          cases p with
          | subscriber j =>
              obtain rfl : j = v := by simpa [Happening.isOf, Registry.Action.isOf] using own
              rw [receipt?] at noted
              split at noted
              · obtain ⟨g, _, rfl⟩ := Option.map_eq_some_iff.1 noted
                exact ⟨g, rfl⟩
              · cases noted
          | _ => cases own
      | abort | watched => cases noted
      | _ => cases own
  | visit w => cases noted
  | _ => cases own

/-- A request that comes when a shutdown has begun does not get past the first check. -/
theorem Kept.request_barred (h : x.Kept capacity channelCapacity) {r : Request} {v : Nat}
    (happened : x.next? (.request r) = some y) (later : (x.server.respond r).2 = .later v)
    (down : x.registry.down = true) : y.registry.Barred v := by
  obtain ⟨response, now, _⟩ | ⟨guest, _, waits, came⟩ := next?_request happened
  · rw [now] at later
    cases later
  · obtain rfl := Answer.later.inj (waits.symm.trans later)
    rw [came]
    exact h.visitors ▸ Registry.subscribe_barred guest.roomId down

/-- What a request to join a room does to the entries that are registered, if it is refused in the
end. -/
theorem Kept.entryOf?_of_refused (h₀ : x₀.Kept capacity channelCapacity)
    (ran : x₀.run? hs = some x) {v : Nat} {t : Registry.Subscriber} {err : StreamError}
    (found : x.registry.subscribers[v]? = some t) (phase : t.phase = .done (.error err))
    (passes : x₀.Passes hs u e u') (own : e.isOf v = true) (room : Uuid) :
    u'.registry.entryOf? room = u.registry.entryOf? room ∨
      (∃ n, u.registry.entryOf? room = none ∧ u'.registry.entryOf? room = some n ∧
        ∀ room', x.registry.entryOf? room' ≠ some n) ∨
      ∃ n entry, u.registry.entryOf? room = some n ∧ u.registry.entries[n]? = some entry ∧
        u.registry.Dead entry ∧ u'.registry.entryOf? room = none := by
  have kept := (h₀.run ran).1
  obtain ⟨before, before'⟩ := passes.kept h₀
  obtain ⟨after, rest⟩ := passes.rest ran
  obtain same | ⟨a, rfl, mine, did⟩ := next?_isOf passes.happened own
  · exact .inl (by rw [same])
  · have books := Registry.run?_kept before.past fun i => before.plain_watched i .closed
    obtain same | ⟨n, rfl, new, made, none, current⟩ | ⟨n, entry, current, here, dead, gone⟩ :=
      books.perform?_entryOf? mine did room
    · exact .inl same
    · -- It tends the entry that it has made, and so nobody can refuse it and leave the entry there.
      obtain ⟨_, grown, later⟩ := (before'.run rest).2.acts
      have tends := (Registry.perform?_tends before.regular.owned did new made).run
        before'.regular.owned later fun err' among =>
          kept.plain_watched v err' (grown ▸ List.mem_append_right _ among)
      exact .inr (.inl ⟨n, none, current, tends.gone found phase⟩)
    · exact .inr (.inr ⟨n, entry, current, here, dead, gone⟩)

/-- A request to join a room that comes when a shutdown has begun does not touch any room. -/
theorem Kept.untouched_of_down (h : x.Kept capacity channelCapacity) {r : Request} {v : Nat}
    {after : List Happening} (later : (x.server.respond r).2 = .later v)
    (down : x.registry.down = true) (passes : x.Passes (.request r :: after) u e u')
    (own : e.isOf v = true) :
    u'.registry.registered = u.registry.registered ∧ u'.registry.entries = u.registry.entries ∧
      u'.registry.streams = u.registry.streams := by
  obtain ⟨first, _, same, there, happened⟩ := passes
  cases first with
  | nil =>
      obtain ⟨rfl, _⟩ := List.cons.inj same
      cases own
  | cons d first =>
      obtain ⟨rfl, _⟩ := List.cons.inj same
      rw [run?, List.foldlM_cons] at there
      obtain ⟨z, asked, waited⟩ := Option.bind_eq_some_iff.1 there
      -- From its first check on, all that it can do is to be told that the service shuts down.
      have barred := h.request_barred asked later down
      obtain ⟨_, leads⟩ := h.next? asked
      have kept := h.leads leads
      obtain ⟨_, _, did⟩ := (kept.run waited).2.acts
      have barred := barred.run kept.regular.owned did
      obtain same | ⟨a, rfl, mine, did⟩ := next?_isOf happened own
      · rw [same]
        exact ⟨rfl, rfl, rfl⟩
      · obtain ⟨q, same⟩ := barred.perform mine did
        rw [same]
        exact ⟨rfl, rfl, rfl⟩

theorem Kept.rejected (h₀ : x₀.Kept capacity channelCapacity) (ran : x₀.run? hs = some x)
    (balanced : Registry.Balanced (x₀.ledger hs) x.registry) {v : Nat} {err : StreamError}
    (seat : x.visits[v]? = some (.refused err)) : Rejected x₀ hs x v err := by
  have kept := (h₀.run ran).1
  obtain ⟨t, found, phase⟩ : ∃ t, x.registry.subscribers[v]? = some t ∧
      t.phase = .done (.error err) := by
    cases kept.hosts v _ seat with
    | refused found phase => exact ⟨_, found, phase⟩
  have unopened : ∀ g, .opened v g ∉ x₀.ledger hs := by
    intro g among
    obtain ⟨t', found', phase'⟩ := Registry.readerOf?_eq_some.1 ((balanced.opened v g).1 among)
    obtain rfl : t = t' := Option.some.inj (found.symm.trans found')
    rw [phase] at phase'
    cases phase'
  constructor
  case error =>
    obtain ⟨g, served⟩ | told | ⟨err', same, among⟩ :=
      Registry.run?_answers kept.past v t _ found phase
    · cases served
    · exact Except.error.inj told
    · exact absurd among (kept.plain_watched v err')
  case unopened => exact unopened
  case readers =>
    intro u e u' passes own t
    have counted := ((passes.kept h₀).1.covers passes.happened).counted t
    cases noted : receipt? u u' e with
    | none =>
        rw [noted] at counted
        simpa using counted
    | some note =>
        obtain ⟨g, rfl⟩ := receipt?_isOf own noted
        exact absurd (passes.receipt_mem noted) (unopened g)
  case rooms => exact fun passes own => h₀.entryOf?_of_refused ran found phase passes own
  case late =>
    intro before r after z split reached later down u e u' passes own
    exact (h₀.run reached).1.untouched_of_down later down passes own

/-- The reader that a subscriber has got is one of its room. -/
theorem Kept.stream (h : x.Kept capacity channelCapacity) {v : Nat} {t : Registry.Subscriber}
    {g : Registry.Reader} (found : x.registry.subscribers[v]? = some t)
    (phase : t.phase = .done (.ok g)) :
    ∃ st : Registry.Stream, x.registry.streams[g.stream]? = some st ∧ st.roomId = t.roomId := by
  obtain ⟨l, history⟩ := Registry.run?_history h.past h.plain_crash
  obtain ⟨st, _, there, room, _⟩ := history.handed x.registry v t g
    ⟨x.acts, List.prefix_rfl, h.past⟩ found (Registry.reader?_eq_some_iff.2 phase)
  exact ⟨st, there, room⟩

/-- A session that has ended has closed its reader. -/
theorem Kept.hasLeft_of_ended (h : x.Kept capacity channelCapacity) {j : Nat} {s : Session}
    (there : x.sessions[j]? = some s) (ended : s.stage = .ended) :
    x.registry.hasLeft s.reader = true := (h.lodged j s there).hasLeft ended

/-- A visit that cannot go on has been refused or has a session, if its subscriber has an answer. -/
theorem Kept.seatOf (h : x.Kept capacity channelCapacity) {v : Nat} {t : Registry.Subscriber}
    {g : Registry.Reader} (still : x.service.stepVisit? v = none)
    (found : x.registry.subscribers[v]? = some t) (phase : t.phase = .done (.ok g)) :
    ∃ (j : Nat) (s : Session), x.sessions[j]? = some s ∧ s.reader = g ∧ s.roomId = t.roomId := by
  have inside := (lt_size_of_getElem? found).trans_eq h.visitors
  obtain ⟨visit, here⟩ : ∃ visit, x.visits[v]? = some visit := ⟨_, Array.getElem?_eq_getElem inside⟩
  cases h.hosts v visit here with
  | @waiting guest _ found' =>
      obtain ⟨room, q⟩ := t
      obtain rfl : q = .done (.ok g) := phase
      have waits : x.service.visits[v]? = some (.waiting v guest) := here
      have served : x.service.hub.registry.subscribers[v]? = some ⟨room, .done (.ok g)⟩ := found
      rw [Service.stepVisit?, waits] at still
      dsimp only at still
      rw [served] at still
      cases still
  | refused found' phase' =>
      obtain rfl := Option.some.inj (found.symm.trans found')
      rw [phase] at phase'
      cases phase'
  | @seated j s _ found' there room phase' =>
      obtain rfl := Option.some.inj (found.symm.trans found')
      rw [phase] at phase'
      exact ⟨j, s, there, (Except.ok.inj (Registry.Subscribing.done.inj phase')).symm, room.symm⟩

theorem Kept.deserted (h : x.Kept capacity channelCapacity) {room : Uuid}
    (still : ∀ v, x.service.stepVisit? v = none)
    (ended : ∀ (j : Nat) (s : Session), x.sessions[j]? = some s → s.roomId = room →
      s.stage = .ended) {t : Nat} {st : Registry.Stream} (there : x.registry.streams[t]? = some st)
    (here : st.roomId = room) : st.room.readers = 0 := by
  -- The open readers of a window are those that subscribers have got and that have not left.
  rw [h.issued.count h.regular.laid there, Registry.holders, Array.countP_eq_zero]
  intro s among
  obtain ⟨v, found⟩ := Array.mem_iff_getElem?.1 among
  cases got : s.phase.reader? with
  | none => simp
  | some g =>
      have phase := Registry.reader?_eq_some_iff.1 got
      obtain ⟨j, s', seat, rfl, same⟩ := h.seatOf (still v) found phase
      by_cases mine : s'.reader.stream = t
      · obtain ⟨st', there', room'⟩ := h.stream found phase
        subst mine
        obtain rfl := Option.some.inj (there.symm.trans there')
        have left := h.hasLeft_of_ended seat (ended j s' seat (same.trans (room'.symm.trans here)))
        simp [left]
      · simp [mine]

/-- What has become of the readers of a site in a run from `x₀`. A reader is named by the stream
whose window it reads and by its number there, and a visit has the number of its subscriber. -/
structure Reckoning (x₀ : Site) (hs : List Happening) (x : Site) : Prop where
  /-- A request is answered at once and changes nothing, unless it passes all checks. Then it waits,
  and no room and no window has been touched yet. -/
  asked : ∀ {u r u'}, x₀.Passes hs u (.request r) u' →
    (∃ response, (u.server.respond r).2 = .now response ∧ u' = u) ∨
      ∃ guest, u.server.Admits r guest ∧ (u.server.respond r).2 = .later u.visits.size ∧
        u'.registry = u.registry.subscribe guest.roomId
  /-- Each happening changes the number of open readers of every window by what its receipt says.
  Receipts are given to subscribers that get a reader, and to sessions that close theirs. -/
  counted : ∀ {u e u'}, x₀.Passes hs u e u' → ∀ t, (u'.registry.readersOn t : Int) =
    u.registry.readersOn t + ((receipt? u u' e).map (·.change t)).getD 0
  /-- The receipts of the run name each reader that a subscriber has got, and each of these that is
  closed, and none of them twice. -/
  balanced : Registry.Balanced (x₀.ledger hs) x.registry
  /-- No two subscribers have got the same reader. -/
  distinct : ∀ v w g, .opened v g ∈ x₀.ledger hs → .opened w g ∈ x₀.ledger hs → v = w
  /-- A request that has been refused after a while has left nothing behind. -/
  refused : ∀ v err, x.visits[v]? = some (.refused err) → Rejected x₀ hs x v err
  /-- A visit that has a session has opened a reader of its room. -/
  seated : ∀ v j : Nat, x.visits[v]? = some (.seated j) →
    ∃ (s : Session) (st : Registry.Stream), x.sessions[j]? = some s ∧
      .opened v s.reader ∈ x₀.ledger hs ∧ x.registry.streams[s.reader.stream]? = some st ∧
      st.roomId = s.roomId
  /-- The session that a request leads to is in the room that was asked for. -/
  wanted : ∀ {u r u' v j}, x₀.Passes hs u (.request r) u' → (u.server.respond r).2 = .later v →
    x.visits[v]? = some (.seated j) → ∃ (s : Session) (name : String),
      x.sessions[j]? = some s ∧ r.route = .room name ∧ roomOfName? name = some s.roomId
  /-- A session that has ended has closed its reader. -/
  ended : ∀ (j : Nat) (s : Session), x.sessions[j]? = some s → s.stage = .ended →
    .closed s.reader ∈ x₀.ledger hs
  /-- When no visit can go on, and all sessions of a room have ended, nobody reads any window of the
  room. -/
  deserted : ∀ room, (∀ v, x.service.stepVisit? v = none) →
    (∀ (j : Nat) (s : Session), x.sessions[j]? = some s → s.roomId = room → s.stage = .ended) →
    (∀ (t : Nat) (st : Registry.Stream), x.registry.streams[t]? = some st → st.roomId = room →
      st.room.readers = 0) ∧ ∀ n, x.registry.openReaders room = some n → n = 0

/-- Whatever requests arrive and whatever clients, sessions, media service and shutdowns do, no
reader leaks: every reader is opened once, for a request that is answered with a websocket, and is
closed once, when its session ends at the latest. -/
theorem run?_reckoning {stamps : Nat → Stamp} {connector : Option (Except SignalError Unit)}
    {pace : Pace} (ran : (start capacity channelCapacity stamps connector pace).run? hs = some x) :
    Reckoning (start capacity channelCapacity stamps connector pace) hs x := by
  have kept₀ : (start capacity channelCapacity stamps connector pace).Kept _ _ :=
    start_kept stamps connector pace
  have kept := (kept₀.run ran).1
  have balanced := run?_balanced ran
  constructor
  case asked => exact fun passes => next?_request passes.happened
  case counted => exact fun passes t => ((passes.kept kept₀).1.covers passes.happened).counted t
  case balanced => exact balanced
  case distinct =>
    intro v w g mine yours
    exact kept.issued.distinct ((balanced.opened v g).1 mine) ((balanced.opened w g).1 yours)
  case refused => exact fun v err seat => kept₀.rejected ran balanced seat
  case seated =>
    intro v j seat
    cases kept.hosts v _ seat with
    | @seated _ s t found there room phase =>
        obtain ⟨st, stream, same⟩ := kept.stream found phase
        exact ⟨s, st, there, (balanced.opened v s.reader).2
          (Registry.readerOf?_eq_some.2 ⟨t, found, phase⟩), stream, same.trans room⟩
  case wanted =>
    intro u r u' v j passes later seat
    obtain ⟨after, rest⟩ := passes.rest ran
    obtain ⟨s, _, there, _, _, _, name, route, named⟩ :=
      (passes.kept kept₀).1.seated_of_request later ((run?_cons passes.happened).trans rest) seat
    exact ⟨s, name, there, route, named⟩
  case ended =>
    intro j s there ended
    obtain ⟨v, t, _, found, _, phase⟩ := kept.visitOf there
    exact (balanced.closed s.reader).2
      ⟨⟨v, Registry.readerOf?_eq_some.2 ⟨t, found, phase⟩⟩, kept.hasLeft_of_ended there ended⟩
  case deserted =>
    intro room still ended
    have unread : ∀ (t : Nat) (st : Registry.Stream), x.registry.streams[t]? = some st →
        st.roomId = room → st.room.readers = 0 :=
      fun _ _ there here => kept.deserted still ended there here
    refine ⟨unread, fun n count => ?_⟩
    obtain ⟨e, current, rfl⟩ := Option.map_eq_some_iff.1 count
    exact kept.regular.owned.readersOf_eq_zero current unread

def refusal? (x : Site) (v : Nat) : Option StreamError :=
  match x.visits[v]? with
  | some (.refused err) => some err
  | _ => none

theorem refusal?_eq_some {v : Nat} {err : StreamError} (refused : x.refusal? v = some err) :
    x.visits[v]? = some (.refused err) := by
  rw [refusal?] at refused
  split at refused <;> cases refused
  assumption

/-- Whether no visit can go on and all sessions have ended. -/
def isLeft (x : Site) : Bool :=
  (List.range x.visits.size).all (fun v => (x.service.stepVisit? v).isNone) &&
    x.sessions.all (·.stage = .ended)

theorem isLeft_iff : x.isLeft = true ↔ (∀ v, x.service.stepVisit? v = none) ∧
    ∀ (j : Nat) (s : Session), x.sessions[j]? = some s → s.stage = .ended := by
  simp only [isLeft, Bool.and_eq_true, List.all_eq_true, List.mem_range, Option.isNone_iff_eq_none,
    Array.all_eq_true', decide_eq_true_eq]
  refine and_congr ⟨fun still v => ?_, fun still v _ => still v⟩
    ⟨fun ended j s there => ended s (Array.mem_of_getElem? there), fun ended s among => ?_⟩
  · by_cases inside : v < x.visits.size
    · exact still v inside
    · have away : x.service.visits[v]? = none := Array.getElem?_eq_none (Nat.not_lt.1 inside)
      rw [Service.stepVisit?, away]
  · obtain ⟨j, there⟩ := Array.mem_iff_getElem?.1 among
    exact ended j s there

/-- The media channel cannot be opened, and the session ends. A request without an upgrade comes,
and then the shutdown begins and the first request comes once more. -/
def departures : List Happening :=
  .request knocking :: admitted ++ [.connects 0 (.error .closed) 9, .session 0 (.moves .finish 9),
    .session 0 (.moves .finish 9), .request { knocking with headers := [] }, .registry .shutdown,
    .registry (.step (.shutdown 0)), .request knocking, .registry (.step (.subscriber 1)), .visit 1]

/-- One reader has been opened and closed, the last request has been refused, and nobody reads the
room. -/
theorem run?_reckoning_departures : ∃ x, studio.run? departures = some x ∧
    Reckoning studio departures x ∧
    studio.ledger departures = [.opened 0 ⟨0, 0⟩, .closed ⟨0, 0⟩] ∧
    Rejected studio departures x 1 .shuttingDown ∧
    x.registry.openReaders (.ofNat 7) = some 0 := by
  have facts : (studio.run? departures).map (fun x =>
      (x.isLeft, x.refusal? 1, (x.registry.openReaders (.ofNat 7)).isSome)) =
      some (true, some .shuttingDown, true) := by decide +kernel
  obtain ⟨x, ran, facts⟩ := Option.map_eq_some_iff.1 facts
  simp only [Prod.mk.injEq] at facts
  obtain ⟨left, refused, current⟩ := facts
  obtain ⟨still, ended⟩ := isLeft_iff.1 left
  have reckoning := run?_reckoning ran
  have deserted := reckoning.deserted (.ofNat 7) still fun j s there _ => ended j s there
  refine ⟨x, ran, reckoning, by decide +kernel,
    reckoning.refused 1 _ (refusal?_eq_some refused), ?_⟩
  obtain ⟨n, count⟩ := Option.isSome_iff_exists.1 current
  rw [count, deserted.2 n count]

/-- Three messages overrun the feed of the room, and so its puller ends. A second request finds that
the entry is dead, and then the shutdown begins. -/
def overrun : List Happening :=
  let saying : List Happening := .session 0 (.arrives (.text (Frame.render
    ⟨none, none, { Frame.Body.empty with note := some ⟨"hi"⟩ }⟩))) ::
      List.replicate 3 (.session 0 (.moves (.loop .receiving) 9))
  .request knocking :: admitted ++ [.connects 0 (.ok .fresh) 9] ++ saying ++ saying ++ saying ++
    [.registry (.step (.puller 0)), .registry (.step (.puller 0)), .request knocking] ++
    List.replicate 4 (.registry (.step (.subscriber 1))) ++
    [.registry .shutdown, .registry (.step (.shutdown 0))]

/-- The second request is refused. The first session and the shutdown end. -/
def aftermath : List Happening :=
  [.registry (.step (.subscriber 1)), .visit 1] ++
    List.replicate 2 (.session 0 (.moves (.loop .forwarding) 9)) ++
    [.session 0 (.moves (.quit .receiving) 9), .session 0 (.moves (.quit .beating) 9),
      .session 0 (.moves (.quit .relaying) 9)] ++
    List.replicate 3 (.session 0 (.moves .finish 9)) ++
    [.registry (.feedClosed 0)] ++ List.replicate 4 (.registry (.step (.shutdown 0)))

/-- A request has passed the checks, and a shutdown begins before it has asked for the lock of the
entry that it has made. -/
def outrun : List Happening :=
  [.registry .shutdown, .registry (.step (.shutdown 0)), .registry (.step (.shutdown 0))] ++
    List.replicate 3 (.registry (.step (.closer 0))) ++
    List.replicate 4 (.registry (.step (.subscriber 0))) ++ [.visit 0]

/-- Between the happenings `before` and `after` the request of visit `v` takes a step that changes
the registered entries from `was` to `now`, and in the end it is refused. -/
def Meddles (before after : List Happening) (v : Nat) (was now : List (Uuid × Nat)) : Prop :=
  ∃ u u' x, studio.run? before = some u ∧ u.registry.registered = was ∧
    u.next? (.registry (.step (.subscriber v))) = some u' ∧ u'.registry.registered = now ∧
    u'.run? after = some x ∧ x.visits[v]? = some (.refused .shuttingDown)

/-- A request that is refused because of a shutdown removes a dead entry, or makes one first. When
everything is over after the shutdown, the room has no count of open readers. -/
theorem run?_reckoning_meddles :
    Meddles overrun aftermath 1 [(.ofNat 7, 0)] [] ∧
    Meddles (.request knocking :: List.replicate 2 (.registry (.step (.subscriber 0)))) outrun 0
      [] [(.ofNat 7, 0)] ∧
    ∃ x, studio.run? (overrun ++ .registry (.step (.subscriber 1)) :: aftermath) = some x ∧
      x.registry.Quiet ∧ (∀ v, x.service.stepVisit? v = none) ∧
      (∀ (j : Nat) (s : Session), x.sessions[j]? = some s → s.stage = .ended) ∧
      x.registry.openReaders (.ofNat 7) = none := by
  have meddles : ∀ {before after : List Happening} {v : Nat} {was now : List (Uuid × Nat)},
      ((studio.run? before).bind fun u =>
        (u.next? (.registry (.step (.subscriber v)))).bind fun u' => (u'.run? after).map fun x =>
          (u.registry.registered, u'.registry.registered, x.refusal? v)) =
        some (was, now, some .shuttingDown) → Meddles before after v was now := by
    intro before after v was now facts
    obtain ⟨u, reached, facts⟩ := Option.bind_eq_some_iff.1 facts
    obtain ⟨u', stepped, facts⟩ := Option.bind_eq_some_iff.1 facts
    obtain ⟨x, ran, facts⟩ := Option.map_eq_some_iff.1 facts
    simp only [Prod.mk.injEq] at facts
    obtain ⟨first, second, refused⟩ := facts
    exact ⟨u, u', x, reached, first, stepped, second, ran, refusal?_eq_some refused⟩
  refine ⟨meddles (by decide +kernel), meddles (by decide +kernel), ?_⟩
  have facts : (studio.run? (overrun ++ .registry (.step (.subscriber 1)) :: aftermath)).map
      (fun x => (x.registry.isQuiet, x.isLeft, x.registry.openReaders (.ofNat 7))) =
      some (true, true, none) := by decide +kernel
  obtain ⟨x, ran, facts⟩ := Option.map_eq_some_iff.1 facts
  simp only [Prod.mk.injEq] at facts
  obtain ⟨quiet, left, uncounted⟩ := facts
  obtain ⟨still, ended⟩ := isLeft_iff.1 left
  exact ⟨x, ran, Registry.isQuiet_iff.1 quiet, still, ended, uncounted⟩

end Site

end Roomcast.Http

import Roomcast.Proofs.Lodging
import Roomcast.Proofs.Visits

/-!
# What a site keeps

The visits of a site are the subscribers of its registry, in the same order. A visit waits, or has
been refused as its subscriber was, or has been given a session with the reader that its subscriber
got. Every session was given to a visit, so no two sessions have the same reader, and each of them
is lodged whatever the others do.
-/

namespace Roomcast.Peer

namespace Occasion

/-- A session publishes events and uses its own reader, and does nothing else with the registry. -/
theorem act?_own {hub : Hub} {s : Session} {o : Occasion} {a : Registry.Action}
    (acts : o.act? hub s = some a) :
    (∃ e, a = .emit e) ∨ ∃ op, a.use? = some (s.reader, op) := by
  obtain ⟨m, acts⟩ : ∃ m, s.act? hub m = some a := by
    cases o with
    | moves m now => exact ⟨m, acts⟩
    | _ => cases acts
  cases m with
  | loop l =>
      cases l with
      | receiving =>
          obtain ⟨e, _, acts⟩ := Option.bind_eq_some_iff.1 acts
          cases e <;> cases acts
          exact .inl ⟨_, rfl⟩
      | beating | relaying => cases acts
      | forwarding =>
          simp only [Session.act?] at acts
          split at acts <;> cases acts
          · exact .inr ⟨_, rfl⟩
          · split_ifs
            · exact .inr ⟨_, rfl⟩
            · exact .inr ⟨_, rfl⟩
  | quit l =>
      cases l with
      | receiving | beating | relaying => cases acts
      | forwarding =>
          simp only [Session.act?] at acts
          split at acts <;> cases acts
          exact .inr ⟨_, rfl⟩
  | finish =>
      simp only [Session.act?] at acts
      split at acts <;> cases acts <;> exact .inr ⟨_, rfl⟩

end Occasion

end Roomcast.Peer

namespace Roomcast.Service

/-- Whether it is known what a visit has led to. -/
def Visit.isOver : Visit → Bool
  | .waiting .. => false
  | .refused _ | .seated _ => true

end Roomcast.Service

namespace Roomcast.Http

open Peer Service
open Registry (Reader Subscriber)

/-- Where a visit is, and how its subscriber bears it out. -/
inductive Hosts (r : Registry) (sessions : Array Session) (v : Nat) : Visit → Prop
  | waiting {guest : Guest} {t : Subscriber} (found : r.subscribers[v]? = some t)
      (room : t.roomId = guest.roomId) (sent : guest.link.sent = []) :
      Hosts r sessions v (.waiting v guest)
  | refused {e : StreamError} {t : Subscriber} (found : r.subscribers[v]? = some t)
      (phase : t.phase = .done (.error e)) : Hosts r sessions v (.refused e)
  | seated {j : Nat} {s : Session} {t : Subscriber} (found : r.subscribers[v]? = some t)
      (there : sessions[j]? = some s) (room : t.roomId = s.roomId)
      (phase : t.phase = .done (.ok s.reader)) : Hosts r sessions v (.seated j)

/-- Every session is still there, with its reader and in its room. -/
def KeepsSeats (sessions sessions' : Array Session) : Prop :=
  ∀ (j : Nat) (s : Session), sessions[j]? = some s →
    ∃ s' : Session, sessions'[j]? = some s' ∧ s'.reader = s.reader ∧ s'.roomId = s.roomId

theorem KeepsSeats.rfl {sessions : Array Session} : KeepsSeats sessions sessions :=
  fun _ s there => ⟨s, there, .refl _, .refl _⟩

theorem KeepsSeats.push {sessions : Array Session} (s : Session) :
    KeepsSeats sessions (sessions.push s) :=
  fun _ s' there => ⟨s', getElem?_push_some.2 (.inl there), .refl _, .refl _⟩

theorem KeepsSeats.modify {sessions : Array Session} {j : Nat} {s s' : Session}
    (there : sessions[j]? = some s) (seat : s'.reader = s.reader ∧ s'.roomId = s.roomId) :
    KeepsSeats sessions (sessions.modify j fun _ => s') := by
  intro k s₁ there₁
  refine getElem?_modify_keeps there₁ ⟨.refl _, .refl _⟩ fun same => ?_
  subst same
  obtain rfl : s₁ = s := Option.some.inj (there₁.symm.trans there)
  exact seat

/-- What a visit has come to is borne out from then on. -/
theorem Hosts.later {r r' : Registry} {sessions sessions' : Array Session} {v : Nat} {visit : Visit}
    (h : Hosts r sessions v visit) (owned : r.Owned) {acts : List Registry.Action}
    (ran : r.run? acts = some r') (seats : KeepsSeats sessions sessions') :
    Hosts r' sessions' v visit := by
  cases h with
  | waiting found room sent =>
      obtain ⟨t', found', same⟩ := owned.run_subscriber ran found
      exact .waiting found' (same.trans room) sent
  | refused found phase => exact .refused (owned.run_answered ran found phase) phase
  | seated found there room phase =>
      obtain ⟨s', there', reader, roomId⟩ := seats _ _ there
      refine .seated (owned.run_answered ran found phase) there' (room.trans roomId.symm) ?_
      rw [reader]
      exact phase

/-- The visit that has just come waits. -/
theorem Hosts.subscribe (r : Registry) (sessions : Array Session) {guest : Guest}
    (sent : guest.link.sent = []) :
    Hosts (r.subscribe guest.roomId) sessions r.subscribers.size
      (.waiting r.subscribers.size guest) :=
  .waiting (t := ⟨guest.roomId, .checking⟩) (getElem?_push_some.2 (.inr ⟨rfl, rfl⟩)) rfl sent

namespace Site

variable {capacity channelCapacity : Nat} {x y : Site}

theorem deedsOf_append (x y : Site) {l : List (Nat × Deed)} (more : y.journal = x.journal ++ l)
    (j : Nat) :
    y.deedsOf j = x.deedsOf j ++ l.filterMap fun d => if d.1 = j then some d.2 else none := by
  rw [deedsOf, more, List.filterMap_append]
  rfl

/-- What is true of a site at all times. -/
structure Kept (capacity channelCapacity : Nat) (x : Site) : Prop where
  past : (Registry.empty capacity channelCapacity).run? x.acts = some x.registry
  plain : ∀ a ∈ x.acts, a.isPlain = true
  visitors : x.registry.subscribers.size = x.visits.size
  hosts : ∀ v visit, x.visits[v]? = some visit → Hosts x.registry x.sessions v visit
  seated : ∀ j < x.sessions.size, ∃ v : Nat, x.visits[v]? = some (.seated j)
  used : ∀ a ∈ x.acts, ∀ g op, a.use? = some (g, op) →
    ∃ (j : Nat) (s : Session), x.sessions[j]? = some s ∧ s.reader = g
  journal : ∀ d ∈ x.journal, d.1 < x.sessions.size
  lodged : ∀ j s, x.sessions[j]? = some s →
    Lodged (.empty capacity channelCapacity) x.acts x.hub (x.deedsOf j) s

theorem start_kept (stamps : Nat → Stamp) (connector : Option (Except SignalError Unit))
    (pace : Pace) :
    (start capacity channelCapacity stamps connector pace).Kept capacity channelCapacity where
  past := rfl
  plain := by simp [start]
  visitors := rfl
  hosts v visit here := by
    have nobody : (#[] : Array Visit)[v]? = some visit := here
    simp at nobody
  seated j inside := absurd inside (Nat.not_lt_zero j)
  used := by simp [start]
  journal := by simp [start]
  lodged j s there := by
    have nobody : (#[] : Array Session)[j]? = some s := there
    simp at nobody

namespace Kept

variable (h : x.Kept capacity channelCapacity)

include h

theorem regular : x.registry.Regular := (Registry.empty_regular _ _).run h.past

theorem issued : x.registry.Issued := Registry.run?_issued h.past

/-- The visit that a session was given to. -/
theorem visitOf {j : Nat} {s : Session} (there : x.sessions[j]? = some s) :
    ∃ (v : Nat) (t : Subscriber), x.visits[v]? = some (.seated j) ∧
      x.registry.subscribers[v]? = some t ∧ t.roomId = s.roomId ∧
      t.phase = .done (.ok s.reader) := by
  obtain ⟨v, here⟩ := h.seated j (lt_size_of_getElem? there)
  cases h.hosts v _ here with
  | seated found there' room phase =>
      obtain rfl := Option.some.inj (there'.symm.trans there)
      exact ⟨v, _, here, found, room, phase⟩

/-- The reader of a session is there. -/
theorem cursor {j : Nat} {s : Session} (there : x.sessions[j]? = some s) :
    (x.registry.cursorOf? s.reader).isSome = true := by
  obtain ⟨v, t, _, found, _, phase⟩ := h.visitOf there
  exact h.regular.handed v t s.reader found (Registry.reader?_eq_some_iff.2 phase)

/-- No two sessions have the same reader. -/
theorem apart {j k : Nat} {s s' : Session} (there : x.sessions[j]? = some s)
    (there' : x.sessions[k]? = some s') (same : s.reader = s'.reader) : j = k := by
  obtain ⟨v, t, here, found, _, phase⟩ := h.visitOf there
  obtain ⟨v', t', here', found', _, phase'⟩ := h.visitOf there'
  rw [same] at phase
  obtain rfl := h.issued.distinct (Registry.readerOf?_eq_some.2 ⟨t, found, phase⟩)
    (Registry.readerOf?_eq_some.2 ⟨t', found', phase'⟩)
  exact Visit.seated.inj (Option.some.inj (here.symm.trans here'))

/-- Nobody has used the reader of a visit that waits for its session. -/
theorem unused {v : Nat} {guest : Guest} {t : Subscriber} {g : Reader}
    (here : x.visits[v]? = some (.waiting v guest)) (found : x.registry.subscribers[v]? = some t)
    (phase : t.phase = .done (.ok g)) : ∀ a ∈ x.acts, ∀ op, a.use? ≠ some (g, op) := by
  intro a among op used
  obtain ⟨j, s, there, rfl⟩ := h.used a among g op used
  obtain ⟨v', t', here', found', _, phase'⟩ := h.visitOf there
  obtain rfl := h.issued.distinct (Registry.readerOf?_eq_some.2 ⟨t, found, phase⟩)
    (Registry.readerOf?_eq_some.2 ⟨t', found', phase'⟩)
  rw [here] at here'
  cases here'

theorem past_append {acts : List Registry.Action} {r' : Registry}
    (did : x.registry.run? acts = some r') :
    (Registry.empty capacity channelCapacity).run? (x.acts ++ acts) = some r' := by
  rw [Registry.run?_append, h.past, Option.bind_some, did]

/-- What others do leaves a session lodged. -/
theorem lodged_others {acts : List Registry.Action} {hub : Hub}
    (did : x.registry.run? acts = some hub.registry) {k : Nat} {s : Session}
    (there : x.sessions[k]? = some s) (unused : ∀ a ∈ acts, ∀ op, a.use? ≠ some (s.reader, op)) :
    Lodged (.empty capacity channelCapacity) (x.acts ++ acts) hub (x.deedsOf k) s :=
  (h.lodged k s there).others h.regular (h.cursor there) did unused

end Kept

/-- What a happening leads to. -/
structure Leads (capacity channelCapacity : Nat) (x : Site) (new : List Registry.Action)
    (y : Site) : Prop where
  acts : y.acts = x.acts ++ new
  ran : x.registry.run? new = some y.registry
  plain : ∀ a ∈ new, a.isPlain = true
  used : ∀ a ∈ new, ∀ g op, a.use? = some (g, op) →
    ∃ (j : Nat) (s : Session), x.sessions[j]? = some s ∧ s.reader = g
  seats : KeepsSeats x.sessions y.sessions
  visitors : y.registry.subscribers.size = y.visits.size
  visits : ∀ v visit, y.visits[v]? = some visit →
    x.visits[v]? = some visit ∨ Hosts y.registry y.sessions v visit
  /-- A visit that no longer waits stays what it is. -/
  given : ∀ (v : Nat) (visit : Visit), x.visits[v]? = some visit → visit.isOver = true →
    y.visits[v]? = some visit
  seated : ∀ j < y.sessions.size, j < x.sessions.size ∨ ∃ v : Nat, y.visits[v]? = some (.seated j)
  journal : ∀ d ∈ y.journal, d.1 < y.sessions.size
  lodged : ∀ j s, y.sessions[j]? = some s →
    Lodged (.empty capacity channelCapacity) y.acts y.hub (y.deedsOf j) s

theorem Kept.leads {new : List Registry.Action} (h : x.Kept capacity channelCapacity)
    (leads : Leads capacity channelCapacity x new y) : y.Kept capacity channelCapacity where
  past := by
    rw [leads.acts]
    exact h.past_append leads.ran
  plain := by
    rw [leads.acts]
    exact fun a among => (List.mem_append.1 among).elim (h.plain a) (leads.plain a)
  visitors := leads.visitors
  hosts v visit here := by
    obtain old | new := leads.visits v visit here
    · exact (h.hosts v visit old).later h.regular.owned leads.ran leads.seats
    · exact new
  seated j inside := by
    obtain old | new := leads.seated j inside
    · obtain ⟨v, here⟩ := h.seated j old
      exact ⟨v, leads.given v _ here rfl⟩
    · exact new
  used := by
    intro a among g op used
    rw [leads.acts] at among
    obtain ⟨j, s, there, rfl⟩ := (List.mem_append.1 among).elim
      (fun old => h.used a old g op used) (fun new => leads.used a new g op used)
    obtain ⟨s', there', reader, _⟩ := leads.seats j s there
    exact ⟨j, s', there', reader⟩
  journal := leads.journal
  lodged := leads.lodged

/-- What a happening leads to in which no visit goes on and no request arrives. -/
theorem Kept.leads_inside {new : List Registry.Action} (h : x.Kept capacity channelCapacity)
    (acts : y.acts = x.acts ++ new) (ran : x.registry.run? new = some y.registry)
    (plain : ∀ a ∈ new, a.isPlain = true ∧ ∀ room, a ≠ .subscribe room)
    (used : ∀ a ∈ new, ∀ g op, a.use? = some (g, op) →
      ∃ (j : Nat) (s : Session), x.sessions[j]? = some s ∧ s.reader = g)
    (seats : KeepsSeats x.sessions y.sessions) (size : y.sessions.size = x.sessions.size)
    (visits : y.visits = x.visits) (journal : ∀ d ∈ y.journal, d.1 < y.sessions.size)
    (lodged : ∀ j s, y.sessions[j]? = some s →
      Lodged (.empty capacity channelCapacity) y.acts y.hub (y.deedsOf j) s) :
    Leads capacity channelCapacity x new y where
  acts := acts
  ran := ran
  plain a among := (plain a among).1
  used := used
  seats := seats
  visitors := by
    rw [visits, ← h.visitors]
    exact h.regular.owned.run_subscribers_size ran fun room among => (plain _ among).2 room rfl
  visits _ _ here := .inl (visits ▸ here)
  given _ _ here _ := visits.symm ▸ here
  seated _ inside := .inl (size ▸ inside)
  journal := journal
  lodged := lodged

theorem Kept.registry (h : x.Kept capacity channelCapacity) {a : Registry.Action}
    (happened : x.next? (.registry a) = some y) : Leads capacity channelCapacity x [a] y := by
  rw [next?, Option.ite_none_right_eq_some] at happened
  obtain ⟨outside, happened⟩ := happened
  obtain ⟨r', did, rfl⟩ := Option.map_eq_some_iff.1 happened
  obtain ⟨plain, unused, other⟩ := Registry.Action.isOutside_eq_true outside
  have ran : x.registry.run? [a] = some r' := by
    rw [Registry.run?, did]
    rfl
  have uses : ∀ b ∈ [a], b.use? = none := fun b among => List.mem_singleton.1 among ▸ unused
  refine h.leads_inside rfl ran (fun b among => ?_) (fun b among g op used => ?_) .rfl rfl
    rfl h.journal fun j s there => ?_
  · rw [List.mem_singleton.1 among]
    exact ⟨plain, other⟩
  · rw [uses b among] at used
    cases used
  · refine h.lodged_others ran there fun b among op => ?_
    rw [uses b among]
    exact (Option.some_ne_none _).symm

theorem Kept.connects (h : x.Kept capacity channelCapacity) {j now : Nat}
    {result : Except SignalError Media} (happened : x.next? (.connects j result now) = some y) :
    Leads capacity channelCapacity x [] y := by
  obtain ⟨s, there, happened⟩ := Option.bind_eq_some_iff.1 happened
  rw [Option.ite_none_right_eq_some] at happened
  obtain ⟨stage, same⟩ := happened
  obtain rfl := Option.some.inj same
  obtain ⟨idles, nothing, unused⟩ := (h.lodged j s there).of_connecting stage
  have seat : (s.connected result now).reader = s.reader ∧
      (s.connected result now).roomId = s.roomId := by
    cases result <;> exact ⟨rfl, rfl⟩
  refine h.leads_inside (List.append_nil _).symm rfl (by simp) (by simp) (.modify there seat)
    Array.size_modify rfl ?_ fun k s' there' => ?_
  · intro d among
    exact (h.journal d among).trans_eq Array.size_modify.symm
  · obtain ⟨_, there'⟩ | ⟨rfl, s₁, there₁, rfl⟩ := getElem?_modify_some.1 there'
    · exact h.lodged k s' there'
    · show Lodged _ x.acts x.hub (x.deedsOf j) (s.connected result now)
      rw [nothing]
      cases result with
      | ok media =>
          obtain ⟨v, t, _, found, room, phase⟩ := h.visitOf there
          exact .serve idles h.past ⟨t, Array.mem_of_getElem? found, room, phase⟩ unused _ _
      | error =>
          obtain ⟨_, media, receiving, heartbeat, relaying, forwarding, sent⟩ := idles
          exact .idles ⟨⟨nofun, nofun, nofun⟩, media, receiving, heartbeat, relaying, forwarding,
            sent⟩ rfl (fun _ => unused) nofun

theorem Kept.session (h : x.Kept capacity channelCapacity) {j : Nat} {o : Occasion}
    (happened : x.next? (.session j o) = some y) :
    ∃ new, Leads capacity channelCapacity x new y := by
  obtain ⟨s, there, happened⟩ := Option.bind_eq_some_iff.1 happened
  dsimp only at happened
  have beside : (o.beside x.registry).beside x.registry = o.beside x.registry := by
    cases o <;> rfl
  generalize o.beside x.registry = o at happened beside
  obtain ⟨⟨hub, s'⟩, goes, rfl⟩ := Option.map_eq_some_iff.1 happened
  obtain ⟨lodged, seat, ran⟩ := (h.lodged j s there).next? beside goes (h.cursor there)
  have own : ∀ a ∈ (o.act? x.hub s).toList,
      (∃ e, a = .emit e) ∨ ∃ op, a.use? = some (s.reader, op) := fun a among =>
    Occasion.act?_own (Option.mem_toList.1 among)
  have uses : ∀ a ∈ (o.act? x.hub s).toList, ∀ g op, a.use? = some (g, op) → g = s.reader := by
    intro a among g op used
    obtain ⟨e, rfl⟩ | ⟨op', used'⟩ := own a among
    · cases used
    · rw [used'] at used
      exact (congrArg Prod.fst (Option.some.inj used)).symm
  refine ⟨_, h.leads_inside rfl ran (fun a among => ?_) (fun a among g op used => ?_)
    (.modify there seat) Array.size_modify rfl (fun d among => ?_) fun k s₁ there₁ => ?_⟩
  · obtain ⟨e, rfl⟩ | ⟨op, used⟩ := own a among
    · exact ⟨rfl, nofun⟩
    · exact Registry.Action.isPlain_of_use? used
  · exact ⟨j, s, there, (uses a among g op used).symm⟩
  · obtain old | new := List.mem_append.1 among
    · exact (h.journal d old).trans_eq Array.size_modify.symm
    · obtain ⟨_, _, rfl⟩ := List.mem_map.1 new
      exact (lt_size_of_getElem? there).trans_eq Array.size_modify.symm
  · rw [deedsOf_append x _ rfl]
    obtain ⟨other, there₁⟩ | ⟨rfl, _, _, rfl⟩ := getElem?_modify_some.1 there₁
    · have nothing : ((o.deed? x.hub s).toList.map (j, ·)).filterMap
          (fun d => if d.1 = k then some d.2 else none) = [] := by
        cases o.deed? x.hub s <;> simp [other]
      rw [nothing, List.append_nil]
      refine h.lodged_others ran there₁ fun a among op used => other ?_
      exact h.apart there there₁ (uses a among _ op used).symm
    · have mine : ((o.deed? x.hub s).toList.map (j, ·)).filterMap
          (fun d => if d.1 = j then some d.2 else none) = (o.deed? x.hub s).toList := by
        cases o.deed? x.hub s <;> simp
      rw [mine]
      exact lodged

theorem Kept.stop (h : x.Kept capacity channelCapacity) (happened : x.next? .stop = some y) :
    Leads capacity channelCapacity x [] y := by
  obtain rfl := Option.some.inj happened
  have seats : KeepsSeats x.sessions
      (x.sessions.map fun s => { s with cancelled := true }) := by
    intro j s there
    exact ⟨{ s with cancelled := true }, by simp [there], rfl, rfl⟩
  refine h.leads_inside (List.append_nil _).symm rfl (by simp) (by simp) seats Array.size_map rfl
    (fun d among => (h.journal d among).trans_eq Array.size_map.symm) fun j s there => ?_
  obtain ⟨s₀, there₀, rfl⟩ : ∃ s₀, x.sessions[j]? = some s₀ ∧
      { s₀ with cancelled := true } = s := by
    have there : (x.sessions.map fun s => { s with cancelled := true })[j]? = some s := there
    rwa [Array.getElem?_map, Option.map_eq_some_iff] at there
  have told := (h.lodged j s₀ there₀).next? (o := .cancel) rfl rfl (h.cursor there₀)
  exact (List.append_nil x.acts) ▸ (List.append_nil (x.deedsOf j)) ▸ told.1

theorem Kept.request (h : x.Kept capacity channelCapacity) {r : Request}
    (happened : x.next? (.request r) = some y) :
    ∃ new, Leads capacity channelCapacity x new y := by
  obtain rfl := Option.some.inj happened
  obtain ⟨refused, response, answered⟩ | ⟨guest, admitted, answered⟩ := x.server.respond_eq r
  · rw [answered, refused]
    refine ⟨[], h.leads_inside rfl rfl (by simp) (by simp) .rfl rfl rfl h.journal
      fun j s there => ?_⟩
    exact (List.append_nil x.acts).symm ▸ h.lodged j s there
  · rw [answered, admitted]
    have sent : guest.link.sent = [] := by
      rw [(Server.admits?_eq_some admitted).link]
      rfl
    have ran : x.registry.run? [.subscribe guest.roomId] =
        some (x.registry.subscribe guest.roomId) := rfl
    refine ⟨[.subscribe guest.roomId], rfl, ran, by simp [Registry.Action.isPlain],
      by simp [Registry.Action.use?], .rfl, ?_, fun v visit here => ?_, fun v visit here _ => ?_,
      fun j inside => .inl inside, h.journal, fun j s there => ?_⟩
    · show (x.registry.subscribers.push _).size = (x.visits.push _).size
      rw [Array.size_push, Array.size_push, h.visitors]
    · obtain here | ⟨rfl, rfl⟩ := getElem?_push_some.1 here
      · exact .inl here
      · exact .inr (h.visitors ▸ Hosts.subscribe x.registry x.sessions sent)
    · exact getElem?_push_some.2 (.inl here)
    · refine h.lodged_others ran there fun a among op => ?_
      rw [List.mem_singleton.1 among]
      exact (Option.some_ne_none _).symm

/-- Whatever session a guest gets, it has the guest's room and reader. -/
theorem admission_seat (s : Service) (guest : Guest) (g : Reader) :
    (s.admission guest g).reader = g ∧ (s.admission guest g).roomId = guest.roomId := by
  rw [admission]
  dsimp only
  split_ifs <;> exact ⟨rfl, rfl⟩

/-- The session of a guest that has got a reader is lodged. -/
theorem admission_lodged (s : Service) {guest : Guest} {g : Reader} {acts : List Registry.Action}
    (sent : guest.link.sent = [])
    (past : (Registry.empty capacity channelCapacity).run? acts = some s.hub.registry)
    (served : ∃ t ∈ s.hub.registry.subscribers, t.roomId = guest.roomId ∧ t.phase = .done (.ok g))
    (unused : ∀ a ∈ acts, ∀ op, a.use? ≠ some (g, op)) :
    Lodged (.empty capacity channelCapacity) acts s.hub [] (s.admission guest g) := by
  have idles := Session.connecting_idles guest.userId guest.roomId g guest.pace s.stopped sent
  rw [admission]
  dsimp only
  split_ifs
  · exact .idles idles rfl (fun _ => unused) nofun
  · exact .serve idles past served unused none s.timers.now

theorem Kept.visit (h : x.Kept capacity channelCapacity) {v : Nat}
    (happened : x.next? (.visit v) = some y) : Leads capacity channelCapacity x [] y := by
  obtain ⟨service, stepped, rfl⟩ := Option.map_eq_some_iff.1 happened
  rw [Service.stepVisit?] at stepped
  split at stepped
  case h_2 => cases stepped
  case h_1 i guest here =>
    cases h.hosts v _ here with
    | waiting found room sent =>
      -- The visit that is replaced has waited until now.
      have given : ∀ (visit visit' : Visit) (v' : Nat), x.visits[v']? = some visit' →
          visit'.isOver = true → (x.visits.modify v fun _ => visit)[v']? = some visit' := by
        intro visit visit' v' here' isOver
        refine getElem?_modify_some.2 (.inl ⟨?_, here'⟩)
        rintro rfl
        obtain rfl := Option.some.inj (here.symm.trans here')
        cases isOver
      have size : ∀ visit : Visit, x.registry.subscribers.size =
          (x.visits.modify v fun _ => visit).size := fun visit =>
        h.visitors.trans Array.size_modify.symm
      split at stepped
      case h_3 => cases stepped
      case h_1 g found' =>
        obtain rfl := Option.some.inj stepped
        obtain rfl := Option.some.inj (found.symm.trans found')
        obtain ⟨reader, roomId⟩ := admission_seat x.service guest g
        refine ⟨(List.append_nil _).symm, rfl, by simp, by simp, .push _, size _,
          fun v' visit here' => ?_, fun v' visit' => given _ visit' v', fun j inside => ?_,
          fun d among => ?_, fun j s there => ?_⟩
        · obtain ⟨_, here'⟩ | ⟨rfl, _, _, rfl⟩ := getElem?_modify_some.1 here'
          · exact .inl here'
          · refine .inr (.seated found (getElem?_push_some.2 (.inr ⟨rfl, rfl⟩))
              (room.trans roomId.symm) ?_)
            rw [reader]
        · obtain old | rfl := Nat.lt_succ_iff_lt_or_eq.1 (inside.trans_eq (Array.size_push _))
          · exact .inl old
          · exact .inr ⟨v, getElem?_modify_some.2 (.inr ⟨rfl, _, here, rfl⟩)⟩
        · exact (h.journal d among).trans_le ((Array.size_push _).symm ▸ Nat.le_succ _)
        · obtain old | ⟨rfl, rfl⟩ := getElem?_push_some.1 there
          · exact h.lodged j s old
          · have nothing : x.deedsOf x.sessions.size = [] := by
              refine List.filterMap_eq_nil_iff.2 fun d among => if_neg ?_
              exact (h.journal d among).ne
            have served : ∃ t ∈ x.registry.subscribers, t.roomId = guest.roomId ∧
                t.phase = .done (.ok g) := ⟨_, Array.mem_of_getElem? found, room, rfl⟩
            show Lodged _ x.acts x.hub (x.deedsOf x.sessions.size) _
            rw [nothing]
            exact admission_lodged x.service sent h.past served (h.unused here found rfl)
      case h_2 e found' =>
        obtain rfl := Option.some.inj stepped
        refine ⟨(List.append_nil _).symm, rfl, by simp, by simp, .rfl, size _,
          fun v' visit here' => ?_, fun v' visit' => given _ visit' v', fun j inside => .inl inside,
          h.journal, h.lodged⟩
        obtain ⟨_, here'⟩ | ⟨rfl, _, _, rfl⟩ := getElem?_modify_some.1 here'
        · exact .inl here'
        · exact .inr (.refused found' rfl)

/-- What anything that can happen to a site leads to. -/
theorem Kept.next? (h : x.Kept capacity channelCapacity) {e : Happening}
    (happened : x.next? e = some y) : ∃ new, Leads capacity channelCapacity x new y := by
  cases e with
  | request => exact h.request happened
  | visit => exact ⟨_, h.visit happened⟩
  | connects => exact ⟨_, h.connects happened⟩
  | session => exact h.session happened
  | registry => exact ⟨_, h.registry happened⟩
  | time =>
      obtain rfl := Option.some.inj happened
      exact ⟨[], h.leads_inside (List.append_nil _).symm rfl (by simp) (by simp) .rfl rfl rfl
        h.journal h.lodged⟩
  | stop => exact ⟨_, h.stop happened⟩

/-- What is there stays there. -/
structure Follows (x y : Site) : Prop where
  acts : ∃ new, y.acts = x.acts ++ new ∧ x.registry.run? new = some y.registry
  seats : KeepsSeats x.sessions y.sessions
  given : ∀ (v : Nat) (visit : Visit), x.visits[v]? = some visit → visit.isOver = true →
    y.visits[v]? = some visit

theorem Follows.refl (x : Site) : Follows x x :=
  ⟨⟨[], (List.append_nil _).symm, rfl⟩, .rfl, fun _ _ here _ => here⟩

theorem Follows.leads {z : Site} {new : List Registry.Action} (h : Follows x y)
    (leads : Leads capacity channelCapacity y new z) : Follows x z := by
  obtain ⟨old, grown, ran⟩ := h.acts
  refine ⟨⟨old ++ new, ?_, ?_⟩, fun j s there => ?_, fun v visit here isOver => ?_⟩
  · rw [leads.acts, grown, List.append_assoc]
  · rw [Registry.run?_append, ran, Option.bind_some, leads.ran]
  · obtain ⟨s', there', reader, roomId⟩ := h.seats j s there
    obtain ⟨s'', there'', reader', roomId'⟩ := leads.seats j s' there'
    exact ⟨s'', there'', reader'.trans reader, roomId'.trans roomId⟩
  · exact leads.given v visit (h.given v visit here isOver) isOver

theorem Kept.run (h : x.Kept capacity channelCapacity) {hs : List Happening}
    (ran : x.run? hs = some y) : y.Kept capacity channelCapacity ∧ Follows x y := by
  induction hs using List.reverseRecOn generalizing y with
  | nil =>
      obtain rfl := Option.some.inj ran
      exact ⟨h, .refl x⟩
  | append_singleton hs e ih =>
      rw [run?, List.foldlM_append] at ran
      obtain ⟨z, before, last⟩ := Option.bind_eq_some_iff.1 ran
      obtain ⟨y', happened, rest⟩ := Option.bind_eq_some_iff.1 last
      obtain rfl := Option.some.inj rest
      obtain ⟨kept, follows⟩ := ih before
      obtain ⟨new, leads⟩ := kept.next? happened
      exact ⟨kept.leads leads, follows.leads leads⟩

/-- The session that a request leads to is in the room that was asked for. -/
theorem Kept.seated_of_request (h : x.Kept capacity channelCapacity) {r : Request} {v j : Nat}
    {hs : List Happening} (later : (x.server.respond r).2 = .later v)
    (ran : x.run? (.request r :: hs) = some y) (seat : y.visits[v]? = some (.seated j)) :
    ∃ (s : Session) (t : Subscriber), y.sessions[j]? = some s ∧
      y.registry.subscribers[v]? = some t ∧ t.roomId = s.roomId ∧
      t.phase = .done (.ok s.reader) ∧
      ∃ name, r.route = .room name ∧ roomOfName? name = some s.roomId := by
  rw [run?, List.foldlM_cons] at ran
  obtain ⟨z, happened, ran⟩ := Option.bind_eq_some_iff.1 ran
  obtain ⟨_, now, _⟩ | ⟨guest, admits, waits, came⟩ := next?_request happened
  · rw [now] at later
    cases later
  have number : x.visits.size = v := Answer.later.inj (waits.symm.trans later)
  have came : z.registry.subscribers[v]? = some ⟨guest.roomId, .checking⟩ := by
    rw [came, ← number]
    exact getElem?_push_some.2 (.inr ⟨h.visitors.symm, rfl⟩)
  obtain ⟨new, leads⟩ := h.next? happened
  have kept := h.leads leads
  obtain ⟨kept', follows⟩ := kept.run ran
  -- The subscriber of the visit keeps its room, and the session has been given that of its guest.
  cases kept'.hosts v _ seat with
  | @seated _ s t found there room phase =>
      obtain ⟨acts, _, did⟩ := follows.acts
      obtain ⟨t', found', same⟩ := kept.regular.owned.run_subscriber did came
      obtain rfl : t' = t := Option.some.inj (found'.symm.trans found)
      obtain ⟨name, route, named⟩ := admits.room
      exact ⟨s, t', there, found, room, phase, name, route, by rw [named, ← room, same]⟩

end Site

end Roomcast.Http

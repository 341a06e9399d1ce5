import Roomcast.Http.Server
import Roomcast.Proofs.Stays

/-!
# A site and its visitors

A `Site` is a server together with an account of what has been done with its registry and of what
its sessions have done. A `Happening` is anything that can happen to it: a request arrives, a visit
goes on, the media service answers, a session moves or something happens to its client, a party of
the registry takes a step, time passes, or the service is told to stop. Happenings come in any
order, so opening a media channel can take as long as it likes. The steps that the tasks of a
service take are among them.

Nobody but the visits of the site asks for readers, nobody but its sessions uses one, and the store
gives each feed that it is asked for.
-/

namespace Roomcast.Registry

/-- Whether an action is possible over a store that gives each feed and takes no puller down. -/
def Action.isPlain : Action → Bool
  | .fault _ .crash | .watched _ (some _) => false
  | _ => true

theorem Action.isPlain_of_use? {a : Action} {use : Reader × Room.Op Event}
    (used : a.use? = some use) : a.isPlain = true ∧ ∀ room, a ≠ .subscribe room := by
  cases a with
  | poll | beginRead | cancelRead | resume | abandon | leave | drop => exact ⟨rfl, nofun⟩
  | _ => cases used

/-- Whether a plain action is neither a request for a reader nor the use of one. -/
def Action.isOutside : Action → Bool
  | .subscribe _ => false
  | a => a.isPlain && a.use?.isNone

theorem Action.isOutside_eq_true {a : Action} (outside : a.isOutside = true) :
    a.isPlain = true ∧ a.use? = none ∧ ∀ room, a ≠ .subscribe room := by
  cases a <;> simp [isOutside] at outside ⊢ <;> exact outside

end Roomcast.Registry

namespace Roomcast.Http

open Peer Service

namespace Server

/-- The guest that a request becomes, if it passes all checks. -/
def admits? (s : Server) (r : Request) : Option Guest :=
  if r.method = "OPTIONS" then none
  else
    match r.route with
    | .room name => (s.guest r name).toOption
    | .health | .unknown => none

/-- A request gets its answer at once and changes nothing, or becomes a guest. -/
theorem respond_eq (s : Server) (r : Request) :
    (s.admits? r = none ∧ ∃ response, s.respond r = (s, .now response)) ∨
    ∃ guest, s.admits? r = some guest ∧
      s.respond r = ({ s with service := (s.service.receive guest).1 },
        .later s.service.visits.size) := by
  rw [admits?, respond]
  split_ifs
  · exact .inl ⟨rfl, _, rfl⟩
  · cases r.route with
    | unknown | health => exact .inl ⟨rfl, _, rfl⟩
    | room name =>
        cases asked : s.guest r name with
        | error response =>
            dsimp only
            rw [asked]
            exact .inl ⟨rfl, response, rfl⟩
        | ok guest =>
            dsimp only
            rw [asked]
            exact .inr ⟨guest, rfl, rfl⟩

theorem respond_later {s : Server} {r : Request} (admitted : (s.admits? r).isSome = true) :
    (s.respond r).2 = .later s.service.visits.size := by
  obtain ⟨refused, _⟩ | ⟨_, _, answered⟩ := s.respond_eq r
  · rw [refused] at admitted
    cases admitted
  · rw [answered]

/-- What a request has to be, to become a guest. -/
structure Admits (s : Server) (r : Request) (guest : Guest) : Prop where
  room : ∃ name, r.route = .room name ∧ roomOfName? name = some guest.roomId
  method : r.method = "GET"
  upgrade : r.asksUpgrade = true
  version : r.version = .oneOne
  query : ∃ params, Params.ofQuery? r.query = some params ∧ params.userId = guest.userId ∧
    params.media = guest.media
  connector : guest.media = true → s.service.connector.isSome = true
  link : guest.link = .fresh .silence

theorem admits?_eq_some {s : Server} {r : Request} {guest : Guest}
    (admitted : s.admits? r = some guest) : s.Admits r guest := by
  rw [admits?, Option.ite_none_left_eq_some] at admitted
  obtain ⟨_, admitted⟩ := admitted
  cases route : r.route with
  | unknown | health => simp [route] at admitted
  | room name =>
      have asked : s.guest r name = .ok guest := by
        rw [route] at admitted
        dsimp only at admitted
        cases asked : s.guest r name with
        | error response =>
            rw [asked] at admitted
            cases admitted
        | ok guest' =>
            rw [asked] at admitted
            exact congrArg Except.ok (Option.some.inj admitted)
      rw [Server.guest] at asked
      split_ifs at asked with method upgrade version
      split at asked
      case h_2 => cases asked
      case h_1 room params named read =>
        split_ifs at asked with unavailable
        obtain rfl := Except.ok.inj asked
        refine ⟨⟨name, route, named⟩, not_not.1 method, by simpa using upgrade, ?_,
          ⟨params, read, rfl, rfl⟩, fun media => ?_, rfl⟩
        · cases same : r.version with
          | oneZero => exact absurd same version
          | oneOne => rfl
        · cases there : s.service.connector with
          | some result => rfl
          | none => exact absurd (by simpa [there] using media) unavailable

end Server

/-- A server, and what has happened. -/
structure Site where
  server : Server
  /-- What anybody has done with the registry since it was empty, first thing first. -/
  acts : List Registry.Action
  /-- What the sessions have done, first thing first. -/
  journal : List (Nat × Deed)

/-- What can happen to a site. -/
inductive Happening where
  /-- A request arrives. -/
  | request (r : Request)
  /-- A visit goes on. -/
  | visit (v : Nat)
  /-- The media service answers a session that waits for its channel. -/
  | connects (j : Nat) (result : Except SignalError Media) (now : Nat)
  /-- A session moves, or something happens to it. -/
  | session (j : Nat) (o : Occasion)
  /-- Somebody else does something with the registry. -/
  | registry (a : Registry.Action)
  /-- Time passes, and timers are set. -/
  | time (timers : Schedule.Timers Service.Task)
  /-- The service is told to stop. -/
  | stop

namespace Site

abbrev service (x : Site) : Service := x.server.service

abbrev hub (x : Site) : Hub := x.server.service.hub

abbrev registry (x : Site) : Registry := x.server.service.hub.registry

abbrev sessions (x : Site) : Array Session := x.server.service.sessions

abbrev visits (x : Site) : Array Visit := x.server.service.visits

def onService (x : Site) (f : Service → Service) : Site :=
  { x with server := { x.server with service := f x.service } }

/-- What a happening leads to, if it is possible. -/
def next? (x : Site) : Happening → Option Site
  | .request r =>
    some { x with
      server := (x.server.respond r).1
      acts := x.acts ++ (x.server.admits? r).toList.map fun guest => .subscribe guest.roomId }
  | .visit v => (x.service.stepVisit? v).map fun service => x.onService fun _ => service
  | .connects j result now =>
    (x.sessions[j]?).bind fun s =>
      if s.stage = .connecting then
        some (x.onService (·.modifySession j fun _ => s.connected result now))
      else none
  | .session j o =>
    (x.sessions[j]?).bind fun s =>
      let o := o.beside x.registry
      (o.next? x.hub s).map fun (hub, s') =>
        { x.onService fun service => { service with hub }.modifySession j fun _ => s' with
          acts := x.acts ++ (o.act? x.hub s).toList
          journal := x.journal ++ (o.deed? x.hub s).toList.map (j, ·) }
  | .registry a =>
    if a.isOutside then
      (x.registry.perform? a).map fun registry =>
        { x.onService (·.onRegistry fun _ => registry) with acts := x.acts ++ [a] }
    else none
  | .time timers => some (x.onService ({ · with timers }))
  | .stop => some (x.onService (·.stop))

def run? (x : Site) (hs : List Happening) : Option Site := hs.foldlM next? x

def start (capacity channelCapacity : Nat) (stamps : Nat → Stamp)
    (connector : Option (Except SignalError Unit)) (pace : Pace) : Site :=
  { server := .start (.empty capacity channelCapacity stamps) connector pace
    acts := [], journal := [] }

def deedsOf (x : Site) (j : Nat) : List Deed :=
  x.journal.filterMap fun d => if d.1 = j then some d.2 else none

/-- A request that is answered at once changes nothing. One that is not makes a visit and a
subscriber. -/
theorem next?_request {x y : Site} {r : Request} (happened : x.next? (.request r) = some y) :
    (∃ response, (x.server.respond r).2 = .now response ∧ y = x) ∨
      ∃ guest, x.server.Admits r guest ∧ (x.server.respond r).2 = .later x.visits.size ∧
        y.registry = x.registry.subscribe guest.roomId := by
  obtain rfl := Option.some.inj happened
  obtain ⟨refused, response, answered⟩ | ⟨guest, admitted, answered⟩ := x.server.respond_eq r
  · refine .inl ⟨response, by rw [answered], ?_⟩
    rw [answered, refused]
    exact congrArg (Site.mk x.server · x.journal) (List.append_nil x.acts)
  · refine .inr ⟨guest, Server.admits?_eq_some admitted, by rw [answered], ?_⟩
    rw [answered]
    rfl

theorem run?_one {x y : Site} {h : Happening} (happened : x.next? h = some y) :
    x.run? [h] = some y := by
  rw [run?, List.foldlM_cons, happened]
  rfl

/-- When a session has gone on its timer can be set. -/
theorem run?_wind {x y : Site} {h : Happening} (happened : x.next? h = some y) (j : Nat) :
    ∃ hs z, x.run? hs = some z ∧ z.service = y.service.wind j := by
  let timers := (y.service.wind j).timers
  refine ⟨[h, .time timers], y.onService ({ · with timers }), ?_, rfl⟩
  rw [run?, List.foldlM_cons, happened]
  rfl

/-- What the steps of the tasks of a service lead to is a run of the site. -/
theorem run?_of_step? {x : Site} {task : Service.Task} {service : Service}
    (stepped : x.service.step? task = some service) :
    ∃ hs y, x.run? hs = some y ∧ y.service = service := by
  cases task with
  | party p =>
      obtain ⟨registry, went, rfl⟩ := Option.map_eq_some_iff.1 stepped
      have one : ∀ a : Registry.Action, a.isOutside = true → x.registry.perform? a = some registry →
          ∃ hs y, x.run? hs = some y ∧ y.service = x.service.onRegistry fun _ => registry := by
        intro a outside did
        refine ⟨[.registry a],
          { x.onService (·.onRegistry fun _ => registry) with acts := x.acts ++ [a] },
          run?_one ?_, rfl⟩
        rw [next?, if_pos outside, did]
        rfl
      cases p with
      | subscriber i =>
          obtain went | ⟨_, went⟩ := Option.or_eq_some_iff.1 went
          · exact one (.step (.subscriber i)) rfl went
          · exact one (.watched i none) rfl went
      | puller i =>
          obtain went | ⟨_, went⟩ := Option.or_eq_some_iff.1 went
          · exact one (.step (.puller i)) rfl went
          · exact one (.feedClosed i) rfl went
      | closer i => exact one (.step (.closer i)) rfl went
      | shutdown i => exact one (.step (.shutdown i)) rfl went
      | collector i => exact one (.step (.collector i)) rfl went
  | visit v =>
      refine ⟨[.visit v], x.onService fun _ => service, run?_one ?_, rfl⟩
      rw [next?, show x.service.stepVisit? v = some service from stepped]
      rfl
  | session j =>
      obtain ⟨s, there, went⟩ := Option.bind_eq_some_iff.1 stepped
      split at went
      case h_1 result stage connector =>
        obtain rfl := Option.some.inj went
        let result' := result.map fun _ => Media.fresh
        let now := x.service.timers.now
        have happened : x.next? (.connects j result' now) =
            some (x.onService (·.modifySession j fun _ => s.connected result' now)) := by
          rw [next?, there, Option.bind_some, if_pos stage]
        exact run?_wind happened j
      case h_2 =>
        obtain ⟨⟨hub, s'⟩, moved, rfl⟩ := Option.map_eq_some_iff.1 went
        obtain ⟨m, _, moved⟩ := List.exists_of_findSome?_eq_some moved
        have happened : ∃ y, x.next? (.session j (.moves m x.service.timers.now)) = some y ∧
            y.service = { x.service with hub }.modifySession j fun _ => s' := by
          refine ⟨{ x.onService fun service => { service with hub }.modifySession j fun _ => s' with
            acts := x.acts ++ (s.act? x.hub m).toList
            journal := x.journal ++ (s.deed? x.hub m).toList.map (j, ·) }, ?_, rfl⟩
          rw [next?, there, Option.bind_some]
          show (s.move? x.hub x.service.timers.now m).map _ = _
          rw [moved]
          rfl
        obtain ⟨y, happened, same⟩ := happened
        obtain ⟨hs, z, ran, wound⟩ := run?_wind happened j
        exact ⟨hs, z, ran, wound.trans (congrArg (·.wind j) same)⟩

/-- A request to join a room and its media. -/
def knocking : Request where
  method := "GET"
  target := {
    path := "/ws/00000000-0000-0000-0000-000000000007".toList
    query := some "userId=00000000-0000-0000-0000-000000000001&media=true".toList }
  version := .oneOne
  headers := [⟨"connection", Text.Utf8.encode "upgrade"⟩, ⟨"upgrade", Text.Utf8.encode "websocket"⟩,
    ⟨"sec-websocket-version", Text.Utf8.encode "13"⟩, ⟨"sec-websocket-key", []⟩]

def thatNight : Timestamp := .midnight ⟨2026, 3, 2, by decide⟩

/-- A site with a media service, and windows of two events. -/
def studio : Site := start 2 2 (fun n => ⟨.ofNat n, thatNight⟩) (some (.ok ())) ⟨1, 1⟩

/-- The request gets its reader and is answered. -/
def admitted : List Happening :=
  List.replicate 5 (.registry (.step (.subscriber 0))) ++
    [.registry (.watched 0 none), .registry (.step (.subscriber 0)), .visit 0]

end Site

end Roomcast.Http

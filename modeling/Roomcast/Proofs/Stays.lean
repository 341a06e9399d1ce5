import Roomcast.Proofs.Deeds

/-!
# A session among others

A session shares the registry with everybody else. A `Stay` is a session from the moment its loops
begin, with an account of all that has happened: what anybody has done with the registry, what the
media service has sent, and the session's own deeds in their order.

Between two moves of the session its client and the media service do what they please, and so does
everybody else with the registry, except that nobody else has the session's reader.
-/

namespace Roomcast.Peer

namespace Occasion

def deed? (hub : Hub) (s : Session) : Occasion → Option Deed
  | moves m _ => s.deed? hub m
  | _ => none

def act? (hub : Hub) (s : Session) : Occasion → Option Registry.Action
  | moves m _ => s.act? hub m
  | _ => none

def heard? (s : Session) : Occasion → Option (Except SignalError Signal)
  | signals a => s.media.map fun _ => a
  | _ => none

/-- The occasion, as far as it leaves the registry alone. -/
def beside (registry : Registry) : Occasion → Occasion
  | others hub => others { hub with registry }
  | o => o

end Occasion

/-- A session, what it shares with others, and what has happened. -/
structure Stay where
  /-- The session and its hub, and what has passed between the session and its client. -/
  scene : Scene
  /-- What anybody has done with the registry since it was empty, first thing first. -/
  acts : List Registry.Action
  /-- What the media service has sent, first thing first. -/
  heard : List (Except SignalError Signal)
  /-- What the session has done, first thing first. -/
  deeds : List Deed
  /-- By how much the session itself has changed the number of open readers of its window. -/
  change : Int

/-- What happens next. -/
inductive Turn where
  /-- The session moves, or something happens to it. -/
  | session (o : Occasion)
  /-- Somebody else does something with the registry. -/
  | registry (a : Registry.Action)

namespace Stay

abbrev hub (x : Stay) : Hub := x.scene.hub

abbrev session (x : Stay) : Session := x.scene.session

def openReaders (x : Stay) : Nat := x.hub.registry.openReadersBeside x.session.reader

/-- What a turn leads to, if it is possible. Nobody else uses the session's reader. -/
def next? (x : Stay) : Turn → Option Stay
  | .session o =>
    let o := o.beside x.hub.registry
    (x.scene.next? o).map fun scene =>
      let y : Stay := { x with
        scene
        acts := x.acts ++ (o.act? x.hub x.session).toList
        heard := x.heard ++ (o.heard? x.session).toList
        deeds := x.deeds ++ (o.deed? x.hub x.session).toList }
      { y with change := x.change + (y.openReaders - x.openReaders : Int) }
  | .registry a =>
    if a.use?.map Prod.fst = some x.session.reader then none
    else
      (x.hub.registry.perform? a).bind fun registry =>
        (x.scene.next? (.others { x.hub with registry })).map fun scene =>
          { x with scene, acts := x.acts ++ [a] }

def run? (x : Stay) (ts : List Turn) : Option Stay := ts.foldlM next? x

/-- The beginning of a stay, given what has been done with the registry before. -/
def start (acts : List Registry.Action) (hub : Hub) (s : Session) (media : Option Media)
    (now : Nat) : Stay :=
  { scene := .start hub s media now, acts, heard := (media.map (·.inbox)).getD [], deeds := []
    change := 0 }

/-- The frames that the session has sent, each with the loop that sent it. -/
def writings (x : Stay) : List (Loop × Frame) := x.deeds.filterMap Deed.writing?

def writtenBy (x : Stay) (l : Loop) : List Frame :=
  (x.writings.filter (·.1 = l)).map (·.2)

variable {x y : Stay}

/-- What stays when something happens in which the session has no part. -/
structure Looks (x y : Stay) : Prop where
  deeds : y.deeds = x.deeds
  done : y.scene.done = x.scene.done
  change : y.change = x.change

/-- What happens to a session of which the media service and other sessions learn nothing. -/
structure Bears (s s' : Session) : Prop where
  reader : s'.reader = s.reader
  stage : s'.stage = s.stage
  link : s.link.Still s'.link
  media : s'.media.map (fun m => (m.inbox, m.sent, m.closes)) =
    s.media.map fun m => (m.inbox, m.sent, m.closes)
  loops : s'.receiving = s.receiving ∧ s'.heartbeat = s.heartbeat ∧ s'.relaying = s.relaying ∧
    s'.forwarding = s.forwarding
  told : s.cancelled = true → s'.cancelled = true

/-- What one turn can be. -/
inductive Step (x y : Stay) : Prop
  /-- The session moves. -/
  | moves {deed : Option Deed} {act : Option Registry.Action}
      (did : Session.Did x.hub x.session deed act y.hub y.session)
      (acts : y.acts = x.acts ++ act.toList) (heard : y.heard = x.heard)
      (deeds : y.deeds = x.deeds ++ deed.toList)
      (done : y.scene.done = x.scene.done ++ (deed.bind Deed.effect?).toList)
      (change : y.change = x.change + (y.openReaders - x.openReaders : Int))
  /-- The media service sends something. -/
  | hears (a : Except SignalError Signal) (hub : y.hub = x.hub)
      (session : y.session = { x.session with media := x.session.media.map (·.arrive a) })
      (acts : y.acts = x.acts)
      (heard : y.heard = x.heard ++ (x.session.media.map fun _ => a).toList) (looks : Looks x y)
  /-- Something else happens to the session. -/
  | bears (bears : Bears x.session y.session) (registry : y.hub.registry = x.hub.registry)
      (acts : y.acts = x.acts) (heard : y.heard = x.heard) (looks : Looks x y)
  /-- Somebody else does something with the registry. -/
  | others (a : Registry.Action) (did : x.hub.registry.perform? a = some y.hub.registry)
      (unused : ∀ op, a.use? ≠ some (x.session.reader, op)) (session : y.session = x.session)
      (acts : y.acts = x.acts ++ [a]) (heard : y.heard = x.heard) (looks : Looks x y)

/-- The deeds of the loop that receives are the effects that it brings about. -/
theorem deed?_effect? (hub : Hub) (s : Session) (m : Session.Move) (now : Nat) :
    (s.deed? hub m).bind Deed.effect? =
      if (Occasion.moves m now).receives then s.does? hub else none := by
  cases m with
  | loop l =>
      cases l with
      | receiving =>
          rw [Session.deed?, Occasion.receives, if_pos rfl]
          cases s.does? hub <;> simp
      | beating => rfl
      | relaying =>
          show (s.deed? hub (.loop .relaying)).bind Deed.effect? = none
          simp only [Session.deed?, Session.writes?]
          split
          · split_ifs <;> rfl
          · rfl
      | forwarding =>
          show (s.deed? hub (.loop .forwarding)).bind Deed.effect? = none
          simp only [Session.deed?, Session.writes?]
          split
          · split_ifs <;> rfl
          · rfl
  | quit => rfl
  | finish =>
      simp only [Session.deed?]
      split
      case h_3 => cases s.media <;> rfl
      all_goals rfl

theorem next?_step {t : Turn} (fits : x.session.Fits) (begun : x.session.hasBegun = true)
    (happened : x.next? t = some y) : Step x y := by
  cases t with
  | session o =>
      obtain ⟨scene, noted, rfl⟩ := Option.map_eq_some_iff.1 happened
      obtain ⟨⟨hub', s'⟩, next, rfl⟩ := Option.map_eq_some_iff.1 noted
      clear happened noted
      cases o with
      | moves m now =>
          refine .moves (Session.move?_did fits begun next) rfl (List.append_nil _) rfl ?_ rfl
          show (if (Occasion.moves m now).receives then _ else _) = _ ++ (Option.bind
            (x.session.deed? x.hub m) Deed.effect?).toList
          rw [deed?_effect? x.hub x.session m now]
          split_ifs
          · rfl
          · exact (List.append_nil _).symm
      | signals a =>
          obtain ⟨rfl, rfl⟩ := Prod.mk.inj (Option.some.inj next)
          exact .hears a rfl rfl (List.append_nil _) rfl
            ⟨List.append_nil _, rfl, by simp [openReaders]⟩
      | arrives | link | cancel =>
          obtain ⟨rfl, rfl⟩ := Prod.mk.inj (Option.some.inj next)
          refine .bears ⟨rfl, rfl, ⟨rfl, rfl⟩, rfl, ⟨rfl, rfl, rfl, rfl⟩, ?_⟩ rfl
            (List.append_nil _) (List.append_nil _) ⟨List.append_nil _, rfl, by simp [openReaders]⟩
          simp
      | channel | others =>
          obtain ⟨rfl, rfl⟩ := Prod.mk.inj (Option.some.inj next)
          refine .bears ⟨rfl, rfl, ⟨rfl, rfl⟩, ?_, ⟨rfl, rfl, rfl, rfl⟩, id⟩ rfl
            (List.append_nil _) (List.append_nil _) ⟨List.append_nil _, rfl, by simp [openReaders]⟩
          cases x.session.media <;> rfl
  | registry a =>
      rw [next?, Option.ite_none_left_eq_some] at happened
      obtain ⟨other, happened⟩ := happened
      obtain ⟨registry, did, happened⟩ := Option.bind_eq_some_iff.1 happened
      obtain ⟨scene, next, rfl⟩ := Option.map_eq_some_iff.1 happened
      obtain ⟨_, same, rfl⟩ := Option.map_eq_some_iff.1 next
      obtain rfl := Option.some.inj same
      refine .others a did (fun op used => other ?_) rfl rfl rfl ⟨rfl, rfl, rfl⟩
      rw [used]
      rfl

/-- Each turn is an occasion for the session, be it that others use the hub. -/
theorem next?_scene {t : Turn} (happened : x.next? t = some y) :
    ∃ o, x.scene.next? o = some y.scene := by
  cases t with
  | session o =>
      obtain ⟨scene, noted, rfl⟩ := Option.map_eq_some_iff.1 happened
      exact ⟨_, noted⟩
  | registry a =>
      rw [next?, Option.ite_none_left_eq_some] at happened
      obtain ⟨registry, _, happened⟩ := Option.bind_eq_some_iff.1 happened.2
      obtain ⟨scene, noted, rfl⟩ := Option.map_eq_some_iff.1 happened
      exact ⟨_, noted⟩

theorem run?_append (x : Stay) (ts us : List Turn) :
    x.run? (ts ++ us) = (x.run? ts).bind (·.run? us) := List.foldlM_append

/-- A run goes on with more turns. -/
theorem run?_trans {z : Stay} {ts us : List Turn} (ran : x.run? ts = some y)
    (more : y.run? us = some z) : x.run? (ts ++ us) = some z := by
  rw [run?_append, ran, Option.bind_some, more]

/-- A run goes on with one more turn. -/
theorem run?_snoc {z : Stay} {ts : List Turn} {t : Turn} (ran : x.run? ts = some y)
    (happened : y.next? t = some z) : x.run? (ts ++ [t]) = some z := by
  refine run?_trans ran ?_
  rw [run?, List.foldlM_cons, happened]
  rfl

/-- The session after others have used the registry. -/
def afterOthers (x : Stay) (acts : List Registry.Action) (r : Registry) : Stay :=
  { x with scene := { x.scene with hub := { x.hub with registry := r } }, acts := x.acts ++ acts }

/-- Others can do what they please, as long as they do not use the session's reader. -/
theorem run?_others {acts : List Registry.Action} {r : Registry}
    (did : x.hub.registry.run? acts = some r)
    (unused : ∀ a ∈ acts, ∀ op, a.use? ≠ some (x.session.reader, op)) :
    x.run? (acts.map .registry) = some (x.afterOthers acts r) := by
  induction acts generalizing x with
  | nil =>
      obtain rfl := Option.some.inj did
      rw [afterOthers, List.append_nil]
      rfl
  | cons a acts ih =>
      obtain ⟨r₁, first, did⟩ := Option.bind_eq_some_iff.1 did
      have other : a.use?.map Prod.fst ≠ some x.session.reader := by
        intro mine
        obtain ⟨⟨_, op⟩, used, rfl⟩ := Option.map_eq_some_iff.1 mine
        exact unused a List.mem_cons_self op used
      have next : x.next? (.registry a) = some (x.afterOthers [a] r₁) := by
        rw [next?, if_neg other, first]
        simp [Scene.next?, Occasion.next?, Occasion.text?, Occasion.receives, afterOthers]
      have rest := ih (x := x.afterOthers [a] r₁) did
        fun b own => unused b (List.mem_cons_of_mem _ own)
      rw [List.map_cons, run?, List.foldlM_cons, next]
      refine Eq.trans rest ?_
      simp [afterOthers]

end Stay

end Roomcast.Peer

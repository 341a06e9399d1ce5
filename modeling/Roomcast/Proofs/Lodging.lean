import Roomcast.Proofs.Holding
import Roomcast.Proofs.Leaving

/-!
# Sessions that have not begun

A session that wants a media channel waits for it, and if it gets none it closes its link and leaves
its room without ever having begun. Until it leaves it does not use its reader. A session is lodged
if it is one of these, or one that has begun and has had a stay among others since. Whatever others
do, and whatever it does itself, it stays lodged.
-/

namespace Roomcast.Peer

open Registry (Action Reader)

namespace Deed

/-- The deeds of a session that does not begin. -/
def withdrawals : Stage → List Deed
  | .dismissed => [closed]
  | .ended => [closed, left]
  | .connecting | .refused | .serving | .left | .hungUp => []

end Deed

namespace Session

variable {hub hub' : Hub} {s s' : Session}

/-- A session that has not begun, and has sent nothing. -/
structure Idles (s : Session) : Prop where
  stage : s.stage ≠ .serving ∧ s.stage ≠ .left ∧ s.stage ≠ .hungUp
  media : s.media = none
  receiving : s.receiving = .waiting
  heartbeat : ∃ pace, s.heartbeat = .begin pace 0
  relaying : s.relaying = .waiting
  forwarding : s.forwarding = .idle
  sent : s.link.sent = []

/-- What a session that has not begun does next. -/
inductive Withdraws (hub : Hub) (s : Session) :
    Option Deed → Option Action → Hub → Session → Prop
  /-- Something happens to it that leaves it where it is. -/
  | stays {hub' : Hub} {s' : Session} (idles : s'.Idles) (stage : s'.stage = s.stage)
      (seat : s'.reader = s.reader ∧ s'.roomId = s.roomId)
      (registry : hub'.registry = hub.registry) : Withdraws hub s none none hub' s'
  /-- It closes its link. -/
  | closes {s' : Session} (idles : s'.Idles) (before : s.stage = .refused)
      (stage : s'.stage = .dismissed) (seat : s'.reader = s.reader ∧ s'.roomId = s.roomId) :
      Withdraws hub s (some .closed) none hub s'
  /-- It leaves its room. -/
  | leaves {s' : Session} (idles : s'.Idles) (before : s.stage = .dismissed)
      (stage : s'.stage = .ended) (seat : s'.reader = s.reader ∧ s'.roomId = s.roomId) :
      Withdraws hub s (some .left) (some (.leave s.reader)) (hub.onRegistry (·.leave s.reader)) s'

theorem Idles.withdraws (idles : s.Idles) {o : Occasion} (beside : o.beside hub.registry = o)
    (happened : o.next? hub s = some (hub', s')) :
    Withdraws hub s (o.deed? hub s) (o.act? hub s) hub' s' := by
  obtain ⟨⟨serving, left, hungUp⟩, media, receiving, heartbeat, relaying, forwarding, sent⟩ := idles
  have moved : ∀ stage link cancelled, stage ≠ .serving ∧ stage ≠ .left ∧ stage ≠ .hungUp →
      link.sent = [] → ({ s with link, stage, cancelled } : Session).Idles :=
    fun _ _ _ away same => ⟨away, media, receiving, heartbeat, relaying, forwarding, same⟩
  cases o with
  | moves m now =>
      replace happened : s.move? hub now m = some (hub', s') := happened
      cases m with
      | loop l =>
          rw [move?, if_neg serving] at happened
          cases happened
      | quit l =>
          rw [move?, if_neg serving] at happened
          cases happened
      | finish =>
          rw [move?, finish?] at happened
          simp only [Occasion.deed?, deed?, Occasion.act?, act?]
          split at happened
          case h_1 stage =>
            cases happened
            rw [stage]
            exact .closes (moved _ _ _ (by decide) sent) stage rfl ⟨rfl, rfl⟩
          case h_2 stage =>
            cases happened
            rw [stage]
            exact .leaves (moved _ _ _ (by decide) sent) stage rfl ⟨rfl, rfl⟩
          case h_3 stage => exact absurd stage serving
          case h_4 stage => exact absurd stage left
          case h_5 stage => exact absurd stage hungUp
          case h_6 | h_7 => cases happened
  | arrives | link | cancel =>
      cases happened
      exact .stays (moved _ _ _ ⟨serving, left, hungUp⟩ sent) rfl ⟨rfl, rfl⟩ rfl
  | signals | channel =>
      cases happened
      refine .stays ⟨⟨serving, left, hungUp⟩, ?_, receiving, heartbeat, relaying, forwarding, sent⟩
        rfl ⟨rfl, rfl⟩ rfl
      simp [media]
  | others other =>
      cases happened
      refine .stays (moved _ _ _ ⟨serving, left, hungUp⟩ sent) rfl ⟨rfl, rfl⟩ ?_
      rw [← Occasion.others.inj beside]

theorem connecting_idles (userId roomId : Uuid) {link : Link} (reader : Reader) (pace : Pace)
    (cancelled : Bool) (sent : link.sent = []) :
    ({ connecting userId roomId link reader pace with cancelled } : Session).Idles :=
  ⟨⟨nofun, nofun, nofun⟩, rfl, rfl, ⟨pace, rfl⟩, rfl, rfl, sent⟩

/-- When the loops of such a session begin, they begin as for any session. -/
theorem Idles.serve (idles : s.Idles) (media : Option Media) (now : Nat) :
    ∃ pace, s.serve media now =
      { (connecting s.userId s.roomId s.link s.reader pace).serve media now with
        cancelled := s.cancelled } := by
  obtain ⟨pace, heartbeat⟩ := idles.heartbeat
  refine ⟨pace, ?_⟩
  simp only [Session.serve, connecting, heartbeat, idles.receiving, idles.forwarding]

end Session

/-- A session that has not begun, or has had a stay since. It is described with what has been done
with the registry and with what it has done itself. -/
inductive Lodged (r₀ : Registry) (acts : List Action) (hub : Hub) (deeds : List Deed)
    (s : Session) : Prop
  | idles (idles : s.Idles) (deeds : deeds = Deed.withdrawals s.stage)
      (unused : s.stage ≠ .ended → ∀ a ∈ acts, ∀ op, a.use? ≠ some (s.reader, op))
      (left : s.stage = .ended → hub.registry.hasLeft s.reader = true)
  | stays {acts₀ : List Action} {hub₀ : Hub} {userId roomId : Uuid} {link : Link} {pace : Pace}
      {media : Option Media} {now : Nat} {ts : List Turn} {x : Stay} {reader : Reader}
      (begins : Stay.Begins r₀ acts₀ hub₀ roomId reader) (sent : link.sent = [])
      (ran : (Stay.start acts₀ hub₀ (.connecting userId roomId link reader pace) media now).run?
        ts = some x)
      (acts : x.acts = acts) (hub : x.hub = hub) (deeds : x.deeds = deeds) (session : x.session = s)

namespace Lodged

variable {capacity channelCapacity : Nat} {acts : List Action} {hub hub' : Hub}
  {deeds : List Deed} {s s' : Session}

/-- A session that waits for its media channel has not begun. -/
theorem of_connecting (h : Lodged (.empty capacity channelCapacity) acts hub deeds s)
    (stage : s.stage = .connecting) :
    s.Idles ∧ deeds = [] ∧ ∀ a ∈ acts, ∀ op, a.use? ≠ some (s.reader, op) := by
  cases h with
  | idles idles done unused left =>
      refine ⟨idles, ?_, unused (by simp [stage])⟩
      rw [done, stage]
      rfl
  | @stays _ _ _ _ _ _ _ _ ts x _ begins sent ran same hub₁ done session =>
      subst session
      have sound := (Stay.start_sound begins).run ran
      have begun := sound.stands.begun
      rw [Session.hasBegun, stage] at begun
      cases begun

/-- A session that has ended has closed its reader. -/
theorem hasLeft (h : Lodged (.empty capacity channelCapacity) acts hub deeds s)
    (ended : s.stage = .ended) : hub.registry.hasLeft s.reader = true := by
  cases h with
  | idles _ _ _ left => exact left ended
  | stays begins _ ran _ same _ session =>
      subst session same
      exact ((Stay.run?_ends begins ran).1.ended ended).reader

/-- Others may use the hub, and the registry in all ways in which the session's reader is not
used. -/
theorem others {new : List Action} (h : Lodged (.empty capacity channelCapacity) acts hub deeds s)
    (regular : hub.registry.Regular) (there : (hub.registry.cursorOf? s.reader).isSome = true)
    (did : hub.registry.run? new = some hub'.registry)
    (unused : ∀ a ∈ new, ∀ op, a.use? ≠ some (s.reader, op)) :
    Lodged (.empty capacity channelCapacity) (acts ++ new) hub' deeds s := by
  cases h with
  | idles idles deeds unused' left =>
      refine .idles idles deeds (fun on a among => ?_) fun ended => ?_
      · exact (List.mem_append.1 among).elim (unused' on a) (unused a)
      · exact regular.run_left did there (left ended)
  | @stays _ _ _ _ _ _ _ _ ts x _ begins sent ran same hub₁ done session =>
      subst hub₁ session same done
      -- The hub may change as a whole, and then the registry becomes what others make of it.
      let y : Stay := { x with
        scene := { x.scene with hub := { hub' with registry := x.hub.registry } } }
      have changed : x.next? (.session (.others hub')) = some y := by
        simp [Stay.next?, Scene.next?, Occasion.beside, Occasion.next?, Occasion.text?,
          Occasion.receives, Occasion.act?, Occasion.heard?, Occasion.deed?, Stay.openReaders, y]
      have others := Stay.run?_others (x := y) did unused
      have ran' := Stay.run?_trans (Stay.run?_snoc ran changed) others
      exact .stays begins sent ran' rfl rfl rfl rfl

/-- What the session does itself. -/
theorem next? (h : Lodged (.empty capacity channelCapacity) acts hub deeds s) {o : Occasion}
    (beside : o.beside hub.registry = o) (happened : o.next? hub s = some (hub', s'))
    (there : (hub.registry.cursorOf? s.reader).isSome = true) :
    Lodged (.empty capacity channelCapacity) (acts ++ (o.act? hub s).toList) hub'
      (deeds ++ (o.deed? hub s).toList) s' ∧ (s'.reader = s.reader ∧ s'.roomId = s.roomId) ∧
      hub.registry.run? (o.act? hub s).toList = some hub'.registry := by
  cases h with
  | idles idles done unused left =>
      subst done
      have withdraws := idles.withdraws beside happened
      generalize o.deed? hub s = deed, o.act? hub s = act at withdraws
      cases withdraws with
      | stays idles' stage seat registry =>
          refine ⟨.idles idles' ?_ (fun on => ?_) (fun ended => ?_), seat,
            congrArg some registry.symm⟩
          · rw [stage]
            exact List.append_nil _
          · rw [seat.1, Option.toList_none, List.append_nil]
            exact unused (stage ▸ on)
          · rw [seat.1, registry]
            exact left (stage ▸ ended)
      | closes idles' before stage seat =>
          refine ⟨.idles idles' ?_ (fun _ => ?_) (fun ended => ?_), seat, rfl⟩
          · rw [before, stage]
            rfl
          · rw [seat.1, Option.toList_none, List.append_nil]
            exact unused (by simp [before])
          · rw [stage] at ended
            cases ended
      | leaves idles' before stage seat =>
          refine ⟨.idles idles' ?_ (fun on => absurd stage on) (fun _ => ?_), seat, rfl⟩
          · rw [before, stage]
            rfl
          · obtain ⟨c, found⟩ := Option.isSome_iff_exists.1 there
            rw [seat.1]
            exact Registry.hasLeft_of_cursorOf? (Registry.leave_cursorOf? found)
  | @stays _ _ userId roomId _ _ media _ ts x _ begins sent ran same hub₁ done session =>
      subst hub₁ session same done
      obtain ⟨y, happened', hub₂, session', acts', deeds'⟩ : ∃ y, x.next? (.session o) = some y ∧
          y.hub = hub' ∧ y.session = s' ∧ y.acts = x.acts ++ (o.act? x.hub x.session).toList ∧
          y.deeds = x.deeds ++ (o.deed? x.hub x.session).toList := by
        rw [Stay.next?, beside, Scene.next?, happened]
        exact ⟨_, rfl, rfl, rfl, rfl, rfl⟩
      subst hub₂ session'
      have sound := (Stay.start_sound begins).run ran
      have step := Stay.next?_step sound.kept.fits sound.stands.begun happened'
      obtain ⟨o', noted⟩ := Stay.next?_scene happened'
      have sound' := sound.step (sound.kept.next? noted) step
      refine ⟨.stays begins sent (Stay.run?_snoc ran happened') acts' rfl deeds' rfl,
        ⟨?_, congrArg Session.Seat.roomId (sound'.kept.seat.trans sound.kept.seat.symm)⟩, ?_⟩
      · rw [sound'.reader, sound.reader]
      · have past := sound'.past
        rwa [acts', Registry.run?_append, sound.past, Option.bind_some] at past

/-- When the loops of a session begin that has not used its reader, its stay begins. -/
theorem serve (idles : s.Idles)
    (past : (Registry.empty capacity channelCapacity).run? acts = some hub.registry)
    (served : ∃ t ∈ hub.registry.subscribers, t.roomId = s.roomId ∧ t.phase = .done (.ok s.reader))
    (unused : ∀ a ∈ acts, ∀ op, a.use? ≠ some (s.reader, op)) (media : Option Media) (now : Nat) :
    Lodged (.empty capacity channelCapacity) acts hub [] (s.serve media now) := by
  have begins : Stay.Begins (.empty capacity channelCapacity) acts hub s.roomId s.reader :=
    ⟨past, served, unused⟩
  obtain ⟨pace, same⟩ := idles.serve media now
  let x := Stay.start acts hub (.connecting s.userId s.roomId s.link s.reader pace) media now
  have ran : x.run? [] = some x := rfl
  rw [same]
  cases told : s.cancelled with
  | false => exact .stays begins idles.sent ran rfl rfl rfl rfl
  | true =>
      -- A session that has been told to end is one that is told as soon as it begins.
      have cancelled : ∃ y, x.next? (.session .cancel) = some y ∧ y.acts = x.acts ∧
          y.hub = x.hub ∧ y.deeds = x.deeds ∧ y.session = { x.session with cancelled := true } :=
        ⟨_, rfl, List.append_nil _, rfl, List.append_nil _, rfl⟩
      obtain ⟨y, happened, acts', hub', deeds', session⟩ := cancelled
      exact .stays begins idles.sent (Stay.run?_snoc ran happened) acts' hub' deeds' session

end Lodged

end Roomcast.Peer

import Mathlib.Tactic
import Roomcast.Peer.Session

/-!
# What can happen to a session

A session moves by itself, and between two of its moves its client, the media service and all who
use the same hub do what they please. An `Occasion` is one such event. It names the state in which
links, channels and hubs are left, so that what is shown for every sequence of occasions holds
whatever the other parties do.

Most occasions stand apart from the loop that receives: they leave its state alone, except that it
may quit, and they neither take texts from the link nor send signals.
-/

namespace Roomcast.Peer

variable {hub hub' : Hub} {s s' : Session}

def Link.texts (l : Link) : List String :=
  l.inbox.filterMap fun
    | .text t => some t
    | _ => none

/-- What can happen to a session. -/
inductive Occasion where
  /-- It moves. -/
  | moves (m : Session.Move) (now : Nat)
  /-- Something arrives from its client. -/
  | arrives (a : Arrival)
  /-- The media service sends a signal, or fails to. -/
  | signals (a : Except SignalError Signal)
  /-- The connection to its client becomes better or worse. -/
  | link (echo : Echo) (awaited : Option Echo) (sendFailure closeFailure : Option LinkError)
  /-- The channel to the media service becomes better or worse. -/
  | channel (sendFailure closeFailure : Option SignalError)
  /-- Others use the hub. -/
  | others (hub : Hub)
  /-- It is told to end. -/
  | cancel

namespace Occasion

def next? (hub : Hub) (s : Session) : Occasion → Option (Hub × Session)
  | moves m now => s.move? hub now m
  | arrives a => some (hub, { s with link := s.link.arrive a })
  | signals a => some (hub, { s with media := s.media.map (·.arrive a) })
  | link echo awaited sendFailure closeFailure =>
    some (hub, { s with link := { s.link with echo, awaited, sendFailure, closeFailure } })
  | channel sendFailure closeFailure =>
    some (hub, { s with media := s.media.map fun m => { m with sendFailure, closeFailure } })
  | others hub => some (hub, s)
  | cancel => some (hub, { s with cancelled := true })

def receives : Occasion → Bool
  | moves (.loop .receiving) _ => true
  | _ => false

def text? : Occasion → Option String
  | arrives (.text t) => some t
  | _ => none

end Occasion

namespace Session

def hasBegun (s : Session) : Bool :=
  match s.stage with
  | .serving | .left | .hungUp | .ended => true
  | .connecting | .refused | .dismissed => false

theorem hasBegun_congr (stage : s'.stage = s.stage) : s'.hasBegun = s.hasBegun := by
  rw [hasBegun, hasBegun, stage]

/-- The room, the client and the kind of session: what does not change while it lasts. -/
structure Seat where
  roomId : Uuid
  userId : Uuid
  /-- Whether there is a media channel. -/
  media : Bool

def seat (s : Session) : Seat := ⟨s.roomId, s.userId, s.media.isSome⟩

/-- What stays when something happens that the loop that receives has no part in. -/
structure Apart (s s' : Session) (arrived : List String) : Prop where
  seat : s'.seat = s.seat
  texts : s'.link.texts = s.link.texts ++ arrived
  signals : s'.media.map (·.sent) = s.media.map (·.sent)
  receiving : s'.receiving = s.receiving ∨ s'.receiving = .ended ∧ s'.cancelled = true
  cancelled : s.cancelled = true → s'.cancelled = true
  begun : s.hasBegun = true → s'.hasBegun = true
  serving : s.stage = .serving → s'.stage = .serving ∨ s.receiving = .ended

theorem hasEnded_receiving : s.hasEnded .receiving = true ↔ s.receiving = .ended := by
  rw [hasEnded]
  cases s.receiving <;> simp

/-- A loop that ends by itself, other than the one that receives, leaves that one alone. -/
theorem Apart.endLoop {l : Loop} (other : l ≠ .receiving) : Apart s (s.endLoop l) [] := by
  cases l with
  | receiving => exact absurd rfl other
  | beating | relaying | forwarding =>
      exact ⟨rfl, (List.append_nil _).symm, rfl, .inl rfl, fun _ => rfl, id, .inl⟩

theorem Apart.write {l : Loop} (other : l ≠ .receiving) {f : Frame} {goOn : Session → Session}
    (goes : ∀ link, link.texts = s.link.texts → Apart s (goOn { s with link }) []) :
    Apart s (s.write l f goOn) [] := by
  rw [Session.write]
  split
  case h_1 link sent =>
    refine goes link ?_
    rw [Link.send] at sent
    split at sent
    · cases sent
      rfl
    · cases sent
  case h_2 => exact Apart.endLoop other

theorem Heartbeat.step?_inbox {h h' : Heartbeat} {l l' : Link} {now : Nat}
    (stepped : h.step? l now = some (h', l')) : l'.inbox = l.inbox := by
  rw [Heartbeat.step?] at stepped
  split at stepped
  · cases stepped
  · split at stepped
    · split at stepped <;> cases stepped
      rfl
    · split at stepped
      · cases stepped
        rfl
      · cases stepped
        rfl
      · split at stepped <;> cases stepped
        rfl

theorem stepBeating?_apart {now : Nat} (stepped : s.stepBeating? now = some s') :
    Apart s s' [] := by
  obtain ⟨⟨h, link⟩, beaten, rfl⟩ := Option.map_eq_some_iff.1 stepped
  constructor
  · rfl
  · show Link.texts _ = _
    rw [Link.texts, Heartbeat.step?_inbox beaten, List.append_nil, Link.texts]
  · rfl
  · exact .inl rfl
  · intro cancelled
    exact Bool.or_eq_true_iff.2 (.inl cancelled)
  · exact id
  · exact .inl

theorem stepRelaying?_apart (stepped : s.stepRelaying? = some s') : Apart s s' [] := by
  rw [stepRelaying?] at stepped
  split at stepped
  case h_1 =>
    obtain ⟨⟨media, got⟩, received, rfl⟩ := Option.map_eq_some_iff.1 stepped
    obtain ⟨old, there, taken⟩ := Option.bind_eq_some_iff.1 received
    have sent : media.sent = old.sent := by
      rw [Media.receive?] at taken
      split at taken <;> cases taken
      rfl
    have moved : Apart s { s with media := some media } [] := by
      refine ⟨?_, (List.append_nil _).symm, ?_, .inl rfl, id, id, .inl⟩
      · simp [seat, there]
      · simp [there, sent]
    dsimp only
    split
    · exact ⟨moved.seat, moved.texts, moved.signals, .inl rfl, id, id, .inl⟩
    · exact moved
    · exact ⟨moved.seat, moved.texts, moved.signals, .inl rfl, fun _ => rfl, id, .inl⟩
  case h_2 =>
    obtain rfl := Option.some.inj stepped
    apply Apart.write (by simp)
    intro link texts
    exact ⟨rfl, by rw [List.append_nil]; exact texts, rfl, .inl rfl, id, id, .inl⟩
  case h_3 => cases stepped

theorem stepForwarding?_apart (stepped : s.stepForwarding? hub = some (hub', s')) :
    Apart s s' [] := by
  have still : ∀ q, Apart s { s with forwarding := q } [] := by
    intro q
    exact ⟨rfl, (List.append_nil _).symm, rfl, .inl rfl, id, id, .inl⟩
  rw [stepForwarding?] at stepped
  split at stepped
  case h_1 =>
    cases stepped
    exact still _
  case h_2 =>
    split at stepped
    · dsimp only at stepped
      split at stepped
      · cases stepped
        exact still s.forwarding
      · cases stepped
        exact Apart.endLoop (by simp)
      · split at stepped <;> cases stepped
        · exact still _
        · exact still _
    · cases stepped
  case h_3 =>
    cases stepped
    apply Apart.write (by simp)
    intro link texts
    exact ⟨rfl, by rw [List.append_nil]; exact texts, rfl, .inl rfl, id, id, .inl⟩
  case h_4 => cases stepped

theorem quitLoop?_apart {l : Loop} (quits : s.quitLoop? hub l = some (hub', s')) :
    Apart s s' [] := by
  unfold quitLoop? at quits
  split at quits
  case isTrue may =>
    cases quits
    have told : s.cancelled = true := (Bool.and_eq_true_iff.1 may).1
    have texts := (List.append_nil s.link.texts).symm
    cases l with
    | receiving => exact ⟨rfl, texts, rfl, .inr ⟨rfl, told⟩, id, id, .inl⟩
    | beating | relaying | forwarding => exact ⟨rfl, texts, rfl, .inl rfl, id, id, .inl⟩
  case isFalse => cases quits

theorem finish?_apart (finished : s.finish? hub = some (hub', s')) : Apart s s' [] := by
  have texts := (List.append_nil s.link.texts).symm
  rw [finish?] at finished
  split at finished
  case h_3 serving =>
    split at finished
    case isTrue all =>
      cases finished
      have quit : s.receiving = .ended := by
        apply hasEnded_receiving.1
        simp only [loopsEnded, Bool.and_eq_true] at all
        exact all.1.1.1
      exact ⟨rfl, texts, rfl, .inl rfl, id, fun _ => rfl, fun _ => .inr quit⟩
    case isFalse => cases finished
  case h_4 stage =>
    cases finished
    refine ⟨?_, texts, ?_, .inl rfl, id, fun _ => rfl, fun now => ?_⟩
    · simp [seat]
    · cases s.media <;> rfl
    · rw [stage] at now
      cases now
  case h_6 | h_7 => cases finished
  all_goals
    rename_i stage
    cases finished
    refine ⟨rfl, texts, rfl, .inl rfl, id, fun _ => ?_, fun now => ?_⟩
    · simp_all [hasBegun]
    · rw [stage] at now
      cases now

theorem readWith_store (r : Registry) (h : Registry.Reader)
    (f : Room Event → Nat → Room Event × Option (Except StreamError Event)) :
    (r.readWith h f).1.store = r.store := by
  rw [Registry.readWith]
  split <;> rfl

theorem withRead_of_told (told : s.cancelled = true) :
    s.withRead hub = hub.registry.cancelRead s.reader := if_pos told

theorem withRead_of_untold (untold : s.cancelled = false) : s.withRead hub = hub.registry :=
  if_neg (by simp [untold])

theorem withRead_store : (s.withRead hub).store = hub.registry.store := by
  rw [withRead]
  split_ifs <;> rfl

theorem stepForwarding?_store (stepped : s.stepForwarding? hub = some (hub', s')) :
    hub'.registry.store = hub.registry.store := by
  rw [stepForwarding?] at stepped
  split at stepped
  case h_1 | h_3 =>
    cases stepped
    rfl
  case h_2 =>
    split at stepped
    · obtain rfl :
          ({ hub with registry := ((s.withRead hub).resume s.reader).1 } : Hub) = hub' := by
        dsimp only at stepped
        split at stepped
        · exact congrArg Prod.fst (Option.some.inj stepped)
        · exact congrArg Prod.fst (Option.some.inj stepped)
        · split at stepped <;> exact congrArg Prod.fst (Option.some.inj stepped)
      exact (readWith_store _ _ _).trans withRead_store
    · cases stepped
  case h_4 => cases stepped

/-- Only the loop that receives publishes anything. -/
theorem move?_store {m : Move} {now : Nat} (other : m ≠ .loop .receiving)
    (moved : s.move? hub now m = some (hub', s')) : hub'.registry.store = hub.registry.store := by
  cases m with
  | loop l =>
      rw [move?, Option.ite_none_right_eq_some] at moved
      have stepped := moved.2
      cases l with
      | receiving => exact absurd rfl other
      | beating | relaying =>
          obtain ⟨_, _, same⟩ := Option.map_eq_some_iff.1 stepped
          cases same
          rfl
      | forwarding => exact stepForwarding?_store stepped
  | quit l =>
      rw [move?, Option.ite_none_right_eq_some] at moved
      have quits := moved.2
      unfold quitLoop? at quits
      split at quits
      · cases quits
        split <;> rfl
      · cases quits
  | finish =>
      rw [move?, finish?] at moved
      split at moved
      case h_3 =>
        split at moved <;> cases moved
        rfl
      all_goals cases moved <;> rfl

theorem move?_apart {m : Move} {now : Nat} (other : m ≠ .loop .receiving)
    (moved : s.move? hub now m = some (hub', s')) : Apart s s' [] := by
  cases m with
  | loop l =>
      rw [move?, Option.ite_none_right_eq_some] at moved
      have stepped := moved.2
      cases l with
      | receiving => exact absurd rfl other
      | beating =>
          obtain ⟨_, beaten, same⟩ := Option.map_eq_some_iff.1 stepped
          cases same
          exact stepBeating?_apart beaten
      | relaying =>
          obtain ⟨_, relayed, same⟩ := Option.map_eq_some_iff.1 stepped
          cases same
          exact stepRelaying?_apart relayed
      | forwarding => exact stepForwarding?_apart stepped
  | quit l =>
      rw [move?, Option.ite_none_right_eq_some] at moved
      exact quitLoop?_apart moved.2
  | finish => exact finish?_apart moved

end Session

theorem Link.texts_arrive (l : Link) (a : Arrival) :
    (l.arrive a).texts = l.texts ++ (Occasion.arrives a).text?.toList := by
  rw [Link.texts, Link.arrive, List.filterMap_append]
  cases a <;> rfl

/-- Whatever happens, the loop that receives has no part in it unless it takes a step. -/
theorem Occasion.next?_apart {o : Occasion} (other : o.receives = false)
    (happened : o.next? hub s = some (hub', s')) : s.Apart s' o.text?.toList := by
  have texts := (List.append_nil s.link.texts).symm
  cases o with
  | moves m now =>
      refine Session.move?_apart ?_ happened
      rintro rfl
      cases other
  | arrives a =>
      cases happened
      exact ⟨rfl, s.link.texts_arrive a, rfl, .inl rfl, id, id, .inl⟩
  | signals | channel =>
      cases happened
      refine ⟨?_, texts, ?_, .inl rfl, id, id, .inl⟩
      · simp [Session.seat]
      · cases s.media <;> rfl
  | link | others =>
      cases happened
      exact ⟨rfl, texts, rfl, .inl rfl, id, id, .inl⟩
  | cancel =>
      cases happened
      exact ⟨rfl, texts, rfl, .inl rfl, fun _ => rfl, id, .inl⟩

end Roomcast.Peer

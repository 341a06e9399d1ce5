import Roomcast.Proofs.Occasions

/-!
# How a cancelled session ends

A session that has been told to end does so by itself. Each of its loops quits, and then it leaves
its room, closes its media channel and closes its link. No step of this waits for anything, so it is
over after seven steps at most, and what its room and its client do meanwhile does not matter.
-/

namespace Roomcast.Peer.Session

variable {hub hub' : Hub} {s s' : Session} {now : Nat}

/-- The state of the hub and of a session after some of its steps, or when it can go on no more. -/
def after (s : Session) (hub : Hub) (now : Nat) : Nat → Hub × Session
  | 0 => (hub, s)
  | n + 1 =>
    match s.step? hub now with
    | some (hub, s) => s.after hub now n
    | none => (hub, s)

/-- The number of steps that a session which has begun needs to end, once it has been told to. -/
def toGo (s : Session) : Nat :=
  match s.stage with
  | .serving =>
    3 + (!s.hasEnded .receiving).toNat + (!s.hasEnded .beating).toNat +
      (!s.hasEnded .relaying).toNat + (!s.hasEnded .forwarding).toNat
  | .left => 2
  | .hungUp => 1
  | _ => 0

theorem toGo_le (s : Session) : s.toGo ≤ 7 := by
  have bit : ∀ b : Bool, b.toNat ≤ 1 := Bool.toNat_le
  rw [toGo]
  split
  · have := bit (!s.hasEnded .receiving)
    have := bit (!s.hasEnded .beating)
    have := bit (!s.hasEnded .relaying)
    have := bit (!s.hasEnded .forwarding)
    omega
  all_goals omega

theorem le_toGo_of_serving (serving : s.stage = .serving) : 3 ≤ s.toGo := by
  simp only [toGo, serving]
  omega

theorem toGo_of_left (left : s.stage = .left) : s.toGo = 2 := by simp only [toGo, left]

theorem toGo_of_hungUp (hungUp : s.stage = .hungUp) : s.toGo = 1 := by simp only [toGo, hungUp]

theorem toGo_of_ended (ended : s.stage = .ended) : s.toGo = 0 := by simp only [toGo, ended]

@[simp] theorem hasEnded_stopLoop (s : Session) (l k : Loop) :
    (s.stopLoop l).hasEnded k = (decide (k = l) || s.hasEnded k) := by
  cases l <;> cases k <;> rfl

@[simp] theorem stopLoop_stage (s : Session) (l : Loop) : (s.stopLoop l).stage = s.stage := by
  cases l <;> rfl

theorem quitLoop?_eq_some {l : Loop} (quits : s.quitLoop? hub l = some (hub', s')) :
    s.hasEnded l = false ∧ s' = s.stopLoop l := by
  unfold quitLoop? at quits
  rw [Option.ite_none_right_eq_some, Bool.and_eq_true, Bool.not_eq_true'] at quits
  exact ⟨quits.1.2, (congrArg Prod.snd (Option.some.inj quits.2)).symm⟩

theorem quitLoop?_isSome {l : Loop} (told : s.cancelled = true) (on : s.hasEnded l = false) :
    (s.quitLoop? hub l).isSome = true := by
  unfold quitLoop?
  rw [told, on]
  rfl

/-- A loop that quits brings the session closer to its end. -/
theorem toGo_stopLoop {l : Loop} (serving : s.stage = .serving) (on : s.hasEnded l = false) :
    (s.stopLoop l).toGo < s.toGo := by
  rw [toGo, toGo, stopLoop_stage, serving]
  cases l <;> simp [on]

theorem finish?_toGo (begun : s.hasBegun = true) (finished : s.finish? hub = some (hub', s')) :
    s'.toGo < s.toGo ∧ s'.cancelled = s.cancelled := by
  rw [finish?] at finished
  rw [hasBegun] at begun
  split at finished
  case h_1 stage | h_2 stage =>
    rw [stage] at begun
    cases begun
  case h_3 stage =>
    rw [Option.ite_none_right_eq_some] at finished
    cases finished.2
    refine ⟨?_, rfl⟩
    rw [toGo_of_left rfl]
    exact le_toGo_of_serving stage
  case h_4 stage =>
    cases finished
    refine ⟨?_, rfl⟩
    rw [toGo_of_hungUp rfl, toGo_of_left stage]
    exact Nat.one_lt_two
  case h_5 stage =>
    cases finished
    refine ⟨?_, rfl⟩
    rw [toGo_of_ended rfl, toGo_of_hungUp stage]
    exact Nat.one_pos
  case h_6 | h_7 => cases finished

/-- A cancelled session that has not ended can go on. -/
theorem step?_isSome (hub : Hub) (now : Nat) (told : s.cancelled = true) (begun : s.hasBegun = true)
    (on : s.stage ≠ .ended) : (s.step? hub now).isSome = true := by
  have able : ∃ m ∈ s.moves, (s.move? hub now m).isSome = true := by
    by_cases quits : s.stage = .serving ∧ ∃ l, s.hasEnded l = false
    · obtain ⟨serving, l, open'⟩ := quits
      refine ⟨.quit l, ?_, ?_⟩
      · rw [moves, told]
        cases l <;> simp [loops]
      · rw [move?, if_pos serving]
        exact quitLoop?_isSome told open'
    · refine ⟨.finish, by simp [moves], ?_⟩
      rw [move?, finish?]
      rw [hasBegun] at begun
      split
      case h_3 serving =>
        have closed : s.loopsEnded = true := by
          have ended : ∀ l, s.hasEnded l = true := by simpa [serving] using quits
          simp [loopsEnded, ended]
        rw [if_pos closed]
        rfl
      case h_6 stage =>
        rw [stage] at begun
        cases begun
      case h_7 stage => exact absurd stage on
      all_goals rfl
  rw [step?, List.findSome?_isSome_iff]
  exact able

/-- Each step of a cancelled session brings it closer to its end. -/
theorem step?_toGo (told : s.cancelled = true) (begun : s.hasBegun = true)
    (stepped : s.step? hub now = some (hub', s')) :
    s'.toGo < s.toGo ∧ s'.cancelled = true ∧ s'.hasBegun = true := by
  obtain ⟨m, among, moved⟩ := List.exists_of_findSome?_eq_some stepped
  rw [moves, told, if_pos rfl] at among
  have other : m ≠ .loop .receiving := by
    rintro rfl
    simp [loops] at among
  have apart := move?_apart other moved
  refine ⟨?_, apart.cancelled told, apart.begun begun⟩
  obtain quits | last := List.mem_append.1 among
  · obtain ⟨l, _, rfl⟩ := List.mem_map.1 quits
    rw [move?, Option.ite_none_right_eq_some] at moved
    obtain ⟨on, rfl⟩ := quitLoop?_eq_some moved.2
    exact toGo_stopLoop moved.1 on
  · obtain rfl := List.mem_singleton.1 last
    exact (finish?_toGo begun moved).1

theorem after_stage {n : Nat} (told : s.cancelled = true) (begun : s.hasBegun = true)
    (enough : s.toGo ≤ n) : (s.after hub now n).2.stage = .ended := by
  induction n generalizing s hub with
  | zero =>
      by_contra on
      obtain ⟨⟨hub', s'⟩, stepped⟩ :=
        Option.isSome_iff_exists.1 (step?_isSome hub now told begun on)
      have := (step?_toGo told begun stepped).1
      omega
  | succ n ih =>
      rw [after]
      split
      case h_1 hub' s' stepped =>
        obtain ⟨less, told', begun'⟩ := step?_toGo told begun stepped
        exact ih told' begun' (by omega)
      case h_2 stuck =>
        by_contra on
        have goes := step?_isSome hub now told begun on
        rw [stuck] at goes
        cases goes

/-- A cancelled session ends within seven steps. -/
theorem after_ended (told : s.cancelled = true) (begun : s.hasBegun = true) :
    (s.after hub now 7).2.stage = .ended := after_stage told begun s.toGo_le

end Roomcast.Peer.Session

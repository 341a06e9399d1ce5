import Roomcast.Proofs.Parting

/-!
# When pings are sent and when they end

A client reacts to each ping in its own way: it answers after some time, its connection fails after
some time, or nothing ever happens. This alone tells when each ping is sent and when it ends. A ping
is sent when it is due, or when the ping before it has ended if that is later. It ends with its
answer, with its failure, or when its time is up.

A heartbeat is on time if it stands where the reactions say. Its steps keep it so, and so does the
time that passes while it rests. When it stops, the last ping has just ended without an answer.
-/

namespace Roomcast.Peer

variable {ω : Nat → Echo} {hub hub' : Hub} {s s' : Session}

/-- What has become of a ping by a time, if this is how and when its client reacts. -/
def Echo.by? (now : Nat) : Echo → Option (Except LinkError Unit)
  | answer time => if time ≤ now then some (.ok ()) else none
  | failure time e => if time ≤ now then some (.error e) else none
  | silence => none

theorem Link.echoed?_eq (l : Link) (now : Nat) : l.echoed? now = l.awaited.bind (·.by? now) := by
  rw [echoed?]
  cases l.awaited with
  | none => rfl
  | some e => cases e <;> rfl

namespace Pace

variable {p : Pace} {j k n t : Nat}

/-- Whether a ping is answered in time, where the times of the reaction count from the ping. -/
def succeeds (p : Pace) : Echo → Bool
  | .answer delay => decide (delay ≤ p.timeout)
  | .failure .. | .silence => false

def lasts (p : Pace) : Echo → Nat
  | .answer delay | .failure delay _ => min delay p.timeout
  | .silence => p.timeout

/-- When a ping is sent, counted from the start: when it is due, or when the ping before it has
ended if that is later. -/
def sendsAt (p : Pace) (ω : Nat → Echo) : Nat → Nat
  | 0 => 0
  | k + 1 => max ((k + 1) * p.interval) (p.sendsAt ω k + p.lasts (ω k))

def endsAt (p : Pace) (ω : Nat → Echo) (k : Nat) : Nat := p.sendsAt ω k + p.lasts (ω k)

/-- All pings before one are answered in time. -/
def Reaches (p : Pace) (ω : Nat → Echo) (n : Nat) : Prop := ∀ k < n, p.succeeds (ω k) = true

theorem sendsAt_succ (p : Pace) (ω : Nat → Echo) (k : Nat) :
    p.sendsAt ω (k + 1) = max ((k + 1) * p.interval) (p.endsAt ω k) := rfl

theorem sendsAt_le_endsAt (p : Pace) (ω : Nat → Echo) (k : Nat) : p.sendsAt ω k ≤ p.endsAt ω k :=
  Nat.le_add_right _ _

theorem due_le_sendsAt (p : Pace) (ω : Nat → Echo) (k : Nat) : k * p.interval ≤ p.sendsAt ω k := by
  cases k with
  | zero => simp
  | succ k => exact Nat.le_max_left _ _

/-- A ping is sent as soon as it is due and the one before it has ended. -/
theorem sendsAt_le_iff : p.sendsAt ω n ≤ t ↔
    n * p.interval ≤ t ∧ ∀ k, k + 1 = n → p.endsAt ω k ≤ t := by
  cases n with
  | zero => simp [sendsAt]
  | succ n => simp [sendsAt_succ]

theorem endsAt_le_sendsAt (p : Pace) (ω : Nat → Echo) (earlier : j < k) :
    p.endsAt ω j ≤ p.sendsAt ω k := by
  induction k, earlier using Nat.le_induction with
  | base => exact Nat.le_max_right _ _
  | succ k _ ih =>
      calc p.endsAt ω j ≤ p.sendsAt ω k := ih
        _ ≤ p.endsAt ω k := p.sendsAt_le_endsAt ω k
        _ ≤ p.sendsAt ω (k + 1) := Nat.le_max_right _ _

theorem sendsAt_mono (p : Pace) (ω : Nat → Echo) (earlier : j ≤ k) :
    p.sendsAt ω j ≤ p.sendsAt ω k := by
  obtain rfl | earlier := Nat.eq_or_lt_of_le earlier
  · rfl
  · exact (p.sendsAt_le_endsAt ω j).trans (p.endsAt_le_sendsAt ω earlier)

theorem endsAt_mono (p : Pace) (ω : Nat → Echo) (earlier : j ≤ k) :
    p.endsAt ω j ≤ p.endsAt ω k := by
  obtain rfl | earlier := Nat.eq_or_lt_of_le earlier
  · rfl
  · exact (p.endsAt_le_sendsAt ω earlier).trans (p.sendsAt_le_endsAt ω k)

theorem Reaches.succ (reaches : p.Reaches ω n) (answered : p.succeeds (ω n) = true) :
    p.Reaches ω (n + 1) := by
  intro k earlier
  obtain earlier | rfl := Nat.lt_succ_iff_lt_or_eq.1 earlier
  · exact reaches k earlier
  · exact answered

/-- A ping that fails is not before one that is reached. -/
theorem Reaches.le (reaches : p.Reaches ω n) (fails : p.succeeds (ω k) = false) : n ≤ k := by
  by_contra later
  rw [reaches k (by omega)] at fails
  cases fails

/-- What is known at a time of the ping that was sent last, if it has lasted no longer than it
may. -/
theorem lasts_cases {e : Echo} {sent now : Nat} (lasting : now ≤ sent + p.lasts e) :
    ((e.since sent).by? now = some (.ok ()) ∧ p.succeeds e = true ∧ now = sent + p.lasts e) ∨
      (∃ err, (e.since sent).by? now = some (.error err) ∧ p.succeeds e = false ∧
        now = sent + p.lasts e) ∨
      ((e.since sent).by? now = none ∧ (sent + p.timeout ≤ now →
        p.succeeds e = false ∧ now = sent + p.lasts e) ∧
        (now < sent + p.timeout → now + 1 ≤ sent + p.lasts e)) := by
  cases e with
  | silence =>
      simp only [lasts] at lasting
      exact .inr (.inr ⟨rfl, fun up => ⟨rfl, by simp only [lasts]; omega⟩, id⟩)
  | answer delay =>
      simp only [lasts] at lasting
      by_cases come : sent + delay ≤ now
      · refine .inl ⟨if_pos come, ?_, ?_⟩ <;> simp [succeeds, lasts] <;> omega
      · refine .inr (.inr ⟨if_neg come, fun up => ?_, fun on => ?_⟩) <;>
          simp [succeeds, lasts] <;> omega
  | failure delay err =>
      simp only [lasts] at lasting
      by_cases come : sent + delay ≤ now
      · exact .inr (.inl ⟨err, if_pos come, rfl, by simp only [lasts]; omega⟩)
      · refine .inr (.inr ⟨if_neg come, fun up => ?_, fun on => ?_⟩) <;>
          simp [succeeds, lasts] <;> omega

end Pace

namespace Heartbeat

variable {h h' : Heartbeat} {l l' : Link} {now n k : Nat}

/-- A heartbeat that has sent `n` pings goes on and stands where the reactions of its client say. -/
structure OnTime (ω : Nat → Echo) (now n : Nat) (h : Heartbeat) : Prop where
  on : h.ended = false
  started : h.start ≤ now
  reaches : h.pace.Reaches ω h.answered
  /-- It waits for the next ping to be due. -/
  waits : h.since = none → n = h.answered ∧ now ≤ h.start + h.pace.sendsAt ω n ∧
    ∀ k, k + 1 = n → h.start + h.pace.endsAt ω k ≤ now
  /-- It waits for an answer. -/
  beats : ∀ sent, h.since = some sent → n = h.answered + 1 ∧
    sent = h.start + h.pace.sendsAt ω h.answered ∧ sent ≤ now ∧
    now ≤ h.start + h.pace.endsAt ω h.answered

/-- The link knows of the last ping what its client's reaction says. -/
def Agrees (ω : Nat → Echo) (now : Nat) (h : Heartbeat) (l : Link) : Prop :=
  ∀ sent, h.since = some sent → l.echoed? now = ((ω h.answered).since sent).by? now

theorem begin_onTime (ω : Nat → Echo) (p : Pace) (now : Nat) : (begin p now).OnTime ω now 0 := by
  refine ⟨rfl, Nat.le_refl _, fun k earlier => absurd earlier k.not_lt_zero, fun _ => ?_, nofun⟩
  exact ⟨rfl, Nat.le_refl _, fun k first => absurd first k.succ_ne_zero⟩

/-- What a step does to a heartbeat that is on time. -/
inductive Beats (ω : Nat → Echo) (now n : Nat) (h : Heartbeat) (l : Link) : Heartbeat → Link → Prop
  /-- It sends a ping. -/
  | pings (waits : h.since = none) (when : now = h.start + h.pace.sendsAt ω n)
      (onTime : OnTime ω now (n + 1) { h with since := some now }) :
    Beats ω now n h l { h with since := some now } (l.ping now)
  /-- It learns of an answer. -/
  | learns {sent : Nat} (since : h.since = some sent)
      (onTime : OnTime ω now n { h with since := none, answered := h.answered + 1 }) :
    Beats ω now n h l { h with since := none, answered := h.answered + 1 } l
  /-- It stops, for the last ping has just ended without an answer. -/
  | stops (last : n = h.answered + 1) (fails : h.pace.succeeds (ω h.answered) = false)
      (when : now = h.start + h.pace.endsAt ω h.answered) :
    Beats ω now n h l h.stop l

/-- A ping that is due is not sent too early, for the one before it has ended. -/
theorem OnTime.when (onTime : h.OnTime ω now n) (waits : h.since = none) (due : h.due ≤ now) :
    now = h.start + h.pace.sendsAt ω n := by
  obtain ⟨rfl, early, free⟩ := onTime.waits waits
  have started := onTime.started
  have late : h.pace.sendsAt ω h.answered ≤ now - h.start := by
    refine Pace.sendsAt_le_iff.2 ⟨?_, fun k before => ?_⟩
    · rw [Heartbeat.due] at due
      omega
    · have := free k before
      omega
  omega

/-- A ping that waits for its answer has lasted no longer than it may. -/
theorem OnTime.lasting (onTime : h.OnTime ω now n) {sent : Nat} (last : h.since = some sent) :
    sent + h.pace.lasts (ω h.answered) = h.start + h.pace.endsAt ω h.answered ∧
      now ≤ sent + h.pace.lasts (ω h.answered) := by
  obtain ⟨_, began, _, lasting⟩ := onTime.beats sent last
  have ends : sent + h.pace.lasts (ω h.answered) = h.start + h.pace.endsAt ω h.answered := by
    rw [began, Pace.endsAt, Nat.add_assoc]
  exact ⟨ends, ends ▸ lasting⟩

theorem OnTime.step? (onTime : h.OnTime ω now n) (agrees : h.Agrees ω now l)
    (stepped : h.step? l now = some (h', l')) : Beats ω now n h l h' l' := by
  rw [Heartbeat.step?, if_neg (by simp [onTime.on])] at stepped
  cases last : h.since with
  | none =>
      rw [last, Option.ite_none_right_eq_some] at stepped
      obtain ⟨due, stepped⟩ := stepped
      cases stepped
      have when := onTime.when last due
      obtain ⟨rfl, _⟩ := onTime.waits last
      have := h.pace.sendsAt_le_endsAt ω h.answered
      refine .pings last when ⟨onTime.on, onTime.started, onTime.reaches, ?_, ?_⟩
      · intro none
        cases none
      · rintro _ ⟨⟩
        exact ⟨rfl, when, Nat.le_refl _, by show now ≤ h.start + h.pace.endsAt ω h.answered; omega⟩
  | some sent =>
      obtain ⟨ends, lasting⟩ := onTime.lasting last
      obtain ⟨rfl, _⟩ := onTime.beats sent last
      have known := agrees sent last
      rw [last] at stepped
      simp only [known] at stepped
      obtain ⟨ok, answered, when⟩ | ⟨err, failed, fails, when⟩ | ⟨open', up, _⟩ :=
        Pace.lasts_cases lasting
      · rw [ok] at stepped
        cases stepped
        rw [ends] at when
        have reaches := onTime.reaches.succ answered
        refine .learns last ⟨onTime.on, onTime.started, reaches, fun _ => ⟨rfl, ?_, ?_⟩, by simp⟩
        · have := h.pace.endsAt_le_sendsAt ω (Nat.lt_add_one h.answered)
          show now ≤ h.start + h.pace.sendsAt ω (h.answered + 1)
          omega
        · intro k before
          obtain rfl := Nat.succ.inj before
          exact when.ge
      · rw [failed] at stepped
        cases stepped
        exact .stops rfl fails (when.trans ends)
      · simp only [open', Option.ite_none_right_eq_some] at stepped
        obtain ⟨late, same⟩ := stepped
        cases same
        exact .stops rfl (up late).1 ((up late).2.trans ends)

/-- A bound on the number of steps that a heartbeat can take before time has to pass. -/
def toGo (h : Heartbeat) (now : Nat) : Nat :=
  2 * (now + 1 - (h.start + h.answered)) + if h.since = none then 1 else 0

/-- Pings catch up, but unless they follow each other without a pause they do so in finitely many
steps. -/
theorem Beats.toGo (beats : Beats ω now n h l h' l') (onTime : h.OnTime ω now n)
    (pauses : 0 < h.pace.interval) (on : h'.ended = false) : h'.toGo now < h.toGo now := by
  cases beats with
  | pings waits => simp [Heartbeat.toGo, waits]
  | learns last =>
      obtain ⟨_, began, past, _⟩ := onTime.beats _ last
      have due := h.pace.due_le_sendsAt ω h.answered
      have := Nat.le_mul_of_pos_right h.answered pauses
      simp only [Heartbeat.toGo, last]
      simp
      omega
  | stops => cases on

/-- Time passes only while nothing is to be done. -/
theorem OnTime.passes (onTime : h.OnTime ω now n) (agrees : h.Agrees ω now l)
    (rests : h.step? l now = none) : h.OnTime ω (now + 1) n := by
  rw [Heartbeat.step?, if_neg (by simp [onTime.on])] at rests
  have started := onTime.started
  refine ⟨onTime.on, by omega, onTime.reaches, fun last => ?_, fun sent last => ?_⟩
  · obtain ⟨rfl, early, free⟩ := onTime.waits last
    rw [last, ite_eq_right_iff] at rests
    have early : ¬ h.due ≤ now := by
      intro due
      cases rests due
    have := h.pace.due_le_sendsAt ω h.answered
    rw [Heartbeat.due] at early
    exact ⟨rfl, by omega, fun k before => (free k before).trans now.le_succ⟩
  · obtain ⟨ends, lasting⟩ := onTime.lasting last
    obtain ⟨rfl, began, after, _⟩ := onTime.beats sent last
    rw [← ends]
    simp only [last, agrees sent last] at rests
    obtain ⟨ok, _⟩ | ⟨err, failed, _⟩ | ⟨open', _, on⟩ := Pace.lasts_cases lasting
    · rw [ok] at rests
      cases rests
    · rw [failed] at rests
      cases rests
    · simp only [open', ite_eq_right_iff] at rests
      have early : ¬ sent + h.pace.timeout ≤ now := by
        intro up
        cases rests up
      exact ⟨rfl, began, by omega, on (by omega)⟩

/-- Every ping has been sent whose time has passed. -/
theorem OnTime.prompt (onTime : h.OnTime ω now n) (late : h.start + h.pace.sendsAt ω k < now) :
    k < n := by
  by_contra none
  cases last : h.since with
  | none =>
      obtain ⟨rfl, early, _⟩ := onTime.waits last
      have := h.pace.sendsAt_mono ω (Nat.le_of_not_lt none)
      omega
  | some sent =>
      obtain ⟨rfl, _, _, lasting⟩ := onTime.beats sent last
      have := h.pace.endsAt_le_sendsAt ω (Nat.lt_of_succ_le (Nat.le_of_not_lt none))
      omega

/-- The heartbeat does not outlast a ping that fails. -/
theorem OnTime.early (onTime : h.OnTime ω now n) (fails : h.pace.succeeds (ω k) = false) :
    now ≤ h.start + h.pace.endsAt ω k := by
  have ends := h.pace.endsAt_mono ω (onTime.reaches.le fails)
  cases last : h.since with
  | none =>
      obtain ⟨rfl, early, _⟩ := onTime.waits last
      have := h.pace.sendsAt_le_endsAt ω h.answered
      omega
  | some sent =>
      have := (onTime.beats sent last).2.2.2
      omega

end Heartbeat

theorem Link.receive?_pings {l l' : Link} {got : Option (Except LinkError String)}
    (received : l.receive? = some (l', got)) : l'.pings = l.pings := by
  rw [Link.receive?] at received
  split at received
  · cases received
  · have same := congrArg Prod.fst (Option.some.inj received)
    dsimp only at same
    split at same <;> exact same ▸ rfl

namespace Session

/-- What stays when something happens that is no step of the heartbeat. -/
structure Steady (s s' : Session) : Prop where
  pings : s'.link.pings = s.link.pings
  heartbeat : s'.heartbeat = s.heartbeat ∨ s'.heartbeat = s.heartbeat.stop ∧ s.cancelled = true
  cancelled : s.cancelled = true → s'.cancelled = true
  begun : s.hasBegun = true → s'.hasBegun = true
  serving : s.stage = .serving → s'.stage = .serving ∨ s.heartbeat.ended = true
  ended : s.stage = .ended → s'.stage = .ended

theorem Steady.pace (steady : Steady s s') :
    s'.heartbeat.pace = s.heartbeat.pace ∧ s'.heartbeat.start = s.heartbeat.start := by
  obtain same | ⟨same, _⟩ := steady.heartbeat
  · rw [same]
    exact ⟨rfl, rfl⟩
  · rw [same]
    exact ⟨rfl, rfl⟩

/-- Other parts of a session have nothing to do with the heartbeat. -/
theorem Steady.of_eq (pings : s'.link.pings = s.link.pings) (heartbeat : s'.heartbeat = s.heartbeat)
    (cancelled : s.cancelled = true → s'.cancelled = true) (stage : s'.stage = s.stage) :
    Steady s s' :=
  ⟨pings, .inl heartbeat, cancelled, (hasBegun_congr stage).trans,
    fun now => .inl (stage.trans now), stage.trans⟩

theorem Steady.endLoop {l : Loop} (other : l ≠ .beating) (pings : s'.link.pings = s.link.pings)
    (heartbeat : s'.heartbeat = s.heartbeat) (stage : s'.stage = s.stage) :
    Steady s (s'.endLoop l) := by
  cases l with
  | beating => exact absurd rfl other
  | receiving | relaying | forwarding => exact .of_eq pings heartbeat (fun _ => rfl) stage

theorem Steady.write {l : Loop} (other : l ≠ .beating) {f : Frame} {goOn : Session → Session}
    (goes : ∀ link, link.pings = s.link.pings → Steady s (goOn { s with link })) :
    Steady s (s.write l f goOn) := by
  rw [Session.write]
  split
  case h_1 link sent =>
    refine goes link ?_
    rw [Link.send] at sent
    split at sent <;> cases sent
    rfl
  case h_2 => exact .endLoop other rfl rfl rfl

theorem stepReceiving?_steady (stepped : s.stepReceiving? hub = some (hub', s')) : Steady s s' := by
  rw [stepReceiving?] at stepped
  split at stepped
  case h_1 =>
    obtain ⟨⟨link, got⟩, received, same⟩ := Option.map_eq_some_iff.1 stepped
    have pings := Link.receive?_pings received
    dsimp only at same
    split at same
    · cases same
      exact .of_eq pings rfl id rfl
    · rw [take] at same
      split at same
      case h_1 =>
        cases same
        split
        · exact .of_eq pings rfl id rfl
        · exact .endLoop (by simp) pings rfl rfl
      all_goals
        cases same
        exact .of_eq pings rfl id rfl
    · cases same
      exact .endLoop (by simp) pings rfl rfl
  case h_2 =>
    obtain ⟨media, _, same⟩ := Option.map_eq_some_iff.1 stepped
    split at same <;> cases same
    · exact .of_eq rfl rfl id rfl
    · exact .endLoop (by simp) rfl rfl rfl
  case h_3 =>
    split at stepped <;> cases stepped
    · exact .of_eq rfl rfl id rfl
    · exact .endLoop (by simp) rfl rfl rfl
  case h_4 =>
    cases stepped
    apply Steady.write (by simp)
    intro link pings
    exact .of_eq pings rfl id rfl
  case h_5 => cases stepped

theorem stepRelaying?_steady (stepped : s.stepRelaying? = some s') : Steady s s' := by
  rw [stepRelaying?] at stepped
  split at stepped
  case h_1 =>
    obtain ⟨⟨media, got⟩, _, rfl⟩ := Option.map_eq_some_iff.1 stepped
    dsimp only
    split
    · exact .of_eq rfl rfl id rfl
    · exact .of_eq rfl rfl id rfl
    · exact .endLoop (by simp) rfl rfl rfl
  case h_2 =>
    cases stepped
    apply Steady.write (by simp)
    intro link pings
    exact .of_eq pings rfl id rfl
  case h_3 => cases stepped

theorem stepForwarding?_steady (stepped : s.stepForwarding? hub = some (hub', s')) :
    Steady s s' := by
  rw [stepForwarding?] at stepped
  split at stepped
  case h_1 =>
    cases stepped
    exact .of_eq rfl rfl id rfl
  case h_2 =>
    split at stepped
    · dsimp only at stepped
      split at stepped
      · cases stepped
        exact .of_eq rfl rfl id rfl
      · cases stepped
        exact .endLoop (by simp) rfl rfl rfl
      · split at stepped <;> cases stepped <;> exact .of_eq rfl rfl id rfl
    · cases stepped
  case h_3 =>
    cases stepped
    apply Steady.write (by simp)
    intro link pings
    exact .of_eq pings rfl id rfl
  case h_4 => cases stepped

theorem quitLoop?_steady {l : Loop} (quits : s.quitLoop? hub l = some (hub', s')) :
    Steady s s' := by
  unfold quitLoop? at quits
  rw [Option.ite_none_right_eq_some, Bool.and_eq_true] at quits
  obtain ⟨⟨told, _⟩, same⟩ := quits
  cases same
  cases l with
  | beating => exact ⟨rfl, .inr ⟨rfl, told⟩, id, id, .inl, id⟩
  | receiving | relaying | forwarding => exact .of_eq rfl rfl id rfl

theorem finish?_steady (finished : s.finish? hub = some (hub', s')) : Steady s s' := by
  have begun := (finish?_apart finished).begun
  rw [finish?] at finished
  split at finished
  case h_3 stage =>
    split at finished
    case isTrue all =>
      cases finished
      have beats : s.heartbeat.ended = true := by
        simp only [loopsEnded, Bool.and_eq_true] at all
        exact all.1.1.2
      exact ⟨rfl, .inl rfl, id, begun, fun _ => .inr beats, by simp [stage]⟩
    case isFalse => cases finished
  case h_6 | h_7 => cases finished
  all_goals
    rename_i stage
    cases finished
    exact ⟨rfl, .inl rfl, id, begun, by simp [stage], by simp [stage]⟩

theorem move?_steady {m : Move} {now : Nat} (other : m ≠ .loop .beating)
    (moved : s.move? hub now m = some (hub', s')) : Steady s s' := by
  cases m with
  | loop l =>
      rw [move?, Option.ite_none_right_eq_some] at moved
      have stepped := moved.2
      cases l with
      | beating => exact absurd rfl other
      | receiving => exact stepReceiving?_steady stepped
      | relaying =>
          obtain ⟨_, relayed, same⟩ := Option.map_eq_some_iff.1 stepped
          cases same
          exact stepRelaying?_steady relayed
      | forwarding => exact stepForwarding?_steady stepped
  | quit l =>
      rw [move?, Option.ite_none_right_eq_some] at moved
      exact quitLoop?_steady moved.2
  | finish => exact finish?_steady moved

end Session

def Occasion.beats : Occasion → Bool
  | moves (.loop .beating) _ => true
  | _ => false

theorem Occasion.eq_of_beats {o : Occasion} (beats : o.beats = true) :
    ∃ now, o = .moves (.loop .beating) now := by
  unfold Occasion.beats at beats
  split at beats
  · exact ⟨_, rfl⟩
  · cases beats

/-- Whatever happens, the heartbeat goes on as it was unless it takes a step or quits. -/
theorem Occasion.next?_steady {o : Occasion} (other : o.beats = false)
    (happened : o.next? hub s = some (hub', s')) : s.Steady s' := by
  cases o with
  | moves m now =>
      refine Session.move?_steady ?_ happened
      rintro rfl
      cases other
  | arrives | signals | link | channel | others =>
      cases happened
      exact .of_eq rfl rfl id rfl
  | cancel =>
      cases happened
      exact .of_eq rfl rfl (fun _ => rfl) rfl

end Roomcast.Peer

import Roomcast.Proofs.Stays

/-!
# How a session stands

The loops of a session end together: one that has ended has told the session to end, and a session
that has been told lets its loops quit. So as long as a session does not come to its end all its
loops act, and it comes to its end only when all of them have ended.

Its reader is open while the loop that passes events on acts. It closes once, be it that a read
fails or that the session leaves its room, and from then on it is no longer counted.
-/

namespace Roomcast.Peer

variable {hub hub' : Hub} {s s' : Session} {deed : Option Deed} {act : Option Registry.Action}

namespace Session

theorem hasEnded_relaying : s.hasEnded .relaying = true ↔ s.relaying = .ended := by
  rw [hasEnded]
  cases s.relaying <;> simp

theorem hasEnded_forwarding : s.hasEnded .forwarding = true ↔ s.forwarding = .ended := by
  rw [hasEnded]
  cases s.forwarding <;> simp

/-- What lasts while the loops of a session act. -/
structure Lasts (s s' : Session) : Prop where
  reader : s'.reader = s.reader
  stage : s'.stage = s.stage
  media : s'.media.isSome = s.media.isSome
  closes : s'.link.closes = s.link.closes
  mediaCloses : s'.media.map (·.closes) = s.media.map (·.closes)
  told : s.cancelled = true → s'.cancelled = true
  /-- A loop that has ended does not begin again. -/
  stays : ∀ l, s.hasEnded l = true → s'.hasEnded l = true
  /-- A loop that ends tells the session to end. -/
  ends : ∀ l, s'.hasEnded l = true → s.hasEnded l = true ∨ s'.cancelled = true

/-- A loop ends by itself. -/
theorem Lasts.endLoop {s₁ : Session} (near : s.Lasts s₁) (l : Loop) : s.Lasts (s₁.endLoop l) := by
  have stays : ∀ k, (s₁.endLoop l).hasEnded k = (decide (k = l) || s₁.hasEnded k) :=
    hasEnded_stopLoop s₁ l
  constructor
  case told => exact fun _ => rfl
  case ends => exact fun _ _ => .inr rfl
  case stays =>
    intro k ended
    rw [stays, near.stays k ended, Bool.or_true]
  case reader => cases l <;> exact near.reader
  case stage => cases l <;> exact near.stage
  case media => cases l <;> exact near.media
  case closes => cases l <;> exact near.closes
  case mediaCloses => cases l <;> exact near.mediaCloses

/-- A loop quits. -/
theorem Lasts.stopLoop (told : s.cancelled = true) (l : Loop) : s.Lasts (s.stopLoop l) := by
  have still : (s.stopLoop l).cancelled = true := by cases l <;> exact told
  constructor
  case told => exact fun _ => still
  case ends => exact fun _ _ => .inr still
  case stays =>
    intro k ended
    rw [hasEnded_stopLoop, ended, Bool.or_true]
  all_goals cases l <;> rfl

/-- A loop goes on. -/
theorem Lasts.goOn (same : s'.hasEnded = s.hasEnded) (told : s'.cancelled = s.cancelled)
    (seat : s'.reader = s.reader ∧ s'.stage = s.stage)
    (media : s'.media.map (·.closes) = s.media.map (·.closes))
    (closes : s'.link.closes = s.link.closes) : s.Lasts s' where
  reader := seat.1
  stage := seat.2
  media := by rw [← Option.isSome_map (f := (·.closes)), media, Option.isSome_map]
  closes := closes
  mediaCloses := media
  told before := told.trans before
  stays l ended := by rw [same]; exact ended
  ends l ended := .inl (by rw [← same]; exact ended)

/-- The loop that receives goes on. -/
theorem Lasts.receive {s₁ : Session} (near : s.Lasts s₁) (on : s.receiving ≠ .ended)
    {q : Receiving} (on' : q ≠ .ended) : s.Lasts { s₁ with receiving := q } where
  reader := near.reader
  stage := near.stage
  media := near.media
  closes := near.closes
  mediaCloses := near.mediaCloses
  told := near.told
  stays l ended := by
    cases l with
    | receiving => exact absurd (hasEnded_receiving.1 ended) on
    | beating => exact near.stays .beating ended
    | relaying => exact near.stays .relaying ended
    | forwarding => exact near.stays .forwarding ended
  ends l ended := by
    cases l with
    | receiving => exact absurd (hasEnded_receiving.1 ended) on'
    | beating => exact near.ends .beating ended
    | relaying => exact near.ends .relaying ended
    | forwarding => exact near.ends .forwarding ended

/-- What a loop does lasts. -/
theorem Went.lasts (went : Went hub s deed act hub' s') : s.Lasts s' := by
  have loops : ∀ {link : Link} {media : Option Media} {relaying : Relaying}
      {forwarding : Forwarding}, (relaying = .ended ↔ s.relaying = .ended) →
      (forwarding = .ended ↔ s.forwarding = .ended) →
      { s with link, media, relaying, forwarding }.hasEnded = s.hasEnded := by
    intro link media relaying forwarding relays forwards
    funext l
    cases l with
    | receiving | beating => rfl
    | relaying => rw [Bool.eq_iff_iff, hasEnded_relaying, hasEnded_relaying, relays]
    | forwarding => rw [Bool.eq_iff_iff, hasEnded_forwarding, hasEnded_forwarding, forwards]
  have still : ∀ {link : Link}, s.link.Still link → s.Lasts { s with link } := fun still =>
    .goOn (loops Iff.rfl Iff.rfl) rfl ⟨rfl, rfl⟩ rfl still.closes
  cases went with
  | ponders waits near on => exact (still near).receive (by simp [waits]) on
  | performs on performed on' =>
      obtain ⟨link, media, rfl, closes, channel⟩ := Effect.perform?_frame performed
      have mediaCloses : media.map (·.closes) = s.media.map (·.closes) := by
        simpa [Function.comp_def] using congrArg (Option.map Prod.snd) channel
      refine Lasts.receive ?_ on on'
      exact .goOn (loops Iff.rfl Iff.rfl) rfl ⟨rfl, rfl⟩ mediaCloses closes
  | fails near => exact (still near).endLoop .receiving
  | beats near on =>
      refine ⟨rfl, rfl, rfl, near.closes, rfl, fun told => Bool.or_eq_true_iff.2 (.inl told),
        ?_, ?_⟩
      · intro l ended
        cases l with
        | beating =>
            rw [hasEnded, on] at ended
            cases ended
        | receiving | relaying | forwarding => exact ended
      · intro l ended
        cases l with
        | beating => exact .inr (Bool.or_eq_true_iff.2 (.inr ended))
        | receiving | relaying | forwarding => exact .inl ended
  | hears waits channel =>
      refine .goOn (loops (by simp [waits]) Iff.rfl) rfl ⟨rfl, rfl⟩ (by rw [channel]; rfl) rfl
  | overhears waits channel =>
      exact .goOn (loops Iff.rfl Iff.rfl) rfl ⟨rfl, rfl⟩ (by rw [channel]; rfl) rfl
  | loses waits channel =>
      refine Lasts.endLoop ?_ .relaying
      exact .goOn (loops Iff.rfl Iff.rfl) rfl ⟨rfl, rfl⟩ (by rw [channel]; rfl) rfl
  | relays phase => exact .goOn (loops (by simp [phase]) Iff.rfl) rfl ⟨rfl, rfl⟩ rfl rfl
  | begins phase => exact .goOn (loops Iff.rfl (by simp [phase])) rfl ⟨rfl, rfl⟩ rfl rfl
  | parks => exact .goOn rfl rfl ⟨rfl, rfl⟩ rfl rfl
  | reads phase | skips phase | forwards phase =>
      exact .goOn (loops Iff.rfl (by simp [phase])) rfl ⟨rfl, rfl⟩ rfl rfl
  | relayFails => exact Lasts.endLoop (.goOn rfl rfl ⟨rfl, rfl⟩ rfl rfl) .relaying
  | misses | withdraws | forwardFails =>
      exact Lasts.endLoop (.goOn rfl rfl ⟨rfl, rfl⟩ rfl rfl) .forwarding
  | quits told => exact .stopLoop told _
  | abandons told => exact .stopLoop told _

/-- How a session stands whose loops have begun. -/
structure Stands (s : Session) : Prop where
  /-- A loop that has ended has told the session to end, unless there was nothing for it to do. -/
  told : ∀ l, s.hasEnded l = true → s.cancelled = true ∨ l = .relaying ∧ s.media = none
  /-- Without a media channel there are no signals to pass on. -/
  mute : s.media = none → s.hasEnded .relaying = true
  /-- A session comes to its end only when all its loops have ended. -/
  all : s.stage ≠ .serving → ∀ l, s.hasEnded l = true
  begun : s.hasBegun = true

theorem Stands.lasts (stands : s.Stands) (lasts : s.Lasts s') : s'.Stands := by
  have none_iff : s'.media = none ↔ s.media = none := by
    rw [← Option.not_isSome_iff_eq_none, lasts.media, Option.not_isSome_iff_eq_none]
  constructor
  case told =>
    intro l ended
    obtain before | told := lasts.ends l ended
    · obtain told | ⟨rfl, mute⟩ := stands.told l before
      · exact .inl (lasts.told told)
      · exact .inr ⟨rfl, none_iff.2 mute⟩
    · exact .inl told
  case mute => exact fun mute => lasts.stays _ (stands.mute (none_iff.1 mute))
  case all =>
    intro stage l
    rw [lasts.stage] at stage
    exact lasts.stays l (stands.all stage l)
  case begun => rw [hasBegun_congr lasts.stage, stands.begun]

theorem Stands.did (stands : s.Stands) (did : Did hub s deed act hub' s') : s'.Stands := by
  cases did with
  | loop serving went => exact stands.lasts went.lasts
  | leaves stage all => exact ⟨stands.told, stands.mute, fun _ => all, rfl⟩
  | hangsUp stage =>
      have all := stands.all (by simp [stage])
      refine ⟨fun l ended => ?_, fun _ => all .relaying, fun _ => all, rfl⟩
      refine (stands.told l ended).imp_right fun ⟨same, mute⟩ => ⟨same, ?_⟩
      show s.media.map _ = none
      rw [mute]
      rfl
  | closes stage =>
      exact ⟨stands.told, stands.mute, fun _ => stands.all (by simp [stage]), rfl⟩

theorem serve_stands (userId roomId : Uuid) (link : Link) (reader : Registry.Reader) (pace : Pace)
    (media : Option Media) (now : Nat) :
    ((connecting userId roomId link reader pace).serve media now).Stands := by
  refine ⟨fun l ended => ?_, fun mute => ?_, fun stage => absurd rfl stage, rfl⟩
  · cases l with
    | relaying =>
        cases media with
        | none => exact .inr ⟨rfl, rfl⟩
        | some m => cases ended
    | receiving | beating | forwarding => cases ended
  · obtain rfl : media = none := mute
    rfl

/-- A session that does not come closer to its end, be it that a loop quits or that it takes one of
the last steps, acts with all its loops or has ended. -/
theorem Stands.settled (stands : s.Stands) {now : Nat}
    (still : ∀ l, s.move? hub now (.quit l) = none)
    (stuck : s.move? hub now .finish = none) :
    s.stage = .serving ∧ s.cancelled = false ∧
        (∀ l, s.hasEnded l = true ↔ l = .relaying ∧ s.media = none) ∨
      s.stage = .ended := by
  have begun := stands.begun
  rw [hasBegun] at begun
  rw [move?, finish?] at stuck
  split at stuck
  case h_3 serving =>
    have open' : ∃ l, s.hasEnded l = false := by
      by_contra none
      rw [if_pos (loopsEnded_iff.2 (by simpa using none))] at stuck
      cases stuck
    have untold : s.cancelled = false := by
      obtain ⟨l, on⟩ := open'
      by_contra told
      have quits : (s.quitLoop? hub l).isSome = true := quitLoop?_isSome (by simpa using told) on
      have stays := still l
      rw [move?, if_pos serving] at stays
      rw [stays] at quits
      cases quits
    refine .inl ⟨serving, untold, fun l => ⟨fun ended => ?_, ?_⟩⟩
    · exact (stands.told l ended).resolve_left (by simp [untold])
    · rintro ⟨rfl, mute⟩
      exact stands.mute mute
  case h_7 stage => exact .inr stage
  case h_1 stage | h_2 stage | h_6 stage =>
    rw [stage] at begun
    cases begun
  all_goals cases stuck

open Registry (Resumed)
open Room (Cursor)

/-- Where the reader of a session is. -/
structure Seats (r : Registry) (s : Session) (c : Cursor) : Prop where
  found : r.cursorOf? s.reader = some c
  reading : c.wait.isSome = true ↔ s.forwarding = .reading
  /-- It is closed when the session has left its room. -/
  left : s.stage ≠ .serving → c.closed = true
  /-- If it closes before, the session has been told to end. -/
  failed : c.closed = true →
    s.stage ≠ .serving ∨ s.forwarding = .ended ∧ s.cancelled = true

variable {r' : Registry} {c c' : Cursor}

/-- The reader is open while the loop that passes events on acts. -/
theorem Seats.isOpen (seats : s.Seats hub.registry c) (serving : s.stage = .serving)
    (on : s.forwarding ≠ .ended) : c.closed = false := by
  by_contra closed
  obtain other | ⟨ended, _⟩ := seats.failed (by simpa using closed)
  · exact other serving
  · exact on ended

/-- Nothing becomes of a reader that is not used. -/
theorem Seats.still (seats : s.Seats hub.registry c) (lasts : s.Lasts s')
    (same : r'.cursorOf? s.reader = hub.registry.cursorOf? s.reader)
    (forwarding : s'.forwarding = .reading ↔ s.forwarding = .reading) : s'.Seats r' c where
  found := by rw [lasts.reader, same, seats.found]
  reading := by rw [forwarding, seats.reading]
  left stage := seats.left (by rw [← lasts.stage]; exact stage)
  failed closed := by
    rw [lasts.stage]
    refine (seats.failed closed).imp_right fun ⟨ended, told⟩ => ⟨?_, lasts.told told⟩
    exact hasEnded_forwarding.1 (lasts.stays _ (hasEnded_forwarding.2 ended))

/-- The reader is used, and stays open. -/
theorem Seats.used (seats : s.Seats hub.registry c) (serving : s.stage = .serving)
    (on : s.forwarding ≠ .ended) (lasts : s.Lasts s') (found : r'.cursorOf? s.reader = some c')
    (closed : c'.closed = c.closed) (reading : c'.wait.isSome = true ↔ s'.forwarding = .reading) :
    s'.Seats r' c' := by
  have isOpen := closed.trans (seats.isOpen serving on)
  refine ⟨lasts.reader ▸ found, reading, fun stage => ?_, fun closed => ?_⟩
  · exact absurd (lasts.stage.trans serving) stage
  · rw [isOpen] at closed
    cases closed

/-- What a loop does to the reader. -/
theorem Seats.went (seats : s.Seats hub.registry c) (serving : s.stage = .serving)
    (went : Went hub s deed act hub' s') : ∃ c', s'.Seats hub'.registry c' := by
  have lasts := went.lasts
  cases went with
  | ponders _ _ _ same => exact ⟨c, seats.still lasts (by rw [same]) Iff.rfl⟩
  | performs _ performed =>
      have streams := Effect.perform?_streams performed
      obtain ⟨_, _, rfl, _⟩ := Effect.perform?_frame performed
      exact ⟨c, seats.still lasts (Registry.cursorOf?_congr streams _) Iff.rfl⟩
  | fails | beats | hears | overhears | loses | relays | relayFails =>
      exact ⟨c, seats.still lasts rfl Iff.rfl⟩
  | forwards phase | forwardFails phase =>
      exact ⟨c, seats.still lasts rfl (by simp [phase, endLoop, stopLoop])⟩
  | @quits l told rests =>
      refine ⟨c, seats.still lasts rfl ?_⟩
      cases l with
      | forwarding => simp [stopLoop, rests rfl]
      | receiving | beating | relaying => exact Iff.rfl
  | begins phase =>
      exact ⟨_, seats.used serving (by simp [phase]) lasts
        (Registry.beginRead_cursorOf? s.cancelled seats.found) rfl (by simp)⟩
  | abandons told phase =>
      exact ⟨_, seats.used serving (by simp [phase]) lasts
        (Registry.abandon_cursorOf? seats.found) rfl (by simp [stopLoop])⟩
  | parks phase got =>
      obtain ⟨c', found, resumed⟩ := Registry.resume_cursorOf? seats.found
      rw [got] at resumed
      cases resumed
      have reading := seats.reading
      exact ⟨_, seats.used serving (by simp [phase]) lasts found rfl (by simpa using reading)⟩
  | reads phase got | skips phase got =>
      obtain ⟨c', found, resumed⟩ := Registry.resume_cursorOf? seats.found
      rw [got] at resumed
      cases resumed
      exact ⟨_, seats.used serving (by simp [phase]) lasts found rfl (by simp)⟩
  | misses phase got =>
      obtain ⟨c', found, resumed⟩ := Registry.resume_cursorOf? seats.found
      rw [got] at resumed
      cases resumed
      refine ⟨_, found, by simp [endLoop, stopLoop], fun _ => rfl, fun _ => .inr ⟨rfl, rfl⟩⟩
  | withdraws =>
      exact ⟨_, Registry.poll_cursorOf? seats.found, by simp [endLoop, stopLoop], fun _ => rfl,
        fun _ => .inr ⟨rfl, rfl⟩⟩

/-- What a session does to its reader. -/
theorem Seats.did (seats : s.Seats hub.registry c) (did : Did hub s deed act hub' s') :
    ∃ c', s'.Seats hub'.registry c' := by
  cases did with
  | loop serving went => exact seats.went serving went
  | leaves stage all =>
      have ended := hasEnded_forwarding.1 (all .forwarding)
      have idle := seats.reading
      refine ⟨_, Registry.leave_cursorOf? seats.found, ?_, fun _ => rfl, fun _ => .inl (by simp)⟩
      simpa [ended] using idle
  | hangsUp stage | closes stage =>
      exact ⟨c, seats.found, seats.reading, fun _ => seats.left (by simp [stage]),
        fun _ => .inl (by simp)⟩

/-- A session uses its own reader, or does nothing with the streams of the registry. -/
theorem Did.uses (did : Did hub s deed act hub' s') :
    (∃ a op, act = some a ∧ a.use? = some (s.reader, op)) ∨
      hub'.registry.streams = hub.registry.streams := by
  cases did with
  | leaves => exact .inl ⟨_, _, rfl, rfl⟩
  | hangsUp | closes => exact .inr rfl
  | loop serving went =>
      cases went with
      | begins | parks | reads | skips | misses | withdraws | abandons =>
          exact .inl ⟨_, _, rfl, rfl⟩
      | ponders _ _ _ same => exact .inr (by rw [same])
      | performs _ performed => exact .inr (Effect.perform?_streams performed)
      | _ => exact .inr rfl

theorem Did.reader (did : Did hub s deed act hub' s') : s'.reader = s.reader := by
  cases did with
  | loop serving went => exact went.lasts.reader
  | _ => rfl

/-- A session changes the number of open readers only by its own. -/
theorem Seats.openReaders (seats : s.Seats hub.registry c) (seats' : s'.Seats hub'.registry c')
    (laid : hub.registry.Laid) (did : Did hub s deed act hub' s') :
    hub'.registry.openReadersBeside s'.reader + (!c.closed).toNat =
      hub.registry.openReadersBeside s.reader + (!c'.closed).toNat := by
  have found' := seats'.found
  rw [did.reader] at found' ⊢
  obtain ⟨a, op, rfl, used⟩ | streams := did.uses
  · obtain ⟨r', performed, same⟩ := Option.bind_eq_some_iff.1 did.registry
    obtain rfl : r' = hub'.registry := Option.some.inj same
    exact Registry.use_openReaders laid used performed seats.found found'
  · rw [Registry.cursorOf?_congr streams, seats.found] at found'
    obtain rfl := Option.some.inj found'
    rw [Registry.openReadersBeside_congr streams]

end Session

namespace Stay

variable {x y : Stay} {r₀ : Registry} {p : Session.Seat} {before : Option (List Signal)}
  {reader : Registry.Reader}

/-- What is always true of a session among others. -/
structure Sound (r₀ : Registry) (p : Session.Seat) (before : Option (List Signal))
    (reader : Registry.Reader) (x : Stay) : Prop where
  kept : x.scene.Kept p before
  stands : x.session.Stands
  past : r₀.run? x.acts = some x.hub.registry
  regular : x.hub.registry.Regular
  reader : x.session.reader = reader
  /-- The session has changed the number of open readers by its own, once it is closed. -/
  seated : ∃ c, x.session.Seats x.hub.registry c ∧ x.change = -(c.closed.toNat : Int)

/-- What stays when the session does nothing itself. -/
structure Rests (x y : Stay) : Prop where
  lasts : x.session.Lasts y.session
  forwarding : y.session.forwarding = x.session.forwarding
  sent : y.session.link.sent = x.session.link.sent
  signals : y.session.media.map (·.sent) = x.session.media.map (·.sent)
  looks : Looks x y

theorem Bears.lasts {s s' : Session} (bears : Bears s s') : s.Lasts s' := by
  obtain ⟨receiving, heartbeat, relaying, forwarding⟩ := bears.loops
  have loops : s'.hasEnded = s.hasEnded := by
    funext l
    cases l <;> simp only [Session.hasEnded, receiving, heartbeat, relaying, forwarding]
  have closes : s'.media.map (·.closes) = s.media.map (·.closes) := by
    simpa [Function.comp_def] using congrArg (Option.map (·.2.2)) bears.media
  refine ⟨bears.reader, bears.stage, ?_, bears.link.closes, closes, bears.told, ?_, ?_⟩
  · rw [← Option.isSome_map (f := (·.closes)), closes, Option.isSome_map]
  · intro l ended
    rw [loops]
    exact ended
  · intro l ended
    rw [loops] at ended
    exact .inl ended

theorem Rests.ofBears (bears : Bears x.session y.session) (looks : Looks x y) : Rests x y := by
  refine ⟨bears.lasts, bears.loops.2.2.2, bears.link.sent, ?_, looks⟩
  simpa [Function.comp_def] using congrArg (Option.map (·.2.1)) bears.media

theorem Rests.ofHears {a : Except SignalError Signal}
    (session : y.session = { x.session with media := x.session.media.map (·.arrive a) })
    (looks : Looks x y) : Rests x y := by
  refine ⟨?_, by rw [session], by rw [session], ?_, looks⟩
  · rw [session]
    refine .goOn (funext fun l => by cases l <;> rfl) rfl ⟨rfl, rfl⟩ ?_ rfl
    cases x.session.media <;> rfl
  · rw [session]
    cases x.session.media <;> rfl

theorem Rests.ofOthers (session : y.session = x.session) (looks : Looks x y) : Rests x y := by
  refine ⟨?_, by rw [session], by rw [session], by rw [session], looks⟩
  rw [session]
  exact .goOn rfl rfl ⟨rfl, rfl⟩ rfl rfl

/-- With each turn the session does something or stays as it is. -/
theorem Step.rests (step : Step x y) :
    (∃ deed act, Session.Did x.hub x.session deed act y.hub y.session ∧
      y.deeds = x.deeds ++ deed.toList) ∨ Rests x y := by
  cases step with
  | @moves deed act did _ _ deeds => exact .inl ⟨deed, act, did, deeds⟩
  | hears a hub session _ _ looks => exact .inr (.ofHears session looks)
  | bears bears _ _ _ looks => exact .inr (.ofBears bears looks)
  | others a _ _ session _ _ looks => exact .inr (.ofOthers session looks)

theorem Sound.rests (sound : Sound r₀ p before reader x) (kept : y.scene.Kept p before)
    (rests : Rests x y) (past : r₀.run? y.acts = some y.hub.registry)
    (regular : y.hub.registry.Regular)
    (same : y.hub.registry.cursorOf? x.session.reader = x.hub.registry.cursorOf? x.session.reader) :
    Sound r₀ p before reader y := by
  obtain ⟨c, seats, change⟩ := sound.seated
  refine ⟨kept, sound.stands.lasts rests.lasts, past, regular, ?_, c, ?_, ?_⟩
  · rw [rests.lasts.reader, sound.reader]
  · exact seats.still rests.lasts same (by rw [rests.forwarding])
  · rw [rests.looks.change, change]

theorem Sound.step (sound : Sound r₀ p before reader x) (kept : y.scene.Kept p before)
    (step : Step x y) : Sound r₀ p before reader y := by
  cases step with
  | @moves deed act did acts heard deeds done changed =>
      obtain ⟨c, seats, change⟩ := sound.seated
      have ran := did.registry
      obtain ⟨c', seats'⟩ := seats.did did
      have count := seats.openReaders seats' sound.regular.laid did
      refine ⟨kept, sound.stands.did did, ?_, sound.regular.run ran, ?_, c', seats', ?_⟩
      · rw [acts, Registry.run?_append, sound.past]
        exact ran
      · rw [did.reader, sound.reader]
      · rw [changed, change, openReaders, openReaders]
        have flip : ∀ b : Bool, (!b).toNat + b.toNat = 1 := by decide
        have := flip c.closed
        have := flip c'.closed
        omega
  | hears a hub session acts heard looks =>
      refine sound.rests kept (.ofHears session looks) ?_ ?_ (by rw [hub])
      · rw [acts, hub, sound.past]
      · rw [hub]
        exact sound.regular
  | bears bears registry acts heard looks =>
      refine sound.rests kept (.ofBears bears looks) ?_ ?_ (by rw [registry])
      · rw [acts, registry, sound.past]
      · rw [registry]
        exact sound.regular
  | others a did unused session acts heard looks =>
      obtain ⟨c, seats, _⟩ := sound.seated
      refine sound.rests kept (.ofOthers session looks) ?_ (sound.regular.perform did) ?_
      · rw [acts]
        exact Registry.run?_snoc.2 ⟨_, sound.past, did⟩
      · obtain same | ⟨gone, _⟩ := Registry.perform?_cursorOf? sound.regular.owned did unused
        · exact same
        · rw [seats.found] at gone
          cases gone

/-- A session whose loops are about to begin, in a registry that began empty. Somebody has got a
reader of its room, and nobody has used it. -/
structure Begins (r₀ : Registry) (acts : List Registry.Action) (hub : Hub) (roomId : Uuid)
    (reader : Registry.Reader) : Prop where
  past : r₀.run? acts = some hub.registry
  served : ∃ s ∈ hub.registry.subscribers, s.roomId = roomId ∧ s.phase = .done (.ok reader)
  unused : ∀ a ∈ acts, ∀ op, a.use? ≠ some (reader, op)

variable {capacity channelCapacity : Nat} {acts : List Registry.Action} {userId roomId : Uuid}
  {link : Link} {pace : Pace} {media : Option Media} {now : Nat}

theorem start_sound (begins : Begins (.empty capacity channelCapacity) acts hub roomId reader) :
    (start acts hub (.connecting userId roomId link reader pace) media now).Sound
      (.empty capacity channelCapacity) ⟨roomId, userId, media.isSome⟩ (media.map (·.sent))
      reader := by
  have regular := (Registry.empty_regular capacity channelCapacity).run begins.past
  obtain ⟨fresh, _⟩ := Registry.run?_unused begins.past begins.unused
  obtain ⟨s, among, _, phase⟩ := begins.served
  obtain ⟨i, there⟩ := Array.mem_iff_getElem?.1 among
  have handed := regular.handed i s reader there (by rw [phase]; rfl)
  obtain ⟨c, found⟩ := Option.isSome_iff_exists.1 handed
  obtain ⟨isOpen, idle⟩ := fresh c found
  refine ⟨Scene.start_kept .., Session.serve_stands .., begins.past, regular, rfl, c, ?_, ?_⟩
  · refine ⟨found, ?_, fun stage => absurd rfl stage, fun closed => ?_⟩
    · rw [idle]
      simp [start, Scene.start, Session.serve, Session.connecting]
    · rw [isOpen] at closed
      cases closed
  · rw [isOpen]
    rfl

/-- What is true at the beginning of a run, and is kept by each turn, is true at its end. -/
theorem run?_induction {P : Stay → Prop} {x₀ : Stay} {ts : List Turn}
    (sound : Sound r₀ p before reader x₀) (begins : P x₀)
    (next : ∀ x y, Sound r₀ p before reader x → Sound r₀ p before reader y → Step x y → P x → P y)
    (ran : x₀.run? ts = some y) : Sound r₀ p before reader y ∧ P y := by
  induction ts generalizing x₀ with
  | nil =>
      obtain rfl := Option.some.inj ran
      exact ⟨sound, begins⟩
  | cons t ts ih =>
      rw [run?, List.foldlM_cons] at ran
      obtain ⟨x, happened, ran⟩ := Option.bind_eq_some_iff.1 ran
      obtain ⟨o, noted⟩ := next?_scene happened
      have step := next?_step sound.kept.fits sound.stands.begun happened
      have sound' := sound.step (sound.kept.next? noted) step
      exact ih sound' (next _ _ sound sound' step begins) ran

theorem Sound.run {x₀ : Stay} {ts : List Turn} (sound : Sound r₀ p before reader x₀)
    (ran : x₀.run? ts = some y) : Sound r₀ p before reader y :=
  (run?_induction (P := fun _ => True) sound trivial (fun _ _ _ _ _ => id) ran).1

/-- Two clients get a reader each of one room. -/
def twoJoin : List Registry.Action :=
  [.subscribe (.ofNat 7), .step (.subscriber 0), .step (.subscriber 0), .step (.subscriber 0),
    .step (.subscriber 0), .step (.subscriber 0), .watched 0 none, .step (.subscriber 0),
    .subscribe (.ofNat 7), .step (.subscriber 1), .step (.subscriber 1), .step (.subscriber 1),
    .step (.subscriber 1)]

def sharedHub : Hub :=
  { Scene.quietHub with registry := ((Registry.empty 2 1).run? twoJoin).getD (.empty 2 1) }

/-- A session of each of them can begin. -/
theorem sharedHub_begins (i : Fin 2) :
    Begins (.empty 2 1) twoJoin sharedHub (.ofNat 7) ⟨0, i⟩ := by
  constructor
  case past =>
    have possible : ((Registry.empty 2 1).run? twoJoin).isSome = true := by decide +kernel
    obtain ⟨r, ran⟩ := Option.isSome_iff_exists.1 possible
    rw [sharedHub, ran]
    rfl
  case served =>
    have there : ∀ i : Fin 2, (sharedHub.registry.subscribers[(i : Nat)]?).map (fun s =>
        (s.roomId, s.phase.reader?)) = some (.ofNat 7, some ⟨0, i⟩) := by decide +kernel
    obtain ⟨s, found, same⟩ := Option.map_eq_some_iff.1 (there i)
    obtain ⟨room, serves⟩ := Prod.mk.inj same
    exact ⟨s, Array.mem_of_getElem? found, room, Registry.reader?_eq_some_iff.1 serves⟩
  case unused => simp [twoJoin, Registry.Action.use?]

/-- The first of them, in a room with media. -/
def visitor : Stay :=
  start twoJoin sharedHub (.connecting (.ofNat 1) (.ofNat 7) (.fresh .silence) ⟨0, 0⟩ ⟨1, 1⟩)
    (some .fresh) 0

end Stay

end Roomcast.Peer

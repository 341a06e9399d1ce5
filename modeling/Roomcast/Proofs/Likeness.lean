import Roomcast.Proofs.Neighbours

/-!
# Registries that are alike apart from one room

Two registries are alike apart from a room if whatever belongs to another room is the same in both,
and as many rows belong to the room in both. What the room's own rows say does not matter: an entry
of it may be locked here and free there, its puller may wait for its feed here and have ended there.

An entry of the room may also be reclaimed here and not there. Then its closer is there in one of
the registries only, and the closers that come later have other numbers. So closers are told apart
by their entries, and of a lock it matters which subscribers wait for it and where a closer does.
-/

namespace Roomcast

section Rows

variable {β : Type} {own : β → Prop} {R : β → β → Prop} {xs ys : Array β} {i : Nat} {x y : β}

/-- Two rows belong to the owner both, or neither does and they are related. -/
def Paired (own : β → Prop) (R : β → β → Prop) (x y : β) : Prop :=
  (own x ∧ own y) ∨ (¬ own x ∧ ¬ own y ∧ R x y)

/-- Two tables of the same length whose rows are pairs. -/
structure LikeRows (own : β → Prop) (R : β → β → Prop) (xs ys : Array β) : Prop where
  size : ys.size = xs.size
  pairs : ∀ (i : Nat) (x y : β), xs[i]? = some x → ys[i]? = some y → Paired own R x y

namespace LikeRows

/-- Every row has its counterpart. -/
theorem counterpart (h : LikeRows own R xs ys) (found : xs[i]? = some x) :
    ∃ y, ys[i]? = some y ∧ Paired own R x y := by
  have inside : i < ys.size := h.size ▸ lt_size_of_getElem? found
  exact ⟨_, Array.getElem?_eq_getElem inside,
    h.pairs i x _ found (Array.getElem?_eq_getElem inside)⟩

/-- A row that is not the owner's has a related one. -/
theorem partner (h : LikeRows own R xs ys) (found : xs[i]? = some x) (other : ¬ own x) :
    ∃ y, ys[i]? = some y ∧ ¬ own y ∧ R x y := by
  obtain ⟨y, found', ⟨mine, _⟩ | ⟨_, other', related⟩⟩ := h.counterpart found
  · exact absurd mine other
  · exact ⟨y, found', other', related⟩

theorem symm (h : LikeRows own R xs ys) (turn : ∀ x y, R x y → R y x) : LikeRows own R ys xs where
  size := h.size.symm
  pairs i y x found' found := by
    obtain ⟨mine, mine'⟩ | ⟨other, other', related⟩ := h.pairs i x y found found'
    · exact .inl ⟨mine', mine⟩
    · exact .inr ⟨other', other, turn x y related⟩

theorem trans {zs : Array β} (h : LikeRows own R xs ys) (h' : LikeRows own R ys zs)
    (join : ∀ x y z, R x y → R y z → R x z) : LikeRows own R xs zs where
  size := h'.size.trans h.size
  pairs i x z found found'' := by
    obtain ⟨y, found', first⟩ := h.counterpart found
    obtain ⟨mine, mine'⟩ | ⟨other, other', related⟩ := first
    · obtain ⟨_, mine''⟩ | ⟨other', _⟩ := h'.pairs i y z found' found''
      · exact .inl ⟨mine, mine''⟩
      · exact absurd mine' other'
    · obtain ⟨mine', _⟩ | ⟨_, other'', related'⟩ := h'.pairs i y z found' found''
      · exact absurd mine' other'
      · exact .inr ⟨other, other'', join x y z related related'⟩

theorem push (h : LikeRows own R xs ys) (both : Paired own R x y) :
    LikeRows own R (xs.push x) (ys.push y) where
  size := by rw [Array.size_push, Array.size_push, h.size]
  pairs i x' y' found found' := by
    obtain old | ⟨rfl, rfl⟩ := getElem?_push_some.1 found
    · obtain old' | ⟨rfl, _⟩ := getElem?_push_some.1 found'
      · exact h.pairs i x' y' old old'
      · exact absurd old (getElem?_ne_some (Nat.le_refl _) h.size.symm)
    · obtain old' | ⟨_, rfl⟩ := getElem?_push_some.1 found'
      · exact absurd old' (getElem?_ne_some (Nat.le_refl _) h.size)
      · exact both

/-- Both tables are changed in the same row. -/
theorem modify {f g : β → β} (h : LikeRows own R xs ys)
    (each : ∀ x y, xs[i]? = some x → ys[i]? = some y → Paired own R x y →
      Paired own R (f x) (g y)) : LikeRows own R (xs.modify i f) (ys.modify i g) where
  size := by rw [Array.size_modify, Array.size_modify, h.size]
  pairs j x' y' found found' := by
    obtain ⟨other, old⟩ | ⟨rfl, x, old, rfl⟩ := getElem?_modify_some.1 found
    · obtain ⟨_, old'⟩ | ⟨same, _⟩ := getElem?_modify_some.1 found'
      · exact h.pairs j x' y' old old'
      · exact absurd same other
    · obtain ⟨other, _⟩ | ⟨_, y, old', rfl⟩ := getElem?_modify_some.1 found'
      · exact absurd rfl other
      · exact each x y old old' (h.pairs i x y old old')

theorem map {f : β → β} (h : LikeRows own R xs ys)
    (each : ∀ x y, Paired own R x y → Paired own R (f x) (f y)) :
    LikeRows own R (xs.map f) (ys.map f) where
  size := by rw [Array.size_map, Array.size_map, h.size]
  pairs i x' y' found found' := by
    rw [Array.getElem?_map, Option.map_eq_some_iff] at found found'
    obtain ⟨x, old, rfl⟩ := found
    obtain ⟨y, old', rfl⟩ := found'
    exact each x y (h.pairs i x y old old')

end LikeRows

/-- Tables of the same length with the same rows apart from the owner's are alike. -/
theorem SameRows.like (h : SameRows own xs ys) (size : ys.size = xs.size)
    (related : ∀ x, R x x) : LikeRows own R xs ys where
  size := size
  pairs i x y found found' := by
    by_cases mine : own x
    · refine .inl ⟨mine, ?_⟩
      by_contra other
      obtain rfl := Option.some.inj (found.symm.trans ((h i y other).1 found'))
      exact other mine
    · obtain rfl := Option.some.inj (((h i x mine).2 found).symm.trans found')
      exact .inr ⟨mine, mine, related x⟩

end Rows

namespace Store

variable {s s₁ : Store} {room other : Uuid}

def channelOf? (s : Store) (log : Log) : Option (Store × Nat) :=
  match log.channel with
  | some channel => some (s, channel)
  | none => s.openChannel?

theorem watch?_eq (s : Store) (room : Uuid) :
    s.watch? room = (s.logOf? room).bind fun known =>
      (known.1.channelOf? known.2).map fun chosen =>
        (chosen.1.setLog room { known.2 with channel := some chosen.2 },
          { roomId := room, channel := chosen.2, closed := false
            next := ((chosen.1.channels[chosen.2]?).map (·.sent)).getD 0 }) := rfl

/-- Two stores have as many channels, keep the same of every other room, and agree on the channels
that other rooms use. -/
structure Alike (room : Uuid) (s s₁ : Store) : Prop where
  capacity : s₁.capacity = s.capacity
  size : s₁.channels.size = s.channels.size
  log : ∀ other, other ≠ room → s₁.log? other = s.log? other
  channel : ∀ other c, other ≠ room → (s.log? other).bind (·.channel) = some c →
    s₁.channels[c]? = s.channels[c]?

/-- What is done to two stores keeps them alike, and they agree on the channels on which they have
agreed before. -/
def Onward (room : Uuid) (s s₁ s' s₁' : Store) : Prop :=
  s'.Alike room s₁' ∧
    ∀ c : Nat, s₁.channels[c]? = s.channels[c]? → s₁'.channels[c]? = s'.channels[c]?

theorem Onward.trans {s' s₁' s'' s₁'' : Store} (h : Onward room s s₁ s' s₁')
    (h' : Onward room s' s₁' s'' s₁'') : Onward room s s₁ s'' s₁'' :=
  ⟨h'.1, fun c agreed => h'.2 c (h.2 c agreed)⟩

theorem Alike.symm (h : s.Alike room s₁) : s₁.Alike room s where
  capacity := h.capacity.symm
  size := h.size.symm
  log other elsewhere := (h.log other elsewhere).symm
  channel other c elsewhere uses :=
    (h.channel other c elsewhere (by rw [← h.log other elsewhere]; exact uses)).symm

theorem Alike.trans {s₂ : Store} (h : s.Alike room s₁) (h' : s₁.Alike room s₂) :
    s.Alike room s₂ where
  capacity := h'.capacity.trans h.capacity
  size := h'.size.trans h.size
  log other elsewhere := (h'.log other elsewhere).trans (h.log other elsewhere)
  channel other c elsewhere uses :=
    (h'.channel other c elsewhere (by rw [h.log other elsewhere]; exact uses)).trans
      (h.channel other c elsewhere uses)

namespace Alike

variable (h : s.Alike room s₁)

include h

theorem withChannel : Onward room s s₁ s.withChannel s₁.withChannel := by
  have ring : s₁.ringSize = s.ringSize := by rw [ringSize, ringSize, h.capacity]
  have agree : ∀ c : Nat, s₁.channels[c]? = s.channels[c]? →
      s₁.withChannel.channels[c]? = s.withChannel.channels[c]? := by
    intro c agreed
    rw [Store.withChannel, Store.withChannel, Array.getElem?_push, Array.getElem?_push, h.size,
      ring, agreed]
  refine ⟨⟨h.capacity, ?_, h.log, fun other c elsewhere uses => ?_⟩, agree⟩
  · rw [Store.withChannel, Store.withChannel, Array.size_push, Array.size_push, h.size]
  · exact agree c (h.channel other c elsewhere uses)

theorem setLog (other : Uuid) (log : Log) (agrees : ∀ c, log.channel = some c →
    s₁.channels[c]? = s.channels[c]?) :
    Onward room s s₁ (s.setLog other log) (s₁.setLog other log) := by
  refine ⟨⟨h.capacity, h.size, fun k elsewhere => ?_, fun k c elsewhere uses => ?_⟩,
    fun _ agreed => agreed⟩
  · rw [log?_setLog, log?_setLog, h.log k elsewhere]
  · rw [log?_setLog] at uses
    split_ifs at uses
    · exact agrees c uses
    · exact h.channel k c elsewhere uses

theorem modifyChannel (c : Nat) (f : Channel Event → Channel Event) :
    Onward room s s₁ { s with channels := s.channels.modify c f }
      { s₁ with channels := s₁.channels.modify c f } := by
  have agree : ∀ k : Nat, s₁.channels[k]? = s.channels[k]? →
      (s₁.channels.modify c f)[k]? = (s.channels.modify c f)[k]? := by
    intro k agreed
    rw [Array.getElem?_modify, Array.getElem?_modify, agreed]
  refine ⟨⟨h.capacity, ?_, h.log, fun k d elsewhere uses => ?_⟩, agree⟩
  · rw [Array.size_modify, Array.size_modify, h.size]
  · exact agree d (h.channel k d elsewhere uses)

theorem openChannel? {s' : Store} {c : Nat} (opened : s.openChannel? = some (s', c)) :
    ∃ s₁', s₁.openChannel? = some (s₁', c) ∧ Onward room s s₁ s' s₁' ∧
      s₁'.channels[c]? = s'.channels[c]? := by
  have possible : s₁.openChannel?.isSome = s.openChannel?.isSome := by
    rw [Store.openChannel?, Store.openChannel?, h.capacity]
    split_ifs <;> rfl
  rw [opened] at possible
  obtain ⟨⟨s₁', c₁⟩, opened₁⟩ := Option.isSome_iff_exists.1 possible
  obtain ⟨rfl, rfl⟩ := openChannel?_eq opened
  obtain ⟨rfl, rfl⟩ := openChannel?_eq opened₁
  have ring : s₁.ringSize = s.ringSize := by rw [ringSize, ringSize, h.capacity]
  have new := s₁.withChannel_new
  rw [h.size, ring] at new
  exact ⟨_, by rw [opened₁, h.size], h.withChannel, new.trans s.withChannel_new.symm⟩

/-- What is kept of another room begins in the same way in both. -/
theorem logOf? (elsewhere : other ≠ room) {s' : Store} {log : Log}
    (got : s.logOf? other = some (s', log)) :
    ∃ s₁', s₁.logOf? other = some (s₁', log) ∧ Onward room s s₁ s' s₁' ∧
      ∀ c, log.channel = some c → s₁'.channels[c]? = s'.channels[c]? := by
  have same := h.log other elsewhere
  cases known : s.log? other with
  | some log' =>
      rw [Store.logOf?, known] at got
      obtain ⟨rfl, rfl⟩ := Prod.mk.inj (Option.some.inj got)
      refine ⟨s₁, by rw [Store.logOf?, same, known], ⟨h, fun _ agreed => agreed⟩, fun c uses => ?_⟩
      exact h.channel other c elsewhere (by rw [known]; exact uses)
  | none =>
      rw [Store.logOf?, known] at got
      obtain ⟨⟨s₂, c⟩, opened, eq⟩ := Option.map_eq_some_iff.1 got
      obtain ⟨rfl, rfl⟩ := Prod.mk.inj eq
      obtain ⟨s₁', opened₁, onward, agree⟩ := h.openChannel? opened
      refine ⟨s₁', by rw [Store.logOf?, same, known]; simp [opened₁], onward, ?_⟩
      rintro _ ⟨⟩
      exact agree

theorem emit? {e : Event} (elsewhere : e.roomId ≠ room) {s' : Store}
    (stored : s.emit? e = some s') :
    ∃ s₁', s₁.emit? e = some s₁' ∧ Onward room s s₁ s' s₁' := by
  obtain ⟨⟨s₂, log⟩, got, rfl⟩ := Option.map_eq_some_iff.1 stored
  obtain ⟨s₁', got₁, onward, agrees⟩ := h.logOf? elsewhere got
  refine ⟨s₁'.push e.roomId log e, Option.map_eq_some_iff.2 ⟨_, got₁, rfl⟩, onward.trans ?_⟩
  show Onward room s₂ s₁' (s₂.push e.roomId log e) (s₁'.push e.roomId log e)
  have logged := onward.1.setLog e.roomId { log with events := log.events.push e } agrees
  rw [Store.push, Store.push]
  cases uses : log.channel with
  | none =>
      rw [uses] at logged
      exact logged
  | some c =>
      rw [uses] at logged
      exact logged.trans (logged.1.modifyChannel c (·.send e))

/-- The channel of a log is the same in both, also if it has to be opened first. -/
theorem channelOf? {log : Log} {s' : Store} {c : Nat}
    (agrees : ∀ c, log.channel = some c → s₁.channels[c]? = s.channels[c]?)
    (chosen : s.channelOf? log = some (s', c)) :
    ∃ s₁', s₁.channelOf? log = some (s₁', c) ∧ Onward room s s₁ s' s₁' ∧
      s₁'.channels[c]? = s'.channels[c]? := by
  rw [Store.channelOf?] at chosen ⊢
  cases uses : log.channel with
  | some d =>
      rw [uses] at chosen
      obtain ⟨rfl, rfl⟩ := Prod.mk.inj (Option.some.inj chosen)
      exact ⟨s₁, rfl, ⟨h, fun _ agreed => agreed⟩, agrees d uses⟩
  | none =>
      rw [uses] at chosen
      exact h.openChannel? chosen

theorem watch? (elsewhere : other ≠ room) {s' : Store} {f : Feed}
    (opened : s.watch? other = some (s', f)) :
    ∃ s₁', s₁.watch? other = some (s₁', f) ∧ Onward room s s₁ s' s₁' ∧
      s₁'.channels[f.channel]? = s'.channels[f.channel]? := by
  rw [watch?_eq] at opened ⊢
  obtain ⟨⟨s₂, log⟩, got, rest⟩ := Option.bind_eq_some_iff.1 opened
  obtain ⟨s₁₂, got₁, onward, agrees⟩ := h.logOf? elsewhere got
  obtain ⟨⟨s₃, c⟩, chosen, eq⟩ := Option.map_eq_some_iff.1 rest
  obtain ⟨rfl, rfl⟩ := Prod.mk.inj eq
  obtain ⟨s₁₃, chosen₁, later, agree⟩ := onward.1.channelOf? agrees chosen
  have logged := later.1.setLog other { log with channel := some c } fun d uses => by
    rw [← Option.some.inj uses]
    exact agree
  refine ⟨s₁₃.setLog other { log with channel := some c }, ?_, (onward.trans later).trans logged,
    agree⟩
  rw [got₁, Option.bind_some, chosen₁, Option.map_some, agree]

theorem closeRoom (elsewhere : other ≠ room) :
    Onward room s s₁ (s.closeRoom other) (s₁.closeRoom other) := by
  have same := h.log other elsewhere
  cases known : s.log? other with
  | none =>
      rw [Store.closeRoom, Store.closeRoom, same, known]
      exact ⟨h, fun _ agreed => agreed⟩
  | some log =>
      rw [Store.closeRoom, Store.closeRoom, same, known]
      dsimp only
      have logged := h.setLog other { log with channel := none } (by rintro _ ⟨⟩)
      cases log.channel with
      | none => exact logged
      | some c => exact logged.trans (logged.1.modifyChannel c (·.finish))

end Alike

end Store

namespace Registry

open Store (Feed)

variable {r r₁ r' r₁' : Registry} {room : Uuid} {i e t : Nat}

/-- The subscriber that stands in a lock, if it is no closer. -/
def Holder.subscriber? : Holder → Option Nat
  | .subscriber i => some i
  | .closer _ => none

/-- Two entries that differ at most in the names of the closers that wait for their locks. -/
structure Entry.Like (x y : Entry) : Prop where
  roomId : y.roomId = x.roomId
  stream : y.stream = x.stream
  puller : y.puller = x.puller
  retired : y.retired = x.retired
  lock : y.lock.map Holder.subscriber? = x.lock.map Holder.subscriber?

theorem Entry.Like.refl (x : Entry) : x.Like x := ⟨rfl, rfl, rfl, rfl, rfl⟩

theorem Entry.Like.symm {x y : Entry} (h : x.Like y) : y.Like x :=
  ⟨h.roomId.symm, h.stream.symm, h.puller.symm, h.retired.symm, h.lock.symm⟩

theorem Entry.Like.trans {x y z : Entry} (h : x.Like y) (h' : y.Like z) : x.Like z where
  roomId := h'.roomId.trans h.roomId
  stream := h'.stream.trans h.stream
  puller := h'.puller.trans h.puller
  retired := h'.retired.trans h.retired
  lock := h'.lock.trans h.lock

/-- Two phases of a collector that differ at most in candidates that an owner has. -/
inductive Collecting.Like (own : Nat → Prop) : Collecting → Collecting → Prop
  | checking : Like own .checking .checking
  | scanning : Like own .scanning .scanning
  | sleeping {es es' : List Nat} (same : ∀ e, ¬ own e → (e ∈ es' ↔ e ∈ es)) :
      Like own (.sleeping es) (.sleeping es')
  | reclaiming {es es' : List Nat} (same : ∀ e, ¬ own e → (e ∈ es' ↔ e ∈ es)) :
      Like own (.reclaiming es) (.reclaiming es')
  | stopping (shutdown : Nat) : Like own (.stopping shutdown) (.stopping shutdown)
  | done (result : Except StreamError Unit) : Like own (.done result) (.done result)

theorem Collecting.Like.refl (own : Nat → Prop) (p : Collecting) : p.Like own p := by
  cases p with
  | checking => exact .checking
  | scanning => exact .scanning
  | sleeping => exact .sleeping fun _ _ => Iff.rfl
  | reclaiming => exact .reclaiming fun _ _ => Iff.rfl
  | stopping => exact .stopping _
  | done => exact .done _

theorem Collecting.Like.symm {own : Nat → Prop} {p p' : Collecting} (h : p.Like own p') :
    p'.Like own p := by
  cases h with
  | checking => exact .checking
  | scanning => exact .scanning
  | sleeping same => exact .sleeping fun e other => (same e other).symm
  | reclaiming same => exact .reclaiming fun e other => (same e other).symm
  | stopping => exact .stopping _
  | done => exact .done _

theorem Collecting.Like.trans {own : Nat → Prop} {p p' p'' : Collecting} (h : p.Like own p')
    (h' : p'.Like own p'') : p.Like own p'' := by
  cases h with
  | sleeping same =>
      cases h' with
      | sleeping same' => exact .sleeping fun e other => (same' e other).trans (same e other)
  | reclaiming same =>
      cases h' with
      | reclaiming same' => exact .reclaiming fun e other => (same' e other).trans (same e other)
  | checking | scanning | stopping | done => exact h'

/-- Two collectors in such phases. -/
structure Collector.Like (own : Nat → Prop) (c c' : Collector) : Prop where
  period : c'.period = c.period
  cancelled : c'.cancelled = c.cancelled
  phase : c.phase.Like own c'.phase

theorem Collector.Like.refl (own : Nat → Prop) (c : Collector) : c.Like own c :=
  ⟨rfl, rfl, .refl own _⟩

theorem Collector.Like.symm {own : Nat → Prop} {c c' : Collector} (h : c.Like own c') :
    c'.Like own c :=
  ⟨h.period.symm, h.cancelled.symm, h.phase.symm⟩

theorem Collector.Like.trans {own : Nat → Prop} {c c' c'' : Collector} (h : c.Like own c')
    (h' : c'.Like own c'') : c.Like own c'' :=
  ⟨h'.period.trans h.period, h'.cancelled.trans h.cancelled, h.phase.trans h'.phase⟩

def IsOf (r : Registry) (room : Uuid) (e : Nat) : Prop :=
  ∃ x, r.entries[e]? = some x ∧ x.roomId = room

/-- Two registries are alike apart from a room. -/
structure Alike (room : Uuid) (r r₁ : Registry) : Prop where
  capacity : r₁.capacity = r.capacity
  down : r₁.down = r.down
  shutdowns : r₁.shutdowns = r.shutdowns
  current : ∀ other, other ≠ room → r₁.entryOf? other = r.entryOf? other
  entries : LikeRows (fun x : Entry => x.roomId = room) Entry.Like r.entries r₁.entries
  streams : LikeRows (fun st : Stream => st.roomId = room) Eq r.streams r₁.streams
  subscribers : LikeRows (fun s : Subscriber => s.roomId = room) Eq r.subscribers r₁.subscribers
  closers : ∀ c : Closer, ¬ r.IsOf room c.entry → (c ∈ r₁.closers ↔ c ∈ r.closers)
  collectors : LikeRows (fun _ => False) (Collector.Like (r.IsOf room)) r.collectors r₁.collectors
  store : r.store.Alike room r₁.store
  feeds : ∀ (t : Nat) (st : Stream), r.streams[t]? = some st → st.roomId ≠ room →
    r₁.store.channels[st.feed.channel]? = r.store.channels[st.feed.channel]?

namespace Alike

variable (h : r.Alike room r₁)

include h

theorem isOf (e : Nat) : r₁.IsOf room e ↔ r.IsOf room e := by
  constructor
  · rintro ⟨y, here, own⟩
    obtain ⟨x, here', pair⟩ := (h.entries.symm fun _ _ => Entry.Like.symm).counterpart here
    obtain ⟨_, own'⟩ | ⟨other, _⟩ := pair
    · exact ⟨x, here', own'⟩
    · exact absurd own other
  · rintro ⟨x, here, own⟩
    obtain ⟨y, here', ⟨_, own'⟩ | ⟨other, _⟩⟩ := h.entries.counterpart here
    · exact ⟨y, here', own'⟩
    · exact absurd own other

theorem symm : r₁.Alike room r where
  capacity := h.capacity.symm
  down := h.down.symm
  shutdowns := h.shutdowns.symm
  current other elsewhere := (h.current other elsewhere).symm
  entries := h.entries.symm fun _ _ => Entry.Like.symm
  streams := h.streams.symm fun _ _ => Eq.symm
  subscribers := h.subscribers.symm fun _ _ => Eq.symm
  closers c other := (h.closers c fun own => other ((h.isOf _).2 own)).symm
  collectors := by
    rw [show r₁.IsOf room = r.IsOf room from funext fun e => propext (h.isOf e)]
    exact h.collectors.symm fun _ _ => Collector.Like.symm
  store := h.store.symm
  feeds t st there elsewhere := by
    obtain ⟨st', there', _, rfl⟩ :=
      (h.streams.symm fun _ _ => Eq.symm).partner there elsewhere
    exact (h.feeds t _ there' elsewhere).symm

theorem trans {r₂ : Registry} (h' : r₁.Alike room r₂) : r.Alike room r₂ where
  capacity := h'.capacity.trans h.capacity
  down := h'.down.trans h.down
  shutdowns := h'.shutdowns.trans h.shutdowns
  current other elsewhere := (h'.current other elsewhere).trans (h.current other elsewhere)
  entries := h.entries.trans h'.entries fun _ _ _ => Entry.Like.trans
  streams := h.streams.trans h'.streams fun _ _ _ => Eq.trans
  subscribers := h.subscribers.trans h'.subscribers fun _ _ _ => Eq.trans
  closers c other :=
    (h'.closers c fun own => other ((h.isOf _).1 own)).trans (h.closers c other)
  collectors := by
    refine h.collectors.trans ?_ fun _ _ _ => Collector.Like.trans
    rw [← show r₁.IsOf room = r.IsOf room from funext fun e => propext (h.isOf e)]
    exact h'.collectors
  store := h.store.trans h'.store
  feeds t st there elsewhere := by
    obtain ⟨_, there', _, rfl⟩ := h.streams.partner there elsewhere
    exact (h'.feeds t st there' elsewhere).trans (h.feeds t st there elsewhere)

/-- The subscribers of other rooms are the same. -/
theorem subscriber {s : Subscriber} (found : r.subscribers[i]? = some s)
    (elsewhere : s.roomId ≠ room) : r₁.subscribers[i]? = some s := by
  obtain ⟨_, found₁, _, rfl⟩ := h.subscribers.partner found elsewhere
  exact found₁

/-- The streams of other rooms are the same. -/
theorem stream {st : Stream} (there : r.streams[t]? = some st) (elsewhere : st.roomId ≠ room) :
    r₁.streams[t]? = some st := by
  obtain ⟨_, there₁, _, rfl⟩ := h.streams.partner there elsewhere
  exact there₁

/-- The entries of other rooms are alike. -/
theorem entry {x : Entry} (here : r.entries[e]? = some x) (elsewhere : x.roomId ≠ room) :
    ∃ y, r₁.entries[e]? = some y ∧ x.Like y := by
  obtain ⟨y, here₁, _, like⟩ := h.entries.partner here elsewhere
  exact ⟨y, here₁, like⟩

theorem streamOf? {x : Entry} (here : r.entries[e]? = some x) (elsewhere : x.roomId ≠ room) :
    r₁.streamOf? e = r.streamOf? e := by
  obtain ⟨y, here₁, like⟩ := h.entry here elsewhere
  simp only [Registry.streamOf?, here, here₁, Option.bind_some, like.stream]

theorem setSubscriber (i : Nat) (q : Subscribing) :
    (r.setSubscriber i q).Alike room (r₁.setSubscriber i q) := by
  let turn (s : Subscriber) : Subscriber := { s with phase := q }
  have turned : LikeRows (fun s : Subscriber => s.roomId = room) Eq
      (r.subscribers.modify i turn) (r₁.subscribers.modify i turn) := by
    refine h.subscribers.modify ?_
    rintro s s₁ _ _ (own | ⟨other, other', rfl⟩)
    · exact .inl own
    · exact .inr ⟨other, other', rfl⟩
  exact { h with subscribers := turned }

/-- The same entry changes in both, in a way that keeps entries alike. -/
theorem modifyEntry {f g : Entry → Entry} (keeps : ∀ x, (f x).roomId = x.roomId)
    (keeps' : ∀ x, (g x).roomId = x.roomId)
    (each : ∀ x y, r.entries[e]? = some x → r₁.entries[e]? = some y → x.roomId ≠ room →
      x.Like y → (f x).Like (g y)) :
    (r.modifyEntry e f).Alike room (r₁.modifyEntry e g) := by
  have isOf : (r.modifyEntry e f).IsOf room = r.IsOf room := by
    funext k
    refine propext ⟨?_, ?_⟩
    · rintro ⟨y, here, own⟩
      obtain ⟨_, old⟩ | ⟨rfl, x, old, rfl⟩ := getElem?_modify_some.1 here
      · exact ⟨y, old, own⟩
      · exact ⟨x, old, (keeps x).symm.trans own⟩
    · rintro ⟨x, here, own⟩
      exact getElem?_modify_keeps here own fun _ => (keeps x).trans own
  refine { h with entries := ?_, closers := ?_, collectors := ?_ }
  · refine h.entries.modify fun x y here here₁ pair => ?_
    obtain ⟨own, own'⟩ | ⟨other, other', like⟩ := pair
    · exact .inl ⟨(keeps x).trans own, (keeps' y).trans own'⟩
    · refine .inr ⟨fun own => ?_, fun own => ?_, each x y here here₁ other like⟩
      · exact other ((keeps x).symm.trans own)
      · exact other' ((keeps' y).symm.trans own)
  · rw [isOf]
    exact h.closers
  · rw [isOf]
    exact h.collectors

/-- Somebody asks for the lock of an entry in both. -/
theorem enqueue {who who₁ : Holder} (same : who₁.subscriber? = who.subscriber?) :
    (r.enqueue e who).Alike room (r₁.enqueue e who₁) :=
  h.modifyEntry (fun _ => rfl) (fun _ => rfl) fun x y _ _ _ like =>
    { like with lock := by simp only [List.map_append, like.lock, List.map_cons, same] }

/-- Changes that leave the lock alone. -/
theorem modifyEntry_same {f : Entry → Entry} (keeps : ∀ x, (f x).roomId = x.roomId)
    (each : ∀ x y, x.Like y → (f x).Like (f y)) :
    (r.modifyEntry e f).Alike room (r₁.modifyEntry e f) :=
  h.modifyEntry keeps keeps fun x y _ _ _ => each x y

/-- A subscriber gives a lock back in both. -/
theorem release (i : Nat) :
    (r.release e (.subscriber i)).Alike room (r₁.release e (.subscriber i)) := by
  have filtered : ∀ l : List Holder, (l.filter (· ≠ .subscriber i)).map Holder.subscriber? =
      (l.map Holder.subscriber?).filter (· ≠ some i) := by
    intro l
    rw [List.filter_map]
    congr 1
    refine List.filter_congr fun who _ => ?_
    cases who <;> simp [Holder.subscriber?]
  refine h.modifyEntry_same (fun _ => rfl) fun x y like => { like with lock := ?_ }
  rw [filtered, filtered, like.lock]

/-- The same stream changes in both. -/
theorem modifyStream {f : Stream → Stream}
    (each : ∀ st, r.streams[t]? = some st → st.roomId ≠ room →
      (f st).roomId ≠ room ∧ (f st).feed.channel = st.feed.channel)
    (elsewhere : ∀ st, r.streams[t]? = some st → st.roomId ≠ room) :
    (r.modifyStream t f).Alike room (r₁.modifyStream t f) where
  __ := h
  streams := h.streams.modify fun st st₁ there _ pair => by
    obtain ⟨own, _⟩ | ⟨other, _, rfl⟩ := pair
    · exact absurd own (elsewhere st there)
    · exact .inr ⟨(each st there other).1, (each st there other).1, rfl⟩
  feeds k st there other := by
    obtain ⟨_, old⟩ | ⟨rfl, st, old, rfl⟩ := getElem?_modify_some.1 there
    · exact h.feeds k st old other
    · rw [(each st old (elsewhere st old)).2]
      exact h.feeds t st old (elsewhere st old)

theorem perform (op : Room.Op Event)
    (elsewhere : ∀ st, r.streams[t]? = some st → st.roomId ≠ room) :
    (r.modifyStream t (·.perform op)).Alike room (r₁.modifyStream t (·.perform op)) :=
  h.modifyStream (fun _ _ other => ⟨other, rfl⟩) elsewhere

theorem unregister (other : Uuid) : (r.unregister other).Alike room (r₁.unregister other) where
  __ := h
  current k elsewhere := by
    rw [entryOf?_unregister, entryOf?_unregister, h.current k elsewhere]

/-- The entry of another room is made in both. -/
theorem register {other : Uuid} (elsewhere : other ≠ room) :
    (r.register other).Alike room (r₁.register other) := by
  have like : Paired (fun x : Entry => x.roomId = room) Entry.Like
      ⟨other, none, none, false, []⟩ ⟨other, none, none, false, []⟩ :=
    .inr ⟨elsewhere, elsewhere, .refl _⟩
  have isOf : (r.register other).IsOf room = r.IsOf room := by
    funext k
    refine propext ⟨?_, ?_⟩
    · rintro ⟨x, here, own⟩
      obtain old | ⟨_, rfl⟩ := getElem?_push_some.1 here
      · exact ⟨x, old, own⟩
      · exact absurd own elsewhere
    · rintro ⟨x, here, own⟩
      exact ⟨x, getElem?_push_some.2 (.inl here), own⟩
  refine { h with current := ?_, entries := h.entries.push like, closers := ?_, collectors := ?_ }
  · intro k elsewhere'
    rw [entryOf?_register, entryOf?_register, h.current k elsewhere', h.entries.size]
  · rw [isOf]
    exact h.closers
  · rw [isOf]
    exact h.collectors

/-- The stores go on in the same way. -/
theorem withStore {store store₁ : Store} (onward : r.store.Onward room r₁.store store store₁) :
    Alike room { r with store } { r₁ with store := store₁ } where
  __ := h
  store := onward.1
  feeds t st there elsewhere := onward.2 _ (h.feeds t st there elsewhere)

/-- A feed of another room is opened in both. -/
theorem openStream {other : Uuid} (elsewhere : other ≠ room) {store store₁ : Store} {feed : Feed}
    (onward : r.store.Onward room r₁.store store store₁)
    (agree : store₁.channels[feed.channel]? = store.channels[feed.channel]?) :
    (r.openStream other store feed).Alike room (r₁.openStream other store₁ feed) := by
  have like : Paired (fun st : Stream => st.roomId = room) Eq
      ⟨other, .empty r.capacity, feed, none, .pulling⟩
      ⟨other, .empty r₁.capacity, feed, none, .pulling⟩ :=
    .inr ⟨elsewhere, elsewhere, by rw [h.capacity]⟩
  refine { h with streams := h.streams.push like, store := onward.1, feeds := ?_ }
  intro t st there elsewhere'
  obtain old | ⟨_, rfl⟩ := getElem?_push_some.1 there
  · exact onward.2 _ (h.feeds t st old elsewhere')
  · exact agree

end Alike

/-- How many entries, streams, subscribers and channels there are. -/
def extent (r : Registry) : Nat × Nat × Nat × Nat :=
  (r.entries.size, r.streams.size, r.subscribers.size, r.store.channels.size)

/-- What differs in a room alone, and not in the number of rows, is alike. -/
theorem Confined.alike (h : r.Confined room r₁) (sane : r.Sane) (sane₁ : r₁.Sane)
    (store : r.store.Confined room r₁.store) (level : r₁.extent = r.extent) :
    r.Alike room r₁ := by
  obtain ⟨entries, streams, subscribers, channels⟩ :
      r₁.entries.size = r.entries.size ∧ r₁.streams.size = r.streams.size ∧
        r₁.subscribers.size = r.subscribers.size ∧
        r₁.store.channels.size = r.store.channels.size := by simpa [extent] using level
  -- No other room uses a channel of the room.
  have apart : ∀ other c, other ≠ room → (r.store.log? other).bind (·.channel) = some c →
      c < r.store.channels.size ∧ (r.store.log? room).bind (·.channel) ≠ some c := by
    intro other c elsewhere uses
    obtain ⟨log, found, uses⟩ := Option.bind_eq_some_iff.1 uses
    refine ⟨sane.sourced.sound.channel_lt found uses, fun own => elsewhere ?_⟩
    obtain ⟨log', found', uses'⟩ := Option.bind_eq_some_iff.1 own
    exact sane.sourced.sound.own other room log log' c found found' uses uses'
  constructor
  case capacity => exact h.capacity
  case down => exact h.down
  case shutdowns => exact h.shutdowns
  case current => exact h.current
  case entries => exact h.entries.like entries Entry.Like.refl
  case streams => exact h.streams.like streams fun _ => rfl
  case subscribers => exact h.subscribers.like subscribers fun _ => rfl
  case closers =>
    intro c other
    rw [Array.mem_iff_getElem?, Array.mem_iff_getElem?]
    by_cases inside : c.entry < r.entries.size
    · have here := Array.getElem?_eq_getElem inside
      exact exists_congr fun j => h.closers j c _ here fun own => other ⟨_, here, own⟩
    · constructor
      · rintro ⟨j, found⟩
        exact absurd (entries ▸ (sane₁.books.tended.assigned j c found).1) inside
      · rintro ⟨j, found⟩
        exact absurd (sane.books.tended.assigned j c found).1 inside
  case collectors =>
    rw [h.collectors]
    refine ⟨rfl, fun i c c' found found' => .inr ⟨id, id, ?_⟩⟩
    obtain rfl := Option.some.inj (found.symm.trans found')
    exact .refl _ c
  case store =>
    refine ⟨store.capacity, channels, store.log, fun other c elsewhere uses => ?_⟩
    exact store.channel c (apart other c elsewhere uses).1 (apart other c elsewhere uses).2
  case feeds =>
    intro t st there elsewhere
    obtain ⟨inside, only⟩ := sane.channel there
    exact store.channel _ inside fun uses => elsewhere (only room uses).symm

end Registry

end Roomcast

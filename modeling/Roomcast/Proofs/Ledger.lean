import Roomcast.Proofs.Hosting

/-!
# The ledger of readers

A `Receipt` says that a reader has been opened or closed. The ledger of a run is the list of its
receipts. Each happening has one at most, and changes the numbers of open readers by what its
receipt says. A reader is opened when its subscriber gets it, and is closed when its session leaves
or when a read of its session fails, and neither happens twice.
-/

namespace Roomcast.Registry

variable {r r' : Registry} {a : Action} {g : Reader}

/-- A reader has been opened for a subscriber, or has been closed. -/
inductive Receipt where
  | opened (i : Nat) (g : Reader)
  | closed (g : Reader)
deriving DecidableEq

/-- By how much the number of open readers of a stream has changed. -/
def Receipt.change (t : Nat) : Receipt → Int
  | opened _ g => if g.stream = t then 1 else 0
  | closed g => if g.stream = t then -1 else 0

/-- A receipt says what has happened to the readers of a registry. -/
structure Receipt.Covers (r r' : Registry) (note : Option Receipt) : Prop where
  counted : ∀ t, (r'.readersOn t : Int) = r.readersOn t + (note.map (·.change t)).getD 0
  opened : ∀ i g, r'.readerOf? i = some g ↔ r.readerOf? i = some g ∨ note = some (.opened i g)
  new : ∀ i g, note = some (.opened i g) → r.readerOf? i = none
  closed : ∀ i g, r'.readerOf? i = some g ∧ r'.hasLeft g = true ↔
    r.readerOf? i = some g ∧ (r.hasLeft g = true ∨ note = some (.closed g))
  closing : ∀ g, note = some (.closed g) →
    (∃ i, r.readerOf? i = some g) ∧ r.hasLeft g = false

theorem Receipt.Covers.rfl : Receipt.Covers r r none where
  counted t := (Int.add_zero _).symm
  opened i g := by simp
  new := nofun
  closed i g := by simp
  closing := nofun

theorem mem_issued : g ∈ r.issued ↔ ∃ i, r.readerOf? i = some g := by
  rw [issued, List.mem_filterMap]
  constructor
  · rintro ⟨s, among, serves⟩
    obtain ⟨i, found⟩ := List.mem_iff_getElem?.1 among
    rw [Array.getElem?_toList] at found
    exact ⟨i, by rw [readerOf?, found]; exact serves⟩
  · rintro ⟨i, has⟩
    obtain ⟨s, found, serves⟩ := Option.bind_eq_some_iff.1 has
    exact ⟨s, Array.mem_toList_iff.2 (Array.mem_of_getElem? found), serves⟩

/-- Who has got a reader keeps it. -/
theorem Owned.keeps_reader (owned : r.Owned) (did : r.perform? a = some r') {i : Nat}
    (has : r.readerOf? i = some g) : r'.readerOf? i = some g := by
  obtain ⟨s, found, phase⟩ := readerOf?_eq_some.1 has
  have ran : r.run? [a] = some r' := by
    rw [run?, did]
    rfl
  exact readerOf?_eq_some.2 ⟨s, owned.run_answered ran found phase, phase⟩

/-- Who has a reader that somebody has had before has had it before. -/
theorem Issued.had_reader (h : r'.Issued)
    (keeps : ∀ i, r.readerOf? i = some g → r'.readerOf? i = some g) (had : g ∈ r.issued) {i : Nat}
    (has : r'.readerOf? i = some g) : r.readerOf? i = some g := by
  obtain ⟨j, had⟩ := mem_issued.1 had
  obtain rfl := h.distinct (keeps j had) has
  exact had

/-- A reader that somebody has is there. -/
theorem Regular.cursor (regular : r.Regular) {i : Nat} (has : r.readerOf? i = some g) :
    (r.cursorOf? g).isSome = true := by
  obtain ⟨s, found, phase⟩ := readerOf?_eq_some.1 has
  exact regular.handed i s g found (reader?_eq_some_iff.2 phase)

/-- An action that does not use a reader neither opens nor closes it. -/
theorem Regular.hasLeft_unused (regular : r.Regular) (did : r.perform? a = some r') {i : Nat}
    (has : r.readerOf? i = some g) (unused : ∀ op, a.use? ≠ some (g, op)) :
    r'.hasLeft g = r.hasLeft g := by
  obtain ⟨c, found⟩ := Option.isSome_iff_exists.1 (regular.cursor has)
  obtain same | ⟨none, _⟩ := perform?_cursorOf? regular.owned did unused
  · rw [hasLeft_of_cursorOf? found, hasLeft_of_cursorOf? (same.trans found)]
  · rw [found] at none
    cases none

theorem Grants.unused {i : Nat} (grants : Grants r a r' i g) : a.use? = none := by
  rw [grants.called]
  rfl

/-- A reader that is handed out is new, and open. -/
theorem Grants.isOpen {i : Nat} (grants : Grants r a r' i g) (regular : r.Regular)
    (did : r.perform? a = some r') : r'.hasLeft g = false := by
  have unused : ∀ op, a.use? ≠ some (g, op) := by
    rw [grants.unused]
    exact fun _ => nofun
  have before : r.cursorOf? g = none := by
    cases window : r.streams[g.stream]? with
    | none => simp [cursorOf?, roomOf?, window]
    | some st =>
        have last := grants.new
        rw [readersEver, window, Option.map_some, Option.getD_some] at last
        rw [cursorOf?, roomOf?, window, Option.map_some, Option.bind_some, last]
        exact Array.getElem?_eq_none le_rfl
  obtain ⟨c, found⟩ := Option.isSome_iff_exists.1 ((regular.perform did).cursor grants.got)
  obtain same | ⟨_, fresh⟩ := perform?_cursorOf? regular.owned did unused
  · rw [same, before] at found
    cases found
  · rw [hasLeft_of_cursorOf? found, (fresh c found).1]

theorem Grants.covers {i : Nat} (grants : Grants r a r' i g) (regular : r.Regular)
    (issued : r'.Issued) (did : r.perform? a = some r') :
    Receipt.Covers r r' (some (.opened i g)) := by
  have unused : ∀ h op, a.use? ≠ some (h, op) := by
    rw [grants.unused]
    exact fun _ _ => nofun
  have opened : ∀ j h, r'.readerOf? j = some h ↔
      r.readerOf? j = some h ∨ some (Receipt.opened i g) = some (.opened j h) := by
    intro j h
    constructor
    · intro has
      obtain rfl | had := List.mem_cons.1 (grants.issued.mem_iff.1 (mem_issued.2 ⟨j, has⟩))
      · obtain rfl := issued.distinct grants.got has
        exact .inr rfl
      · exact .inl (issued.had_reader (fun _ => regular.owned.keeps_reader did) had has)
    · rintro (had | same)
      · exact regular.owned.keeps_reader did had
      · cases same
        exact grants.got
  constructor
  case counted =>
    intro t
    rw [grants.counted, Option.map_some, Option.getD_some, Receipt.change]
    split_ifs <;> simp
  case opened => exact opened
  case new =>
    rintro j h ⟨⟩
    exact grants.asked
  case closed =>
    intro j h
    constructor
    · rintro ⟨has, left⟩
      obtain had | same := (opened j h).1 has
      · rw [regular.hasLeft_unused did had (unused h)] at left
        exact ⟨had, .inl left⟩
      · cases same
        rw [grants.isOpen regular did] at left
        cases left
    · rintro ⟨had, left | same⟩
      · exact ⟨regular.owned.keeps_reader did had,
          (regular.hasLeft_unused did had (unused h)).trans left⟩
      · cases same
  case closing => exact nofun

theorem Withholds.readerOf? (withholds : Withholds r a r') (owned : r.Owned) (issued : r'.Issued)
    (did : r.perform? a = some r') (i : Nat) (h : Reader) :
    r'.readerOf? i = some h ↔ r.readerOf? i = some h :=
  ⟨fun has => issued.had_reader (fun _ => owned.keeps_reader did)
    (withholds.issued.mem_iff.1 (mem_issued.2 ⟨i, has⟩)) has, owned.keeps_reader did⟩

/-- An action that uses no reader and hands out none leaves all as they are. -/
theorem Withholds.covers (withholds : Withholds r a r') (regular : r.Regular) (issued : r'.Issued)
    (did : r.perform? a = some r') (unused : a.use? = none) : Receipt.Covers r r' none := by
  have same := withholds.readerOf? regular.owned issued did
  refine ⟨fun t => ?_, fun i h => ?_, nofun, fun i h => ?_, nofun⟩
  · rw [withholds.counted unused]
    exact (Int.add_zero _).symm
  · simp [same]
  · rw [same]
    refine and_congr_right fun had => ?_
    rw [regular.hasLeft_unused did had fun op => by rw [unused]; exact nofun]
    simp

/-- What the use of a reader does to all readers. -/
structure Touches (r r' : Registry) (g : Reader) : Prop where
  same : ∀ i h, r'.readerOf? i = some h ↔ r.readerOf? i = some h
  others : ∀ i h, r.readerOf? i = some h → g ≠ h → r'.hasLeft h = r.hasLeft h
  stays : r.hasLeft g = true → r'.hasLeft g = true
  elsewhere : ∀ t, g.stream ≠ t → r'.readersOn t = r.readersOn t
  here : r'.readersOn g.stream + (!r.hasLeft g).toNat =
    r.readersOn g.stream + (!r'.hasLeft g).toNat

theorem Withholds.touches (withholds : Withholds r a r') (regular : r.Regular) (issued : r'.Issued)
    (did : r.perform? a = some r') {op : Room.Op Event} (used : a.use? = some (g, op)) {i : Nat}
    (has : r.readerOf? i = some g) : r.Touches r' g := by
  obtain ⟨c, found⟩ := Option.isSome_iff_exists.1 (regular.cursor has)
  obtain ⟨c', found'⟩ := Option.isSome_iff_exists.1
    ((regular.perform did).cursor (regular.owned.keeps_reader did has))
  constructor
  case same => exact withholds.readerOf? regular.owned issued did
  case others =>
    intro j h had other
    refine regular.hasLeft_unused did had fun op' used' => other ?_
    rw [used] at used'
    exact congrArg Prod.fst (Option.some.inj used')
  case stays =>
    intro left
    have ran : r.run? [a] = some r' := by
      rw [run?, did]
      rfl
    exact regular.run_left ran (regular.cursor has) left
  case elsewhere =>
    intro t other
    rw [perform?_use used] at did
    obtain rfl := Option.some.inj did
    rw [readersOn, readersOn, modifyStream, Array.getElem?_modify, if_neg other]
  case here =>
    have here := use_openReaders regular.laid used did found found'
    rwa [openReadersBeside_eq, openReadersBeside_eq, ← hasLeft_of_cursorOf? found,
      ← hasLeft_of_cursorOf? found'] at here

/-- Who uses a reader and does not close it leaves all as they are. -/
theorem Touches.covers_none (h : r.Touches r' g) (still : r'.hasLeft g = r.hasLeft g) :
    Receipt.Covers r r' none := by
  refine ⟨fun t => ?_, fun j k => by simp [h.same], by simp, fun j k => ?_, by simp⟩
  · by_cases mine : g.stream = t
    · subst mine
      have here := h.here
      rw [still] at here
      simpa using here
    · simp [h.elsewhere t mine]
  · rw [h.same]
    refine and_congr_right fun had => ?_
    by_cases mine : g = k
    · simp [← mine, still]
    · simp [h.others j k had mine]

/-- Who closes the reader that is used does nothing to others. -/
theorem Touches.covers_closed (h : r.Touches r' g) {i : Nat} (has : r.readerOf? i = some g)
    (before : r.hasLeft g = false) (after : r'.hasLeft g = true) :
    Receipt.Covers r r' (some (.closed g)) := by
  refine ⟨fun t => ?_, fun j k => by simp [h.same], by simp, fun j k => ?_, ?_⟩
  · rw [Option.map_some, Option.getD_some, Receipt.change]
    split_ifs with mine
    · subst mine
      have here := h.here
      rw [before, after] at here
      simp at here
      omega
    · simp [h.elsewhere t mine]
  · rw [h.same]
    refine and_congr_right fun had => ?_
    by_cases mine : g = k
    · simp [← mine, after]
    · simp [h.others j k had mine, mine]
  · rintro k ⟨⟩
    exact ⟨⟨i, has⟩, before⟩

theorem Touches.covers (h : r.Touches r' g) {i : Nat} (has : r.readerOf? i = some g) :
    Receipt.Covers r r' (if !r.hasLeft g && r'.hasLeft g then some (.closed g) else none) := by
  cases before : r.hasLeft g with
  | true => exact h.covers_none ((h.stays before).trans before.symm)
  | false =>
      cases after : r'.hasLeft g with
      | true => exact h.covers_closed has before after
      | false => exact h.covers_none (after.trans before.symm)

/-- The readers of an action that does not use any. -/
theorem Regular.covers (regular : r.Regular) (issued : r'.Issued) (did : r.perform? a = some r')
    (unused : a.use? = none) (other : ∀ i, a ≠ .step (.subscriber i)) :
    Receipt.Covers r r' none := by
  obtain ⟨i, g, grants⟩ | withholds := perform?_grants regular.owned did
  · exact absurd grants.called (other i)
  · exact withholds.covers regular issued did unused

/-- The readers of a step of a subscriber. -/
theorem Regular.covers_subscriber (regular : r.Regular) (issued : r'.Issued) {i : Nat}
    (did : r.perform? (.step (.subscriber i)) = some r') :
    Receipt.Covers r r' (match r.readerOf? i with
      | none => (r'.readerOf? i).map (.opened i)
      | some _ => none) := by
  obtain ⟨j, g, grants⟩ | withholds := perform?_grants regular.owned did
  · obtain rfl : i = j := by simpa using grants.called
    rw [grants.asked, grants.got]
    exact grants.covers regular issued did
  · have same := withholds.readerOf? regular.owned issued did i
    have none : (match r.readerOf? i with
        | none => (r'.readerOf? i).map (Receipt.opened i)
        | some _ => none) = none := by
      cases had : r.readerOf? i with
      | some g => rfl
      | none =>
          have nothing : r'.readerOf? i = none := by
            refine Option.eq_none_iff_forall_not_mem.2 fun g has => ?_
            rw [(same g).1 has] at had
            cases had
          rw [nothing]
          rfl
    rw [none]
    exact withholds.covers regular issued did rfl

/-- The readers of an action of a session that has the reader `g`. -/
theorem Regular.covers_session (regular : r.Regular) (issued : r'.Issued) {act : Option Action}
    (ran : r.run? act.toList = some r')
    (own : ∀ b ∈ act, (∃ e, b = .emit e) ∨ ∃ op, b.use? = some (g, op)) {i : Nat}
    (has : r.readerOf? i = some g) :
    Receipt.Covers r r' (if !r.hasLeft g && r'.hasLeft g then some (.closed g) else none) := by
  have still : r'.hasLeft g = r.hasLeft g →
      (if !r.hasLeft g && r'.hasLeft g then some (Receipt.closed g) else none) = none := by
    intro same
    rw [same]
    cases r.hasLeft g <;> rfl
  cases act with
  | none =>
      obtain rfl := Option.some.inj ran
      rw [still rfl]
      exact .rfl
  | some b =>
      have did : r.perform? b = some r' := by
        rw [Option.toList_some, run?] at ran
        obtain ⟨r₁, did, same⟩ := Option.bind_eq_some_iff.1 ran
        rw [did, Option.some.inj same]
      obtain ⟨e, rfl⟩ | ⟨op, used⟩ := own b rfl
      · rw [still (regular.hasLeft_unused did has fun _ => (Option.some_ne_none _).symm)]
        exact regular.covers issued did rfl (by simp)
      · obtain ⟨j, h, grants⟩ | withholds := perform?_grants regular.owned did
        · rw [grants.unused] at used
          cases used
        · exact (withholds.touches regular issued did used has).covers has

/-- The receipts account for all readers. -/
structure Balanced (l : List Receipt) (r : Registry) : Prop where
  once : l.Nodup
  counted : ∀ t, (r.readersOn t : Int) = (l.map (·.change t)).sum
  opened : ∀ i g, .opened i g ∈ l ↔ r.readerOf? i = some g
  closed : ∀ g, .closed g ∈ l ↔ (∃ i, r.readerOf? i = some g) ∧ r.hasLeft g = true

theorem empty_balanced (capacity channelCapacity : Nat) :
    Balanced [] (Registry.empty capacity channelCapacity) := by
  constructor <;> simp [readersOn, readerOf?, Registry.empty]

theorem Balanced.covers {l : List Receipt} {note : Option Receipt} (h : Balanced l r)
    (covers : Receipt.Covers r r' note) : Balanced (l ++ note.toList) r' where
  once := by
    refine List.nodup_append.2 ⟨h.once, by cases note <;> simp, fun n old n' new => ?_⟩
    rintro rfl
    have same := Option.mem_toList.1 new
    cases n with
    | opened i g =>
        have had := (h.opened i g).1 old
        rw [covers.new i g same] at had
        cases had
    | closed g =>
        have left := ((h.closed g).1 old).2
        rw [(covers.closing g same).2] at left
        cases left
  counted t := by
    rw [covers.counted, h.counted, List.map_append, List.sum_append]
    cases note <;> simp
  opened i g := by
    rw [List.mem_append, h.opened, covers.opened, Option.mem_toList]
  closed g := by
    rw [List.mem_append, h.closed, Option.mem_toList]
    constructor
    · rintro (⟨⟨i, had⟩, left⟩ | same)
      · obtain ⟨has, left⟩ := (covers.closed i g).2 ⟨had, .inl left⟩
        exact ⟨⟨i, has⟩, left⟩
      · obtain ⟨⟨i, had⟩, _⟩ := covers.closing g same
        obtain ⟨has, left⟩ := (covers.closed i g).2 ⟨had, .inr same⟩
        exact ⟨⟨i, has⟩, left⟩
    · rintro ⟨⟨i, has⟩, left⟩
      obtain ⟨had, left | same⟩ := (covers.closed i g).1 ⟨has, left⟩
      · exact .inl ⟨⟨i, had⟩, left⟩
      · exact .inr same

end Roomcast.Registry

namespace Roomcast.Http.Site

open Peer Service
open Registry (Receipt)

variable {capacity channelCapacity : Nat} {x y z : Site} {e : Happening}

/-- What a happening does to the readers of a site. -/
def receipt? (x y : Site) : Happening → Option Receipt
  | .registry (.step (.subscriber i)) =>
    match x.registry.readerOf? i with
    | none => (y.registry.readerOf? i).map (.opened i)
    | some _ => none
  | .session j _ =>
    (x.sessions[j]?).bind fun s =>
      if !x.registry.hasLeft s.reader && y.registry.hasLeft s.reader then some (.closed s.reader)
      else none
  | _ => none

def ledger (x : Site) : List Happening → List Receipt
  | [] => []
  | e :: hs =>
    match x.next? e with
    | some y => (receipt? x y e).toList ++ y.ledger hs
    | none => []

theorem ledger_snoc {hs : List Happening} (ran : x.run? hs = some y)
    (happened : y.next? e = some z) :
    x.ledger (hs ++ [e]) = x.ledger hs ++ (receipt? y z e).toList := by
  induction hs generalizing x with
  | nil =>
      obtain rfl := Option.some.inj ran
      simp [ledger, happened]
  | cons e' hs ih =>
      rw [run?, List.foldlM_cons] at ran
      obtain ⟨x', first, rest⟩ := Option.bind_eq_some_iff.1 ran
      rw [List.cons_append, ledger, ledger, first]
      dsimp only
      rw [ih rest, List.append_assoc]

/-- What a session does with the registry is one action at most, and concerns no other reader. -/
theorem Kept.acts (h : x.Kept capacity channelCapacity) {j : Nat} {o : Occasion}
    (happened : x.next? (.session j o) = some y) :
    ∃ (s : Session) (act : Option Registry.Action), x.sessions[j]? = some s ∧
      x.registry.run? act.toList = some y.registry ∧
      ∀ b ∈ act, (∃ e, b = .emit e) ∨ ∃ op, b.use? = some (s.reader, op) := by
  obtain ⟨s, there, happened⟩ := Option.bind_eq_some_iff.1 happened
  dsimp only at happened
  have beside : (o.beside x.registry).beside x.registry = o.beside x.registry := by
    cases o <;> rfl
  obtain ⟨⟨hub, s'⟩, goes, rfl⟩ := Option.map_eq_some_iff.1 happened
  obtain ⟨_, _, ran⟩ := (h.lodged j s there).next? beside goes (h.cursor there)
  exact ⟨s, _, there, ran, fun b among => Occasion.act?_own among⟩

/-- Each happening does to the readers what its receipt says. -/
theorem Kept.covers (h : x.Kept capacity channelCapacity) (happened : x.next? e = some y) :
    Receipt.Covers x.registry y.registry (receipt? x y e) := by
  obtain ⟨new, leads⟩ := h.next? happened
  have issued : y.registry.Issued := (h.leads leads).issued
  have still : x.registry.run? [] = some y.registry →
      Receipt.Covers x.registry y.registry none := by
    intro ran
    rw [← Option.some.inj ran]
    exact .rfl
  cases e with
  | request r =>
      obtain ⟨refused, response, answered⟩ | ⟨guest, admitted, answered⟩ := x.server.respond_eq r
      · obtain rfl := Option.some.inj happened
        refine still ?_
        rw [answered]
        rfl
      · obtain rfl := Option.some.inj happened
        rw [answered] at issued ⊢
        exact h.regular.covers (a := .subscribe guest.roomId) issued rfl rfl nofun
  | visit => exact still (h.visit happened).ran
  | connects => exact still (h.connects happened).ran
  | stop => exact still (h.stop happened).ran
  | time =>
      obtain rfl := Option.some.inj happened
      exact still rfl
  | session j o =>
      obtain ⟨s, act, there, ran, own⟩ := h.acts happened
      obtain ⟨v, t, _, found, _, phase⟩ := h.visitOf there
      rw [receipt?, there, Option.bind_some]
      exact h.regular.covers_session issued ran own (Registry.readerOf?_eq_some.2 ⟨t, found, phase⟩)
  | registry a =>
      obtain ⟨outside, went⟩ := Option.ite_none_right_eq_some.1 happened
      obtain ⟨r', did, rfl⟩ := Option.map_eq_some_iff.1 went
      have unused := (Registry.Action.isOutside_eq_true outside).2.1
      by_cases mine : ∃ i, a = .step (.subscriber i)
      · obtain ⟨i, rfl⟩ := mine
        exact h.regular.covers_subscriber issued did
      · have nothing : ∀ y, receipt? x y (.registry a) = none := by
          intro y
          rw [receipt?]
          · rintro i ⟨⟩
            exact mine ⟨i, rfl⟩
          · exact nofun
        rw [nothing]
        exact h.regular.covers issued did unused fun i same => mine ⟨i, same⟩

/-- The ledger of a run accounts for all readers. -/
theorem run?_balanced {stamps : Nat → Stamp} {connector : Option (Except SignalError Unit)}
    {pace : Pace} {hs : List Happening}
    (ran : (start capacity channelCapacity stamps connector pace).run? hs = some x) :
    Registry.Balanced ((start capacity channelCapacity stamps connector pace).ledger hs)
      x.registry := by
  induction hs using List.reverseRecOn generalizing x with
  | nil =>
      obtain rfl := Option.some.inj ran
      exact Registry.empty_balanced _ _
  | append_singleton hs e ih =>
      rw [run?, List.foldlM_append] at ran
      obtain ⟨y, before, last⟩ := Option.bind_eq_some_iff.1 ran
      obtain ⟨z, happened, rest⟩ := Option.bind_eq_some_iff.1 last
      obtain rfl := Option.some.inj rest
      rw [ledger_snoc before happened]
      exact (ih before).covers (((start_kept stamps connector pace).run before).1.covers happened)

end Roomcast.Http.Site

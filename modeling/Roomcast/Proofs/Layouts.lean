import Roomcast.Peer.Error
import Roomcast.Proofs.Contents

/-!
# The two forms of an event

The store and the clients write an event with its fields in different orders, and two of the fields
hold identifiers that only their names tell apart. Both forms hold the same fields under the same
names, and a decoder goes by the names: whichever of the two decoders reads whichever of the two
forms, it gets the event that was written, as long as it can get an event at all. So what a client
is shown can be stored, and what is stored can be shown.
-/

namespace Roomcast

open Json (Tree Slot maxDepth)

variable {e : Event}

/-- The fields of an event in the order of a layout. -/
def Event.slots (e : Event) : Event.Layout → List Slot
  | .stored => [("id", some e.id.toTree), ("roomId", some e.roomId.toTree),
      ("ownerId", some e.ownerId.toTree), ("createdAt", some e.createdAt.toTree),
      ("payload", some e.payload.toTree)]
  | .shown => [("id", some e.id.toTree), ("ownerId", some e.ownerId.toTree),
      ("roomId", some e.roomId.toTree), ("createdAt", some e.createdAt.toTree),
      ("payload", some e.payload.toTree)]

namespace Event

theorem toTree_slots (e : Event) (layout : Layout) :
    e.toTree layout = .ofSlots (e.slots layout) := by
  cases layout <;> rfl

/-- Every layout has the same fields, each under its name. -/
theorem slots_perm (e : Event) (layout layout' : Layout) :
    (e.slots layout).Perm (e.slots layout') := by
  have swapped : (e.slots .shown).Perm (e.slots .stored) :=
    (List.Perm.swap _ _ _).cons _
  cases layout <;> cases layout'
  · exact .refl _
  · exact swapped.symm
  · exact swapped
  · exact .refl _

theorem slots_nodup (e : Event) (layout : Layout) : ((e.slots layout).map Prod.fst).Nodup := by
  cases layout <;> simp [slots]

/-- An event nests as deep in one layout as in the other. -/
theorem depth_toTree (e : Event) (layout layout' : Layout) :
    (e.toTree layout).depth = (e.toTree layout').depth := by
  have below : ∀ l l', (e.toTree l').depth ≤ (e.toTree l).depth := by
    intro l l'
    have whole := (congrArg Tree.depth (e.toTree_slots l).symm).le
    obtain ⟨m, same, fits⟩ := Tree.depth_ofSlots_le.1 whole
    rw [toTree_slots e l', Tree.depth_ofSlots_le]
    exact ⟨m, same, fun s among => fits s ((e.slots_perm l l').mem_iff.2 among)⟩
  exact le_antisymm (below layout' layout) (below layout layout')

end Event

namespace Json.Decoder

/-- An event is read by either decoder in whichever layout it has been written. -/
theorem reads_event_across (read written : Event.Layout) (ordered : e.payload.body.IsOrdered)
    (integral : e.payload.body.IsIntegral) : Reads (event read) (e.toTree written) e := by
  have own := reads_event written ordered integral
  refine ⟨own.isWritten, fun {depth} fits => ?_⟩
  -- The decoder looks for its own names, which are those of the other layout in another order.
  have others : ∀ s ∈ e.slots read, s ∈ e.slots written :=
    fun s among => (e.slots_perm read written).mem_iff.1 among
  rw [Event.toTree_slots] at fits ⊢
  obtain ⟨depth, rfl, inner⟩ := Tree.depth_ofSlots_le.1 fits
  have inner : ∀ s ∈ e.slots read, ∀ t ∈ s.2, t.depth ≤ depth :=
    fun s among => inner s (others s among)
  have id := (reads_uuid e.id).required
  have room := (reads_uuid e.roomId).required
  have owner := (reads_uuid e.ownerId).required
  have created := (reads_timestamp e.createdAt).required
  have body := (reads_payload ordered integral).required
  cases read with
  | stored =>
      have slots := record?_reordered (e.slots written) (Event.Layout.names .stored)
        [some e.id.toTree, some e.roomId.toTree, some e.ownerId.toTree, some e.createdAt.toTree,
          some e.payload.toTree] (e.slots_nodup written) others rfl depth
      simp only [Event.slots, List.forall_mem_cons] at inner
      simp only [event, slots, id.read inner.1, room.read inner.2.1, owner.read inner.2.2.1,
        created.read inner.2.2.2.1, body.read inner.2.2.2.2.1, Option.bind_eq_bind,
        Option.bind_some, Option.pure_def]
  | shown =>
      have slots := record?_reordered (e.slots written) (Event.Layout.names .shown)
        [some e.id.toTree, some e.ownerId.toTree, some e.roomId.toTree, some e.createdAt.toTree,
          some e.payload.toTree] (e.slots_nodup written) others rfl depth
      simp only [Event.slots, List.forall_mem_cons] at inner
      simp only [event, slots, id.read inner.1, owner.read inner.2.1, room.read inner.2.2.1,
        created.read inner.2.2.2.1, body.read inner.2.2.2.2.1, Option.bind_eq_bind,
        Option.bind_some, Option.pure_def]

/-- A decoder reads a value from the text of a tree that it reads it from. -/
theorem Reads.parse?_toString {α : Type} {d : Decoder α} {t : Tree} {x : α} (reads : Reads d t x)
    (fits : t.depth ≤ maxDepth) : parse? d (toString t) = some x := by
  have text : (toString t).toList = t.render := String.toList_ofList
  rw [parse?, text, Tree.parse?_render reads.isWritten, Option.bind_some, reads.read fits]

end Json.Decoder

namespace Peer

open Json (Decoder)

/-- What clients get of an event. -/
structure Converts (e : Event) : Prop where
  /-- They get it, and get it as it is, if its kind is one of four. -/
  succeeds : ∀ e', showEvent e = .ok e' ↔
    e.payload.kind ∈ ["peerState", "peerMessage", "recording", "reaction"] ∧ e' = e
  /-- Otherwise the error names the kind. -/
  fails : ∀ err, showEvent e = .error err ↔
    e.payload.kind ∉ ["peerState", "peerMessage", "recording", "reaction"] ∧
      err = .unknownKind e.payload.kind

/-- The texts of an event, the stored one and the one that clients get, stand for one event. -/
structure Agrees (e : Event) : Prop where
  /-- The stored text is read as the event. -/
  stored : Decoder.parse? (Decoder.event .stored) (toString (e.toTree .stored)) = some e
  /-- The two texts hold the same fields, each under its name. -/
  fields : (∀ layout, e.toTree layout = .ofSlots (e.slots layout)) ∧
    (e.slots .shown).Perm (e.slots .stored)
  /-- What clients get is read as what was converted. -/
  shown : ∀ e', showEvent e = .ok e' →
    Decoder.parse? (Decoder.event .shown) (toString (e'.toTree .shown)) = some e'
  /-- What clients get is read as the event that is stored. -/
  across : ∀ e', showEvent e = .ok e' →
    Decoder.parse? (Decoder.event .stored) (toString (e'.toTree .shown)) = some e

theorem isKnown_iff :
    e.isKnown = true ↔ e.payload.kind ∈ ["peerState", "peerMessage", "recording", "reaction"] :=
  List.contains_iff_mem

theorem converts (e : Event) : Converts e := by
  constructor <;> rw [showEvent, ← isKnown_iff] <;> cases e.isKnown <;> simp [eq_comm]

theorem agrees (ordered : e.payload.body.IsOrdered) (integral : e.payload.body.IsIntegral)
    (fits : (e.toTree .stored).depth ≤ maxDepth) : Agrees e := by
  have text : ∀ read written,
      Decoder.parse? (Decoder.event read) (toString (e.toTree written)) = some e :=
    fun read written => (Decoder.reads_event_across read written ordered integral).parse?_toString
      (e.depth_toTree written .stored ▸ fits)
  have same : ∀ e', showEvent e = .ok e' → e' = e :=
    fun e' got => ((converts e).succeeds e' |>.1 got).2
  constructor
  case stored => exact text .stored .stored
  case fields => exact ⟨e.toTree_slots, e.slots_perm .shown .stored⟩
  case shown =>
    intro e' got
    rw [same e' got]
    exact text .shown .shown
  case across =>
    intro e' got
    rw [same e' got]
    exact text .stored .shown

/-- Clients get an event if they understand its kind, and otherwise an error that names the kind.
The stored text and the text that clients get can both be read as the event, and neither loses or
swaps anything. -/
theorem showEvent_agrees (e : Event) : Converts e ∧
    (e.payload.body.IsOrdered → e.payload.body.IsIntegral →
      (e.toTree .stored).depth ≤ maxDepth → Agrees e) :=
  ⟨converts e, agrees⟩

/-- A reaction in a leap second, with different identifiers for its room and its owner. -/
def leapReaction : Event :=
  { Frame.beforeYearZero with
    payload := { Frame.beforeYearZero.payload with kind := "reaction" } }

/-- Clients get the reaction, and its text is read as the stored event. -/
theorem showEvent_agrees_leapReaction :
    leapReaction.payload.body.IsOrdered ∧ leapReaction.payload.body.IsIntegral ∧
      (leapReaction.toTree .stored).depth ≤ maxDepth ∧ showEvent leapReaction = .ok leapReaction ∧
      Decoder.parse? (Decoder.event .stored) (toString (leapReaction.toTree .shown)) =
        some leapReaction := by
  have ordered : leapReaction.payload.body.IsOrdered := by
    simp [leapReaction, Frame.beforeYearZero, Json.Value.IsOrdered]
    decide
  have integral : leapReaction.payload.body.IsIntegral := by
    simp [leapReaction, Frame.beforeYearZero, Json.Value.IsIntegral]
  have fits : (leapReaction.toTree .stored).depth ≤ maxDepth := by decide
  have got : showEvent leapReaction = .ok leapReaction :=
    ((showEvent_agrees leapReaction).1.succeeds _).2 ⟨by decide, rfl⟩
  exact ⟨ordered, integral, fits, got,
    ((showEvent_agrees leapReaction).2 ordered integral fits).across _ got⟩

end Peer

end Roomcast

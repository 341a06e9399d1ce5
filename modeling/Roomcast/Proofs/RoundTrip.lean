import Roomcast.Proofs.Nesting

/-!
# Frames that are read back

A frame whose opaque body has its names in order and no number but integers is read back from its
text, as long as the text does not nest too deep to be read at all. What has been read of a text is
such a frame, numbers apart: so it can be written and read again, and stays as it is.
-/

namespace Roomcast

open Json (Tree)

namespace Json.Decoder

open Roomcast.Peer

theorem optionalField_append {α : Type} (name : String) (write : α → Tree) (v : Option α)
    (slots : List Slot) : optionalField name write v ++ Tree.present slots =
      Tree.present ((name, v.map write) :: slots) := by
  cases v <;> rfl

theorem body_slots (b : Frame.Body) :
    b.toTree = .ofSlots [("signal", b.signal.map Signal.toTree),
      ("state", b.state.map State.toTree), ("peerMessage", b.note.map Note.toTree),
      ("event", b.event.map (Event.toTree .shown))] := by
  rw [Tree.ofSlots, ← optionalField_append, ← optionalField_append, ← optionalField_append,
    ← optionalField_append, Frame.Body.toTree]
  simp [Tree.present]

theorem frame_slots (f : Frame) :
    f.toTree = .ofSlots [("requestId", f.requestId.map .ofText),
      ("responseId", f.responseId.map .ofText), ("payload", some f.body.toTree)] := by
  rw [Tree.ofSlots, ← optionalField_append, ← optionalField_append, Frame.toTree]
  simp [Tree.present]

/-- The parts of a frame are read back. -/
theorem reads_body {b : Frame.Body} (ordered : ∀ e ∈ b.event, e.payload.body.IsOrdered)
    (integral : ∀ e ∈ b.event, e.payload.body.IsIntegral) : Reads body b.toTree b := by
  have signal := fills_optional (v := b.signal) (fun s _ => reads_signal s) nofun
  have state := fills_optional (v := b.state) (fun s _ => reads_state s) nofun
  have note := fills_optional (v := b.note) (fun n _ => reads_note n) nofun
  have event := fills_optional (v := b.event)
    (fun e there => reads_event .shown (ordered e there) (integral e there))
    fun e => by simp [Event.toTree, Tree.ofFields]
  rw [body_slots]
  refine reads_ofSlots _ (by simp) ?_ fun depth fits slots => ?_
  · simp only [List.forall_mem_cons]
    exact ⟨signal.isWritten, state.isWritten, note.isWritten, event.isWritten,
      List.forall_mem_nil _⟩
  · simp only [List.forall_mem_cons] at fits
    simp only [List.map_cons, List.map_nil] at slots
    simp only [body, slots, signal.read fits.1, state.read fits.2.1, note.read fits.2.2.1,
      event.read fits.2.2.2.1, Option.bind_eq_bind, Option.bind_some, Option.pure_def]

theorem reads_frame {f : Frame} (ordered : ∀ e ∈ f.body.event, e.payload.body.IsOrdered)
    (integral : ∀ e ∈ f.body.event, e.payload.body.IsIntegral) : Reads frame f.toTree f := by
  have request := fills_optional (v := f.requestId) (fun s _ => reads_text s) nofun
  have response := fills_optional (v := f.responseId) (fun s _ => reads_text s) nofun
  have parts := (reads_body ordered integral).defaulted .empty
  rw [frame_slots]
  refine reads_ofSlots _ (by simp) ?_ fun depth fits slots => ?_
  · simp only [List.forall_mem_cons]
    exact ⟨request.isWritten, response.isWritten, parts.isWritten, List.forall_mem_nil _⟩
  · simp only [List.forall_mem_cons] at fits
    simp only [List.map_cons, List.map_nil] at slots
    simp only [frame, slots, request.read fits.1, response.read fits.2.1, parts.read fits.2.2.1,
      Option.bind_eq_bind, Option.bind_some, Option.pure_def]

theorem bounded_body : Bounded body Frame.Body.toTree 3 := by
  intro depth t b read
  unfold body at read
  split at read
  · rename_i m _ _ _ _ record
    obtain rfl := eq_succ_of_record? record
    simp only [Option.bind_eq_bind, Option.bind_eq_some_iff] at read
    obtain ⟨signal, readSignal, state, readState, note, readNote, event, readEvent, same⟩ := read
    obtain rfl := Option.some.inj same
    have signal := bounded_signal.optional readSignal
    have state := bounded_state.optional readState
    have note := bounded_note.optional readNote
    have event := Bounded.optional (bounded_event .shown) readEvent
    rw [body_slots]
    refine Tree.depth_ofSlots_le.2 ⟨max m 2, by omega, ?_⟩
    simp only [List.forall_mem_cons]
    exact ⟨fun t there => (signal t there).trans (by omega), state,
      fun t there => (note t there).trans (by omega),
      fun t there => (event t there).trans (by omega), List.forall_mem_nil _⟩
  · cases read

theorem bounded_frame : Bounded frame Frame.toTree 4 := by
  intro depth t f read
  unfold frame at read
  split at read
  · rename_i m _ _ v record
    obtain rfl := eq_succ_of_record? record
    simp only [Option.bind_eq_bind, Option.bind_eq_some_iff] at read
    obtain ⟨request, _, response, _, parts, readParts, same⟩ := read
    obtain rfl := Option.some.inj same
    have parts : parts.toTree.depth ≤ max m 3 := by
      cases v with
      | none =>
          obtain rfl := Option.some.inj readParts
          exact (show 1 ≤ max m 3 by omega)
      | some t => exact bounded_body readParts
    rw [frame_slots]
    refine Tree.depth_ofSlots_le.2 ⟨max m 3, by omega, ?_⟩
    simpa using parts
  · cases read

theorem body_ordered {depth : Nat} {t : Tree} {b : Frame.Body} (read : body depth t = some b) :
    ∀ e ∈ b.event, e.payload.body.IsOrdered := by
  unfold body at read
  split at read
  · simp only [Option.bind_eq_bind, Option.bind_eq_some_iff] at read
    obtain ⟨_, _, _, _, _, _, event, readEvent, same⟩ := read
    obtain rfl := Option.some.inj same
    rintro e rfl
    unfold optional at readEvent
    split at readEvent
    · cases readEvent
    · unfold nullable at readEvent
      split at readEvent
      · cases readEvent
      · obtain ⟨e', readOne, same⟩ := Option.map_eq_some_iff.1 readEvent
        obtain rfl := Option.some.inj same
        exact event_ordered readOne
  · cases read

theorem frame_ordered {depth : Nat} {t : Tree} {f : Frame} (read : frame depth t = some f) :
    ∀ e ∈ f.body.event, e.payload.body.IsOrdered := by
  unfold frame at read
  split at read
  · rename_i v _
    simp only [Option.bind_eq_bind, Option.bind_eq_some_iff] at read
    obtain ⟨_, _, _, _, parts, readParts, same⟩ := read
    obtain rfl := Option.some.inj same
    cases v with
    | none =>
        obtain rfl := Option.some.inj readParts
        exact fun e none => (Option.not_mem_none e none).elim
    | some t => exact body_ordered readParts
  · cases read

end Json.Decoder

namespace Peer

namespace Frame

open Json (maxDepth)

/-- The opaque body of the event in a frame has its names in order. -/
def IsOrdered (f : Frame) : Prop := ∀ e ∈ f.body.event, e.payload.body.IsOrdered

/-- The numbers in the opaque body of the event in a frame are integers. -/
def IsIntegral (f : Frame) : Prop := ∀ e ∈ f.body.event, e.payload.body.IsIntegral

theorem parse?_render {f : Frame} (ordered : f.IsOrdered) (integral : f.IsIntegral)
    (fits : f.toTree.depth ≤ maxDepth) : Frame.parse? f.render = some f := by
  have reads := Json.Decoder.reads_frame ordered integral
  rw [parse?, Json.Decoder.parse?, render, String.toList_ofList, Tree.parse?_render reads.isWritten,
    Option.bind_some, reads.read fits]

/-- What has been read can be written and read again. -/
theorem fits_of_parse? {s : String} {f : Frame} (read : Frame.parse? s = some f) :
    f.IsOrdered ∧ f.toTree.depth ≤ maxDepth := by
  obtain ⟨t, _, read⟩ := Option.bind_eq_some_iff.1 read
  exact ⟨Json.Decoder.frame_ordered read, Json.Decoder.bounded_frame read⟩

/-- A frame is read back from its text, as long as the text nests no deeper than a reader goes. What
has been read of any text is written and read again, and neither it nor its text changes. -/
theorem roundTrip :
    (∀ f : Frame, f.IsOrdered → f.IsIntegral → f.toTree.depth ≤ maxDepth →
      Frame.parse? f.render = some f) ∧
    ∀ (s : String) (f : Frame), Frame.parse? s = some f → f.IsIntegral →
      ∃ g, Frame.parse? f.render = some g ∧ g = f ∧ g.render = f.render := by
  refine ⟨fun f => parse?_render, fun s f read integral => ?_⟩
  obtain ⟨ordered, fits⟩ := fits_of_parse? read
  exact ⟨f, parse?_render ordered integral fits, rfl, rfl⟩

/-- An event in a leap second before the year 0, with a body that nests. -/
def beforeYearZero : Event where
  id := Uuid.ofNat 1
  roomId := Uuid.ofNat 2
  ownerId := Uuid.ofNat 3
  createdAt := ⟨⟨-5, 12, 31, by decide⟩, ⟨23, 59, 60, 500000000, by decide⟩⟩
  payload := ⟨"a\"\u0001", .object [("", .number (.int (-9223372036854775808) (by decide))),
    ("é", .array [.object [], .null])]⟩

/-- The event is read back from the frame that carries it. A state that a client has written as
arrays, with an escape, is read back from the form in which the service writes it. -/
theorem roundTrip_beforeYearZero :
    Frame.parse? (ofEvent beforeYearZero).render = some (ofEvent beforeYearZero) ∧
    (∃ g, Frame.parse? (ofEvent beforeYearZero).render = some g ∧ g = ofEvent beforeYearZero ∧
      g.render = (ofEvent beforeYearZero).render) ∧
    Frame.parse? "[null, \"7\", [null, [[[\"\\u0061\", \"camera\"]]]]]" =
      some ((ofState ⟨[⟨"a", .camera⟩]⟩).inResponseTo (some "7")) ∧
    ∃ g, Frame.parse? ((ofState ⟨[⟨"a", .camera⟩]⟩).inResponseTo (some "7")).render = some g ∧
      g = (ofState ⟨[⟨"a", .camera⟩]⟩).inResponseTo (some "7") ∧
      g.render = ((ofState ⟨[⟨"a", .camera⟩]⟩).inResponseTo (some "7")).render := by
  have ordered : (ofEvent beforeYearZero).IsOrdered := by
    rintro e ⟨⟩
    simp [beforeYearZero, Json.Value.IsOrdered]
    decide
  have integral : (ofEvent beforeYearZero).IsIntegral := by
    rintro e ⟨⟩
    simp [beforeYearZero, Json.Value.IsIntegral]
  have read := roundTrip.1 (ofEvent beforeYearZero) ordered integral (by decide)
  have short : Frame.parse? "[null, \"7\", [null, [[[\"\\u0061\", \"camera\"]]]]]" =
      some ((ofState ⟨[⟨"a", .camera⟩]⟩).inResponseTo (some "7")) := rfl
  have eventless : ((ofState ⟨[⟨"a", .camera⟩]⟩).inResponseTo (some "7")).IsIntegral := by
    rintro e ⟨⟩
  exact ⟨read, roundTrip.2 _ _ read integral, short, roundTrip.2 _ _ short eventless⟩

end Frame

end Peer

end Roomcast

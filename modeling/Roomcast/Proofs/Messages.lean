import Roomcast.Peer.State
import Roomcast.Proofs.Records
import Roomcast.Proofs.Stamps

/-!
# Messages

Signals, states, texts and events are read back from their written forms, by the decoders that the
frames use. An event is read back in either layout.
-/

namespace Roomcast.Json.Decoder

open Roomcast.Peer

theorem reads_uuid (u : Uuid) : Reads uuid u.toTree u := by
  refine ⟨Tree.isWritten_string u.render, fun _ => ?_⟩
  have written : u.toTree = .ofText (String.ofList u.render) := by
    rw [Uuid.toTree, Tree.ofText, String.toList_ofList]
  rw [written, uuid, (reads_text _).read (Nat.zero_le _), Option.bind_some, String.toList_ofList,
    Uuid.parse?_render]

theorem reads_timestamp (t : Timestamp) : Reads timestamp t.toTree t := by
  refine ⟨Tree.isWritten_string t.render, fun _ => ?_⟩
  have written : t.toTree = .ofText (String.ofList t.render) := by
    rw [Timestamp.toTree, Tree.ofText, String.toList_ofList]
  rw [written, timestamp, (reads_text _).read (Nat.zero_le _), Option.bind_some,
    String.toList_ofList, Timestamp.parse?_render]

theorem ofNat_eq_ofInt (n : Nat) : Tree.ofNat n = .ofInt n := by
  have sign : decide ((n : Int) < 0) = false := decide_eq_false (by omega)
  rw [Tree.ofNat, Tree.ofInt, sign, Int.natAbs_natCast]

theorem reads_word16 (n : UInt16) : Reads word16 (.ofNat n.toNat) n := by
  have small : n.toNat < 65536 := n.toNat_lt
  have integer : Reads (integer 0 65535) (.ofInt n.toNat) n.toNat :=
    reads_integer ⟨by simp, by simp; omega⟩ ⟨by omega, by omega⟩
  have word := integer.map (f := fun n => UInt16.ofNat n.toNat)
  rw [Int.toNat_natCast, UInt16.ofNat_toNat] at word
  rw [ofNat_eq_ofInt]
  exact word

theorem reads_word64 (n : Int64) : Reads word64 (.ofInt n.toInt) n := by
  have low := n.le_toInt
  have high := n.toInt_lt
  have integer : Reads (integer (-Nat.pow 2 63) (Nat.pow 2 63 - 1)) (.ofInt n.toInt) n.toInt :=
    reads_integer ⟨by simp; omega, by simp; omega⟩ ⟨by simp; omega, by simp; omega⟩
  have word := integer.map (f := Int64.ofInt)
  rw [Int64.ofInt_toInt] at word
  exact word

theorem reads_descriptionKind (k : DescriptionKind) :
    Reads (name DescriptionKind.names) (.ofText k.name) k := by
  refine reads_name ?_
  cases k <;> rfl

theorem reads_description (x : Description) : Reads description x.toTree x := by
  have kind := (reads_descriptionKind x.kind).required
  have sdp := (reads_text x.sdp).required
  refine reads_ofSlots
    [("type", some (.ofText x.kind.name)), ("sdp", some (.ofText x.sdp))]
    (by simp) ?_ fun depth fits slots => ?_
  · simp only [List.forall_mem_cons]
    exact ⟨kind.isWritten, sdp.isWritten, List.forall_mem_nil _⟩
  · simp only [List.forall_mem_cons] at fits
    simp only [List.map_cons, List.map_nil] at slots
    simp only [description, slots, kind.read fits.1, sdp.read fits.2.1, Option.bind_eq_bind,
      Option.bind_some, Option.pure_def]

theorem candidate_slots (x : Candidate) :
    x.toTree = .ofSlots [("candidate", some (.ofText x.candidate)),
      ("sdpMid", x.sdpMid.map .ofText),
      ("sdpMLineIndex", x.lineIndex.map fun n => .ofNat n.toNat),
      ("usernameFragment", x.usernameFragment.map .ofText)] := by
  obtain ⟨candidate, sdpMid, lineIndex, usernameFragment⟩ := x
  cases sdpMid <;> cases lineIndex <;> cases usernameFragment <;> rfl

theorem reads_candidate (x : Candidate) : Reads candidate x.toTree x := by
  have text := (reads_text x.candidate).required
  have sdpMid := fills_optional (v := x.sdpMid) (fun s _ => reads_text s) nofun
  have lineIndex := fills_optional (v := x.lineIndex) (fun n _ => reads_word16 n) nofun
  have fragment := fills_optional (v := x.usernameFragment) (fun s _ => reads_text s) nofun
  rw [candidate_slots]
  refine reads_ofSlots _ (by simp) ?_ fun depth fits slots => ?_
  · simp only [List.forall_mem_cons]
    exact ⟨text.isWritten, sdpMid.isWritten, lineIndex.isWritten, fragment.isWritten,
      List.forall_mem_nil _⟩
  · simp only [List.forall_mem_cons] at fits
    simp only [List.map_cons, List.map_nil] at slots
    simp only [candidate, slots, text.read fits.1, sdpMid.read fits.2.1,
      lineIndex.read fits.2.2.1, fragment.read fits.2.2.2.1, Option.bind_eq_bind,
      Option.bind_some, Option.pure_def]

theorem reads_join (u : Uuid) (s : String) (x : Description) :
    Reads join (Signal.join u s x).body (.join u s x) := by
  have user := (reads_uuid u).required
  have session := (reads_text s).required
  have body := (reads_description x).required
  refine reads_ofSlots [("userId", some u.toTree), ("sessionId", some (.ofText s)),
    ("description", some x.toTree)] (by simp) ?_ fun depth fits slots => ?_
  · simp only [List.forall_mem_cons]
    exact ⟨user.isWritten, session.isWritten, body.isWritten, List.forall_mem_nil _⟩
  · simp only [List.forall_mem_cons] at fits
    simp only [List.map_cons, List.map_nil] at slots
    simp only [join, slots, user.read fits.1, session.read fits.2.1, body.read fits.2.2.1,
      Option.bind_eq_bind, Option.bind_some, Option.pure_def]

theorem reads_describing (signal : Description → Signal) (x : Description) :
    Reads (describing signal) (.ofFields [("description", x.toTree)]) (signal x) := by
  have body := (reads_description x).required
  refine reads_ofSlots [("description", some x.toTree)] (by simp) ?_
    fun depth fits slots => ?_
  · simp only [List.forall_mem_cons]
    exact ⟨body.isWritten, List.forall_mem_nil _⟩
  · simp only [List.forall_mem_cons] at fits
    simp only [List.map_cons, List.map_nil] at slots
    simp only [describing, slots, body.read fits.1, Option.map_some]

theorem reads_trickle (x : Candidate) (target : Int64) :
    Reads trickle (Signal.trickle x target).body (.trickle x target) := by
  have body := (reads_candidate x).required
  have word := (reads_word64 target).required
  refine reads_ofSlots
    [("candidate", some x.toTree), ("target", some (.ofInt target.toInt))]
    (by simp) ?_ fun depth fits slots => ?_
  · simp only [List.forall_mem_cons]
    exact ⟨body.isWritten, word.isWritten, List.forall_mem_nil _⟩
  · simp only [List.forall_mem_cons] at fits
    simp only [List.map_cons, List.map_nil] at slots
    simp only [trickle, slots, body.read fits.1, word.read fits.2.1, Option.bind_eq_bind,
      Option.bind_some, Option.pure_def]

/-- A signal of any kind is read back. -/
theorem reads_signal (x : Signal) : Reads signal x.toTree x := by
  cases x with
  | join u s x => exact reads_tagged rfl (reads_join u s x)
  | offer x => exact reads_tagged rfl (reads_describing .offer x)
  | answer x => exact reads_tagged rfl (reads_describing .answer x)
  | trickle x target => exact reads_tagged rfl (reads_trickle x target)

theorem reads_hint (h : TrackHint) : Reads (name TrackHint.names) (.ofText h.name) h := by
  refine reads_name ?_
  cases h <;> rfl

theorem reads_track (x : Track) : Reads track x.toTree x := by
  have id := (reads_text x.id).required
  have hint := (reads_hint x.hint).required
  refine reads_ofSlots
    [("id", some (.ofText x.id)), ("hint", some (.ofText x.hint.name))]
    (by simp) ?_ fun depth fits slots => ?_
  · simp only [List.forall_mem_cons]
    exact ⟨id.isWritten, hint.isWritten, List.forall_mem_nil _⟩
  · simp only [List.forall_mem_cons] at fits
    simp only [List.map_cons, List.map_nil] at slots
    simp only [track, slots, id.read fits.1, hint.read fits.2.1, Option.bind_eq_bind,
      Option.bind_some, Option.pure_def]

/-- The tracks of a state are read in whatever way each of them is written. -/
theorem reads_tracks {write : Track → Tree} (each : ∀ t, Reads track (write t) t) (x : State) :
    Reads state (.ofSlots [("tracks", some (.array (x.tracks.map write)))]) x := by
  have tracks := (reads_list x.tracks fun t _ => each t).defaulted []
  refine reads_ofSlots _ (by simp) ?_ fun depth fits slots => ?_
  · simp only [List.forall_mem_cons]
    exact ⟨tracks.isWritten, List.forall_mem_nil _⟩
  · simp only [List.forall_mem_cons] at fits
    simp only [List.map_cons, List.map_nil] at slots
    simp only [state, slots, tracks.read fits.1, Option.map_some]

theorem reads_state (x : State) : Reads state x.toTree x := reads_tracks reads_track x

theorem reads_note (x : Note) : Reads note x.toTree x := by
  have body := (reads_text x.text).required
  refine reads_ofSlots [("text", some (.ofText x.text))] (by simp) ?_
    fun depth fits slots => ?_
  · simp only [List.forall_mem_cons]
    exact ⟨body.isWritten, List.forall_mem_nil _⟩
  · simp only [List.forall_mem_cons] at fits
    simp only [List.map_cons, List.map_nil] at slots
    simp only [note, slots, body.read fits.1, Option.map_some]

theorem reads_payload {x : Payload} (ordered : x.body.IsOrdered) (integral : x.body.IsIntegral) :
    Reads payload x.toTree x := by
  have kind := (reads_text x.kind).required
  have body := (reads_value ordered integral).required
  refine reads_ofSlots
    [("type", some (.ofText x.kind)), ("payload", some x.body.toTree)]
    (by simp) ?_ fun depth fits slots => ?_
  · simp only [List.forall_mem_cons]
    exact ⟨kind.isWritten, body.isWritten, List.forall_mem_nil _⟩
  · simp only [List.forall_mem_cons] at fits
    simp only [List.map_cons, List.map_nil] at slots
    simp only [payload, slots, kind.read fits.1, body.read fits.2.1, Option.bind_eq_bind,
      Option.bind_some, Option.pure_def]

/-- An event is read back in the layout in which it has been written. -/
theorem reads_event (layout : Event.Layout) {x : Event} (ordered : x.payload.body.IsOrdered)
    (integral : x.payload.body.IsIntegral) : Reads (event layout) (x.toTree layout) x := by
  have id := (reads_uuid x.id).required
  have room := (reads_uuid x.roomId).required
  have owner := (reads_uuid x.ownerId).required
  have created := (reads_timestamp x.createdAt).required
  have body := (reads_payload ordered integral).required
  cases layout with
  | stored =>
      refine reads_ofSlots [("id", some x.id.toTree), ("roomId", some x.roomId.toTree),
        ("ownerId", some x.ownerId.toTree), ("createdAt", some x.createdAt.toTree),
        ("payload", some x.payload.toTree)] (by simp) ?_ fun depth fits slots => ?_
      · simp only [List.forall_mem_cons]
        exact ⟨id.isWritten, room.isWritten, owner.isWritten, created.isWritten, body.isWritten,
          List.forall_mem_nil _⟩
      · simp only [List.forall_mem_cons] at fits
        simp only [List.map_cons, List.map_nil] at slots
        simp only [event, Event.Layout.names, slots, id.read fits.1, room.read fits.2.1,
          owner.read fits.2.2.1, created.read fits.2.2.2.1, body.read fits.2.2.2.2.1,
          Option.bind_eq_bind, Option.bind_some, Option.pure_def]
  | shown =>
      refine reads_ofSlots [("id", some x.id.toTree), ("ownerId", some x.ownerId.toTree),
        ("roomId", some x.roomId.toTree), ("createdAt", some x.createdAt.toTree),
        ("payload", some x.payload.toTree)] (by simp) ?_ fun depth fits slots => ?_
      · simp only [List.forall_mem_cons]
        exact ⟨id.isWritten, owner.isWritten, room.isWritten, created.isWritten, body.isWritten,
          List.forall_mem_nil _⟩
      · simp only [List.forall_mem_cons] at fits
        simp only [List.map_cons, List.map_nil] at slots
        simp only [event, Event.Layout.names, slots, id.read fits.1, owner.read fits.2.1,
          room.read fits.2.2.1, created.read fits.2.2.2.1, body.read fits.2.2.2.2.1,
          Option.bind_eq_bind, Option.bind_some, Option.pure_def]

end Roomcast.Json.Decoder

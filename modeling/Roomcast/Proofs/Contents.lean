import Roomcast.Proofs.RoundTrip

/-!
# What an opaque body holds

What a peer publishes becomes the opaque body of an event, in which the fields of an object are kept
in the order of their names. Whoever knows what the body is about reads the same content from it,
wherever the event has got meanwhile: from the log, or from a frame that has been written and read.
-/

namespace Roomcast

open Json (Tree Value Decoder)

namespace Json.Decoder

open Roomcast.Peer

theorem trackValue_fields (x : Track) :
    x.toValue = .object [("hint", .string x.hint.name), ("id", .string x.id)] := by
  have before : "hint" < "id" := by decide
  simp [Track.toValue, sortFields, putField, before]

theorem trackValue_slots (x : Track) :
    x.toValue.toTree =
      .ofSlots [("hint", some (.ofText x.hint.name)), ("id", some (.ofText x.id))] := by
  rw [trackValue_fields]
  rfl

/-- The fields of a record are found in whatever order they have been written. -/
theorem record?_reordered (slots : List Slot) (names : List String) (values : List (Option Tree))
    (declared : (slots.map Prod.fst).Nodup)
    (each : ∀ n ∈ names.zip values, n ∈ slots) (all : names.length = values.length) (depth : Nat) :
    record? names (depth + 1) (.ofSlots slots) = some (depth, values) := by
  rw [Tree.ofSlots, Tree.ofFields, record?, named?_ofFields, Option.bind_some]
  have found : ((names.zip values).map Prod.fst).mapM (field? (Tree.present slots)) =
      some ((names.zip values).map Prod.snd) :=
    mapM_map_map fun s among => field?_present declared (each s among)
  rw [List.map_fst_zip all.le, List.map_snd_zip all.ge] at found
  rw [found, Option.map_some]

/-- The fields of a track are found though they stand in another order. -/
theorem reads_trackValue (x : Track) : Reads track x.toValue.toTree x := by
  have id := (reads_text x.id).required
  have hint := (reads_hint x.hint).required
  rw [trackValue_slots]
  refine ⟨Tree.isWritten_ofSlots ?_, fun {depth} fits => ?_⟩
  · simp only [List.forall_mem_cons]
    exact ⟨hint.isWritten, id.isWritten, List.forall_mem_nil _⟩
  · obtain ⟨depth, rfl, inner⟩ := Tree.depth_ofSlots_le.1 fits
    simp only [List.forall_mem_cons] at inner
    have slots := record?_reordered
      [("hint", some (.ofText x.hint.name)), ("id", some (.ofText x.id))] ["id", "hint"]
      [some (.ofText x.id), some (.ofText x.hint.name)]
      (by simp) (by simp) rfl depth
    simp only [track, slots, id.read inner.2.1, hint.read inner.1, Option.bind_eq_bind,
      Option.bind_some, Option.pure_def]

theorem stateValue_tree (x : State) :
    x.toValue.toTree = .ofSlots
      [("tracks", some (.array (x.tracks.map fun t => t.toValue.toTree)))] := by
  rw [State.toValue, Value.toTree_object, List.map_singleton, Value.fieldTree, Value.toTree_array,
    List.map_map]
  rfl

theorem reads_stateValue (x : State) : Reads state x.toValue.toTree x := by
  rw [stateValue_tree]
  exact reads_tracks reads_trackValue x

theorem reads_noteValue (x : Note) : Reads note x.toValue.toTree x := reads_note x

end Json.Decoder

/-- A value that nests little, has its names in order and no number but integers. -/
structure Json.Value.IsPlain (v : Value) : Prop where
  ordered : v.IsOrdered
  integral : v.IsIntegral
  shallow : v.toTree.depth ≤ 3

namespace Peer

theorem Track.toValue_plain (t : Track) :
    t.toValue.IsOrdered ∧ t.toValue.IsIntegral ∧ t.toValue.toTree.depth ≤ 1 := by
  have before : "hint" < "id" := by decide
  have sorted : Json.Sorted [("hint", Value.string t.hint.name), ("id", Value.string t.id)] :=
    List.pairwise_pair.2 before
  refine ⟨?_, ?_, ?_⟩
  · rw [Json.Decoder.trackValue_fields]
    simpa [Value.IsOrdered] using sorted
  · rw [Json.Decoder.trackValue_fields]
    simp [Value.IsIntegral]
  · rw [Json.Decoder.trackValue_slots]
    exact Tree.depth_ofSlots_le.2 ⟨0, rfl, by simp⟩

theorem State.toValue_plain (s : State) : s.toValue.IsPlain := by
  constructor
  case ordered =>
    simp only [State.toValue, Value.IsOrdered, Value.all_object, List.forall_mem_singleton,
      Value.all_array, List.forall_mem_map]
    exact ⟨List.pairwise_singleton _ _, trivial, fun t _ => t.toValue_plain.1⟩
  case integral =>
    simp only [State.toValue, Value.IsIntegral, Value.all_object, List.forall_mem_singleton,
      Value.all_array, List.forall_mem_map]
    exact ⟨trivial, trivial, fun t _ => t.toValue_plain.2.1⟩
  case shallow =>
    refine Value.depth_object_toTree_le.2 ⟨2, rfl, List.forall_mem_singleton.2 ?_⟩
    refine Value.depth_array_toTree_le.2 ⟨1, rfl, List.forall_mem_map.2 fun t _ => ?_⟩
    exact t.toValue_plain.2.2

theorem Note.toValue_plain (n : Note) : n.toValue.IsPlain := by
  constructor
  case ordered =>
    simp only [Note.toValue, Value.IsOrdered, Value.all_object, List.forall_mem_singleton,
      Value.all_string]
    exact ⟨List.pairwise_singleton _ _, trivial⟩
  case integral => simp [Note.toValue, Value.IsIntegral]
  case shallow =>
    refine Value.depth_object_toTree_le.2 ⟨2, rfl, List.forall_mem_singleton.2 ?_⟩
    simp [Value.toTree]

end Peer

theorem Event.depth_toTree_le {layout : Event.Layout} {e : Event} {n : Nat}
    (body : e.payload.body.toTree.depth ≤ n) : (e.toTree layout).depth ≤ n + 2 := by
  have payload : e.payload.toTree.depth ≤ n + 1 :=
    Tree.depth_ofFields_le.2 ⟨n, rfl, by simpa using body⟩
  refine Tree.depth_ofFields_le.2 ⟨n + 1, rfl, ?_⟩
  cases layout <;>
    simpa [Event.Layout.names, Uuid.toTree, Timestamp.toTree, Tree.depth] using payload

namespace Peer.Frame

open Json (maxDepth)

/-- A frame nests by two levels deeper than its parts. -/
theorem depth_toTree_le {f : Frame} {n : Nat} (signal : ∀ s ∈ f.body.signal, s.toTree.depth ≤ n)
    (state : ∀ s ∈ f.body.state, s.toTree.depth ≤ n)
    (note : ∀ s ∈ f.body.note, s.toTree.depth ≤ n)
    (event : ∀ e ∈ f.body.event, (e.toTree .shown).depth ≤ n) : f.toTree.depth ≤ n + 2 := by
  have body : f.body.toTree.depth ≤ n + 1 := by
    rw [Json.Decoder.body_slots]
    refine Tree.depth_ofSlots_le.2 ⟨n, rfl, ?_⟩
    simp only [List.forall_mem_cons, Option.forall_mem_map]
    exact ⟨signal, state, note, event, List.forall_mem_nil _⟩
  rw [Json.Decoder.frame_slots]
  refine Tree.depth_ofSlots_le.2 ⟨n + 1, rfl, ?_⟩
  simpa using body

/-- An event with a plain body is read back from its frame. -/
theorem parse?_ofEvent {e : Event} (plain : e.payload.body.IsPlain) (id : Option String) :
    parse? ((ofEvent e).inResponseTo id).render = some ((ofEvent e).inResponseTo id) := by
  have parts : ((ofEvent e).inResponseTo id).toTree.depth ≤ 3 + 2 + 2 := by
    refine depth_toTree_le nofun nofun nofun ?_
    rintro e ⟨⟩
    exact Event.depth_toTree_le plain.shallow
  refine parse?_render ?_ ?_ (parts.trans (by decide))
  · rintro e ⟨⟩
    exact plain.ordered
  · rintro e ⟨⟩
    exact plain.integral

/-- A state is read back from its frame. -/
theorem parse?_ofState (s : State) (id : Option String) :
    parse? ((ofState s).inResponseTo id).render = some ((ofState s).inResponseTo id) := by
  have shallow : s.toTree.depth ≤ 3 := by
    refine Tree.depth_ofFields_le.2 ⟨2, rfl, List.forall_mem_singleton.2 ?_⟩
    refine Tree.depth_array_le.2 ⟨1, rfl, List.forall_mem_map.2 fun t _ => ?_⟩
    exact Tree.depth_ofFields_le.2 ⟨0, rfl, by simp⟩
  have eventless : ∀ {P : Event → Prop}, ∀ e ∈ ((ofState s).inResponseTo id).body.event, P e :=
    fun e none => (Option.not_mem_none e none).elim
  have parts : ((ofState s).inResponseTo id).toTree.depth ≤ 3 + 2 := by
    refine depth_toTree_le nofun ?_ nofun eventless
    rintro s ⟨⟩
    exact shallow
  exact parse?_render eventless eventless (parts.trans (by decide))

end Peer.Frame

end Roomcast

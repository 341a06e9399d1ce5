import Roomcast.Peer.Frame
import Roomcast.Proofs.Messages

/-!
# Nesting of what has been read

What has been read of a frame nests, when it is written again, no deeper than the reader went. There
is one exception: a part that was left out and has a default is written. So an empty state costs two
levels, whatever the reader was allowed.
-/

namespace Roomcast.Json.Decoder

open Roomcast.Peer

theorem bounded_description : Bounded description Description.toTree 0 := by
  intro depth t x read
  unfold description at read
  split at read
  · rename_i m kind sdp record
    obtain rfl := eq_succ_of_record? record
    exact Tree.depth_ofFields_le.2 ⟨m, rfl, by simp⟩
  · cases read

theorem bounded_candidate : Bounded candidate Candidate.toTree 0 := by
  intro depth t x read
  unfold candidate at read
  split at read
  · rename_i m _ _ _ _ record
    obtain rfl := eq_succ_of_record? record
    rw [candidate_slots]
    refine Tree.depth_ofSlots_le.2 ⟨m, rfl, ?_⟩
    simp
  · cases read

theorem bounded_join : Bounded join Signal.body 0 := by
  intro depth t x read
  unfold join at read
  split at read
  · rename_i m _ _ _ record
    obtain rfl := eq_succ_of_record? record
    simp only [Option.bind_eq_bind, Option.bind_eq_some_iff] at read
    obtain ⟨u, _, s, _, x, readBody, same⟩ := read
    obtain rfl := Option.some.inj same
    have body := bounded_description.required readBody
    refine Tree.depth_ofFields_le.2 ⟨m, rfl, ?_⟩
    simp [Uuid.toTree, Tree.depth]
    simpa using body
  · cases read

theorem bounded_describing {signal : Description → Signal}
    (write : ∀ x, (signal x).body = .ofFields [("description", x.toTree)]) :
    Bounded (describing signal) Signal.body 0 := by
  intro depth t x read
  unfold describing at read
  split at read
  · rename_i m _ record
    obtain rfl := eq_succ_of_record? record
    obtain ⟨x, readBody, rfl⟩ := Option.map_eq_some_iff.1 read
    have body := bounded_description.required readBody
    rw [write]
    refine Tree.depth_ofFields_le.2 ⟨m, rfl, ?_⟩
    simpa using body
  · cases read

theorem bounded_trickle : Bounded trickle Signal.body 0 := by
  intro depth t x read
  unfold trickle at read
  split at read
  · rename_i m _ _ record
    obtain rfl := eq_succ_of_record? record
    simp only [Option.bind_eq_bind, Option.bind_eq_some_iff] at read
    obtain ⟨x, readBody, target, _, same⟩ := read
    obtain rfl := Option.some.inj same
    have body := bounded_candidate.required readBody
    refine Tree.depth_ofFields_le.2 ⟨m, rfl, ?_⟩
    simpa using body
  · cases read

theorem bounded_signal : Bounded signal Signal.toTree 0 := by
  intro depth t x read
  obtain ⟨m, c, t', rfl, among, read⟩ := exists_of_tagged read
  have body : x.body.depth ≤ max m 0 := by
    simp only [List.mem_cons, List.not_mem_nil, or_false] at among
    obtain rfl | rfl | rfl | rfl := among
    · exact bounded_join read
    · exact bounded_describing (fun _ => rfl) read
    · exact bounded_describing (fun _ => rfl) read
    · exact bounded_trickle read
  refine Tree.depth_ofFields_le.2 ⟨m, by omega, ?_⟩
  simpa using body

theorem bounded_track : Bounded track Track.toTree 0 := by
  intro depth t x read
  unfold track at read
  split at read
  · rename_i m _ _ record
    obtain rfl := eq_succ_of_record? record
    exact Tree.depth_ofFields_le.2 ⟨m, rfl, by simp⟩
  · cases read

theorem bounded_state : Bounded state State.toTree 2 := by
  intro depth t x read
  unfold state at read
  split at read
  · rename_i m tracks record
    obtain rfl := eq_succ_of_record? record
    obtain ⟨xs, readTracks, rfl⟩ := Option.map_eq_some_iff.1 read
    have list : (Tree.array (xs.map Track.toTree)).depth ≤ max m 1 := by
      cases tracks with
      | none =>
          obtain rfl := Option.some.inj readTracks
          exact Tree.depth_array_le.2 ⟨max m 1 - 1, by omega, by simp⟩
      | some t => exact bounded_list bounded_track readTracks
    refine Tree.depth_ofFields_le.2 ⟨max m 1, by omega, ?_⟩
    simpa using list
  · cases read

theorem bounded_note : Bounded note Note.toTree 0 := by
  intro depth t x read
  unfold note at read
  split at read
  · rename_i m _ record
    obtain rfl := eq_succ_of_record? record
    exact Tree.depth_ofFields_le.2 ⟨m, rfl, by simp⟩
  · cases read

theorem bounded_payload : Bounded payload Payload.toTree 0 := by
  intro depth t x read
  unfold payload at read
  split at read
  · rename_i m _ _ record
    obtain rfl := eq_succ_of_record? record
    simp only [Option.bind_eq_bind, Option.bind_eq_some_iff] at read
    obtain ⟨kind, _, v, readBody, same⟩ := read
    obtain rfl := Option.some.inj same
    have body := bounded_value.required readBody
    refine Tree.depth_ofFields_le.2 ⟨m, rfl, ?_⟩
    simpa using body
  · cases read

theorem bounded_event (layout : Event.Layout) : Bounded (event layout) (Event.toTree layout) 0 := by
  intro depth t x read
  unfold event at read
  split at read
  · rename_i m _ _ _ _ _ record
    obtain rfl := eq_succ_of_record? record
    simp only [Option.bind_eq_bind, Option.bind_eq_some_iff] at read
    obtain ⟨id, _, first, _, second, _, createdAt, _, p, readBody, same⟩ := read
    have body := bounded_payload.required readBody
    obtain rfl := Option.some.inj same
    cases layout <;>
    · refine Tree.depth_ofFields_le.2 ⟨m, rfl, ?_⟩
      simpa [Event.Layout.names, Uuid.toTree, Timestamp.toTree, Tree.depth] using body
  · cases read

/-- An opaque body has its names in order as soon as it has been read. -/
theorem payload_ordered {depth : Nat} {t : Tree} {x : Payload} (read : payload depth t = some x) :
    x.body.IsOrdered := by
  unfold payload at read
  split at read
  · simp only [Option.bind_eq_bind, Option.bind_eq_some_iff] at read
    obtain ⟨kind, _, v, readBody, same⟩ := read
    obtain rfl := Option.some.inj same
    obtain ⟨t, _, readBody⟩ := Option.bind_eq_some_iff.1 readBody
    exact (Tree.value?_ordered readBody).1
  · cases read

theorem event_ordered {layout : Event.Layout} {depth : Nat} {t : Tree} {x : Event}
    (read : event layout depth t = some x) : x.payload.body.IsOrdered := by
  unfold event at read
  split at read
  · simp only [Option.bind_eq_bind, Option.bind_eq_some_iff] at read
    obtain ⟨id, _, first, _, second, _, createdAt, _, p, readBody, same⟩ := read
    obtain ⟨t, _, readBody⟩ := Option.bind_eq_some_iff.1 readBody
    obtain rfl := Option.some.inj same
    cases layout <;> exact payload_ordered readBody
  · cases read

end Roomcast.Json.Decoder

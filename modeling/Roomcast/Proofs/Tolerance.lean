import Roomcast.Peer.Request
import Roomcast.Proofs.Edits
import Roomcast.Proofs.Parsing

/-!
# What frames put up with

A frame is made of records that stand inside one another. A client may write the fields of each of
them in any order, with white space where it likes, and with fields that nobody has declared; what
is skipped of them need not even be decodable. A field that may be absent may be null. But no
declared field may be given twice, and a signal is of one kind.

Each decoder reads a record and then its declared fields in their order, so it is enough to say for
each field which decoder reads it.
-/

namespace Roomcast

namespace Json.Schema

def description : Schema := .record ["type", "sdp"] [] fun _ => .leaf

def candidate : Schema :=
  .record ["candidate", "sdpMid", "sdpMLineIndex", "usernameFragment"]
    ["sdpMid", "sdpMLineIndex", "usernameFragment"] fun _ => .leaf

def join : Schema :=
  .record ["userId", "sessionId", "description"] [] fun name =>
    if name = "description" then description else .leaf

/-- What a signal says that has nothing but a description. -/
def describing : Schema := .record ["description"] [] fun _ => description

def trickle : Schema :=
  .record ["candidate", "target"] [] fun name => if name = "candidate" then candidate else .leaf

def signal : Schema :=
  .choice fun name =>
    if name = "join" then join
    else if name = "trickle" then trickle
    else describing

def track : Schema := .record ["id", "hint"] [] fun _ => .leaf

def state : Schema := .record ["tracks"] [] fun _ => .list track

def note : Schema := .record ["text"] [] fun _ => .leaf

def payload : Schema := .record ["type", "payload"] [] fun _ => .leaf

def event : Schema :=
  .record ["id", "ownerId", "roomId", "createdAt", "payload"] [] fun name =>
    if name = "payload" then payload else .leaf

def body : Schema :=
  .record ["signal", "state", "peerMessage", "event"] ["signal", "state", "peerMessage", "event"]
    fun name =>
      if name = "signal" then signal
      else if name = "state" then state
      else if name = "peerMessage" then note
      else event

def frame : Schema :=
  .record ["requestId", "responseId", "payload"] ["requestId", "responseId"] fun name =>
    if name = "payload" then body else .leaf

end Json.Schema

namespace Json.Decoder

open Roomcast.Peer

theorem description_row (depth : Nat) (t : Tree) :
    description depth t = (record? ["type", "sdp"] depth t).bind fun r =>
      cell (required (name DescriptionKind.names))
        (fun kind => cell (required text) fun sdp => done ⟨kind, sdp⟩) r.1 r.2 := by
  rw [description]
  cases record? ["type", "sdp"] depth t with
  | none => rfl
  | some r =>
      obtain ⟨m, _ | ⟨_, _ | ⟨_, _ | _⟩⟩⟩ := r <;> simp [cell, done]

theorem tolerant_description : Tolerant .description description :=
  .record description_row <|
    .cell (Tolerant.leaf.required (by simp)) fun _ =>
      .cell (Tolerant.leaf.required (by simp)) fun _ => .done _

theorem candidate_row (depth : Nat) (t : Tree) :
    candidate depth t = (record? ["candidate", "sdpMid", "sdpMLineIndex", "usernameFragment"]
      depth t).bind fun r =>
        cell (required text) (fun candidate => cell (optional text) fun sdpMid =>
          cell (optional word16) fun lineIndex => cell (optional text) fun usernameFragment =>
            done ⟨candidate, sdpMid, lineIndex, usernameFragment⟩) r.1 r.2 := by
  rw [candidate]
  cases record? ["candidate", "sdpMid", "sdpMLineIndex", "usernameFragment"] depth t with
  | none => rfl
  | some r =>
      obtain ⟨m, _ | ⟨_, _ | ⟨_, _ | ⟨_, _ | ⟨_, _ | _⟩⟩⟩⟩⟩ := r <;> simp [cell, done]

theorem tolerant_candidate : Tolerant .candidate candidate :=
  .record candidate_row <|
    .cell (Tolerant.leaf.required (by simp)) fun _ => .cell Tolerant.leaf.optional fun _ =>
      .cell Tolerant.leaf.optional fun _ => .cell Tolerant.leaf.optional fun _ => .done _

theorem join_row (depth : Nat) (t : Tree) :
    join depth t = (record? ["userId", "sessionId", "description"] depth t).bind fun r =>
      cell (required uuid) (fun userId => cell (required text) fun sessionId =>
        cell (required description) fun description =>
          done (.join userId sessionId description)) r.1 r.2 := by
  rw [join]
  cases record? ["userId", "sessionId", "description"] depth t with
  | none => rfl
  | some r =>
      obtain ⟨m, _ | ⟨_, _ | ⟨_, _ | ⟨_, _ | _⟩⟩⟩⟩ := r <;> simp [cell, done]

theorem tolerant_join : Tolerant .join join :=
  .record join_row <|
    .cell (Tolerant.leaf.required (by simp)) fun _ =>
      .cell (Tolerant.leaf.required (by simp)) fun _ =>
        .cell (tolerant_description.required (by simp)) fun _ => .done _

theorem describing_row (signal : Description → Signal) (depth : Nat) (t : Tree) :
    describing signal depth t = (record? ["description"] depth t).bind fun r =>
      cell (required description) (fun description => done (signal description)) r.1 r.2 := by
  rw [describing]
  cases record? ["description"] depth t with
  | none => rfl
  | some r =>
      obtain ⟨m, _ | ⟨_, _ | _⟩⟩ := r <;> simp [cell, done, Option.map_eq_bind]

theorem tolerant_describing (signal : Description → Signal) :
    Tolerant .describing (describing signal) :=
  .record (describing_row signal) <|
    .cell (tolerant_description.required (by simp)) fun _ => .done _

theorem trickle_row (depth : Nat) (t : Tree) :
    trickle depth t = (record? ["candidate", "target"] depth t).bind fun r =>
      cell (required candidate) (fun candidate => cell (required word64) fun target =>
        done (.trickle candidate target)) r.1 r.2 := by
  rw [trickle]
  cases record? ["candidate", "target"] depth t with
  | none => rfl
  | some r =>
      obtain ⟨m, _ | ⟨_, _ | ⟨_, _ | _⟩⟩⟩ := r <;> simp [cell, done]

theorem tolerant_trickle : Tolerant .trickle trickle :=
  .record trickle_row <|
    .cell (tolerant_candidate.required (by simp)) fun _ =>
      .cell (Tolerant.leaf.required (by simp)) fun _ => .done _

theorem tolerant_signal : Tolerant .signal signal := by
  refine .tagged fun c among => ?_
  simp only [List.mem_cons, List.not_mem_nil, or_false] at among
  obtain rfl | rfl | rfl | rfl := among
  · exact tolerant_join
  · exact tolerant_describing .offer
  · exact tolerant_describing .answer
  · exact tolerant_trickle

theorem track_row (depth : Nat) (t : Tree) :
    track depth t = (record? ["id", "hint"] depth t).bind fun r =>
      cell (required text) (fun id => cell (required (name TrackHint.names)) fun hint =>
        done ⟨id, hint⟩) r.1 r.2 := by
  rw [track]
  cases record? ["id", "hint"] depth t with
  | none => rfl
  | some r =>
      obtain ⟨m, _ | ⟨_, _ | ⟨_, _ | _⟩⟩⟩ := r <;> simp [cell, done]

theorem tolerant_track : Tolerant .track track :=
  .record track_row <|
    .cell (Tolerant.leaf.required (by simp)) fun _ =>
      .cell (Tolerant.leaf.required (by simp)) fun _ => .done _

theorem state_row (depth : Nat) (t : Tree) :
    state depth t = (record? ["tracks"] depth t).bind fun r =>
      cell (defaulted [] (list track)) (fun tracks => done ⟨tracks⟩) r.1 r.2 := by
  rw [state]
  cases record? ["tracks"] depth t with
  | none => rfl
  | some r =>
      obtain ⟨m, _ | ⟨_, _ | _⟩⟩ := r <;> simp [cell, done, Option.map_eq_bind]

theorem tolerant_state : Tolerant .state state :=
  .record state_row <| .cell (tolerant_track.list.defaulted (by simp) []) fun _ => .done _

theorem note_row (depth : Nat) (t : Tree) :
    note depth t = (record? ["text"] depth t).bind fun r =>
      cell (required text) (fun text => done ⟨text⟩) r.1 r.2 := by
  rw [note]
  cases record? ["text"] depth t with
  | none => rfl
  | some r =>
      obtain ⟨m, _ | ⟨_, _ | _⟩⟩ := r <;> simp [cell, done, Option.map_eq_bind]

theorem tolerant_note : Tolerant .note note :=
  .record note_row <| .cell (Tolerant.leaf.required (by simp)) fun _ => .done _

theorem payload_row (depth : Nat) (t : Tree) :
    payload depth t = (record? ["type", "payload"] depth t).bind fun r =>
      cell (required text) (fun kind => cell (required value) fun body =>
        done ⟨kind, body⟩) r.1 r.2 := by
  rw [payload]
  cases record? ["type", "payload"] depth t with
  | none => rfl
  | some r =>
      obtain ⟨m, _ | ⟨_, _ | ⟨_, _ | _⟩⟩⟩ := r <;> simp [cell, done]

theorem tolerant_payload : Tolerant .payload payload :=
  .record payload_row <|
    .cell (Tolerant.leaf.required (by simp)) fun _ =>
      .cell (Tolerant.leaf.required (by simp)) fun _ => .done _

theorem event_row (depth : Nat) (t : Tree) :
    event .shown depth t =
      (record? ["id", "ownerId", "roomId", "createdAt", "payload"] depth t).bind fun r =>
        cell (required uuid) (fun id => cell (required uuid) fun ownerId =>
          cell (required uuid) fun roomId => cell (required timestamp) fun createdAt =>
            cell (required payload) fun payload =>
              done ⟨id, roomId, ownerId, createdAt, payload⟩) r.1 r.2 := by
  rw [event, Event.Layout.names]
  cases record? ["id", "ownerId", "roomId", "createdAt", "payload"] depth t with
  | none => rfl
  | some r =>
      obtain ⟨m, _ | ⟨_, _ | ⟨_, _ | ⟨_, _ | ⟨_, _ | ⟨_, _ | _⟩⟩⟩⟩⟩⟩ := r <;> simp [cell, done]

theorem tolerant_event : Tolerant .event (event .shown) :=
  .record event_row <|
    .cell (Tolerant.leaf.required (by simp)) fun _ =>
      .cell (Tolerant.leaf.required (by simp)) fun _ =>
        .cell (Tolerant.leaf.required (by simp)) fun _ =>
          .cell (Tolerant.leaf.required (by simp)) fun _ =>
            .cell (tolerant_payload.required (by simp)) fun _ => .done _

theorem body_row (depth : Nat) (t : Tree) :
    body depth t = (record? ["signal", "state", "peerMessage", "event"] depth t).bind fun r =>
      cell (optional signal) (fun signal => cell (optional state) fun state =>
        cell (optional note) fun note => cell (optional (event .shown)) fun event =>
          done ⟨signal, state, note, event⟩) r.1 r.2 := by
  rw [body]
  cases record? ["signal", "state", "peerMessage", "event"] depth t with
  | none => rfl
  | some r =>
      obtain ⟨m, _ | ⟨_, _ | ⟨_, _ | ⟨_, _ | ⟨_, _ | _⟩⟩⟩⟩⟩ := r <;> simp [cell, done]

theorem tolerant_body : Tolerant .body body :=
  .record body_row <|
    .cell tolerant_signal.optional fun _ => .cell tolerant_state.optional fun _ =>
      .cell tolerant_note.optional fun _ => .cell tolerant_event.optional fun _ => .done _

theorem frame_row (depth : Nat) (t : Tree) :
    frame depth t = (record? ["requestId", "responseId", "payload"] depth t).bind fun r =>
      cell (optional text) (fun requestId => cell (optional text) fun responseId =>
        cell (defaulted .empty body) fun body => done ⟨requestId, responseId, body⟩) r.1 r.2 := by
  rw [frame]
  cases record? ["requestId", "responseId", "payload"] depth t with
  | none => rfl
  | some r =>
      obtain ⟨m, _ | ⟨_, _ | ⟨_, _ | ⟨_, _ | _⟩⟩⟩⟩ := r <;> simp [cell, done]

theorem tolerant_frame : Tolerant .frame frame :=
  .record frame_row <|
    .cell Tolerant.leaf.optional fun _ => .cell Tolerant.leaf.optional fun _ =>
      .cell (tolerant_body.defaulted (by simp) _) fun _ => .done _

end Json.Decoder

namespace Peer.Frame

open Json (Tree Schema Edit Spoil)

/-- What becomes of a frame when the tree is rewritten that it has been read from. -/
structure Lenient (t : Tree) (f : Frame) : Prop where
  /-- The frame stays as it is, however often the tree is edited and in whatever way it is then
  written. -/
  keeps : ∀ t', Relation.ReflTransGen (Edit .frame) t t' → ∀ s : String, t'.Writes s.toList →
    parse? s = some f
  /-- A tree that has been spoiled, at once or after some edits, is no frame in whatever way it is
  written, and as a request it is malformed. -/
  refuses : ∀ t', Relation.ReflTransGen (Edit .frame) t t' → ∀ u, Spoil .frame t' u →
    ∀ s : String, u.Writes s.toList →
      parse? s = none ∧ ∀ media, Request.read media s = .error .malformed

theorem parse?_of_writes {t : Tree} {s : String} (writes : t.Writes s.toList) :
    parse? s = Json.Decoder.frame Json.maxDepth t := by
  rw [parse?, Json.Decoder.parse?, Tree.parse?_eq_some.2 writes, Option.bind_some]

theorem read_edited {t t' : Tree} {f : Frame} (edits : Relation.ReflTransGen (Edit .frame) t t')
    (read : Json.Decoder.frame Json.maxDepth t = some f) :
    Json.Decoder.frame Json.maxDepth t' = some f := by
  induction edits with
  | refl => exact read
  | tail _ edit ih => exact Json.Decoder.tolerant_frame.keeps edit ih

/-- A text that is read as a frame is a way to write one tree, and this tree may be edited in many
ways without a change to the frame, but must not be spoiled. -/
theorem parse?_lenient {s : String} {f : Frame} (read : parse? s = some f) :
    ∃ t : Tree, t.Writes s.toList ∧ Lenient t f := by
  obtain ⟨t, parsed, read⟩ := Option.bind_eq_some_iff.1 read
  refine ⟨t, Tree.parse?_eq_some.1 parsed, ?_, ?_⟩
  · intro t' edits s' writes
    rw [parse?_of_writes writes]
    exact read_edited edits read
  · intro t' edits u spoil s' writes
    have none : parse? s' = none := by
      rw [parse?_of_writes writes]
      exact Json.Decoder.tolerant_frame.refuses spoil (read_edited edits read)
    exact ⟨none, fun media => by rw [Request.read, none]⟩

/-- A frame with a text to the room, and with other fields. -/
def chat (others parts fields : List (String × Tree)) : Tree :=
  .ofFields (others ++ [("payload", .ofFields (parts ++
    [("peerMessage", .ofFields (("text", .ofText "hi") :: fields))]))])

def greeting : String :=
  "\x7b\"payload\":\x7b\"peerMessage\":\x7b\"text\":\"hi\"\x7d\x7d\x7d"

/-- The same with white space, with a field that nobody has declared, and with an event that is
null. -/
def wordyGreeting : String :=
  "\x7b \"x\": [\"\\ud800\"],\n \"payload\":\x7b\"event\":null," ++
    "\"peerMessage\":\x7b\"text\":\"hi\"\x7d\x7d\x7d "

def doubleGreeting : String :=
  "\x7b\"payload\":\x7b\"peerMessage\":\x7b\"text\":\"hi\",\"text\":null\x7d\x7d\x7d"

/-- The wordy greeting is read as the greeting is, and the double one is malformed. -/
theorem parse?_lenient_greeting : ∃ f, parse? greeting = some f ∧ parse? wordyGreeting = some f ∧
    Request.read false doubleGreeting = .error .malformed := by
  obtain ⟨f, read⟩ : ∃ f, parse? greeting = some f :=
    Option.isSome_iff_exists.1 (by decide +kernel)
  obtain ⟨t, writes, lenient⟩ := parse?_lenient read
  have plain : Tree.parse? greeting.toList = some (chat [] [] []) := by rfl
  have wordy : Tree.parse? wordyGreeting.toList =
      some (chat [("x", .array [.string [.half 0xd800]])] [("event", .null)] []) := by rfl
  have double : Tree.parse? doubleGreeting.toList = some (chat [] [] [("text", .null)]) := by rfl
  obtain rfl := writes.unique (Tree.parse?_eq_some.1 plain)
  have event : Edit .frame (chat [] [] []) (chat [] [("event", .null)] []) :=
    @Edit.field _ _ _ [] [] "payload" _ _ _ rfl (by simp)
      (@Edit.null _ _ _ [] [_] "event" _ rfl (by simp) (by simp [Json.Means]; decide))
  have other : Edit .frame (chat [] [("event", .null)] [])
      (chat [("x", .array [.string [.half 0xd800]])] [("event", .null)] []) :=
    @Edit.unknown _ _ _ [] [_] "x" _ _ rfl (by simp)
  have again : Spoil .frame (chat [] [] []) (chat [] [] [("text", .null)]) :=
    @Spoil.field _ _ _ [] [] "payload" _ _ _ rfl (by simp)
      (@Spoil.field _ _ _ [] [] "peerMessage" _ _ _ rfl (by simp)
        (@Spoil.again _ _ _ [_] [] "text" _ _ rfl (by simp) ⟨_, List.mem_cons_self, rfl⟩))
  have edits := (Relation.ReflTransGen.single event).tail other
  exact ⟨f, read, lenient.keeps _ edits _ (Tree.parse?_eq_some.1 wordy),
    (lenient.refuses _ .refl _ again _ (Tree.parse?_eq_some.1 double)).2 false⟩

end Peer.Frame

end Roomcast

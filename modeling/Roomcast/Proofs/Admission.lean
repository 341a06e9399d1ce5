import Roomcast.Proofs.Records
import Roomcast.Proofs.Serving

/-!
# What is admitted

A state is in order if it has ten tracks at most and each of them has an id of its own that is not
empty. A text to the room is in order if it has between one and a thousand characters, however it
was written. Checking finds a fault in whatever is not in order, and of several faults the first.

Nothing that is not in order ever becomes an event: what a session publishes it has checked before,
and a frame that asks for something else has no event and no answer.
-/

namespace Roomcast.Peer

open Json (Tree Piece)
open Json.Decoder (record?_ofSlots)

theorem SessionError.message_ofFault (f : Fault) :
    (SessionError.ofFault f).message = "validation failed: " ++ f.message := rfl

theorem Fault.message_tooManyTracks (count : Nat) :
    (Fault.tooManyTracks count).message = s!"too many tracks: {count} (max 10)" := by
  have limit : " (max " ++ (toString maxTracks ++ ")") = " (max 10)" := by decide
  show "too many tracks: " ++ toString count ++ " (max " ++ toString maxTracks ++ ")" =
    "too many tracks: " ++ toString count ++ " (max 10)"
  rw [← limit, ← String.append_assoc, ← String.append_assoc]

theorem Fault.message_textTooLong (length : Nat) :
    (Fault.textTooLong length).message = s!"message text too long: {length} (max 1000)" := by
  have limit : " (max " ++ (toString maxNoteLength ++ ")") = " (max 1000)" := by decide
  show "message text too long: " ++ toString length ++ " (max " ++ toString maxNoteLength ++ ")" =
    "message text too long: " ++ toString length ++ " (max 1000)"
  rw [← limit, ← String.append_assoc, ← String.append_assoc]

namespace State

structure IsValid (s : State) : Prop where
  few : s.tracks.length ≤ 10
  named : ∀ t ∈ s.tracks, t.id ≠ ""
  distinct : (s.tracks.map (·.id)).Nodup

theorem trackFault?_eq_none {seen : List String} {ts : List Track} :
    trackFault? seen ts = none ↔
      (∀ t ∈ ts, t.id ≠ "") ∧ (ts.map (·.id)).Nodup ∧ ∀ t ∈ ts, t.id ∉ seen := by
  induction ts generalizing seen with
  | nil => simp [trackFault?]
  | cons t ts ih =>
      rw [trackFault?]
      split_ifs with empty again
      · simp [empty]
      · simp [again]
      · rw [ih, List.forall_mem_cons, List.forall_mem_cons, List.map_cons, List.nodup_cons]
        constructor
        · rintro ⟨named, distinct, fresh⟩
          refine ⟨⟨empty, named⟩, ⟨?_, distinct⟩, again, ?_⟩
          · intro repeated
            obtain ⟨u, among, same⟩ := List.mem_map.1 repeated
            exact fresh u among (same ▸ List.mem_cons_self)
          · exact fun u among old => fresh u among (List.mem_cons_of_mem _ old)
        · rintro ⟨⟨_, named⟩, ⟨alone, distinct⟩, _, fresh⟩
          refine ⟨named, distinct, fun u among old => ?_⟩
          obtain same | old := List.mem_cons.1 old
          · exact alone (List.mem_map.2 ⟨u, among, same⟩)
          · exact fresh u among old

/-- The fault that is found is that of a track before which there is none. -/
theorem trackFault?_eq_some {seen : List String} {ts : List Track} {f : Fault}
    (found : trackFault? seen ts = some f) : ∃ before t behind, ts = before ++ t :: behind ∧
      trackFault? seen before = none ∧
        (t.id = "" ∧ f = .emptyTrackId ∨
          t.id ≠ "" ∧ (t.id ∈ before.map (·.id) ∨ t.id ∈ seen) ∧ f = .duplicateTrackId t.id) := by
  induction ts generalizing seen with
  | nil => cases found
  | cons t ts ih =>
      rw [trackFault?] at found
      split_ifs at found with empty again
      · cases found
        exact ⟨[], t, ts, rfl, rfl, .inl ⟨empty, rfl⟩⟩
      · cases found
        exact ⟨[], t, ts, rfl, rfl, .inr ⟨empty, .inr again, rfl⟩⟩
      · obtain ⟨before, u, behind, rfl, none, fault⟩ := ih found
        refine ⟨t :: before, u, behind, rfl, ?_, ?_⟩
        · rw [trackFault?, if_neg empty, if_neg again, none]
        · refine fault.imp_right ?_
          rintro ⟨named, repeated, rfl⟩
          refine ⟨named, ?_, rfl⟩
          rw [List.map_cons, List.mem_cons]
          rw [List.mem_cons] at repeated
          tauto

/-- What is said about a track with a fault. -/
def complaint (t : Track) : String :=
  if t.id = "" then "track id is empty" else "duplicate track id: " ++ t.id

/-- What checking finds in a state. -/
structure IsJudged (s : State) : Prop where
  succeeds : s.fault? = none ↔ s.IsValid
  counts : 10 < s.tracks.length → s.fault? = some (.tooManyTracks s.tracks.length)
  /-- If there are not too many tracks, the first that is wrong is found: it has no id, or the id of
  an earlier one. -/
  finds : s.tracks.length ≤ 10 → ∀ f, s.fault? = some f →
    ∃ before t behind, s.tracks = before ++ t :: behind ∧ (State.mk before).IsValid ∧
      (t.id = "" ∧ f = .emptyTrackId ∨
        t.id ≠ "" ∧ t.id ∈ before.map (·.id) ∧ f = .duplicateTrackId t.id)
  /-- The text of the error names the number of tracks, or the first that is wrong. -/
  told : ∀ f, s.fault? = some f →
    10 < s.tracks.length ∧ (SessionError.ofFault f).message =
      "validation failed: " ++ s!"too many tracks: {s.tracks.length} (max 10)" ∨
    s.tracks.length ≤ 10 ∧ ∃ before t behind, s.tracks = before ++ t :: behind ∧
      (State.mk before).IsValid ∧
      (SessionError.ofFault f).message = "validation failed: " ++ complaint t

theorem counts_of_many (s : State) (many : 10 < s.tracks.length) :
    s.fault? = some (.tooManyTracks s.tracks.length) := by
  rw [fault?, maxTracks, if_pos many]

theorem finds_of_few (s : State) (few : s.tracks.length ≤ 10) {f : Fault}
    (found : s.fault? = some f) :
    ∃ before t behind, s.tracks = before ++ t :: behind ∧ (State.mk before).IsValid ∧
      (t.id = "" ∧ f = .emptyTrackId ∨
        t.id ≠ "" ∧ t.id ∈ before.map (·.id) ∧ f = .duplicateTrackId t.id) := by
  rw [fault?, maxTracks, if_neg (by omega)] at found
  obtain ⟨before, t, behind, split, none, fault⟩ := trackFault?_eq_some found
  obtain ⟨named, distinct, _⟩ := trackFault?_eq_none.1 none
  have length : s.tracks.length = before.length + (behind.length + 1) := by simp [split]
  refine ⟨before, t, behind, split, ⟨by show before.length ≤ 10; omega, named, distinct⟩, ?_⟩
  simpa using fault

theorem isJudged (s : State) : s.IsJudged where
  succeeds := by
    rw [fault?, maxTracks]
    split_ifs with many
    · exact ⟨nofun, fun valid => absurd valid.few (by omega)⟩
    · rw [trackFault?_eq_none]
      constructor
      · rintro ⟨named, distinct, _⟩
        exact ⟨by omega, named, distinct⟩
      · rintro ⟨_, named, distinct⟩
        exact ⟨named, distinct, fun t _ => List.not_mem_nil⟩
  counts := s.counts_of_many
  finds few _ := s.finds_of_few few
  told f found := by
    obtain many | few := Nat.lt_or_ge 10 s.tracks.length
    · obtain rfl := Option.some.inj ((s.counts_of_many many).symm.trans found)
      exact .inl ⟨many, by rw [SessionError.message_ofFault, Fault.message_tooManyTracks]⟩
    · obtain ⟨before, t, behind, split, valid, fault⟩ := s.finds_of_few few found
      refine .inr ⟨few, before, t, behind, split, valid, ?_⟩
      have same : f.message = complaint t := by
        obtain ⟨empty, rfl⟩ | ⟨named, _, rfl⟩ := fault
        · exact (if_pos empty).symm
        · exact (if_neg named).symm
      rw [SessionError.message_ofFault, same]

end State

namespace Note

def IsValid (n : Note) : Prop := 1 ≤ n.text.toList.length ∧ n.text.toList.length ≤ 1000

/-- What checking finds in a text. -/
structure IsJudged (n : Note) : Prop where
  succeeds : n.fault? = none ↔ n.IsValid
  fails : ∀ f, n.fault? = some f → f = .emptyText ∧ n.text = "" ∨
    f = .textTooLong n.text.toList.length ∧ 1000 < n.text.toList.length
  /-- The text of the error names the number of characters. -/
  told : ∀ f, n.fault? = some f → (SessionError.ofFault f).message = "validation failed: " ++
    if n.text = "" then "message text is empty"
    else s!"message text too long: {n.text.toList.length} (max 1000)"

theorem fails_of_fault (n : Note) {f : Fault} (found : n.fault? = some f) :
    f = .emptyText ∧ n.text = "" ∨
      f = .textTooLong n.text.toList.length ∧ 1000 < n.text.toList.length := by
  rw [fault?, maxNoteLength] at found
  rw [String.length_toList]
  split_ifs at found with empty long
  · cases found
    exact .inl ⟨rfl, by simpa using empty⟩
  · cases found
    exact .inr ⟨rfl, long⟩

theorem isJudged (n : Note) : n.IsJudged where
  succeeds := by
    rw [fault?, IsValid, String.length_toList, maxNoteLength]
    split_ifs <;> simp <;> omega
  fails _ := n.fails_of_fault
  told f found := by
    obtain ⟨rfl, empty⟩ | ⟨rfl, long⟩ := n.fails_of_fault found
    · rw [if_pos empty]
      exact SessionError.message_ofFault .emptyText
    · have named : n.text ≠ "" := by
        intro empty
        simp [empty] at long
      rw [SessionError.message_ofFault, if_neg named, Fault.message_textTooLong]

/-- A text with the pieces of its string, as a frame holds it. -/
def tree (ps : List Piece) : Tree := .ofSlots [("text", some (.string ps))]

def bodyTree (ps : List Piece) : Tree :=
  .ofSlots [("signal", none), ("state", none), ("peerMessage", some (tree ps)), ("event", none)]

def frameTree (ps : List Piece) : Tree :=
  .ofSlots [("requestId", none), ("responseId", none), ("payload", some (bodyTree ps))]

variable {ps : List Piece} {u : String}

theorem read_tree (decoded : Json.decodeText? ps = some u) (depth : Nat) :
    Json.Decoder.note (depth + 1) (tree ps) = some ⟨u⟩ := by
  have slots := @record?_ofSlots [("text", some (.string ps))] (by simp) depth
  simp only [List.map_cons, List.map_nil] at slots
  simp only [Json.Decoder.note, tree, slots]
  show (Json.decodeText? ps).map _ = _
  rw [decoded, Option.map_some]

theorem read_bodyTree (decoded : Json.decodeText? ps = some u) (depth : Nat) :
    Json.Decoder.body (depth + 2) (bodyTree ps) =
      some { Frame.Body.empty with note := some ⟨u⟩ } := by
  have slots := @record?_ofSlots [("signal", none), ("state", none),
    ("peerMessage", some (tree ps)), ("event", none)] (by simp) (depth + 1)
  have own : Json.Decoder.optional Json.Decoder.note (depth + 1) (some (tree ps)) =
      some (some ⟨u⟩) := by
    show (Json.Decoder.note (depth + 1) (tree ps)).map some = _
    rw [read_tree decoded, Option.map_some]
  simp only [List.map_cons, List.map_nil] at slots
  simp only [Json.Decoder.body, bodyTree, slots, own]
  rfl

/-- The characters of a text count, and not how they are written. -/
theorem read_of_writes (decoded : Json.decodeText? ps = some u) {s : String}
    (writes : (frameTree ps).Writes s.toList) (media : Bool) :
    Request.read media s = match (Note.mk u).fault? with
      | none => .ok (some (none, .say ⟨u⟩))
      | some f => .error (.ofFault f) := by
  have slots := @record?_ofSlots [("requestId", none), ("responseId", none),
    ("payload", some (bodyTree ps))] (by simp) 126
  have body := read_bodyTree decoded 124
  simp only [List.map_cons, List.map_nil] at slots
  have frame : Frame.parse? s =
      some ⟨none, none, { Frame.Body.empty with note := some ⟨u⟩ }⟩ := by
    rw [Frame.parse?, Json.Decoder.parse?, Tree.parse?_eq_some.2 writes, Option.bind_some]
    simp only [Json.maxDepth, Json.Decoder.frame, frameTree, slots, Json.Decoder.defaulted, body]
    rfl
  have request : Frame.request? ⟨none, none, { Frame.Body.empty with note := some ⟨u⟩ }⟩ media =
      some (.say ⟨u⟩) := by
    cases media <;> rfl
  rw [Request.read, frame]
  dsimp only
  rw [request]
  dsimp only [Request.fault?]
  cases (Note.mk u).fault? <;> rfl

/-- A text is taken just if it has the right number of characters. -/
theorem read_or_fault (decoded : Json.decodeText? ps = some u) {s : String}
    (writes : (frameTree ps).Writes s.toList) (media : Bool) :
    (1 ≤ u.toList.length ∧ u.toList.length ≤ 1000 ∧
        Request.read media s = .ok (some (none, .say ⟨u⟩))) ∨
      ¬ (1 ≤ u.toList.length ∧ u.toList.length ≤ 1000) ∧
        ∃ f, Request.read media s = .error (.ofFault f) := by
  have judged := (isJudged ⟨u⟩).succeeds
  rw [read_of_writes decoded writes media]
  cases fault : (Note.mk u).fault? with
  | none => exact .inl ⟨(judged.1 fault).1, (judged.1 fault).2, rfl⟩
  | some f => exact .inr ⟨fun valid => by simp [judged.2 valid] at fault, f, rfl⟩

end Note

def IsAdmissible (e : Event) : Prop :=
  (∃ s : State, s.IsValid ∧ e.payload = ⟨"peerState", s.toValue⟩) ∨
    ∃ n : Note, n.IsValid ∧ e.payload = ⟨"peerMessage", n.toValue⟩

/-- A frame is about something that is not in order. Its text to the room counts only if it has no
state. -/
def Frame.IsUnfit (f : Frame) : Prop :=
  match f.body.state, f.body.note with
  | some s, _ => ¬ s.IsValid
  | none, some n => ¬ n.IsValid
  | none, none => False

namespace Session.Seat

variable {p : Seat} {text : String} {stamp : Stamp} {f : Frame}

theorem admissible_of_emitted {e : Event} (among : .emitted e ∈ p.reaction text stamp) :
    IsAdmissible e := by
  rw [reaction] at among
  split at among
  · cases among
  · unfold onFrame at among
    split at among
    case h_1 => simp at among
    case h_2 s _ _ =>
      rw [onState] at among
      split_ifs at among with fine
      · obtain rfl : e = _ := by simpa using among
        exact .inl ⟨s, s.isJudged.succeeds.1 fine, rfl⟩
      · cases among
    case h_3 n _ _ _ =>
      rw [onNote] at among
      split_ifs at among with fine
      · obtain rfl : e = _ := by simpa using among
        exact .inr ⟨n, n.isJudged.succeeds.1 fine, rfl⟩
      · cases among
    case h_4 => cases among

/-- A frame that is unfit has at most a signal passed on. -/
theorem reaction_of_unfit (read : Frame.parse? text = some f) (unfit : f.IsUnfit) (stamp : Stamp) :
    p.reaction text stamp = [] ∨
      ∃ signal, f.body.signal = some signal ∧ p.media = true ∧
        p.reaction text stamp = [.relayed signal] := by
  rw [reaction, read]
  dsimp only
  unfold onFrame
  unfold Frame.IsUnfit at unfit
  split
  case h_1 signal there media => exact .inr ⟨signal, there, media, rfl⟩
  case h_2 s there _ =>
    rw [there] at unfit
    exact .inl (if_neg (mt s.isJudged.succeeds.1 unfit))
  case h_3 n there own _ =>
    rw [there, own] at unfit
    exact .inl (if_neg (mt n.isJudged.succeeds.1 unfit))
  case h_4 => exact .inl rfl

end Session.Seat

namespace Scene

variable {x y : Scene} {p : Session.Seat}

/-- What a session admits of what its client asks for. -/
structure Admits (p : Session.Seat) (x : Scene) : Prop where
  states : ∀ s : State, s.IsJudged
  notes : ∀ n : Note, n.IsJudged
  /-- A text counts as many characters as it has, in whatever way it is written. -/
  spelled : ∀ (ps : List Piece) (u s : String), Json.decodeText? ps = some u →
    (Note.frameTree ps).Writes s.toList → ∀ media,
      (1 ≤ u.toList.length ∧ u.toList.length ≤ 1000 ∧
          Request.read media s = .ok (some (none, .say ⟨u⟩))) ∨
        ¬ (1 ≤ u.toList.length ∧ u.toList.length ≤ 1000) ∧
          ∃ f, Request.read media s = .error (.ofFault f)
  /-- What it has published is in order. -/
  emitted : ∀ e, .emitted e ∈ x.done → IsAdmissible e
  /-- When it moves, nothing is published but what is in order. -/
  stored : ∀ m now y, x.next? (.moves m now) = some y →
    y.hub.registry.store = x.hub.registry.store ∨
      ∃ e, IsAdmissible e ∧ y.done = x.done ++ [.emitted e] ∧ x.hub.emit e = .ok y.hub
  /-- The loop that receives sends nothing but answers, and they are noted. -/
  answered : ∀ now y, x.next? (.moves (.loop .receiving) now) = some y →
    y.session.link.sent = x.session.link.sent ∨ ∃ r, y.done = x.done ++ [.replied r]
  /-- Each text that has been taken has its share of what has been done and is still to be done. -/
  shared : ∃ missing, x.done ++ missing = (x.taken.map fun t => p.reaction t.1 t.2).flatten
  /-- There is neither an event nor an answer in the share of an unfit frame. -/
  refused : ∀ text f, Frame.parse? text = some f → f.IsUnfit → ∀ stamp,
    (∀ e, .emitted e ∉ p.reaction text stamp) ∧ ∀ r, .replied r ∉ p.reaction text stamp
  /-- An unfit frame without a signal is taken, and leaves everything else as it is. -/
  untouched : ∀ text rest f now, x.session.stage = .serving → x.session.receiving = .waiting →
    x.session.link.inbox = .text text :: rest → Frame.parse? text = some f → f.IsUnfit →
    f.body.signal = none →
      x.session.move? x.hub now (.loop .receiving) = some (x.hub, x.session.behead rest)

theorem Kept.admissible {before : Option (List Signal)} (h : x.Kept p before) {e : Event}
    (among : .emitted e ∈ x.done) : IsAdmissible e := by
  obtain ⟨missing, whole, _⟩ := h.inTurn
  have asked : .emitted e ∈ x.due p := whole ▸ List.mem_append_left _ among
  obtain ⟨t, _, among⟩ := List.mem_flatMap.1 asked
  exact Session.Seat.admissible_of_emitted among

theorem Kept.stored {before : Option (List Signal)} {m : Session.Move} {now : Nat}
    (h : x.Kept p before) (happened : x.next? (.moves m now) = some y) :
    y.hub.registry.store = x.hub.registry.store ∨
      ∃ e, IsAdmissible e ∧ y.done = x.done ++ [.emitted e] ∧ x.hub.emit e = .ok y.hub := by
  obtain ⟨_, idle⟩ | ⟨e, noted, performed⟩ := h.noted happened
  · exact .inl (idle.store m now rfl)
  · cases e with
    | relayed | replied =>
        obtain ⟨_, _, same⟩ := Option.map_eq_some_iff.1 performed
        exact .inl (by rw [(Prod.mk.inj same).1])
    | emitted e =>
        obtain ⟨hub', emits, same⟩ := Option.map_eq_some_iff.1 performed
        obtain rfl := (Prod.mk.inj same).1
        refine .inr ⟨e, (h.next? happened).admissible (by simp [noted]), noted, ?_⟩
        cases emitted : x.hub.emit e with
        | ok => simp_all [Except.toOption]
        | error => simp_all [Except.toOption]

theorem Kept.answered {before : Option (List Signal)} {now : Nat} (h : x.Kept p before)
    (happened : x.next? (.moves (.loop .receiving) now) = some y) :
    y.session.link.sent = x.session.link.sent ∨ ∃ r, y.done = x.done ++ [.replied r] := by
  obtain ⟨_, idle⟩ | ⟨e, noted, performed⟩ := h.noted happened
  · exact .inl (idle.sent rfl)
  · cases e with
    | relayed | emitted =>
        obtain ⟨_, _, same⟩ := Option.map_eq_some_iff.1 performed
        exact .inl (congrArg (·.link.sent) (Prod.mk.inj same).2).symm
    | replied r => exact .inr ⟨r, noted⟩

theorem Kept.untouched {before : Option (List Signal)} {text : String} {rest : List Arrival}
    {f : Frame} {now : Nat} (h : x.Kept p before) (serving : x.session.stage = .serving)
    (waits : x.session.receiving = .waiting) (first : x.session.link.inbox = .text text :: rest)
    (read : Frame.parse? text = some f) (unfit : f.IsUnfit) (silent : f.body.signal = none) :
    x.session.move? x.hub now (.loop .receiving) = some (x.hub, x.session.behead rest) := by
  have reacts : x.session.Reacts x.hub := h.fits.reacts
  obtain ⟨hub', q, moved, takes⟩ := reacts.takes text rest now serving waits first
  obtain none | ⟨signal, there, _⟩ := Session.Seat.reaction_of_unfit read unfit _
  · obtain ⟨rfl, rfl⟩ := takes.idle none
    rw [moved, Session.behead, ← waits]
  · rw [silent] at there
    cases there

/-- What is not in order never becomes an event of a session, and has no answer. -/
theorem run?_admits {userId roomId : Uuid} {link : Link} {reader : Registry.Reader} {pace : Pace}
    {media : Option Media} {hub : Hub} {now : Nat} {os : List Occasion}
    (ran : (start hub (.connecting userId roomId link reader pace) media now).run? os = some x) :
    x.Admits ⟨roomId, userId, media.isSome⟩ := by
  have kept := (start_kept hub userId roomId link reader pace media now).run? ran
  constructor
  case states => exact State.isJudged
  case notes => exact Note.isJudged
  case spelled => exact fun ps u s decoded writes => Note.read_or_fault decoded writes
  case emitted => exact fun e => kept.admissible
  case stored => exact fun m now y => kept.stored
  case answered => exact fun now y => kept.answered
  case shared =>
    obtain ⟨missing, whole, _⟩ := kept.inTurn
    exact ⟨missing, by rw [whole, due, List.flatMap_def]⟩
  case refused =>
    intro text f read unfit stamp
    obtain none | ⟨signal, _, _, relays⟩ := Session.Seat.reaction_of_unfit read unfit stamp
    · rw [none]
      exact ⟨fun _ => List.not_mem_nil, fun _ => List.not_mem_nil⟩
    · rw [relays]
      exact ⟨by simp, by simp⟩
  case untouched => exact fun text rest f now => kept.untouched

/-- A client sends a state with one id twice, an empty text and another text. -/
def careless : List Occasion :=
  [.arrives (.text (Frame.ofState ⟨[⟨"a", .camera⟩, ⟨"a", .screen⟩]⟩).render),
    .arrives (.text (Frame.render ⟨none, none, { Frame.Body.empty with note := some ⟨""⟩ }⟩)),
    .arrives (.text (Frame.render ⟨none, none, { Frame.Body.empty with note := some ⟨"hi"⟩ }⟩)),
    .moves (.loop .receiving) 0, .moves (.loop .receiving) 0, .moves (.loop .receiving) 0,
    .moves (.loop .receiving) 0, .moves (.loop .receiving) 0]

/-- Of the three texts only the last has an event and an answer. -/
theorem run?_admits_careless : ∃ x, lonely.run? careless = some x ∧ x.taken.length = 3 ∧
    x.done.length = 2 ∧ x.Admits ⟨.ofNat 2, .ofNat 1, false⟩ := by
  have possible : (lonely.run? careless).isSome = true := by decide +kernel
  obtain ⟨x, ran⟩ := Option.isSome_iff_exists.1 possible
  have counts : (lonely.run? careless).map (fun x => (x.taken.length, x.done.length)) =
      some (3, 2) := by
    decide +kernel
  rw [ran] at counts
  obtain ⟨taken, done⟩ : x.taken.length = 3 ∧ x.done.length = 2 := by simpa using counts
  exact ⟨x, ran, taken, done, run?_admits ran⟩

end Scene

end Roomcast.Peer

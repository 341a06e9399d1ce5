import Mathlib.Data.List.Forall2
import Roomcast.Proofs.Encoding
import Roomcast.Proofs.Framing
import Roomcast.WebSocket.Reader

/-!
# Messages that are put together

The bytes of a client come in chunks that end anywhere, also within a frame and within a character.
A reader does with them what it would do if all of them came at once, and what it does with the
bytes of frames is what the frames ask for. So a text that is sent in parts, each of them masked in
its own way, arrives as one text, and nothing is left over.
-/

namespace Roomcast.WebSocket

open Text (Utf8)
open Peer (Arrival)

variable {bytes rest : List UInt8}

theorem Partial.extend_text {size : Nat} {u u' : Utf8} {parts : List (List UInt8)}
    (short : size + parts.flatten.length ≤ maxMessage) (read : u.read? parts.flatten = some u') :
    parts.foldlM extend (.text size u) = .ok (.text (size + parts.flatten.length) u') := by
  induction parts generalizing size u with
  | nil =>
      obtain rfl := Option.some.inj read
      rfl
  | cons payload parts ih =>
      rw [List.flatten_cons, List.length_append] at short
      rw [List.flatten_cons, Utf8.read?_append] at read
      obtain ⟨u₁, first, read⟩ := Option.bind_eq_some_iff.1 read
      have one : extend (.text size u) payload = .ok (.text (size + payload.length) u₁) := by
        rw [extend, if_neg (by rw [Partial.size]; omega), first]
      rw [List.foldlM_cons, one, List.flatten_cons, List.length_append, ← Nat.add_assoc]
      exact ih (by omega) read

theorem Partial.extend_binary {bytes : List UInt8} {parts : List (List UInt8)}
    (short : bytes.length + parts.flatten.length ≤ maxMessage) :
    parts.foldlM extend (.binary bytes) = .ok (.binary (bytes ++ parts.flatten)) := by
  induction parts generalizing bytes with
  | nil => simp [pure, Except.pure]
  | cons payload parts ih =>
      rw [List.flatten_cons, List.length_append] at short
      have one : extend (.binary bytes) payload = .ok (.binary (bytes ++ payload)) := by
        rw [extend, if_neg (by rw [Partial.size]; omega)]
      rw [List.foldlM_cons, one, List.flatten_cons, ← List.append_assoc]
      exact ih (by rw [List.length_append]; omega)

namespace Reader

variable {r r' : Reader} {p : Packet}

/-- What a reader makes of some bytes, frame after frame. -/
inductive Reads : Reader → List UInt8 → Reader × List Arrival → Prop where
  | closed {r : Reader} {bytes : List UInt8} (ended : r.closed = true) : Reads r bytes (r, [])
  | wait {r : Reader} {bytes : List UInt8} (running : r.closed = false)
      (taken : Packet.take? bytes = none) : Reads r bytes ({ r with pending := bytes }, [])
  | breach {r : Reader} {bytes : List UInt8} {b : Breach} (running : r.closed = false)
      (taken : Packet.take? bytes = some (.error b)) : Reads r bytes (r.breach b)
  | refuse {r : Reader} {bytes rest : List UInt8} {p : Packet} {b : Breach}
      (running : r.closed = false) (taken : Packet.take? bytes = some (.ok (p, rest)))
      (refused : r.accept p = .error b) : Reads r bytes (r.breach b)
  | accept {r r' : Reader} {bytes rest : List UInt8} {p : Packet} {arrivals : List Arrival}
      {x : Reader × List Arrival} (running : r.closed = false)
      (taken : Packet.take? bytes = some (.ok (p, rest)))
      (accepted : r.accept p = .ok (r', arrivals)) (reads : Reads r' rest x) :
      Reads r bytes (x.1, arrivals ++ x.2)

theorem Reads.readAll {x : Reader × List Arrival} (reads : Reads r bytes x) :
    r.readAll bytes = x := by
  induction reads with
  | closed ended => rw [Reader.readAll, if_pos ended]
  | wait running | breach running | refuse running | accept running =>
      rw [Reader.readAll, if_neg (by simp [running])]
      split <;> simp_all

theorem reads_readAll (r : Reader) (bytes : List UInt8) : Reads r bytes (r.readAll bytes) := by
  suffices total : ∃ x, Reads r bytes x by
    obtain ⟨x, reads⟩ := total
    rwa [reads.readAll]
  induction size : bytes.length using Nat.strongRecOn generalizing r bytes with
  | ind n ih =>
      cases running : r.closed with
      | true => exact ⟨_, .closed running⟩
      | false =>
          cases taken : Packet.take? bytes with
          | none => exact ⟨_, .wait running taken⟩
          | some result =>
              obtain b | ⟨p, rest⟩ := result
              · exact ⟨_, .breach running taken⟩
              · cases accepted : r.accept p with
                | error b => exact ⟨_, .refuse running taken accepted⟩
                | ok y =>
                    obtain ⟨x, reads⟩ := ih _ (size ▸ Packet.length_of_take? taken) y.1 rest rfl
                    exact ⟨_, .accept running taken accepted reads⟩

/-- What a frame does does not depend on the bytes that are left. -/
theorem accept_pending (r : Reader) (p : Packet) (pending : List UInt8) :
    { r with pending }.accept p =
      (r.accept p).map fun x => ({ x.1 with pending }, x.2) := by
  have part : ∀ m : Partial, { r with pending }.addPart p.final m p.payload =
      (r.addPart p.final m p.payload).map fun x => ({ x.1 with pending }, x.2) := by
    intro m
    rw [addPart, addPart]
    cases m.extend p.payload with
    | error b => rfl
    | ok m' =>
        cases final : p.final with
        | false => rfl
        | true =>
            show Except.bind m'.arrival _ = Except.map _ (Except.bind m'.arrival _)
            cases m'.arrival <;> rfl
  rw [accept, accept]
  cases p.kind with
  | close =>
      show Except.bind _ _ = Except.map _ (Except.bind _ _)
      cases checkGoodbye p.payload <;> rfl
  | ping | pong => rfl
  | part | text | binary => cases message : r.message <;> first | rfl | exact part _

/-- Two readers with what has arrived: nothing tells them apart from now on. -/
structure Agree (x y : Reader × List Arrival) : Prop where
  arrivals : x.2 = y.2
  closed : x.1.closed = y.1.closed
  reader : x.1.closed = false → x.1 = y.1

theorem Agree.refl (x : Reader × List Arrival) : Agree x x := ⟨rfl, rfl, fun _ => rfl⟩

theorem Agree.symm {x y : Reader × List Arrival} (h : Agree x y) : Agree y x :=
  ⟨h.arrivals.symm, h.closed.symm, fun running => (h.reader (h.closed.trans running)).symm⟩

theorem Agree.trans {x y z : Reader × List Arrival} (h : Agree x y) (h' : Agree y z) :
    Agree x z :=
  ⟨h.arrivals.trans h'.arrivals, h.closed.trans h'.closed, fun running =>
    (h.reader running).trans (h'.reader (h.closed ▸ running))⟩

theorem Agree.of_closed {arrivals : List Arrival} (closed : r.closed = true)
    (closed' : r'.closed = true) : Agree (r, arrivals) (r', arrivals) :=
  ⟨rfl, closed.trans closed'.symm, fun running => by simp [closed] at running⟩

theorem Agree.prepend {x y : Reader × List Arrival} (h : Agree x y) (first : List Arrival) :
    Agree (x.1, first ++ x.2) (y.1, first ++ y.2) :=
  ⟨congrArg (first ++ ·) h.arrivals, h.closed, h.reader⟩

/-- The bytes that are left over do not matter when all bytes are at hand. -/
theorem Reads.pending {x : Reader × List Arrival} (reads : Reads r bytes x)
    (pending : List UInt8) : Agree ({ r with pending }.readAll bytes) x := by
  induction reads with
  | @closed r bytes ended =>
      rw [(Reads.closed (r := { r with pending }) ended).readAll]
      exact .of_closed ended ended
  | @wait r bytes running taken =>
      rw [(Reads.wait (r := { r with pending }) running taken).readAll]
      exact .refl _
  | @breach r bytes b running taken =>
      rw [(Reads.breach (r := { r with pending }) running taken).readAll]
      exact .of_closed rfl rfl
  | @refuse r bytes rest p b running taken refused =>
      have refused' : { r with pending }.accept p = .error b := by
        rw [accept_pending, refused]
        rfl
      rw [(Reads.refuse (r := { r with pending }) running taken refused').readAll]
      exact .of_closed rfl rfl
  | @accept r r' bytes rest p arrivals x running taken accepted _ ih =>
      have accepted' : { r with pending }.accept p = .ok ({ r' with pending }, arrivals) := by
        rw [accept_pending, accepted]
        rfl
      rw [(Reads.accept (r := { r with pending }) running taken accepted'
        (reads_readAll _ rest)).readAll]
      exact ih.prepend arrivals

/-- What some more bytes do after what others have done. -/
def goOn (x : Reader × List Arrival) (more : List UInt8) : Reader × List Arrival :=
  ((x.1.receive more).1, x.2 ++ (x.1.receive more).2)

theorem goOn_of_closed {x : Reader × List Arrival} (ended : x.1.closed = true)
    (more : List UInt8) : goOn x more = x := by
  rw [goOn, receive, (Reads.closed ended).readAll, List.append_nil]

/-- Bytes may come at once or one part after the other. -/
theorem Reads.append {x : Reader × List Arrival} (reads : Reads r bytes x) (more : List UInt8) :
    Agree (r.readAll (bytes ++ more)) (goOn x more) := by
  induction reads with
  | @closed r bytes ended =>
      rw [(Reads.closed ended).readAll, goOn_of_closed ended]
      exact .refl _
  | @wait r bytes running taken =>
      exact ((reads_readAll r (bytes ++ more)).pending bytes).symm
  | @breach r bytes b running taken =>
      rw [(Reads.breach running (Packet.take?_more taken more)).readAll, goOn_of_closed rfl]
      exact .refl _
  | @refuse r bytes rest p b running taken refused =>
      rw [(Reads.refuse running (Packet.take?_more taken more) refused).readAll,
        goOn_of_closed rfl]
      exact .refl _
  | @accept r r' bytes rest p arrivals x running taken accepted _ ih =>
      rw [(Reads.accept running (Packet.take?_more taken more) accepted
        (reads_readAll _ _)).readAll]
      have whole := ih.prepend arrivals
      rwa [goOn, ← List.append_assoc] at whole

/-- The bytes that are left over are not a whole frame. -/
def Waits (r : Reader) : Prop := r.closed = true ∨ Packet.take? r.pending = none

theorem Reads.waits {x : Reader × List Arrival} (reads : Reads r bytes x) : x.1.Waits := by
  induction reads with
  | closed ended => exact .inl ended
  | wait _ taken => exact .inr taken
  | breach | refuse => exact .inl rfl
  | accept _ _ _ _ ih => exact ih

theorem goOn_nil {x : Reader × List Arrival} (waits : x.1.Waits) : goOn x [] = x := by
  cases running : x.1.closed with
  | true => exact goOn_of_closed running []
  | false =>
      have taken := waits.resolve_left (by simp [running])
      rw [goOn, receive, List.append_nil, (Reads.wait running taken).readAll, List.append_nil]

theorem goOn_append (x : Reader × List Arrival) (first more : List UInt8) :
    Agree (goOn x (first ++ more)) (goOn (goOn x first) more) := by
  have whole := ((reads_readAll x.1 (x.1.pending ++ first)).append more).prepend x.2
  simp only [goOn, receive, List.append_assoc] at whole ⊢
  exact whole

/-- It does not matter in which chunks bytes come. -/
theorem foldl_goOn {x : Reader × List Arrival} (waits : x.1.Waits)
    (chunks : List (List UInt8)) : Agree (chunks.foldl goOn x) (goOn x chunks.flatten) := by
  induction chunks generalizing x with
  | nil =>
      rw [List.flatten_nil, goOn_nil waits]
      exact .refl x
  | cons first chunks ih =>
      have next : (goOn x first).1.Waits := (reads_readAll _ _).waits
      rw [List.foldl_cons, List.flatten_cons]
      exact (ih next).trans (goOn_append x first chunks.flatten).symm

/-- The reader after some frames, and what has arrived with them. -/
def acceptAll (r : Reader) : List Packet → Reader × List Arrival
  | [] => (r, [])
  | p :: ps =>
    if r.closed then (r, [])
    else
      match r.accept p with
      | .error b => r.breach b
      | .ok (r, arrivals) => ((r.acceptAll ps).1, arrivals ++ (r.acceptAll ps).2)

theorem acceptAll_of_closed (ended : r.closed = true) (ps : List Packet) :
    r.acceptAll ps = (r, []) := by
  cases ps with
  | nil => rfl
  | cons p ps => rw [acceptAll, if_pos ended]

theorem acceptAll_cons {arrivals : List Arrival} (running : r.closed = false)
    (accepted : r.accept p = .ok (r', arrivals)) (ps : List Packet) :
    r.acceptAll (p :: ps) = ((r'.acceptAll ps).1, arrivals ++ (r'.acceptAll ps).2) := by
  rw [acceptAll, if_neg (by simp [running]), accepted]

theorem pending_of_accept {arrivals : List Arrival} (accepted : r.accept p = .ok (r', arrivals)) :
    r'.pending = r.pending := by
  have same := accept_pending r p r.pending
  rw [accepted] at same
  exact congrArg (·.1.pending) (Except.ok.inj same)

/-- A frame that obeys the rules is written with a mask. -/
def IsWritten (p : Packet) (bytes : List UInt8) : Prop :=
  p.Fits ∧ ∃ mask : List UInt8, mask.length = 4 ∧ bytes = p.bytes mask

/-- What frames do that are read from bytes is what they do. -/
theorem reads_written {ps : List Packet} {frames : List (List UInt8)}
    (written : List.Forall₂ IsWritten ps frames) (empty : r.pending = []) :
    Reads r frames.flatten (r.acceptAll ps) := by
  induction written generalizing r with
  | nil =>
      cases running : r.closed with
      | true => exact .closed running
      | false =>
          have same : { r with pending := [] } = r := by rw [← empty]
          exact same ▸ Reads.wait running rfl
  | @cons p bytes ps frames one _ ih =>
      obtain ⟨fits, mask, four, rfl⟩ := one
      have taken : Packet.take? (p.bytes mask ++ frames.flatten) =
          some (.ok (p, frames.flatten)) := Packet.take?_bytes fits four
      rw [List.flatten_cons]
      cases running : r.closed with
      | true =>
          rw [acceptAll_of_closed running]
          exact .closed running
      | false =>
          cases accepted : r.accept p with
          | error b =>
              rw [acceptAll, if_neg (by simp [running]), accepted]
              exact .refuse running taken accepted
          | ok y =>
              rw [acceptAll_cons running accepted]
              exact .accept running taken accepted
                (ih ((pending_of_accept accepted).trans empty))

/-- Frames that are written do the same in whatever chunks their bytes come. -/
theorem foldl_goOn_written {ps : List Packet} {frames chunks : List (List UInt8)}
    (written : List.Forall₂ IsWritten ps frames) (same : chunks.flatten = frames.flatten)
    (empty : r.pending = []) : Agree (chunks.foldl goOn (r, [])) (r.acceptAll ps) := by
  have waits : r.Waits := .inr (by rw [empty]; rfl)
  have whole := foldl_goOn (x := (r, [])) waits chunks
  rwa [goOn, receive, empty, List.nil_append, List.nil_append, same,
    (reads_written written empty).readAll] at whole

/-- The message that a part of some kind goes on with. -/
def begun? (r : Reader) : Kind → Option Partial
  | .part => r.message
  | .text => if r.message.isNone then some (.text 0 .start) else none
  | .binary => if r.message.isNone then some (.binary []) else none
  | .close | .ping | .pong => none

theorem accept_of_begun {m : Partial} (begun : r.begun? p.kind = some m) :
    r.accept p = r.addPart p.final m p.payload := by
  rw [accept]
  cases kind : p.kind <;> rw [kind] at begun <;> simp_all [begun?]

theorem acceptAll_inParts {kind : Kind} {m m' : Partial} {parts : List (List UInt8)} {a : Arrival}
    (running : r.closed = false) (begun : r.begun? kind = some m) (nonempty : parts ≠ [])
    (read : parts.foldlM Partial.extend m = .ok m') (arrives : m'.arrival = .ok a)
    (more : List Packet) :
    r.acceptAll (inParts kind parts ++ more) = (({ r with message := none }.acceptAll more).1,
      a :: ({ r with message := none }.acceptAll more).2) := by
  induction parts generalizing r kind m with
  | nil => exact absurd rfl nonempty
  | cons payload parts ih =>
      rw [List.foldlM_cons] at read
      cases first : m.extend payload with
      | error b =>
          rw [first] at read
          cases read
      | ok m₁ =>
          rw [first] at read
          cases parts with
          | nil =>
              obtain rfl : m₁ = m' := Except.ok.inj read
              have accepted : r.accept ⟨true, kind, payload⟩ =
                  .ok ({ r with message := none }, [a]) := by
                rw [accept_of_begun begun, addPart, first]
                show Except.bind m₁.arrival _ = _
                rw [arrives]
                rfl
              exact acceptAll_cons running accepted more
          | cons next parts =>
              have later := @ih { r with message := some m₁ } .part m₁ running rfl (by simp) read
              have accepted : r.accept ⟨false, kind, payload⟩ =
                  .ok ({ r with message := some m₁ }, []) := by
                rw [accept_of_begun begun, addPart, first]
                rfl
              exact (acceptAll_cons running accepted _).trans later

/-- A reader between two messages of an open connection. -/
structure Fresh (r : Reader) : Prop where
  empty : r.pending = []
  between : r.message = none
  running : r.closed = false

/-- What arrives with a message of some kind, whose parts are written one after the other with any
masks, and whose bytes come in any chunks. -/
theorem Fresh.message (fresh : r.Fresh) {kind : Kind} {m m' : Partial} {a : Arrival}
    {parts frames chunks : List (List UInt8)} (begun : r.begun? kind = some m)
    (nonempty : parts ≠ []) (read : parts.foldlM Partial.extend m = .ok m')
    (arrives : m'.arrival = .ok a) (written : List.Forall₂ IsWritten (inParts kind parts) frames)
    (same : chunks.flatten = frames.flatten) : chunks.foldl goOn (r, []) = (r, [a]) := by
  have whole := acceptAll_inParts fresh.running begun nonempty read arrives []
  have kept : { r with message := none } = r := by rw [← fresh.between]
  rw [List.append_nil, kept] at whole
  have agree := foldl_goOn_written written same fresh.empty
  rw [whole] at agree
  exact Prod.ext (agree.reader (agree.closed.trans fresh.running)) agree.arrivals

/-- A text arrives as it has been sent. -/
theorem Fresh.text (fresh : r.Fresh) {s : String} {parts frames chunks : List (List UInt8)}
    (nonempty : parts ≠ []) (whole : parts.flatten = Utf8.encode s)
    (short : (Utf8.encode s).length ≤ maxMessage)
    (written : List.Forall₂ IsWritten (inParts .text parts) frames)
    (same : chunks.flatten = frames.flatten) :
    chunks.foldl goOn (r, []) = (r, [.text s]) := by
  obtain ⟨u, read, text⟩ := Option.bind_eq_some_iff.1 (Utf8.decode?_eq_some_iff.2 whole)
  rw [← whole] at short
  refine fresh.message (by rw [begun?, fresh.between]; rfl) nonempty
    (Partial.extend_text (by omega) read) ?_ written same
  rw [Partial.arrival, text]

/-- So do bytes that are the bytes of a text. -/
theorem Fresh.binary (fresh : r.Fresh) {s : String} {parts frames chunks : List (List UInt8)}
    (nonempty : parts ≠ []) (whole : parts.flatten = Utf8.encode s)
    (short : (Utf8.encode s).length ≤ maxMessage)
    (written : List.Forall₂ IsWritten (inParts .binary parts) frames)
    (same : chunks.flatten = frames.flatten) :
    chunks.foldl goOn (r, []) = (r, [.text s]) := by
  rw [← whole] at short
  refine fresh.message (by rw [begun?, fresh.between]; rfl) nonempty
    (Partial.extend_binary (by simpa using short)) ?_ written same
  rw [Partial.arrival, List.nil_append, Utf8.decode?_eq_some_iff.2 whole]

/-- A client that says goodbye is heard, and nothing more is read. -/
theorem Fresh.goodbye (fresh : r.Fresh) {code : Nat} {reason : String} {bytes : List UInt8}
    {chunks : List (List UInt8)} (written : IsWritten (goodbye code reason) bytes)
    (same : chunks.flatten = bytes) :
    (chunks.foldl goOn (r, [])).2 = [.goodbye] ∧ (chunks.foldl goOn (r, [])).1.closed = true := by
  have heard : r.accept (WebSocket.goodbye code reason) =
      .ok ({ r with closed := true }, [.goodbye]) := by
    have checked : checkGoodbye (bigEndian 2 code ++ Utf8.encode reason) = .ok () := by
      show (if (Utf8.decode? (Utf8.encode reason)).isSome then _ else _) = _
      rw [Utf8.decode?_eq_some_iff.2 rfl]
      rfl
    show Except.bind (checkGoodbye (bigEndian 2 code ++ Utf8.encode reason)) _ = _
    rw [checked]
    rfl
  have agree := foldl_goOn_written (.cons written .nil)
    (same.trans (List.append_nil bytes).symm) fresh.empty
  rw [acceptAll_cons fresh.running heard] at agree
  exact ⟨agree.arrivals, agree.closed⟩

end Reader

end Roomcast.WebSocket

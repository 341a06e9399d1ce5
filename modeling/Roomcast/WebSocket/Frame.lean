import Roomcast.Text.Utf8

/-!
# Frames on the wire

A client sends frames of bytes. A frame has a header, which tells its kind and its length, and a
payload, which the client has masked. `Packet.take?` reads one frame from the bytes that have come
so far: it wants more bytes, or refuses what it sees, or gives the frame and the bytes after it.
-/

namespace Roomcast.WebSocket

/-- How a client breaks the protocol. -/
inductive Breach where
  | undefinedKind
  | tooLong
  | undefinedBits
  | unmasked
  | splitControl
  | longControl
  | shortGoodbye
  | notText
  | strayPart
  | missingPart
deriving DecidableEq

def Breach.message : Breach → String
  | undefinedKind => "undefined kind of frame"
  | tooLong => "too much data"
  | undefinedBits => "undefined bits in a header"
  | unmasked => "frame without a mask"
  | splitControl => "control frame in parts"
  | longControl => "control frame too long"
  | shortGoodbye => "incomplete code"
  | notText => "text is not UTF-8"
  | strayPart => "part without a beginning"
  | missingPart => "message without an end"

/-- The kinds of frames. -/
inductive Kind where
  | part
  | text
  | binary
  | close
  | ping
  | pong
deriving DecidableEq

/-- The kind of frame that a code stands for. -/
def Kind.ofCode? : Nat → Option Kind
  | 0 => some .part
  | 1 => some .text
  | 2 => some .binary
  | 8 => some .close
  | 9 => some .ping
  | 10 => some .pong
  | _ => none

/-- Whether a frame concerns the connection and is no part of a message. -/
def Kind.isControl : Kind → Bool
  | close | ping | pong => true
  | part | text | binary => false

/-- What precedes a payload. -/
structure Header where
  final : Bool
  reserved : Nat
  code : Nat
  mask : Option (List UInt8)
  length : Nat

structure Packet where
  final : Bool
  kind : Kind
  payload : List UInt8

def maxPayload : Nat := 16 * 1024 * 1024

def maxControl : Nat := 125

/-- The first `n` bytes and those after them, if there are as many. -/
def split? (n : Nat) (bytes : List UInt8) : Option (List UInt8 × List UInt8) :=
  if n ≤ bytes.length then some (bytes.take n, bytes.drop n) else none

/-- The number that some bytes stand for, the greatest part first. -/
def number (bytes : List UInt8) : Nat := bytes.foldl (fun n b => 256 * n + b.toNat) 0

/-- Reads a header, if all of it has come. -/
def Header.take? : List UInt8 → Option (Header × List UInt8)
  | first :: second :: rest => do
    let short := second.toNat % 128
    let (long, rest) ← split? (if short = 126 then 2 else if short = 127 then 8 else 0) rest
    let masked := 128 ≤ second.toNat
    let (mask, rest) ← split? (if masked then 4 else 0) rest
    return ({
      final := 128 ≤ first.toNat
      reserved := first.toNat / 16 % 8
      code := first.toNat % 16
      mask := if masked then some mask else none
      length := if short < 126 then short else number long }, rest)
  | _ => none

/-- Takes the mask off a payload, or puts it on. -/
def applyMask (mask payload : List UInt8) : List UInt8 :=
  payload.mapIdx fun i b => b ^^^ mask.getD (i % 4) 0

/-- The frame with a header and a payload, if both obey the rules. -/
def Header.packet (h : Header) (kind : Kind) (payload : List UInt8) : Except Breach Packet :=
  if h.reserved ≠ 0 then .error .undefinedBits
  else
    match h.mask with
    | none => .error .unmasked
    | some mask =>
      if kind.isControl && !h.final then .error .splitControl
      else if kind.isControl && maxControl < payload.length then .error .longControl
      else .ok ⟨h.final, kind, applyMask mask payload⟩

/-- Reads a frame, if all of it has come. A header can be refused before its payload has come. -/
def Packet.take? (bytes : List UInt8) : Option (Except Breach (Packet × List UInt8)) :=
  (Header.take? bytes).bind fun (h, rest) =>
    match Kind.ofCode? h.code with
    | none => some (.error .undefinedKind)
    | some kind =>
      if maxPayload < h.length then some (.error .tooLong)
      else
        (split? h.length rest).map fun (payload, rest) =>
          (h.packet kind payload).map fun packet => (packet, rest)

theorem length_of_split? {n : Nat} {bytes first rest : List UInt8}
    (h : split? n bytes = some (first, rest)) : rest.length ≤ bytes.length := by
  unfold split? at h
  split at h
  · cases h
    simp
  · cases h

theorem Header.length_of_take? {bytes rest : List UInt8} {h : Header}
    (taken : Header.take? bytes = some (h, rest)) : rest.length < bytes.length := by
  match bytes with
  | [] => simp [Header.take?] at taken
  | [_] => simp [Header.take?] at taken
  | first :: second :: more =>
    simp only [Header.take?, Option.bind_eq_bind, Option.bind_eq_some_iff, Prod.exists] at taken
    obtain ⟨_, after, long, _, last, mask, result⟩ := taken
    cases result
    have short := length_of_split? long
    have shorter := length_of_split? mask
    simp only [List.length_cons]
    omega

/-- A frame that has been read leaves fewer bytes. -/
theorem Packet.length_of_take? {bytes rest : List UInt8} {p : Packet}
    (taken : Packet.take? bytes = some (.ok (p, rest))) : rest.length < bytes.length := by
  simp only [Packet.take?, Option.bind_eq_some_iff, Prod.exists] at taken
  obtain ⟨h, after, header, result⟩ := taken
  have short := Header.length_of_take? header
  split at result
  · cases result
  · rename_i kind _
    split at result
    · cases result
    · simp only [Option.map_eq_some_iff, Prod.exists] at result
      obtain ⟨payload, last, body, result⟩ := result
      have shorter := length_of_split? body
      cases packet : h.packet kind payload with
      | error e =>
        rw [packet] at result
        cases result
      | ok q =>
        rw [packet] at result
        cases result
        omega

end Roomcast.WebSocket

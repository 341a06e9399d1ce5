/-!
# UTF-8

UTF-8 is read one byte at a time. A `Utf8` is what a reader knows between two bytes: the characters
that are complete, and what the next byte of a character that has begun may be. The reader refuses a
byte as soon as no text begins with the bytes up to it.
-/

namespace Roomcast.Text

/-- A reader of UTF-8 between two bytes. -/
structure Utf8 where
  /-- The complete characters, last one first. -/
  chars : List Char
  /-- The bits known of the character that has begun. -/
  bits : Nat
  /-- How many bytes of it are missing. -/
  missing : Nat
  /-- The least byte that may come next, if one is missing. -/
  low : Nat
  /-- The greatest byte that may come next, if one is missing. -/
  high : Nat

namespace Utf8

def start : Utf8 := ⟨[], 0, 0, 0x80, 0xBF⟩

/-- The reader after the first byte of a character. The second byte may be restricted, so that no
character has two forms, none is a surrogate, and none is beyond the last one. -/
def lead? (r : Utf8) (b : Nat) : Option Utf8 :=
  if b < 0x80 then some { r with chars := Char.ofNat b :: r.chars }
  else if 0xC2 ≤ b ∧ b < 0xE0 then some { r with bits := b - 0xC0, missing := 1 }
  else if 0xE0 ≤ b ∧ b < 0xF0 then
    some { r with
      bits := b - 0xE0
      missing := 2
      low := if b = 0xE0 then 0xA0 else 0x80
      high := if b = 0xED then 0x9F else 0xBF }
  else if 0xF0 ≤ b ∧ b < 0xF5 then
    some { r with
      bits := b - 0xF0
      missing := 3
      low := if b = 0xF0 then 0x90 else 0x80
      high := if b = 0xF4 then 0x8F else 0xBF }
  else none

def push? (r : Utf8) (byte : UInt8) : Option Utf8 :=
  let b := byte.toNat
  match r.missing with
  | 0 => r.lead? b
  | missing + 1 =>
    if r.low ≤ b ∧ b ≤ r.high then
      let bits := r.bits * 64 + (b - 0x80)
      some <| match missing with
        | 0 => ⟨Char.ofNat bits :: r.chars, 0, 0, 0x80, 0xBF⟩
        | missing + 1 => ⟨r.chars, bits, missing + 1, 0x80, 0xBF⟩
    else none

def read? (r : Utf8) (bytes : List UInt8) : Option Utf8 := bytes.foldlM push? r

/-- The text that has been read, unless a character is incomplete. -/
def text? (r : Utf8) : Option String :=
  if r.missing = 0 then some (String.ofList r.chars.reverse) else none

/-- The text that some bytes stand for, if they stand for one. -/
def decode? (bytes : List UInt8) : Option String := (start.read? bytes).bind text?

def encode (s : String) : List UInt8 := s.toUTF8.toList

end Utf8

end Roomcast.Text

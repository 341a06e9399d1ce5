import Roomcast.Text.Digits

/-!
# Identifiers

Rooms, users and events are named by 128-bit identifiers. One is written as 32 lower-case
hexadecimal digits in groups of 8, 4, 4, 4 and 12; it is read from that form, from the bare
digits, and from the form in braces or behind `urn:uuid:`, with letters in either case.
-/

namespace Roomcast

/-- A 128-bit identifier. -/
structure Uuid where
  toNat : Nat
  isLt : toNat < Nat.pow 2 128
deriving DecidableEq

namespace Uuid

/-- The identifier with the number `n`, taken modulo `2 ^ 128`. -/
def ofNat (n : Nat) : Uuid := ⟨n % Nat.pow 2 128, Nat.mod_lt _ (by decide)⟩

instance : Inhabited Uuid := ⟨ofNat 0⟩

/-- The lengths of the five groups of digits. -/
def groups : List Nat := [8, 4, 4, 4, 12]

/-- Puts a hyphen between consecutive groups of the given lengths. -/
def hyphenate : List Nat → List Char → List Char
  | [], s => s
  | [_], s => s
  | k :: ks, s => s.take k ++ '-' :: hyphenate ks (s.drop k)

def render (u : Uuid) : List Char := hyphenate groups (Text.fixedHex 32 u.toNat)

instance : ToString Uuid := ⟨fun u => String.ofList u.render⟩

/-- Takes out the hyphens of a hyphenated form, which must stand exactly between the groups. -/
def dehyphenate? : List Nat → List Char → Option (List Char)
  | [], s => if s.isEmpty then some [] else none
  | [k], s => if s.length = k then some s else none
  | k :: ks, s =>
    match s.drop k with
    | '-' :: rest => (dehyphenate? ks rest).map (s.take k ++ ·)
    | _ => none

def ofHex? (s : List Char) : Option Uuid :=
  if s.length = 32 then
    (s.mapM Text.hexValue?).map fun ds => ofNat (Text.ofDigits 16 0 ds)
  else none

def ofHyphenated? (s : List Char) : Option Uuid :=
  (dehyphenate? groups s).bind ofHex?

/-- The form behind `urn:uuid:`, if the text has that beginning in any letter case. -/
def dropUrn? (s : List Char) : Option (List Char) :=
  if (s.take 9).map Char.toLower = "urn:uuid:".toList then some (s.drop 9) else none

/-- Reads an identifier in any of its four forms. -/
def parse? (s : List Char) : Option Uuid :=
  match s with
  | '{' :: rest =>
    if s.length = 38 ∧ rest.getLast? = some '}' then ofHyphenated? rest.dropLast else none
  | _ =>
    if s.length = 32 then ofHex? s
    else if s.length = 36 then ofHyphenated? s
    else if s.length = 45 then (dropUrn? s).bind ofHyphenated?
    else none

end Uuid

end Roomcast

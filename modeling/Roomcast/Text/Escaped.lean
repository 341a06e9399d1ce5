import Roomcast.Text.Digits
import Roomcast.Text.Split
import Roomcast.Text.Utf8

/-!
# Escaped text

In a request line a byte may be written as a percent sign and two hexadecimal digits. A query is a
list of named values in this form, in which a plus sign stands for a space. A name or a value whose
bytes are not UTF-8 is no text, and equals none.
-/

namespace Roomcast.Text

/-- The value of a byte as a hexadecimal digit. -/
def hexByte? (b : UInt8) : Option Nat := hexValue? (Char.ofNat b.toNat)

/-- The bytes that an escaped text stands for. A percent sign that begins no escape stands for
itself. -/
def unescape : List UInt8 → List UInt8
  | 0x25 :: first :: second :: rest =>
    match hexByte? first, hexByte? second with
    | some high, some low => UInt8.ofNat (16 * high + low) :: unescape rest
    | _, _ => 0x25 :: unescape (first :: second :: rest)
  | b :: rest => b :: unescape rest
  | [] => []
termination_by bytes => bytes.length

/-- The text that an escaped text stands for. -/
def unescapeText? (bytes : List UInt8) : Option String := Utf8.decode? (unescape bytes)

def formText? (bytes : List UInt8) : Option String :=
  unescapeText? (bytes.map fun b => if b = 0x2B then 0x20 else b)

/-- The named values of a query. One without an equals sign is empty. -/
def formPairs (query : String) : List (Option String × Option String) :=
  ((splitAt 0x26 (Utf8.encode query)).filter (· ≠ [])).map fun piece =>
    let (name, value) := cutAt 0x3D piece
    (formText? name, formText? (value.getD []))

end Roomcast.Text

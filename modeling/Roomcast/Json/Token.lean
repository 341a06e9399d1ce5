import Roomcast.Text.Digits

/-!
# Tokens of JSON text

The smallest parts of a JSON text and their written forms. A string is kept as it was written as
far as that matters: half of a surrogate pair may stand alone in a string that nobody decodes, so
a string is a list of pieces, and `Piece.decode?` turns it into text. A number is kept digit by
digit, because a number that nobody decodes may have any size.
-/

namespace Roomcast.Json

/-- A part of a string. -/
inductive Piece where
  | char (c : Char)
  | half (unit : Nat)
deriving DecidableEq

/-- A number as it is written. -/
structure Numeral where
  negative : Bool
  whole : List Nat
  fraction : List Nat
  exponent : Option Int
deriving DecidableEq

/-- Whether a number is written as an integer, with neither point nor power. -/
def Numeral.isInteger (n : Numeral) : Bool := n.fraction.isEmpty && n.exponent.isNone

/-- A token of JSON text. -/
inductive Token where
  | openArray | closeArray | openObject | closeObject | comma | colon
  | null
  | bool (b : Bool)
  | number (n : Numeral)
  | string (s : List Piece)
deriving DecidableEq

/-- The string whose pieces are the characters of a text. -/
def Piece.ofText (s : List Char) : List Piece := s.map .char

/-- Whether a 16-bit unit is the first half of a surrogate pair. -/
def isHighHalf (unit : Nat) : Bool := 0xD800 ≤ unit && unit < 0xDC00

/-- Whether a 16-bit unit is the second half of a surrogate pair. -/
def isLowHalf (unit : Nat) : Bool := 0xDC00 ≤ unit && unit < 0xE000

/-- The text of a string. Two halves of a surrogate pair make one character; a half that stands
alone makes the string undecodable. -/
def Piece.decode? : List Piece → Option (List Char)
  | [] => some []
  | .char c :: rest => (Piece.decode? rest).map (c :: ·)
  | .half high :: .half low :: rest =>
    if isHighHalf high && isLowHalf low then
      let code := 0x10000 + (high - 0xD800) * 0x400 + (low - 0xDC00)
      (Piece.decode? rest).map (Char.ofNat code :: ·)
    else none
  | .half _ :: _ => none

/-- The letter that stands for a control character behind a backslash. -/
def shortEscape? (c : Char) : Option Char :=
  if c = '"' then some '"'
  else if c = '\\' then some '\\'
  else if c = '\x08' then some 'b'
  else if c = '\t' then some 't'
  else if c = '\n' then some 'n'
  else if c = '\x0c' then some 'f'
  else if c = '\r' then some 'r'
  else none

/-- The written form of a character within a string. Quotes, backslashes and control characters
are escaped, and nothing else is. -/
def renderChar (c : Char) : List Char :=
  match shortEscape? c with
  | some letter => ['\\', letter]
  | none => if c.toNat < 0x20 then '\\' :: 'u' :: Text.fixedHex 4 c.toNat else [c]

/-- The written form of a piece of a string. -/
def Piece.render : Piece → List Char
  | .char c => renderChar c
  | .half unit => '\\' :: 'u' :: Text.fixedHex 4 unit

def Numeral.render (n : Numeral) : List Char :=
  (if n.negative then ['-'] else []) ++ n.whole.map Text.decimalDigit ++
    (if n.fraction.isEmpty then [] else '.' :: n.fraction.map Text.decimalDigit) ++
    match n.exponent with
    | none => []
    | some e => 'e' :: (if e < 0 then '-' else '+') :: Text.decimal e.natAbs

def Token.render : Token → List Char
  | .openArray => ['['] | .closeArray => [']']
  | .openObject => ['\x7b'] | .closeObject => ['\x7d']
  | .comma => [','] | .colon => [':']
  | .null => "null".toList
  | .bool true => "true".toList
  | .bool false => "false".toList
  | .number n => n.render
  | .string s => '"' :: (s.map Piece.render).flatten ++ ['"']

end Roomcast.Json

import Roomcast.Json.Token

/-!
# From text to tokens

`lex?` divides a JSON text into tokens. It reads one character at a time and keeps the tokens that
are complete, latest first, together with the one that is not. Letters, digits, signs and points
that stand side by side form one word, which is a number or one of the three literal names.
-/

namespace Roomcast.Json

def isSpace (c : Char) : Bool := c == ' ' || c == '\t' || c == '\n' || c == '\r'

/-- Whether a character belongs to a number or a literal name. -/
def isWordChar (c : Char) : Bool :=
  ('a' ≤ c && c ≤ 'z') || ('A' ≤ c && c ≤ 'Z') || Text.isDecimal c || c == '-' || c == '+' ||
    c == '.'

/-- The token that a character makes on its own. -/
def punctuation? (c : Char) : Option Token :=
  if c = '[' then some .openArray
  else if c = ']' then some .closeArray
  else if c = '\x7b' then some .openObject
  else if c = '\x7d' then some .closeObject
  else if c = ',' then some .comma
  else if c = ':' then some .colon
  else none

/-- Takes the digits at the start of a text. -/
def takeDigits (s : List Char) : List Nat × List Char :=
  ((s.takeWhile Text.isDecimal).filterMap Text.decimalValue?, s.dropWhile Text.isDecimal)

namespace Numeral

/-- Reads the digits before the point: a zero alone, or digits of which the first is not zero. -/
def whole? (s : List Char) : Option (List Nat × List Char) :=
  match takeDigits s with
  | ([], _) => none
  | (0 :: _ :: _, _) => none
  | (ds, rest) => some (ds, rest)

/-- Reads a point and the digits after it, if there is a point. -/
def fraction? : List Char → Option (List Nat × List Char)
  | '.' :: rest =>
    match takeDigits rest with
    | ([], _) => none
    | (ds, rest) => some (ds, rest)
  | s => some ([], s)

/-- Reads the digits of a power of ten, which end the number. -/
def power? (s : List Char) : Option Nat :=
  match takeDigits s with
  | ([], _) => none
  | (ds, []) => some (Text.ofDigits 10 0 ds)
  | _ => none

/-- Reads a power of ten, if there is one, up to the end of the number. -/
def exponent? : List Char → Option (Option Int)
  | [] => some none
  | c :: rest =>
    if c = 'e' ∨ c = 'E' then
      match rest with
      | '-' :: digits => (power? digits).map fun n => some (-(n : Int))
      | '+' :: digits => (power? digits).map fun n => some (n : Int)
      | digits => (power? digits).map fun n => some (n : Int)
    else none

def ofWord? (s : List Char) : Option Numeral := do
  let (negative, s) := match s with
    | '-' :: rest => (true, rest)
    | rest => (false, rest)
  let (whole, s) ← whole? s
  let (fraction, s) ← fraction? s
  let exponent ← exponent? s
  return { negative, whole, fraction, exponent }

end Numeral

def Token.ofWord? (s : List Char) : Option Token :=
  if s = "null".toList then some .null
  else if s = "true".toList then some (.bool true)
  else if s = "false".toList then some (.bool false)
  else (Numeral.ofWord? s).map .number

/-- How far an escape has been read. -/
inductive Escape where
  | plain
  | slash
  | unit (count value : Nat)

/-- The token that is being read. -/
inductive Scan where
  /-- None. -/
  | between
  /-- A word; its characters, last one first. -/
  | word (chars : List Char)
  /-- A string; its pieces, last one first. -/
  | string (pieces : List Piece) (escape : Escape)

/-- A reader in the middle of a text. -/
structure Lexer where
  tokens : List Token
  scan : Scan

namespace Lexer

def start : Lexer := ⟨[], .between⟩

/-- Reads a character with which a token may begin. -/
def begin? (tokens : List Token) (c : Char) : Option Lexer :=
  if isSpace c then some ⟨tokens, .between⟩
  else if isWordChar c then some ⟨tokens, .word [c]⟩
  else if c = '"' then some ⟨tokens, .string [] .plain⟩
  else (punctuation? c).map fun t => ⟨t :: tokens, .between⟩

/-- The character for which a letter stands behind a backslash. -/
def unescape? (c : Char) : Option Char :=
  if c = '"' ∨ c = '\\' ∨ c = '/' then some c
  else if c = 'b' then some '\x08'
  else if c = 'f' then some '\x0c'
  else if c = 'n' then some '\n'
  else if c = 'r' then some '\r'
  else if c = 't' then some '\t'
  else none

def pieceOfUnit (unit : Nat) : Piece :=
  if isHighHalf unit || isLowHalf unit then .half unit else .char (Char.ofNat unit)

def string? (tokens : List Token) (pieces : List Piece) : Escape → Char → Option Lexer
  | .plain, c =>
    if c = '"' then some ⟨.string pieces.reverse :: tokens, .between⟩
    else if c = '\\' then some ⟨tokens, .string pieces .slash⟩
    else if c.toNat < 0x20 then none
    else some ⟨tokens, .string (.char c :: pieces) .plain⟩
  | .slash, c =>
    if c = 'u' then some ⟨tokens, .string pieces (.unit 0 0)⟩
    else (unescape? c).map fun d => ⟨tokens, .string (.char d :: pieces) .plain⟩
  | .unit count value, c =>
    (Text.hexValue? c).map fun d =>
      let value := 16 * value + d
      if count = 3 then ⟨tokens, .string (pieceOfUnit value :: pieces) .plain⟩
      else ⟨tokens, .string pieces (.unit (count + 1) value)⟩

def step? (l : Lexer) (c : Char) : Option Lexer :=
  match l.scan with
  | .between => begin? l.tokens c
  | .word chars =>
    if isWordChar c then some ⟨l.tokens, .word (c :: chars)⟩
    else (Token.ofWord? chars.reverse).bind fun t => begin? (t :: l.tokens) c
  | .string pieces escape => string? l.tokens pieces escape c

/-- The tokens of a text that ends here. -/
def finish? (l : Lexer) : Option (List Token) :=
  match l.scan with
  | .between => some l.tokens.reverse
  | .word chars => (Token.ofWord? chars.reverse).map fun t => (t :: l.tokens).reverse
  | .string _ _ => none

end Lexer

/-- The tokens of a text, if it consists of tokens. -/
def lex? (s : List Char) : Option (List Token) :=
  (s.foldlM Lexer.step? Lexer.start).bind Lexer.finish?

end Roomcast.Json

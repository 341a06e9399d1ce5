import Roomcast.Json.Lexer
import Roomcast.Json.Tree

/-!
# From tokens to trees

`Tree.parse?` reads a JSON text. The parser takes one token at a time. Arrays and objects that are
still open lie on a stack, innermost first, so a value may be nested to any depth.
-/

namespace Roomcast.Json

/-- The fields of an object that have been read, last one first. -/
abbrev Fields := List (List Piece × Tree)

/-- An array or object that is still open while one of its values is read. -/
inductive Layer where
  /-- An array and its items so far, last one first. -/
  | array (items : List Tree)
  /-- An object, its fields so far, and the name whose value is read. -/
  | object (fields : Fields) (name : List Piece)

/-- What the parser waits for. -/
inductive Want where
  /-- A value. -/
  | value
  /-- A value or the end of the array that has just been opened. -/
  | firstItem
  /-- The name of a field, or, before the first one, the end of the object. -/
  | name (fields : Fields) (first : Bool)
  /-- The colon behind a name. -/
  | colon (fields : Fields) (name : List Piece)
  /-- Whatever may follow a complete value. -/
  | next (value : Tree)

/-- A parser in the middle of a text. -/
structure Parser where
  stack : List Layer
  want : Want

namespace Parser

def start : Parser := ⟨[], .value⟩

def begin? (stack : List Layer) : Token → Option Parser
  | .null => some ⟨stack, .next .null⟩
  | .bool b => some ⟨stack, .next (.bool b)⟩
  | .number n => some ⟨stack, .next (.number n)⟩
  | .string s => some ⟨stack, .next (.string s)⟩
  | .openArray => some ⟨.array [] :: stack, .firstItem⟩
  | .openObject => some ⟨stack, .name [] true⟩
  | _ => none

def next? (value : Tree) : List Layer → Token → Option Parser
  | .array items :: stack, .comma => some ⟨.array (value :: items) :: stack, .value⟩
  | .array items :: stack, .closeArray =>
    some ⟨stack, .next (.array (value :: items).reverse)⟩
  | .object fields name :: stack, .comma => some ⟨stack, .name ((name, value) :: fields) false⟩
  | .object fields name :: stack, .closeObject =>
    some ⟨stack, .next (.object ((name, value) :: fields).reverse)⟩
  | _, _ => none

def step? (p : Parser) (t : Token) : Option Parser :=
  match p.want, t with
  | .value, t => begin? p.stack t
  | .firstItem, .closeArray =>
    match p.stack with
    | .array [] :: stack => some ⟨stack, .next (.array [])⟩
    | _ => none
  | .firstItem, t => begin? p.stack t
  | .name fields _, .string s => some ⟨p.stack, .colon fields s⟩
  | .name _ true, .closeObject => some ⟨p.stack, .next (.object [])⟩
  | .colon fields name, .colon => some ⟨.object fields name :: p.stack, .value⟩
  | .next value, t => next? value p.stack t
  | _, _ => none

/-- The value of a text that ends here. -/
def finish? (p : Parser) : Option Tree :=
  match p.stack, p.want with
  | [], .next value => some value
  | _, _ => none

end Parser

namespace Tree

/-- The value that the tokens of a text denote. -/
def ofTokens? (ts : List Token) : Option Tree :=
  (ts.foldlM Parser.step? Parser.start).bind Parser.finish?

def parse? (s : List Char) : Option Tree := (lex? s).bind ofTokens?

end Tree

end Roomcast.Json

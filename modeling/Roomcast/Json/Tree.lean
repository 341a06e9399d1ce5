import Roomcast.Json.Token

/-!
# Trees

A `Tree` is a JSON value as it is written: fields in their order, names that occur twice, numbers
and strings before anyone has decoded them. It keeps everything that a decoder may look at and
everything that it may have to skip.
-/

namespace Roomcast.Json

/-- A JSON value as it is written. -/
inductive Tree where
  | null
  | bool (b : Bool)
  | number (n : Numeral)
  | string (s : List Piece)
  | array (items : List Tree)
  | object (fields : List (List Piece × Tree))

namespace Tree

def ofText (s : String) : Tree := .string (Piece.ofText s.toList)

/-- An object, given the names and the values of its fields. -/
def ofFields (fields : List (String × Tree)) : Tree :=
  .object (fields.map fun f => (Piece.ofText f.1.toList, f.2))

def ofNat (n : Nat) : Tree := .number ⟨false, Text.digits n, [], none⟩

def ofInt (n : Int) : Tree := .number ⟨n < 0, Text.digits n.natAbs, [], none⟩

mutual

def tokens : Tree → List Token
  | .null => [.null]
  | .bool b => [.bool b]
  | .number n => [.number n]
  | .string s => [.string s]
  | .array items => .openArray :: itemTokens items ++ [.closeArray]
  | .object fields => .openObject :: fieldTokens fields ++ [.closeObject]

/-- The tokens between the brackets of an array. -/
def itemTokens : List Tree → List Token
  | [] => []
  | [t] => t.tokens
  | t :: rest => t.tokens ++ .comma :: itemTokens rest

/-- The tokens between the braces of an object. -/
def fieldTokens : List (List Piece × Tree) → List Token
  | [] => []
  | [(name, t)] => .string name :: .colon :: t.tokens
  | (name, t) :: rest => .string name :: .colon :: t.tokens ++ .comma :: fieldTokens rest

end

/-- The written form of a value, without white space between the tokens. -/
def render (t : Tree) : List Char := (t.tokens.map Token.render).flatten

instance : ToString Tree := ⟨fun t => String.ofList t.render⟩

end Tree

end Roomcast.Json

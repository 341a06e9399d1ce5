import Roomcast.Json.Number

/-!
# Opaque values

A JSON value that is passed on without a look into it. Strings are decoded, numbers are rounded to
what can be kept, and an object has each name once, in ascending order.
-/

namespace Roomcast.Json

/-- A JSON value. -/
inductive Value where
  | null
  | bool (b : Bool)
  | number (n : Number)
  | string (s : String)
  | array (items : List Value)
  | object (fields : List (String × Value))

/-- Sets a field of an object, keeping the names in order. A name that is there already gets the
new value. -/
def putField {α : Type} (name : String) (value : α) : List (String × α) → List (String × α)
  | [] => [(name, value)]
  | (other, old) :: rest =>
    if name < other then (name, value) :: (other, old) :: rest
    else if name = other then (name, value) :: rest
    else (other, old) :: putField name value rest

/-- The fields of an object, given as they were written. -/
def sortFields {α : Type} (fields : List (String × α)) : List (String × α) :=
  fields.foldl (fun done f => putField f.1 f.2 done) []

namespace Value

mutual

def toTree : Value → Tree
  | .null => .null
  | .bool b => .bool b
  | .number n => n.toTree
  | .string s => .ofText s
  | .array items => .array (itemTrees items)
  | .object fields => .object (fieldTrees fields)

/-- The written forms of the items of an array. -/
def itemTrees : List Value → List Tree
  | [] => []
  | v :: rest => v.toTree :: itemTrees rest

/-- The written forms of the fields of an object. -/
def fieldTrees : List (String × Value) → List (List Piece × Tree)
  | [] => []
  | (name, v) :: rest => (Piece.ofText name.toList, v.toTree) :: fieldTrees rest

end

end Value

def decodeText? (s : List Piece) : Option String := (Piece.decode? s).map String.ofList

namespace Tree

mutual

/-- The value that is written, if it can be decoded and nests no deeper than `depth`. -/
def value? (depth : Nat) : Tree → Option Value
  | .null => some .null
  | .bool b => some (.bool b)
  | .number n => n.number?.map .number
  | .string s => (decodeText? s).map .string
  | .array items =>
    match depth with
    | 0 => none
    | depth + 1 => (itemValues? depth items).map .array
  | .object fields =>
    match depth with
    | 0 => none
    | depth + 1 => (fieldValues? depth fields).map fun fs => .object (sortFields fs)

/-- The values of the items of an array. -/
def itemValues? (depth : Nat) : List Tree → Option (List Value)
  | [] => some []
  | t :: rest => (value? depth t).bind fun v => (itemValues? depth rest).map (v :: ·)

/-- The values of the fields of an object. -/
def fieldValues? (depth : Nat) : List (List Piece × Tree) → Option (List (String × Value))
  | [] => some []
  | (name, t) :: rest =>
    (decodeText? name).bind fun name =>
      (value? depth t).bind fun v => (fieldValues? depth rest).map ((name, v) :: ·)

end

end Tree

end Roomcast.Json

import Roomcast.Json.Value
import Roomcast.Json.Parser

/-!
# Decoding records

What the messages of a protocol are made of: records, choices among names, texts, integers. A
record is an object, or an array of its fields in their declared order. Fields that nobody
declared are skipped without a look at their values; a declared field occurs once at most.

A `Decoder` takes the number of arrays and objects that may still be opened, so that what is
decoded nests to a limited depth while what is skipped may nest to any.
-/

namespace Roomcast.Json

def maxDepth : Nat := 127

/-- Turns a tree into a value, given how many arrays and objects may still be opened. -/
abbrev Decoder (α : Type) := Nat → Tree → Option α

namespace Decoder

def text : Decoder String := fun _ t =>
  match t with
  | .string s => decodeText? s
  | _ => none

/-- A value that is null or absent, or is decoded by another decoder. -/
def nullable {α : Type} (d : Decoder α) : Decoder (Option α) := fun depth t =>
  match t with
  | .null => some none
  | t => (d depth t).map some

def integer (low high : Int) : Decoder Int := fun _ t =>
  match t with
  | .number n => n.int?.bind fun value => if low ≤ value ∧ value ≤ high then some value else none
  | _ => none

def value : Decoder Value := Tree.value?

def list {α : Type} (d : Decoder α) : Decoder (List α) := fun depth t =>
  match depth, t with
  | depth + 1, .array items => items.mapM (d depth)
  | _, _ => none

/-- One of several names, written as a string or as the only field of an object, with the value
null. -/
def name {α : Type} (choices : List (String × α)) : Decoder α := fun depth t =>
  match depth, t with
  | _, .string s => (decodeText? s).bind fun name => choices.lookup name
  | _ + 1, .object [(s, .null)] => (decodeText? s).bind fun name => choices.lookup name
  | _, _ => none

/-- One of several named decoders, applied to the only field of an object. -/
def tagged {α : Type} (choices : List (String × Decoder α)) : Decoder α := fun depth t =>
  match depth, t with
  | depth + 1, .object [(s, t)] =>
    (decodeText? s).bind fun name => (choices.lookup name).bind fun d => d depth t
  | _, _ => none

/-- The fields of an object, with their names decoded. -/
def named? : List (List Piece × Tree) → Option (List (String × Tree)) :=
  List.mapM fun f => (decodeText? f.1).map (·, f.2)

/-- The value of a declared field, which occurs once at most. -/
def field? (fields : List (String × Tree)) (name : String) : Option (Option Tree) :=
  match fields.filter (·.1 = name) with
  | [] => some none
  | [f] => some (some f.2)
  | _ => none

/-- The values of the declared fields of a record, and how many arrays and objects may be opened in
them. -/
def record? (names : List String) (depth : Nat) (t : Tree) : Option (Nat × List (Option Tree)) :=
  match depth, t with
  | depth + 1, .object fields =>
    (named? fields).bind fun fields => (names.mapM (field? fields)).map (depth, ·)
  | depth + 1, .array items =>
    if items.length ≤ names.length then
      some (depth, items.map some ++ List.replicate (names.length - items.length) none)
    else none
  | _, _ => none

def required {α : Type} (d : Decoder α) (depth : Nat) (t : Option Tree) : Option α :=
  t.bind (d depth)

/-- A field that may be null or absent. -/
def optional {α : Type} (d : Decoder α) (depth : Nat) (t : Option Tree) : Option (Option α) :=
  match t with
  | none => some none
  | some t => nullable d depth t

/-- A field that may be absent and then has a default. -/
def defaulted {α : Type} (default : α) (d : Decoder α) (depth : Nat) (t : Option Tree) : Option α :=
  match t with
  | none => some default
  | some t => d depth t

def parse? {α : Type} (d : Decoder α) (s : String) : Option α :=
  (Tree.parse? s.toList).bind (d maxDepth)

end Decoder

end Roomcast.Json

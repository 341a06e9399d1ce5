import Roomcast.Http.Request

/-!
# Request heads

A request arrives as a head of lines. The first line holds the method, the target and the version,
each other line holds a header, and an empty line ends the head. A line ends with a line feed, and a
carriage return may stand before it.

A head that breaks a rule is refused as a whole and makes no request. What it would have asked for
does not matter, so the refusal depends on the first rule that is broken and on nothing else.
-/

namespace Roomcast.Http

/-- Why a head is refused. -/
inductive HeadError where
  | malformed
  | targetTooLong
  | tooLarge
deriving DecidableEq

/-- The status of the response to a head that is refused. -/
def HeadError.status : HeadError → Nat
  | malformed => 400
  | targetTooLong => 414
  | tooLarge => 431

namespace Head

def maxHeaders : Nat := 100

def maxTarget : Nat := 65534

/-- The most bytes of the name of a header. -/
def maxName : Nat := 65535

/-- One more than the greatest number that a length may be written as. -/
def lengthLimit : Nat := Nat.pow 2 64

/-- The greatest length that a body may have. The two greatest numbers are kept for bodies whose
length is not known. -/
def maxBody : Nat := lengthLimit - 3

/-- A byte as the character of its code. -/
def charOf (b : UInt8) : Char := Char.ofNat b.toNat

def asciiText (bytes : List UInt8) : String := String.ofList (bytes.map charOf)

/-- Whether a byte may stand in a method and in the name of a header. -/
def isTokenByte (b : UInt8) : Bool :=
  (charOf b).isAlphanum || "!#$%&'*+-.^_`|~".toList.contains (charOf b)

/-- Whether some bytes are a method or the name of a header. -/
def isToken (bytes : List UInt8) : Bool := bytes ≠ [] && bytes.all isTokenByte

/-- Whether a byte is a space or a tab. -/
def isGap (b : UInt8) : Bool := b = 0x20 || b = 0x09

/-- Whether a byte may stand in the value of a header. -/
def isValueByte (b : UInt8) : Bool := b = 0x09 || (0x20 ≤ b && b ≠ 0x7F)

def withoutGaps (bytes : List UInt8) : List UInt8 :=
  ((bytes.dropWhile isGap).reverse.dropWhile isGap).reverse

/-- Some bytes without the carriage return at their end. -/
def withoutReturn (bytes : List UInt8) : List UInt8 :=
  if bytes.getLast? = some 0x0D then bytes.dropLast else bytes

/-- The lines of a head and of what stands behind it. -/
def lines (bytes : List UInt8) : List (List UInt8) := (Text.splitAt 0x0A bytes).map withoutReturn

def version? (bytes : List UInt8) : Option Version :=
  match asciiText bytes with
  | "HTTP/1.0" => some .oneZero
  | "HTTP/1.1" => some .oneOne
  | _ => none

/-- Reads the first line of a head. The target is kept as it stands. -/
def firstLine? (line : List UInt8) : Option (String × List UInt8 × Version) :=
  match Text.splitAt 0x20 line with
  | [method, target, version] =>
    if isToken method && target ≠ [] then
      (version? version).map fun version => (asciiText method, target, version)
    else none
  | _ => none

def header? (line : List UInt8) : Option Header :=
  match Text.cutAt 0x3A line with
  | (name, some value) =>
    if isToken name && value.all isValueByte then
      some ⟨(asciiText name).toLower, withoutGaps value⟩
    else none
  | _ => none

/-- Reads the lines of the headers, of which there may be `room`. -/
def headers (room : Nat) : List (List UInt8) → Except HeadError (List Header)
  | [] => .ok []
  | line :: rest =>
    match header? line, room with
    | none, _ => .error .malformed
    | some _, 0 => .error .tooLarge
    | some header, room + 1 => (headers room rest).map (header :: ·)

/-- The number that some bytes are the digits of, if it is below the limit. -/
def length? (bytes : List UInt8) : Option Nat := do
  let digits ← bytes.mapM fun b => Text.decimalValue? (charOf b)
  let n := Text.ofDigits 10 0 digits
  if digits ≠ [] ∧ n < lengthLimit then some n else none

/-- Whether the last one of some codings sends a body in chunks. -/
def endsInChunks (codings : List UInt8) : Bool :=
  codings.all (· < 0x80) &&
    ((Text.splitAt 0x2C codings).getLast?.any fun coding =>
      (asciiText (withoutGaps coding)).toLower = "chunked")

/-- What some headers say about the body. -/
structure Framing where
  /-- Its length. -/
  length : Option Nat
  /-- Whether it comes in chunks, if it is coded at all. -/
  chunked : Option Bool

/-- What one more header says about the body. A coding goes before a length. -/
def Framing.add (version : Version) (f : Framing) (h : Header) : Except HeadError Framing :=
  match h.name with
  | "content-length" =>
    if f.chunked.isSome then .ok f
    else
      match length? h.value, f.length with
      | none, _ => .error .malformed
      | some n, some m => if n = m then .ok f else .error .malformed
      | some n, none => if n ≤ maxBody then .ok { f with length := some n } else .error .tooLarge
  | "transfer-encoding" =>
    if version = .oneZero then .error .malformed
    else .ok { f with chunked := some (endsInChunks h.value) }
  | _ => .ok f

/-- Checks that the headers leave no doubt about where the body ends. -/
def checkBody (version : Version) (headers : List Header) : Except HeadError Unit := do
  let framing ← headers.foldlM (Framing.add version) ⟨none, none⟩
  if framing.chunked = some false then throw .malformed

/-- Reads a head. Empty lines may stand before it, and what stands behind it is left alone. -/
def parse (bytes : List UInt8) : Except HeadError Request :=
  match (lines bytes).dropWhile (·.isEmpty) with
  | [] => .error .malformed
  | first :: rest => do
    let some (method, targetBytes, version) := firstLine? first | throw .malformed
    let some targetText := Text.Utf8.decode? targetBytes | throw .malformed
    if !targetText.toList.all isVisible then throw .malformed
    let headers ← headers maxHeaders (rest.takeWhile (!·.isEmpty))
    if maxTarget < targetBytes.length then throw .targetTooLong
    if headers.any fun h => maxName < h.name.length then throw .tooLarge
    let some target := Target.parse? targetText.toList | throw .malformed
    checkBody version headers
    return { method, target, version, headers }

end Head

end Roomcast.Http

import Roomcast.Event

/-!
# Signals

A client and the media service negotiate with signals. A signal is written as an object with one
field, whose name says what kind of signal it is.
-/

namespace Roomcast.Peer

/-- What a session description is for. -/
inductive DescriptionKind where
  | offer | pranswer | answer | rollback
deriving DecidableEq

/-- A description of a media session. -/
structure Description where
  kind : DescriptionKind
  sdp : String
deriving DecidableEq

/-- A way to reach a peer. -/
structure Candidate where
  candidate : String
  sdpMid : Option String
  lineIndex : Option UInt16
  usernameFragment : Option String
deriving DecidableEq

/-- A signal between a client and the media service. -/
inductive Signal where
  | join (userId : Uuid) (sessionId : String) (description : Description)
  | offer (description : Description)
  | answer (description : Description)
  | trickle (candidate : Candidate) (target : Int64)
deriving DecidableEq

open Json (Tree)

def DescriptionKind.names : List (String × DescriptionKind) :=
  [("offer", .offer), ("pranswer", .pranswer), ("answer", .answer), ("rollback", .rollback)]

def DescriptionKind.name : DescriptionKind → String
  | offer => "offer"
  | pranswer => "pranswer"
  | answer => "answer"
  | rollback => "rollback"

def Signal.kind : Signal → String
  | join .. => "join"
  | offer _ => "offer"
  | answer _ => "answer"
  | trickle .. => "trickle"

def Description.toTree (d : Description) : Tree :=
  .ofFields [("type", .ofText d.kind.name), ("sdp", .ofText d.sdp)]

/-- A field that is written only if it has a value. -/
def optionalField {α : Type} (name : String) (toTree : α → Tree) (value : Option α) :
    List (String × Tree) :=
  value.toList.map fun v => (name, toTree v)

def Candidate.toTree (c : Candidate) : Tree :=
  .ofFields <|
    ("candidate", .ofText c.candidate) ::
      optionalField "sdpMid" .ofText c.sdpMid ++
      optionalField "sdpMLineIndex" (fun n => .ofNat n.toNat) c.lineIndex ++
      optionalField "usernameFragment" .ofText c.usernameFragment

def Signal.body : Signal → Tree
  | join userId sessionId description =>
    .ofFields [("userId", userId.toTree), ("sessionId", .ofText sessionId),
      ("description", description.toTree)]
  | offer description | answer description => .ofFields [("description", description.toTree)]
  | trickle candidate target =>
    .ofFields [("candidate", candidate.toTree), ("target", .ofInt target.toInt)]

def Signal.toTree (s : Signal) : Tree := .ofFields [(s.kind, s.body)]

end Roomcast.Peer

namespace Roomcast.Json.Decoder

open Roomcast.Peer

def description : Decoder Description := fun depth t =>
  match record? ["type", "sdp"] depth t with
  | some (depth, [kind, sdp]) => do
    let kind ← required (name DescriptionKind.names) depth kind
    let sdp ← required text depth sdp
    return { kind, sdp }
  | _ => none

def word16 : Decoder UInt16 := fun depth t =>
  (integer 0 65535 depth t).map fun n => UInt16.ofNat n.toNat

def word64 : Decoder Int64 := fun depth t =>
  (integer (-Nat.pow 2 63) (Nat.pow 2 63 - 1) depth t).map Int64.ofInt

def candidate : Decoder Candidate := fun depth t =>
  match record? ["candidate", "sdpMid", "sdpMLineIndex", "usernameFragment"] depth t with
  | some (depth, [candidate, sdpMid, lineIndex, usernameFragment]) => do
    let candidate ← required text depth candidate
    let sdpMid ← optional text depth sdpMid
    let lineIndex ← optional word16 depth lineIndex
    let usernameFragment ← optional text depth usernameFragment
    return { candidate, sdpMid, lineIndex, usernameFragment }
  | _ => none

def join : Decoder Signal := fun depth t =>
  match record? ["userId", "sessionId", "description"] depth t with
  | some (depth, [userId, sessionId, body]) => do
    let userId ← required uuid depth userId
    let sessionId ← required text depth sessionId
    let description ← required description depth body
    return .join userId sessionId description
  | _ => none

/-- What a signal says that has nothing but a description. -/
def describing (signal : Description → Signal) : Decoder Signal := fun depth t =>
  match record? ["description"] depth t with
  | some (depth, [body]) => (required description depth body).map signal
  | _ => none

def trickle : Decoder Signal := fun depth t =>
  match record? ["candidate", "target"] depth t with
  | some (depth, [body, target]) => do
    let candidate ← required candidate depth body
    let target ← required word64 depth target
    return .trickle candidate target
  | _ => none

def signal : Decoder Signal :=
  tagged [("join", join), ("offer", describing .offer), ("answer", describing .answer),
    ("trickle", trickle)]

end Roomcast.Json.Decoder

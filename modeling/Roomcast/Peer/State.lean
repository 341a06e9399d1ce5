import Roomcast.Peer.Signal

/-!
# What peers publish

A peer publishes media tracks and sends text to its room. Both are checked before they become
events. A `Fault` says what is wrong: of several faults in a list of tracks, the length counts
first, then the first track that has one.
-/

namespace Roomcast.Peer

/-- What a track shows. -/
inductive TrackHint where
  | camera | screen | userAudio | deviceAudio
deriving DecidableEq

structure Track where
  id : String
  hint : TrackHint
deriving DecidableEq

/-- The tracks that a peer publishes. -/
structure State where
  tracks : List Track
deriving DecidableEq

/-- The text that a peer sends to the room. -/
structure Note where
  text : String
deriving DecidableEq

/-- The most tracks that one peer may publish. -/
def maxTracks : Nat := 10

def maxNoteLength : Nat := 1000

/-- What is wrong with a list of tracks or a text. -/
inductive Fault where
  | tooManyTracks (count : Nat)
  | emptyTrackId
  | duplicateTrackId (id : String)
  | emptyText
  | textTooLong (length : Nat)
deriving DecidableEq

def Fault.message : Fault → String
  | tooManyTracks count => s!"too many tracks: {count} (max {maxTracks})"
  | emptyTrackId => "track id is empty"
  | duplicateTrackId id => "duplicate track id: " ++ id
  | emptyText => "message text is empty"
  | textTooLong length => s!"message text too long: {length} (max {maxNoteLength})"

namespace State

/-- The first fault of the tracks, given the ids of the tracks before them. -/
def trackFault? (seen : List String) : List Track → Option Fault
  | [] => none
  | t :: rest =>
    if t.id = "" then some .emptyTrackId
    else if t.id ∈ seen then some (.duplicateTrackId t.id)
    else trackFault? (t.id :: seen) rest

/-- What is wrong with a state, if anything is. -/
def fault? (s : State) : Option Fault :=
  if maxTracks < s.tracks.length then some (.tooManyTracks s.tracks.length)
  else trackFault? [] s.tracks

end State

/-- What is wrong with a text, if anything is. -/
def Note.fault? (n : Note) : Option Fault :=
  if n.text.length = 0 then some .emptyText
  else if maxNoteLength < n.text.length then some (.textTooLong n.text.length)
  else none

open Json (Tree)

def TrackHint.names : List (String × TrackHint) :=
  [("camera", .camera), ("screen", .screen), ("userAudio", .userAudio),
    ("deviceAudio", .deviceAudio)]

def TrackHint.name : TrackHint → String
  | camera => "camera"
  | screen => "screen"
  | userAudio => "userAudio"
  | deviceAudio => "deviceAudio"

def Track.toTree (t : Track) : Tree :=
  .ofFields [("id", .ofText t.id), ("hint", .ofText t.hint.name)]

def State.toTree (s : State) : Tree := .ofFields [("tracks", .array (s.tracks.map Track.toTree))]

def Note.toTree (n : Note) : Tree := .ofFields [("text", .ofText n.text)]

open Json (Value)

/-- A track as the body of an event. -/
def Track.toValue (t : Track) : Value :=
  .object (Json.sortFields [("id", .string t.id), ("hint", .string t.hint.name)])

/-- A state as the body of an event. -/
def State.toValue (s : State) : Value := .object [("tracks", .array (s.tracks.map Track.toValue))]

/-- A text as the body of an event. -/
def Note.toValue (n : Note) : Value := .object [("text", .string n.text)]

end Roomcast.Peer

namespace Roomcast.Json.Decoder

open Roomcast.Peer

def track : Decoder Track := fun depth t =>
  match record? ["id", "hint"] depth t with
  | some (depth, [id, hint]) => do
    let id ← required text depth id
    let hint ← required (name TrackHint.names) depth hint
    return { id, hint }
  | _ => none

/-- A state. Its tracks may be absent. -/
def state : Decoder State := fun depth t =>
  match record? ["tracks"] depth t with
  | some (depth, [tracks]) => (defaulted [] (list track) depth tracks).map fun tracks => { tracks }
  | _ => none

def note : Decoder Note := fun depth t =>
  match record? ["text"] depth t with
  | some (depth, [body]) => (required text depth body).map fun text => { text }
  | _ => none

end Roomcast.Json.Decoder

import Roomcast.Peer.State
import Roomcast.Stream.Error

/-!
# Errors of a session

What can go wrong between a session and its client, its media channel and its room. Some errors
concern one request only; the session goes on after those.
-/

namespace Roomcast.Peer

/-- A failure of the connection to the client. -/
inductive LinkError where
  | closed
  | sendFailed (reason : String)
  | receiveFailed (reason : String)
  | pingTimeout
deriving DecidableEq

/-- A failure of the channel to the media service. -/
inductive SignalError where
  | closed
  | unknown (what : String)
  | transport (reason : String)
deriving DecidableEq

/-- A failure of a session. -/
inductive SessionError where
  | invalid (reason : String)
  | unknownKind (kind : String)
  | malformed
  | link (e : LinkError)
  | signal (e : SignalError)
  | stream (e : StreamError)
deriving DecidableEq

def LinkError.message : LinkError → String
  | closed => "connection closed"
  | sendFailed reason => "send failed: " ++ reason
  | receiveFailed reason => "receive failed: " ++ reason
  | pingTimeout => "ping timed out"

def SignalError.message : SignalError → String
  | closed => "signal channel closed"
  | unknown what => "unknown signal message: " ++ what
  | transport reason => "signal transport error: " ++ reason

namespace SessionError

/-- The text of an error. Nothing more is said of a malformed text. -/
def message : SessionError → String
  | invalid reason => "validation failed: " ++ reason
  | unknownKind kind => "unknown message: " ++ kind
  | malformed => "malformed message"
  | link e => e.message
  | signal e => e.message
  | stream e => e.message

/-- Whether the session goes on after the error. -/
def isRecoverable : SessionError → Bool
  | invalid _ | unknownKind _ | malformed => true
  | link _ | signal _ | stream _ => false

/-- The error that a fault of a request is. -/
def ofFault (f : Fault) : SessionError := .invalid f.message

end SessionError

/-- The event as clients get it, unless they do not understand its kind. -/
def showEvent (e : Event) : Except SessionError Event :=
  if e.isKnown then .ok e else .error (.unknownKind e.payload.kind)

end Roomcast.Peer

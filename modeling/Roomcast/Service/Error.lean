import Roomcast.Json.Tree
import Roomcast.Stream.Error

/-!
# Errors of the service

How the service answers a request that it cannot serve.
-/

namespace Roomcast

/-- Why a request is not served. -/
inductive ServiceError where
  | badRequest (reason : String)
  | shuttingDown
  | internal
deriving DecidableEq

namespace ServiceError

/-- The error that a stream error is to the one who made the request. -/
def ofStream : StreamError → ServiceError
  | .shuttingDown => shuttingDown
  | _ => internal

def status : ServiceError → Nat
  | badRequest _ => 400
  | shuttingDown => 503
  | internal => 500

def text : ServiceError → String
  | badRequest reason => reason
  | shuttingDown => "Service is shutting down"
  | internal => "Internal server error"

/-- The text of an error in the log. -/
def message : ServiceError → String
  | badRequest reason => "Bad request: " ++ reason
  | e => e.text

def body (e : ServiceError) : Json.Tree := .ofFields [("error", .ofText e.text)]

end ServiceError

end Roomcast

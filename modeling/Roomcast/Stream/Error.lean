/-!
# Stream errors

The ways in which reading a room's events can fail.
-/

namespace Roomcast

/-- Why a read or a subscription failed. -/
inductive StreamError where
  | closed
  | cancelled
  | shuttingDown
  | unexpected (reason : String)
  | feed (reason : String)
deriving DecidableEq

namespace StreamError

def message : StreamError → String
  | closed => "event stream closed"
  | cancelled => "operation cancelled"
  | shuttingDown => "watcher is shutting down"
  | unexpected reason => "unexpected result: " ++ reason
  | feed reason => "feed error: " ++ reason

/-- Whether an error belongs to the life of a stream and is no failure. -/
def isExpected : StreamError → Bool
  | closed | cancelled | shuttingDown => true
  | unexpected _ | feed _ => false

end StreamError

end Roomcast

import Roomcast.Text.Digits

/-!
# Configuration

The service is configured by variables. Whatever is not set has a default. `Config.ofVariables`
reads all of them or names the first that is wrong.
-/

namespace Roomcast

/-- How the service writes its log. -/
inductive LogFormat where
  | console | json
deriving DecidableEq

/-- The settings of the service. Times are in seconds. -/
structure Config where
  listenAddress : String
  windowCapacity : Nat
  collectionPeriod : Nat
  pingInterval : Nat
  pingTimeout : Nat
  shutdownTimeout : Nat
  logFormat : LogFormat
deriving DecidableEq

/-- A variable whose value is wrong, with that value. -/
inductive ConfigError where
  | notPositive (name value : String)
  | notLogFormat (value : String)
deriving DecidableEq

def ConfigError.message : ConfigError → String
  | notPositive name value =>
    s!"Invalid configuration value: {name} must be a positive integer, got '{value}'"
  | notLogFormat value =>
    s!"Invalid configuration value: LOG_FORMAT must be 'console' or 'json', got '{value}'"

def LogFormat.name : LogFormat → String
  | console => "console"
  | json => "json"

/-- The log format with a name, in any case of its letters. -/
def LogFormat.ofName? (s : String) : Option LogFormat :=
  let s := s.toList.map Char.toLower
  if s = "console".toList then some .console
  else if s = "json".toList then some .json
  else none

namespace Config

abbrev Variables := String → Option String

/-- Reads a number between 1 and `2 ^ 64 - 1`: digits, and a plus sign before them if one is
wanted. -/
def positive? (s : String) : Option Nat :=
  let digits := match s.toList with
    | '+' :: rest => rest
    | rest => rest
  if digits.isEmpty then none
  else
    (digits.mapM Text.decimalValue?).bind fun ds =>
      let n := Text.ofDigits 10 0 ds
      if 0 < n ∧ n < Nat.pow 2 64 then some n else none

/-- The number that a variable holds, or its default. -/
def positive (vars : Variables) (name : String) (default : Nat) : Except ConfigError Nat :=
  match vars name with
  | none => .ok default
  | some value =>
    match positive? value with
    | some n => .ok n
    | none => .error (.notPositive name value)

/-- The log format that is set, or the default. -/
def logFormatOf (vars : Variables) : Except ConfigError LogFormat :=
  match vars "LOG_FORMAT" with
  | none => .ok .console
  | some value =>
    match LogFormat.ofName? value with
    | some format => .ok format
    | none => .error (.notLogFormat value)

def ofVariables (vars : Variables) : Except ConfigError Config := do
  let windowCapacity ← positive vars "EVENT_BUFFER_CAPACITY" 30
  let collectionPeriod ← positive vars "EVENT_GC_PERIOD_SECONDS" 60
  let pingInterval ← positive vars "PEER_PING_INTERVAL_SECONDS" 60
  let pingTimeout ← positive vars "PEER_PING_TIMEOUT_SECONDS" 20
  let shutdownTimeout ← positive vars "SHUTDOWN_TIMEOUT_SECONDS" 60
  let logFormat ← logFormatOf vars
  return {
    listenAddress := (vars "LISTEN_WEB_ADDRESS").getD "0.0.0.0:8080"
    windowCapacity, collectionPeriod, pingInterval, pingTimeout, shutdownTimeout, logFormat }

end Config

end Roomcast

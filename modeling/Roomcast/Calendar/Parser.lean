import Roomcast.Calendar.Timestamp
import Roomcast.Text.Blank

/-!
# Reading timestamps

Timestamps are read generously. Numbers may have fewer digits than usual, white space may stand
between the parts, a `t`, a `T` or one blank divides date and time, a fraction may have any number
of digits, and the zone is `Z`, `UTC` or an offset. A year with a sign may have any number of
digits. Each function takes the text that is left and returns what follows the part it reads.
-/

namespace Roomcast.Timestamp

/-- Reads a number of at least one and at most `width` digits. -/
def number? (width : Nat) (s : List Char) : Option (Nat × List Char) :=
  let digits := (s.takeWhile Text.isDecimal).take width
  if digits.isEmpty then none
  else some (Text.ofDigits 10 0 (digits.filterMap Text.decimalValue?), s.drop digits.length)

def char? (c : Char) : List Char → Option (List Char)
  | d :: rest => if d = c then some rest else none
  | [] => none

/-- Reads a year: up to four digits, or a sign and any number of digits. -/
def year? (s : List Char) : Option (Int × List Char) :=
  match Text.trimStart s with
  | '-' :: rest => (number? rest.length rest).map fun (n, rest) => (-(n : Int), rest)
  | '+' :: rest => (number? rest.length rest).map fun (n, rest) => ((n : Int), rest)
  | rest => (number? 4 rest).map fun (n, rest) => ((n : Int), rest)

/-- Reads a mark and a number of at most two digits, each with white space before it. -/
def part? (mark : Char) (s : List Char) : Option (Nat × List Char) :=
  (char? mark (Text.trimStart s)).bind fun rest => number? 2 (Text.trimStart rest)

def date? (s : List Char) : Option (Date × List Char) := do
  let (year, s) ← year? s
  let (month, s) ← part? '-' s
  let (day, s) ← part? '-' s
  let date ← Date.ofYmd? year month day
  return (date, s)

/-- Reads what divides a date from a time. -/
def divider? : List Char → Option (List Char)
  | c :: rest => if c = 'T' ∨ c = 't' ∨ c = ' ' then some rest else none
  | [] => none

/-- Reads the fraction of a second as nanoseconds, if there is one. Digits past the ninth are
dropped. -/
def fraction? : List Char → Option (Nat × List Char)
  | '.' :: rest => do
    let (n, after) ← number? 9 rest
    let digits := rest.length - after.length
    return (n * Nat.pow 10 (9 - digits), after.dropWhile Text.isDecimal)
  | s => some (0, s)

def time? (s : List Char) : Option (TimeOfDay × List Char) := do
  let (hour, s) ← number? 2 (Text.trimStart s)
  let (minute, s) ← part? ':' s
  let (second, s) ← part? ':' s
  let (nano, s) ← fraction? s
  let time ← TimeOfDay.ofHms? hour minute second nano
  return (time, s)

def twoDigits? : List Char → Option (Nat × List Char)
  | a :: b :: rest => do
    let a ← Text.decimalValue? a
    let b ← Text.decimalValue? b
    return (10 * a + b, rest)
  | _ => none

/-- Reads hours and minutes of an offset, with any colons and white space between them. -/
def offset? (s : List Char) : Option (Nat × List Char) := do
  let (hours, s) ← twoDigits? s
  let (minutes, s) ← twoDigits? (s.dropWhile fun c => c == ':' || Text.isBlank c)
  if hours < 24 ∧ minutes < 60 then return (hours * 60 + minutes, s) else none

/-- Reads a zone as the minutes by which it is ahead of universal time. -/
def zone? (s : List Char) : Option (Int × List Char) :=
  match s with
  | 'Z' :: rest | 'z' :: rest => some (0, rest)
  | '+' :: rest => (offset? rest).map fun (n, rest) => ((n : Int), rest)
  | '-' :: rest | '\u2212' :: rest => (offset? rest).map fun (n, rest) => (-(n : Int), rest)
  | _ =>
    if (s.take 3).map Char.toUpper = ['U', 'T', 'C'] then some (0, s.drop 3) else none

/-- Reads an instant. White space may surround it. -/
def parse? (s : List Char) : Option Timestamp := do
  let (date, s) ← date? s
  let s ← divider? s
  let (time, s) ← time? s
  let (offset, s) ← zone? (Text.trimStart s)
  if (Text.trimStart s).isEmpty then ofZone? date time offset else none

end Roomcast.Timestamp

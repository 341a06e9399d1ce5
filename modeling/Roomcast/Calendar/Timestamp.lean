import Roomcast.Text.Digits

/-!
# Timestamps

A `Timestamp` is an instant in universal time: a date of the proleptic Gregorian calendar and a
time of day down to the nanosecond. A minute may have a second numbered 60, so leap seconds keep
their place. `Timestamp.render` is the written form; `Roomcast.Calendar.Parser` reads it back,
and other forms besides.
-/

namespace Roomcast

/-- Whether February of the year has 29 days. -/
def isLeapYear (year : Int) : Bool :=
  year % 4 == 0 && (year % 100 != 0 || year % 400 == 0)

def daysInMonth (year : Int) (month : Nat) : Nat :=
  match month with
  | 2 => if isLeapYear year then 29 else 28
  | 4 | 6 | 9 | 11 => 30
  | _ => 31

def minYear : Int := -262143

def maxYear : Int := 262142

/-- The three numbers name a day of the calendar. -/
def IsDate (year : Int) (month day : Nat) : Prop :=
  (minYear ≤ year ∧ year ≤ maxYear) ∧ (1 ≤ month ∧ month ≤ 12) ∧
    (1 ≤ day ∧ day ≤ daysInMonth year month)

instance (year : Int) (month day : Nat) : Decidable (IsDate year month day) :=
  inferInstanceAs (Decidable (_ ∧ _ ∧ _))

/-- A day of the calendar. -/
structure Date where
  year : Int
  month : Nat
  day : Nat
  isDate : IsDate year month day
deriving DecidableEq

namespace Date

/-- The day with the given numbers, if it exists. -/
def ofYmd? (year : Int) (month day : Nat) : Option Date :=
  if h : IsDate year month day then some ⟨year, month, day, h⟩ else none

def next? (d : Date) : Option Date :=
  (ofYmd? d.year d.month (d.day + 1)).or <|
    (ofYmd? d.year (d.month + 1) 1).or (ofYmd? (d.year + 1) 1 1)

def prev? (d : Date) : Option Date :=
  (ofYmd? d.year d.month (d.day - 1)).or <|
    (ofYmd? d.year (d.month - 1) (daysInMonth d.year (d.month - 1))).or
      (ofYmd? (d.year - 1) 12 31)

/-- The day `n` days later, unless the calendar ends before. -/
def addDays? (d : Date) : Nat → Option Date
  | 0 => some d
  | n + 1 => d.next?.bind (·.addDays? n)

end Date

/-- The four numbers name a time of day. -/
def IsTime (hour minute second nano : Nat) : Prop :=
  hour < 24 ∧ minute < 60 ∧ second ≤ 60 ∧ nano < 1000000000

instance (hour minute second nano : Nat) : Decidable (IsTime hour minute second nano) :=
  inferInstanceAs (Decidable (_ ∧ _ ∧ _ ∧ _))

/-- A time of day. -/
structure TimeOfDay where
  hour : Nat
  minute : Nat
  second : Nat
  nano : Nat
  isTime : IsTime hour minute second nano
deriving DecidableEq

/-- The time of day with the given numbers, if it exists. -/
def TimeOfDay.ofHms? (hour minute second nano : Nat) : Option TimeOfDay :=
  if h : IsTime hour minute second nano then some ⟨hour, minute, second, nano, h⟩ else none

/-- An instant in universal time. -/
structure Timestamp where
  date : Date
  time : TimeOfDay
deriving DecidableEq

namespace Timestamp

def midnight (date : Date) : Timestamp := ⟨date, ⟨0, 0, 0, 0, by decide⟩⟩

/-- The instant at a time of day in a zone that is `offset` minutes ahead of universal time, for an
offset of less than a day. -/
def ofZone? (date : Date) (time : TimeOfDay) (offset : Int) : Option Timestamp := do
  let minutes : Int := time.hour * 60 + time.minute - offset
  let date ←
    if minutes < 0 then date.prev? else if minutes < 1440 then some date else date.next?
  let ofDay := (minutes % 1440).toNat
  let time ← TimeOfDay.ofHms? (ofDay / 60) (ofDay % 60) time.second time.nano
  return ⟨date, time⟩

/-- The instant `n` seconds after midnight of a day, counting no leap seconds. -/
def ofSeconds? (date : Date) (n : Nat) : Option Timestamp := do
  let date ← date.addDays? (n / 86400)
  let time ← TimeOfDay.ofHms? (n % 86400 / 3600) (n % 3600 / 60) (n % 60) 0
  return ⟨date, time⟩

/-- A year has four digits, and a sign if it needs more or lies before year 0. -/
def renderYear (year : Int) : List Char :=
  if 0 ≤ year ∧ year ≤ 9999 then Text.fixed 4 year.toNat
  else
    (if year < 0 then '-' else '+') ::
      if year.natAbs < 10000 then Text.fixed 4 year.natAbs else Text.decimal year.natAbs

/-- A fraction of a second has no digits, or as many of three, six and nine as make it exact. -/
def renderFraction (nano : Nat) : List Char :=
  if nano = 0 then []
  else if nano % 1000000 = 0 then '.' :: Text.fixed 3 (nano / 1000000)
  else if nano % 1000 = 0 then '.' :: Text.fixed 6 (nano / 1000)
  else '.' :: Text.fixed 9 nano

/-- The written form of an instant, as in `2024-01-02T03:04:05Z`. -/
def render (t : Timestamp) : List Char :=
  renderYear t.date.year ++ '-' :: Text.fixed 2 t.date.month ++ '-' :: Text.fixed 2 t.date.day ++
    'T' :: Text.fixed 2 t.time.hour ++ ':' :: Text.fixed 2 t.time.minute ++
    ':' :: Text.fixed 2 t.time.second ++ renderFraction t.time.nano ++ ['Z']

end Timestamp

end Roomcast

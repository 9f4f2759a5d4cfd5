/-
# Traceability.Timestamp -- when a store was validated

A time with an offset names an instant, counted in microseconds from the
beginning of the year 1 in the Gregorian calendar.  `utcText` writes the instant
in UTC, to the millisecond, provided it lies in the years 1 to 9999.
-/

namespace Traceability

set_option autoImplicit false

namespace Calendar

def daysBeforeYear (year : Nat) : Nat :=
  let past := year - 1
  365 * past + past / 4 - past / 100 + past / 400

def isLeap (year : Nat) : Bool := year % 4 == 0 && (year % 100 != 0 || year % 400 == 0)

def monthLengths (year : Nat) : List Nat :=
  [31, if isLeap year then 29 else 28, 31, 30, 31, 30, 31, 31, 30, 31, 30, 31]

def daysOf : List Nat → Nat
  | [] => 0
  | length :: rest => length + daysOf rest

/-- The days before a date, from the beginning of the year 1. -/
def daysBefore (year month day : Nat) : Nat :=
  daysBeforeYear year + daysOf ((monthLengths year).take (month - 1)) + (day - 1)

/-- The year of a day, searched upwards from `year`. -/
def yearFrom (days : Nat) : (fuel year : Nat) → Nat
  | 0, year => year
  | fuel + 1, year =>
      if daysBeforeYear (year + 1) ≤ days then yearFrom days fuel (year + 1) else year

def yearOf (days : Nat) : Nat := yearFrom days days (days / 366 + 1)

/-- The month and the day of the month of a day, counted from zero, among months of which the first
has number `month`. -/
def monthAndDay : (month days : Nat) → List Nat → Nat × Nat
  | month, days, [] => (month, days + 1)
  | month, days, length :: rest =>
      if days < length then (month, days + 1) else monthAndDay (month + 1) (days - length) rest

end Calendar

/-- An offset from UTC, to the microsecond. -/
structure UtcOffset where
  microseconds : Int
deriving DecidableEq, Repr

namespace UtcOffset

def ofMinutes (minutes : Int) : UtcOffset := ⟨minutes * 60000000⟩

/-- A number by itself counts minutes, as offsets are usually written. -/
instance : Coe Int UtcOffset := ⟨ofMinutes⟩

instance : OfNat UtcOffset 0 := ⟨⟨0⟩⟩

instance : Neg UtcOffset := ⟨fun offset => ⟨-offset.microseconds⟩⟩

end UtcOffset

/-- A time of day on a date, at an offset from UTC. -/
structure ZonedTime where
  year : Nat
  month : Nat
  day : Nat
  hour : Nat
  minute : Nat
  second : Nat
  microsecond : Nat
  offset : UtcOffset
deriving DecidableEq, Repr

namespace ZonedTime

/-- The instant in microseconds from the beginning of the year 1 in UTC. -/
def instant (time : ZonedTime) : Int :=
  let days : Int := Calendar.daysBefore time.year time.month time.day
  (((days * 24 + time.hour) * 60 + time.minute) * 60 + time.second) * 1000000 +
    time.microsecond - time.offset.microseconds

/-- The instant, provided it lies in the years 1 to 9999. -/
def instant? (time : ZonedTime) : Option Nat :=
  let instant := time.instant
  if 0 ≤ instant && instant < Calendar.daysBeforeYear 10000 * 86400000000 then
    some instant.toNat
  else none

end ZonedTime

def zeroFilled (width n : Nat) : String :=
  let digits := Nat.toDigits 10 n
  String.ofList (List.replicate (width - digits.length) '0' ++ digits)

def ZonedTime.ofInstant (instant : Nat) : ZonedTime :=
  let seconds := instant / 1000000
  let days := seconds / 86400
  let year := Calendar.yearOf days
  let (month, day) :=
    Calendar.monthAndDay 1 (days - Calendar.daysBeforeYear year) (Calendar.monthLengths year)
  ⟨year, month, day, seconds % 86400 / 3600, seconds % 3600 / 60, seconds % 60,
    instant % 1000000, 0⟩

/-- A time to the millisecond, which must be a time in UTC. -/
def ZonedTime.text (time : ZonedTime) : String :=
  zeroFilled 4 time.year ++ "-" ++ zeroFilled 2 time.month ++ "-" ++ zeroFilled 2 time.day ++
    "T" ++ zeroFilled 2 time.hour ++ ":" ++ zeroFilled 2 time.minute ++ ":" ++
    zeroFilled 2 time.second ++ "." ++ zeroFilled 3 (time.microsecond / 1000) ++ "Z"

def instantText (instant : Nat) : String := (ZonedTime.ofInstant instant).text

/-- The time in UTC to the millisecond, provided it lies in the years 1 to 9999. -/
def ZonedTime.utcText? (time : ZonedTime) : Option String := time.instant?.map instantText

end Traceability

import Arborist.Numeral.Integer

/-!
# Dates and moments

Settings may hold a date, or a moment of a day with or without a distance from universal time.
Years are four digits of the common era, reckoned throughout by the rule that leap years are those
divisible by four, full centuries only if divisible by four hundred.

* `Date.checked` and `Moment.checked` refuse what is in no calendar.
* `Moment.instant?` places moments with a known offset on one line, so that they can be compared.
* `shown` writes years first, all parts padded with zeros.
-/

namespace Arborist

/-- A day. -/
structure Date where
  year : Nat
  month : Nat
  day : Nat
  deriving DecidableEq, Repr

/-- A moment of a day. -/
structure Moment where
  date : Date
  hour : Nat
  minute : Nat
  second : Nat
  microsecond : Nat := 0
  /-- How many minutes the clock is ahead of universal time, if that is known. -/
  offset : Option Int := none
  deriving DecidableEq, Repr

/-- Why something is in no calendar and on no clock. -/
inductive CalendarFault where
  | year (number : Nat)
  | month
  | day
  | hour
  | minute
  | second
  /-- An offset of a day or more, in minutes. -/
  | offset (minutes : Int)
  deriving DecidableEq, Repr

/-- A stretch of minutes as days and seconds, of which only the days may be negative. -/
def shownStretch (minutes : Int) : String :=
  let days := minutes.fdiv 1440
  let seconds := minutes.fmod 1440 * 60
  let parts := (if days == 0 then [] else ["days=" ++ toString days])
    ++ (if seconds == 0 then [] else ["seconds=" ++ toString seconds])
  "datetime.timedelta(" ++ (if parts.isEmpty then "0" else ", ".intercalate parts) ++ ")"

/-- The wording of a fault. -/
def CalendarFault.message : CalendarFault → String
  | .year n => "year " ++ toString n ++ " is out of range"
  | .month => "month must be in 1..12"
  | .day => "day is out of range for month"
  | .hour => "hour must be in 0..23"
  | .minute => "minute must be in 0..59"
  | .second => "second must be in 0..59"
  | .offset minutes =>
    "offset must be a timedelta strictly between -timedelta(hours=24) and timedelta(hours=24), not "
      ++ shownStretch minutes ++ "."

/-- A number padded with zeros to a width. -/
def zeroPadded (width n : Nat) : String :=
  let digits := Nat.toDigits 10 n
  String.ofList (List.replicate (width - digits.length) '0' ++ digits)

namespace Date

/-- Whether a year has 366 days. -/
def isLeap (year : Nat) : Bool := year % 4 == 0 && (year % 100 != 0 || year % 400 == 0)

/-- How many days a month has. -/
def daysIn (year month : Nat) : Nat :=
  if month == 2 then if isLeap year then 29 else 28
  else if [4, 6, 9, 11].contains month then 30
  else 31

/-- A date that is in the calendar. -/
def checked (date : Date) : Except CalendarFault Date :=
  if date.year == 0 then .error (.year date.year)
  else if date.month == 0 || date.month > 12 then .error .month
  else if date.day == 0 || date.day > daysIn date.year date.month then .error .day
  else .ok date

/-- How many days have passed since the last day before the common era. -/
def dayNumber (date : Date) : Nat :=
  let past := date.year - 1
  let months := (List.range (date.month - 1)).foldl
    (fun days month => days + daysIn date.year (month + 1)) 0
  past * 365 + past / 4 - past / 100 + past / 400 + months + date.day

/-- A date as text. -/
def shown (date : Date) : String :=
  zeroPadded 4 date.year ++ "-" ++ zeroPadded 2 date.month ++ "-" ++ zeroPadded 2 date.day

end Date

namespace Moment

/-- A moment that is in the calendar and on the clock. The offset is judged first. -/
def checked (moment : Moment) : Except CalendarFault Moment := do
  if let some minutes := moment.offset then
    if minutes.natAbs ≥ 1440 then throw (.offset minutes)
  let _ ← moment.date.checked
  if moment.hour > 23 then throw .hour
  if moment.minute > 59 then throw .minute
  if moment.second > 59 then throw .second
  return moment

/-- Microseconds on the line of universal time, if the offset is known. -/
def instant? (moment : Moment) : Option Int :=
  moment.offset.map fun offset =>
    let minutes : Int := (moment.date.dayNumber * 24 + moment.hour) * 60 + moment.minute
    ((minutes - offset) * 60 + moment.second) * 1000000 + moment.microsecond

/-- An offset as text. -/
def shownOffset (minutes : Int) : String :=
  (if minutes < 0 then "-" else "+") ++ zeroPadded 2 (minutes.natAbs / 60) ++ ":"
    ++ zeroPadded 2 (minutes.natAbs % 60)

/-- A moment as text. A fraction of a second is left out if there is none. -/
def shown (moment : Moment) : String :=
  moment.date.shown ++ " " ++ zeroPadded 2 moment.hour ++ ":" ++ zeroPadded 2 moment.minute ++ ":"
    ++ zeroPadded 2 moment.second
    ++ (if moment.microsecond == 0 then "" else "." ++ zeroPadded 6 moment.microsecond)
    ++ (moment.offset.map shownOffset).getD ""

end Moment

end Arborist

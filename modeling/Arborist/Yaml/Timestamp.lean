import Arborist.Calendar

/-!
# Dates and moments as scalars write them

A date is a year of four digits, a month and a day. A moment goes on, after a `T` or spacing, with
a time of day and possibly a fraction of a second and a distance from universal time. Months, days
and hours may have one digit.
-/

namespace Arborist.Yaml

open Numeral

/-- What a scalar says about a day and a time of day. -/
structure Timestamp where
  date : Date
  /-- Whether the month and the day have two digits each. -/
  padded : Bool
  moment : Option Moment := none
  deriving DecidableEq, Repr

/-- A number of digits between two bounds, and what follows them. -/
def boundedDigits (least most : Nat) (cs : List Char) : Option (List Char × List Char) :=
  let (digits, rest) := cs.span Char.isDigit
  if least ≤ digits.length && digits.length ≤ most then some (digits, rest) else none

/-- The value of decimal digits. -/
def decimalOf (digits : List Char) : Nat := ofDigits 10 (digits.filterMap (asciiDigit? 10))

/-- What follows a given character. -/
def after? (c : Char) : List Char → Option (List Char)
  | d :: rest => if d == c then some rest else none
  | [] => none

/-- A date and what follows it; the flag says whether its parts are padded. -/
def dateFrom (cs : List Char) : Option (Date × Bool × List Char) := do
  let (year, cs) ← boundedDigits 4 4 cs
  let (month, cs) ← boundedDigits 1 2 (← after? '-' cs)
  let (day, cs) ← boundedDigits 1 2 (← after? '-' cs)
  let date : Date := ⟨decimalOf year, decimalOf month, decimalOf day⟩
  return (date, month.length == 2 && day.length == 2, cs)

/-- A space or a tab. -/
def isGap (c : Char) : Bool := c == ' ' || c == '\t'

/-- What follows the mark between a date and a time of day. -/
def afterDate? : List Char → Option (List Char)
  | c :: rest =>
    if c == 'T' || c == 't' then some rest
    else if isGap c then some (rest.dropWhile isGap)
    else none
  | [] => none

/-- A fraction of a second in microseconds, of which further digits are dropped, and what follows
it. -/
def fractionFrom (cs : List Char) : Nat × List Char :=
  match after? '.' cs with
  | none => (0, cs)
  | some rest =>
    let (digits, rest) := rest.span Char.isDigit
    (decimalOf ((digits ++ List.replicate 6 '0').take 6), rest)

/-- A distance from universal time in minutes, up to the end; none if there is nothing. -/
def offsetAtEnd? (cs : List Char) : Option (Option Int) :=
  if cs.isEmpty then some none
  else match cs.dropWhile isGap with
    | ['Z'] => some (some 0)
    | sign :: rest => do
      if sign != '+' && sign != '-' then none
      let (hours, rest) ← boundedDigits 1 2 rest
      let minutes ←
        if rest.isEmpty then some 0
        else do
          let (minutes, rest) ← boundedDigits 2 2 (← after? ':' rest)
          if rest.isEmpty then some (decimalOf minutes) else none
      return some (signed (sign == '-') (decimalOf hours * 60 + minutes))
    | [] => none

/-- A moment of a day, from its time on up to the end. -/
def momentOn? (date : Date) (cs : List Char) : Option Moment := do
  let (hour, cs) ← boundedDigits 1 2 cs
  let (minute, cs) ← boundedDigits 2 2 (← after? ':' cs)
  let (second, cs) ← boundedDigits 2 2 (← after? ':' cs)
  let (microsecond, cs) := fractionFrom cs
  let offset ← offsetAtEnd? cs
  return ⟨date, decimalOf hour, decimalOf minute, decimalOf second, microsecond, offset⟩

/-- The date or moment that a text is written like. -/
def Timestamp.ofText? (cs : List Char) : Option Timestamp := do
  let (date, padded, rest) ← dateFrom cs
  if rest.isEmpty then return ⟨date, padded, none⟩
  return ⟨date, padded, some (← momentOn? date (← afterDate? rest))⟩

/-- Whether a plain scalar is taken for a date or a moment: a date has to be padded. -/
def Timestamp.isPlain (timestamp : Timestamp) : Bool :=
  timestamp.padded || timestamp.moment.isSome

end Arborist.Yaml

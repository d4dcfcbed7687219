import Arborist.Numeral.Arithmetic
import Arborist.Settings.Value
import Arborist.Text.Base64
import Arborist.Text.Case
import Arborist.Yaml.Plain

/-!
# Simple values from scalars

What a scalar comes to under each tag. A tag may be written to any scalar, so a scalar need not
look like what its tag says; it may then still be read, or bring a fault of its own.
-/

namespace Arborist.Yaml

open Numeral Text

/-- The first character and the sign of a number are looked at, so there has to be one. -/
def signAndDigits (cs : List Char) : Except LoadFault (Bool × List Char) :=
  if cs.isEmpty then .error .emptyNumber else .ok (splitSign cs)

/-- An integer in a base. -/
def integerIn (base : Nat) (cs : List Char) : Except LoadFault Int :=
  (readInteger base (String.ofList cs)).mapError .integer

/-- An integer without its sign: binary, hexadecimal or octal by how it starts, sexagesimal by its
colons, decimal otherwise. -/
def unsignedInteger : List Char → Except LoadFault Int
  | [] => .error .emptyNumber
  | ['0'] => .ok 0
  | '0' :: 'b' :: digits => integerIn 2 digits
  | '0' :: 'x' :: digits => integerIn 16 digits
  | '0' :: digits => integerIn 8 ('0' :: digits)
  | cs => do
    let parts ← (colonParts cs).mapM (integerIn 10)
    return parts.foldl (fun value part => value * 60 + part) 0

/-- The integer that a scalar stands for. Low lines do not count. -/
def integerOf (text : String) : Except LoadFault Int := do
  let (negative, digits) ← signAndDigits (text.toList.filter (· != '_'))
  let value ← unsignedInteger digits
  return if negative then -value else value

/-- A fractional number in decimal. -/
def fractionIn (cs : List Char) : Except LoadFault Binary :=
  match Binary.read? (String.ofList cs) with
  | some value => .ok value
  | none => .error (.fraction (String.ofList cs))

/-- The sum of sexagesimal places from the last one on, each product and each sum rounded; `worth`
is what the next place is worth. -/
def sumPlaces (sum : Binary) (worth : Nat) : List Binary → Except LoadFault Binary
  | [] => .ok sum
  | place :: places =>
    match Binary.ofRatio false worth 1 with
    | .finite negative significand exponent =>
      sumPlaces (sum.plus (place.times (.finite negative significand exponent))) (worth * 60) places
    | _ => .error .placeTooHigh

/-- A fractional number without its sign, in lower case. -/
def unsignedFraction (cs : List Char) : Except LoadFault Binary := do
  if String.ofList cs == ".inf" then return .infinite false
  if String.ofList cs == ".nan" then return .nan
  if !cs.contains ':' then return ← fractionIn cs
  let places ← (colonParts cs).mapM fractionIn
  sumPlaces (Binary.ofRatio false 0 1) 1 places.reverse

/-- The fractional number that a scalar stands for. Low lines and case do not count. -/
def fractionOf (text : String) : Except LoadFault Binary := do
  let written := lowerCase (String.ofList (text.toList.filter (· != '_')))
  let (negative, digits) ← signAndDigits written.toList
  let value ← unsignedFraction digits
  return if negative then value.negated else value

/-- The words for truth values, in lower case. -/
def truthWords : List (String × Bool) :=
  [("yes", true), ("no", false), ("true", true), ("false", false), ("on", true), ("off", false)]

/-- The truth value that a scalar stands for. -/
def truthOf (text : String) : Except LoadFault Bool :=
  let word := lowerCase text
  match truthWords.lookup word with
  | some truth => .ok truth
  | none => .error (.truth word)

/-- The bytes that a scalar stands for. -/
def bytesOf (text : String) : Except LoadFault Bytes :=
  if text.toList.all (·.toNat < 128) then orMalformed (decodeBase64? text.toList)
  else .error .malformed

/-- The date or the moment that a scalar stands for. A line break at its end makes no
difference. -/
def momentOf (text : String) : Except LoadFault Scalar :=
  let cs := text.toList
  let cs := if cs.getLast? == some '\n' then cs.dropLast else cs
  match Timestamp.ofText? cs with
  | none => .error .moment
  | some ⟨date, _, none⟩ => (date.checked.map Scalar.date).mapError .calendar
  | some ⟨_, _, some moment⟩ => (moment.checked.map Scalar.moment).mapError .calendar

/-- The value of a scalar with a tag. Tags of collections and marks have none. -/
def simpleValue (tag : Tag) (text : String) : Except LoadFault Scalar :=
  match tag with
  | .null => .ok .null
  | .truth => (truthOf text).map .bool
  | .integer => (integerOf text).map .int
  | .fraction => (fractionOf text).map .float
  | .bytes => (bytesOf text).map .bytes
  | .moment => momentOf text
  | .text => .ok (.text text)
  | _ => .error .malformed

end Arborist.Yaml

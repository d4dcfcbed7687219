import Arborist.Numeral.Binary

/-!
# Reading and reckoning with binary numbers

`Binary.read?` reads a decimal number, or a word for one that is not finite. Sums and products are
the exact ones, rounded once.
-/

namespace Arborist.Numeral.Binary

open Text

/-- A number with its sign turned. -/
def negated : Binary → Binary
  | .nan => .nan
  | .infinite negative => .infinite !negative
  | .finite negative significand exponent => .finite (!negative) significand exponent

/-- The product of two numbers. -/
def times : Binary → Binary → Binary
  | .nan, _ => .nan
  | _, .nan => .nan
  | .infinite a, .infinite b => .infinite (a != b)
  | .infinite a, .finite b significand _ => if significand == 0 then .nan else .infinite (a != b)
  | .finite a significand _, .infinite b => if significand == 0 then .nan else .infinite (a != b)
  | .finite a m e, .finite b n f =>
    let (num₁, den₁) := ratio m e
    let (num₂, den₂) := ratio n f
    ofRatio (a != b) (num₁ * num₂) (den₁ * den₂)

/-- The sum of two numbers. A sum of zero is negative only if both numbers are. -/
def plus : Binary → Binary → Binary
  | .nan, _ => .nan
  | _, .nan => .nan
  | .infinite a, .infinite b => if a == b then .infinite a else .nan
  | .infinite a, .finite _ _ _ => .infinite a
  | .finite _ _ _, .infinite b => .infinite b
  | .finite a m e, .finite b n f =>
    let (num₁, den₁) := ratio m e
    let (num₂, den₂) := ratio n f
    let sum := signed a (num₁ * den₂) + signed b (num₂ * den₁)
    if sum == 0 then .finite (a && b) 0 leastExponent
    else ofRatio (sum < 0) sum.natAbs (den₁ * den₂)

/-- The values of decimal digits of any script. -/
def decimals (cs : List Char) : List Nat := cs.filterMap decimalValue?

/-- Whether a character is a decimal digit of any script. -/
def isDecimalDigit (c : Char) : Bool := (decimalValue? c).isSome

/-- An exponent from its letter on; no letter stands for zero. -/
def exponent? : List Char → Option Int
  | [] => some 0
  | e :: rest =>
    let (negative, digits) := splitSign rest
    if (e == 'e' || e == 'E') && !digits.isEmpty && digits.all isDecimalDigit then
      some (signed negative (ofDigits 10 (decimals digits)))
    else none

/-- The number that a text stands for: digits with a point and an exponent, or a word, in any
case, with white space around it and a sign. -/
def read? (text : String) : Option Binary :=
  let (negative, body) := splitSign (trimBoth isWhiteSpace text.toList)
  let word := String.ofList (body.map Char.toLower)
  if word == "inf" || word == "infinity" then some (.infinite negative)
  else if word == "nan" then some .nan
  else
    let (whole, rest) := body.span isDecimalDigit
    let (fraction, tail) := if rest.head? == some '.' then (rest.drop 1).span isDecimalDigit
      else ([], rest)
    if whole.isEmpty && fraction.isEmpty then none
    else (exponent? tail).map fun exponent =>
      ofDecimal negative (ofDigits 10 (decimals (whole ++ fraction))) (exponent - fraction.length)

end Arborist.Numeral.Binary

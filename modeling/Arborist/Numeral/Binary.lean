import Arborist.Numeral.Integer

/-!
# Binary floating-point numbers

Fractional numbers in settings are binary numbers of double precision. They are kept exactly, as
a significand times a power of two, so that they can be compared and reasoned about.

* `Binary.ofRatio` rounds a quotient to the nearest binary number, a tie to the even neighbour.
* `Binary.shown` writes the fewest decimal digits that read back as the same number, and of those
  the nearest.
-/

namespace Arborist.Numeral

/-- A number of double precision. A finite one is `significand * 2 ^ exponent`, where the
significand is below `2 ^ 53` and, unless the exponent is the least one, not below `2 ^ 52`. -/
inductive Binary where
  | nan
  | infinite (negative : Bool)
  | finite (negative : Bool) (significand : Nat) (exponent : Int)
  deriving DecidableEq, Repr

namespace Binary

/-- The least exponent. -/
def leastExponent : Int := -1074

/-- The greatest exponent. -/
def greatestExponent : Int := 971

/-- A quotient rounded to the nearest natural number, a tie to the even one. -/
def roundQuotient (num den : Nat) : Nat :=
  let quotient := num / den
  let twice := 2 * (num % den)
  if twice > den || (twice == den && quotient % 2 == 1) then quotient + 1 else quotient

/-- A quotient divided by a power of a base, as a quotient. -/
def scale (base num den : Nat) (exponent : Int) : Nat × Nat :=
  if exponent < 0 then (num * Nat.pow base exponent.natAbs, den)
  else (num, den * Nat.pow base exponent.toNat)

/-- The exponent at which a positive quotient has a significand of 53 bits, but not less than the
least exponent. -/
def exponentFor (num den : Nat) : Int :=
  let guess : Int := (num.log2 : Int) - den.log2 - 52
  let (n, d) := scale 2 num den guess
  let exact := if n / d < Nat.pow 2 52 then guess - 1 else guess
  max exact leastExponent

/-- The binary number nearest to a quotient. -/
def ofRatio (negative : Bool) (num den : Nat) : Binary :=
  if num == 0 then .finite negative 0 leastExponent
  else
    let exponent := exponentFor num den
    let (n, d) := scale 2 num den exponent
    let rounded := roundQuotient n d
    let (significand, exponent) :=
      if rounded == Nat.pow 2 53 then (Nat.pow 2 52, exponent + 1) else (rounded, exponent)
    if exponent > greatestExponent then .infinite negative
    else .finite negative significand exponent

/-- The binary number nearest to `digits * 10 ^ exponent`. Exponents far out of range are decided
by size. -/
def ofDecimal (negative : Bool) (digits : Nat) (exponent : Int) : Binary :=
  let size : Int := (Nat.toDigits 10 digits).length + exponent
  if digits == 0 || size < -400 then .finite negative 0 leastExponent
  else if size > 400 then .infinite negative
  else if exponent < 0 then ofRatio negative digits (Nat.pow 10 exponent.natAbs)
  else ofRatio negative (digits * Nat.pow 10 exponent.toNat) 1

/-- The number that a finite significand and exponent stand for, as a quotient. -/
def ratio (significand : Nat) (exponent : Int) : Nat × Nat :=
  if exponent < 0 then (significand, Nat.pow 2 exponent.natAbs)
  else (significand * Nat.pow 2 exponent.toNat, 1)

/-- The integer that a binary number is, if it is one. -/
def toInteger? : Binary → Option Int
  | .finite negative significand exponent =>
    let (num, den) := ratio significand exponent
    if num % den == 0 then some (signed negative (num / den)) else none
  | _ => none

/-! ### Writing -/

/-- The decimal digits that the neighbours of a positive quotient have on the grid of multiples
of `10 ^ exponent`, below and above. -/
def neighbours (num den : Nat) (exponent : Int) : Nat × Nat :=
  let (n, d) := scale 10 num den exponent
  (n / d, n / d + 1)

/-- Whether a quotient goes to the lower of two neighbours on a grid: it does if that one is
nearer, or if both are equally near and the lower one is even. -/
def nearerBelow (num den : Nat) (exponent : Int) (below : Nat) : Bool :=
  let (n, d) := scale 10 num den exponent
  let middle := (2 * below + 1) * d
  2 * n < middle || (2 * n == middle && below % 2 == 0)

/-- The power of ten just above a positive quotient: the number of digits before the point. -/
def magnitude (num den : Nat) : Int :=
  if num ≥ den then (Nat.toDigits 10 (num / den)).length
  else
    let zeros := ((List.range 400).find? fun k => num * Nat.pow 10 (k + 1) ≥ den).getD 0
    Int.negOfNat zeros

/-- The fewest digits that read back, and the power of ten they are multiplied by. Seventeen
digits always read back. -/
def shortestFrom (significand : Nat) (exponent : Int) (num den : Nat) (top : Int) :
    Nat → Nat → Nat × Int
  | 0, count => ((neighbours num den (top - count)).1, top - count)
  | steps + 1, count =>
    let grid := top - count
    let (below, above) := neighbours num den grid
    let readsBack (digits : Nat) : Bool :=
      ofDecimal false digits grid == .finite false significand exponent
    match readsBack below, readsBack above with
    | true, true => (if nearerBelow num den grid below then below else above, grid)
    | true, false => (below, grid)
    | false, true => (above, grid)
    | false, false => shortestFrom significand exponent num den top steps (count + 1)

/-- The fewest digits that read back as a positive number, and the power of ten. -/
def shortest (significand : Nat) (exponent : Int) : Nat × Int :=
  let (num, den) := ratio significand exponent
  shortestFrom significand exponent num den (magnitude num den) 17 1

/-- Digits without trailing zeros; the count of the zeros dropped goes to the exponent. -/
def dropTrailingZeros (digits : List Char) (exponent : Int) : List Char × Int :=
  let kept := (digits.reverse.dropWhile (· == '0')).reverse
  (kept, exponent + (digits.length - kept.length : Nat))

/-- Digits of a positive number with their point: positional if the point stands at most sixteen
places after the first digit and at most three zeros follow it before the first digit, with an
exponent of at least two digits otherwise. -/
def layOut (digits : List Char) (exponent : Int) : List Char :=
  let point : Int := digits.length + exponent
  if -4 < point && point ≤ 16 then
    if point ≤ 0 then '0' :: '.' :: List.replicate point.natAbs '0' ++ digits
    else if digits.length ≤ point.toNat then
      digits ++ List.replicate (point.toNat - digits.length) '0' ++ ['.', '0']
    else digits.take point.toNat ++ '.' :: digits.drop point.toNat
  else
    let power := point - 1
    let powerDigits := Nat.toDigits 10 power.natAbs
    let fraction := if digits.length > 1 then '.' :: digits.drop 1 else []
    digits.take 1 ++ fraction ++ 'e' :: (if power < 0 then '-' else '+')
      :: List.replicate (2 - powerDigits.length) '0' ++ powerDigits

/-- A binary number in decimal: the fewest digits that read back as the same number. -/
def shown : Binary → String
  | .nan => "nan"
  | .infinite negative => if negative then "-inf" else "inf"
  | .finite negative significand exponent =>
    let sign := if negative then ['-'] else []
    if significand == 0 then String.ofList (sign ++ ['0', '.', '0'])
    else
      let (digits, power) := shortest significand exponent
      let (digits, power) := dropTrailingZeros (Nat.toDigits 10 digits) power
      String.ofList (sign ++ layOut digits power)

end Binary

end Arborist.Numeral

import Arborist.Text.Blank
import Arborist.Text.Letter
import Arborist.Text.Quoted

/-!
# Integers as people write them

`readInteger` reads an integer in a base: white space around it, a sign, the mark of the base, and
digits of any script with single low lines between them. Where the base is no power of two the
work grows with the square of the number of digits, so that number is limited there, and likewise
in `writeInteger`.
-/

namespace Arborist.Numeral

open Text

/-- The value of digits in a base, given the values of the digits, first digit first. -/
def ofDigits (base : Nat) (digits : List Nat) : Nat :=
  digits.foldl (fun value digit => value * base + digit) 0

/-- Split a sign off; the flag says whether it is a minus. -/
def splitSign : List Char → Bool × List Char
  | '-' :: rest => (true, rest)
  | '+' :: rest => (false, rest)
  | rest => (false, rest)

/-- A number with its sign. -/
def signed (negative : Bool) (n : Nat) : Int := if negative then -(n : Int) else n

/-- The values of digits separated by single low lines. There is a digit at both ends. -/
def digitValues? (value? : Char → Option Nat) : List Char → Option (List Nat)
  | [] => none
  | [c] => (value? c).map fun value => [value]
  | c :: '_' :: rest => do return (← value? c) :: (← digitValues? value? rest)
  | c :: rest => do return (← value? c) :: (← digitValues? value? rest)

/-- The value of an ASCII digit in a base up to sixteen. -/
def asciiDigit? (base : Nat) (c : Char) : Option Nat :=
  let value :=
    if '0' ≤ c && c ≤ '9' then c.toNat - '0'.toNat
    else if 'a' ≤ c && c ≤ 'f' then c.toNat - 'a'.toNat + 10
    else if 'A' ≤ c && c ≤ 'F' then c.toNat - 'A'.toNat + 10
    else base
  if value < base then some value else none

/-- The value of a digit of any script in a base up to sixteen. -/
def digit? (base : Nat) (c : Char) : Option Nat :=
  (decimalValue? c).filter (· < base) <|> asciiDigit? base c

/-! ### Reading -/

/-- Why a text is not read as an integer, or an integer not written as text. -/
inductive IntegerFault where
  /-- It is not written like one in the base. -/
  | illFormed (base : Nat) (text : String)
  /-- It has more digits than the limit. -/
  | tooLong (count : Nat)
  /-- It would be written with more digits than the limit. -/
  | tooLarge
  deriving DecidableEq, Repr

/-- How many digits are read, or written, where their number is limited. -/
def digitLimit : Nat := 4300

/-- The wording of a fault. What is shown of a long text is cut. -/
def IntegerFault.message : IntegerFault → String
  | .illFormed base text =>
    "invalid literal for int() with base " ++ toString base ++ ": "
      ++ String.ofList ((quoted text).toList.take 200)
  | .tooLong count =>
    "Exceeds the limit (" ++ toString digitLimit ++ " digits) for integer string conversion: "
      ++ "value has " ++ toString count ++ " digits; "
      ++ "use sys.set_int_max_str_digits() to increase the limit"
  | .tooLarge =>
    "Exceeds the limit (" ++ toString digitLimit ++ " digits) for integer string conversion; "
      ++ "use sys.set_int_max_str_digits() to increase the limit"

/-- The letter after a leading zero that marks a base. -/
def baseMark? : Nat → Option Char
  | 2 => some 'b'
  | 8 => some 'o'
  | 16 => some 'x'
  | _ => none

/-- Drop the mark of a base, and one low line after it. -/
def dropBaseMark (base : Nat) (cs : List Char) : List Char :=
  match cs with
  | zero :: mark :: rest =>
    if decimalValue? zero == some 0 && baseMark? base == some mark.toLower then
      if rest.head? == some '_' then rest.drop 1 else rest
    else cs
  | _ => cs

/-- An integer in a base. The longest run of digits is judged before what follows it. -/
def readInteger (base : Nat) (text : String) : Except IntegerFault Int :=
  let (negative, body) := splitSign (trimBoth isWhiteSpace text.toList)
  let (run, rest) := (dropBaseMark base body).span fun c => c == '_' || (digit? base c).isSome
  match digitValues? (digit? base) run with
  | none => .error (.illFormed base text)
  | some digits =>
    if (baseMark? base).isNone && digits.length > digitLimit then .error (.tooLong digits.length)
    else if rest.isEmpty then .ok (signed negative (ofDigits base digits))
    else .error (.illFormed base text)

/-- An integer written in decimal digits. -/
def writeInteger (n : Int) : Except IntegerFault String :=
  if (Nat.toDigits 10 n.natAbs).length > digitLimit then .error .tooLarge else .ok (toString n)

/-- An integer in decimal digits. -/
def readInteger? (text : String) : Option Int := (readInteger 10 text).toOption

end Arborist.Numeral

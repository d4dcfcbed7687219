import Arborist.Text.Lines
import Arborist.Yaml.Tag
import Arborist.Yaml.Timestamp

/-!
# What plain scalars stand for

A plain scalar is null, a truth value, an integer, a fractional number or a moment if it is written
like one in YAML 1.1, and text otherwise. A leading zero makes an integer octal, and colons make it
sexagesimal. A fractional number needs its point, and its exponent needs a sign.

Two plain scalars mean something only as keys: `<<` merges a mapping in, and `=` stands for the
mapping. The marks of other tokens, which no plain scalar can be but a tagged one may, stand for
nothing.
-/

namespace Arborist.Yaml

open Numeral

/-- The words for truth values, as plain scalars write them. -/
def plainTruths : List String :=
  ["yes", "Yes", "YES", "no", "No", "NO", "true", "True", "TRUE", "false", "False", "FALSE",
    "on", "On", "ON", "off", "Off", "OFF"]

/-- The spellings of null. -/
def plainNulls : List String := ["~", "null", "Null", "NULL", ""]

/-- The marks of tokens that stand for nothing. -/
def strayMarks : List String := ["!", "&", "*"]

/-- Whether all characters are digits of a base or low lines. -/
def allDigits (base : Nat) (cs : List Char) : Bool :=
  cs.all fun c => c == '_' || (asciiDigit? base c).isSome

/-- Whether a text is not empty and all of its characters are digits of a base or low lines. -/
def isDigitRun (base : Nat) (cs : List Char) : Bool := !cs.isEmpty && allDigits base cs

/-- Whether a text is decimal digits and low lines, a digit first. -/
def isWhole (cs : List Char) : Bool :=
  (cs.head?.map Char.isDigit).getD false && allDigits 10 cs

/-- Whether a text is a whole number that starts with a digit other than zero. -/
def isPositive (cs : List Char) : Bool := isWhole cs && cs.head? != some '0'

/-- Whether a text is a sexagesimal digit after a colon: at most two digits, below sixty. -/
def isSixtieth : List Char → Bool
  | [c] => c.isDigit
  | [c, d] => '0' ≤ c && c ≤ '5' && d.isDigit
  | _ => false

/-- Cut a text at colons. -/
def colonParts (cs : List Char) : List (List Char) := Text.pieces ':' cs

/-- Whether a text is a number with sexagesimal digits after it. -/
def isSexagesimal (isFirst : List Char → Bool) (cs : List Char) : Bool :=
  match colonParts cs with
  | first :: second :: others => isFirst first && (second :: others).all isSixtieth
  | _ => false

/-- Whether a text without its sign is an integer. -/
def isInteger : List Char → Bool
  | ['0'] => true
  | '0' :: 'b' :: digits => isDigitRun 2 digits
  | '0' :: 'x' :: digits => isDigitRun 16 digits
  | '0' :: digits => isDigitRun 8 digits
  | cs => isPositive cs || isSexagesimal isPositive cs

/-- Whether a text is an exponent with its sign, from its letter on, or nothing. -/
def isExponent : List Char → Bool
  | [] => true
  | e :: sign :: digits =>
    (e == 'e' || e == 'E') && (sign == '-' || sign == '+') && !digits.isEmpty
      && digits.all Char.isDigit
  | _ => false

/-- Whether a text without its sign is a fractional number. Without a digit before its point it may
not have had a sign. -/
def isFraction (hadSign : Bool) (cs : List Char) : Bool :=
  match cs.span (· != '.') with
  | (whole, '.' :: rest) =>
    let (fraction, tail) := rest.span fun c => c == '_' || c.isDigit
    if whole.isEmpty then
      ["inf", "Inf", "INF"].contains (String.ofList rest)
        || (!hadSign && (["nan", "NaN", "NAN"].contains (String.ofList rest)
          || (isWhole fraction && isExponent tail)))
    else (isWhole whole && isExponent tail)
      || (isSexagesimal isWhole whole && tail.isEmpty)
  | _ => false

/-- What a plain scalar stands for. A line break at its end, which only a quoted one can have, makes
no difference. -/
def Tag.ofPlain (text : String) : Tag :=
  let cs := text.toList
  let cs := if cs.length > 1 && cs.getLast? == some '\n' then cs.dropLast else cs
  let body := String.ofList cs
  let (_, digits) := splitSign cs
  if plainTruths.contains body then .truth
  else if isFraction (digits.length < cs.length) digits then .fraction
  else if isInteger digits then .integer
  else if body == "<<" then .mergeMark
  else if plainNulls.contains body then .null
  else if ((Timestamp.ofText? cs).map Timestamp.isPlain).getD false then .moment
  else if body == "=" then .equalsMark
  else if strayMarks.contains body then .unknown
  else .text

end Arborist.Yaml

import Arborist.Calendar
import Arborist.Numeral.Integer

/-!
# Why a text is not loaded

Nearly every fault of a text is that it is not YAML, or not of the part of YAML that stands for
plain data. The other faults are found where a scalar is turned into a value: it claims to be a
number, a truth value or a moment and is none. Two outcomes are no faults of the text. A text or a
collection can hold itself, and what is to be gone through to its end then has none; and an escape
can name half of a surrogate pair, which is a code point but no character.
-/

namespace Arborist.Yaml

open Numeral Text

/-- Why a text is not loaded. -/
inductive LoadFault where
  /-- It is not YAML, or not of the part that stands for plain data. -/
  | malformed
  /-- An escape names a code point past the last one. -/
  | noSuchCharacter (codePoint : Nat)
  | integer (fault : IntegerFault)
  /-- A scalar is no fractional number. -/
  | fraction (text : String)
  /-- A sexagesimal place is worth more than the greatest fractional number. -/
  | placeTooHigh
  /-- A number has no characters. -/
  | emptyNumber
  /-- A scalar, in lower case, is no word for a truth value. -/
  | truth (text : String)
  | calendar (fault : CalendarFault)
  /-- A scalar is not written like a moment. -/
  | moment
  /-- A mapping is to be a moment. -/
  | momentOfMapping
  /-- A text or a collection holds itself. -/
  | endless
  /-- An escape names half of a surrogate pair. -/
  | surrogate (codePoint : Nat)
  deriving DecidableEq, Repr

namespace LoadFault

/-- Code points from here on do not even fit into a signed word of 32 bits. -/
def widestCodePoint : Nat := 0x80000000

/-- The wording of a fault. A text that is not YAML is reported by that alone, and so is one that
would not be made of characters. -/
def message : LoadFault → String
  | .malformed => ""
  | .noSuchCharacter codePoint =>
    if codePoint < widestCodePoint then "chr() arg not in range(0x110000)"
    else "Python int too large to convert to C int"
  | .integer fault => fault.message
  | .fraction text => "could not convert string to float: " ++ quoted text
  | .placeTooHigh => "int too large to convert to float"
  | .emptyNumber => "string index out of range"
  | .truth text => quoted text
  | .calendar fault => fault.message
  | .moment => "'NoneType' object has no attribute 'groupdict'"
  | .momentOfMapping => "expected string or bytes-like object, got 'list'"
  | .endless => "maximum recursion depth exceeded"
  | .surrogate _ => ""

end LoadFault

/-- A result, unless the text is malformed. -/
def orMalformed {α : Type} : Option α → Except LoadFault α
  | some result => .ok result
  | none => .error .malformed

end Arborist.Yaml

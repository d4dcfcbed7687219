import Arborist.Text.Quoted

/-!
# Flaws of patterns

What is wrong with a text that is no pattern, and where. The place counts characters from the
start of the pattern without its surrounding blanks. A flaw inside the argument of `:has` or
`:not` is reported against that argument.
-/

namespace Arborist

open Text

/-- What is wrong with a pattern. -/
inductive Flaw.Cause where
  /-- There is nothing but blanks. -/
  | emptyPattern
  /-- A character that continues nothing. -/
  | unexpected (found : Char)
  /-- No kind, attribute or pseudo-selector where one has to start. -/
  | expectedSelector (found : Option Char)
  | expectedAttributeName
  | expectedAttributeValue
  | expectedPseudoName
  /-- Another character, or none, where one is required. -/
  | expected (wanted : Char) (found : Option Char)
  /-- `:has` or `:not` with nothing to look for. -/
  | emptyArgument (name : String)
  deriving DecidableEq, Repr

/-- A cause, the pattern it is about and the place in it. -/
structure Flaw where
  cause : Flaw.Cause
  pattern : String
  position : Nat
  deriving DecidableEq, Repr

namespace Flaw

/-- A character as messages show it. -/
def shownChar (c : Char) : String := quoted (String.singleton c)

/-- What was found at a place. -/
def shownFinding : Option Char → String
  | none => "end of pattern"
  | some c => shownChar c

/-- The wording of a cause. -/
def Cause.wording : Cause → String
  | .emptyPattern => "Empty pattern"
  | .unexpected found => "Unexpected " ++ shownChar found
  | .expectedSelector found => "Expected selector but got " ++ shownFinding found
  | .expectedAttributeName => "Expected attribute name"
  | .expectedAttributeValue => "Expected attribute value"
  | .expectedPseudoName => "Expected pseudo-selector name"
  | .expected wanted found => "Expected " ++ shownChar wanted ++ " but got " ++ shownFinding found
  | .emptyArgument name => "Empty argument to :" ++ name ++ "()"

/-- The message of a flaw. -/
def message (flaw : Flaw) : String :=
  flaw.cause.wording ++ " at position " ++ toString flaw.position ++ " in pattern "
    ++ quoted flaw.pattern

end Flaw

end Arborist

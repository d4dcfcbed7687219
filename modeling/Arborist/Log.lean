import Arborist.Text.Quoted
import Arborist.Text.Case

/-!
# Log records

Operations report what they do as records. A record has a level, the part of the library that
emitted it and a message. Which records are kept is decided by a threshold when they are emitted.

The threshold is a number, so that any integer can be asked for; the levels have names. Zero asks
for no threshold of one's own, and then the one for warnings holds.
-/

namespace Arborist

open Text

/-- How much a record matters. -/
inductive Level where
  | debug
  | info
  | warning
  deriving DecidableEq, Repr

/-- The number that a level is compared by. -/
def Level.severity : Level → Int
  | .debug => 10
  | .info => 20
  | .warning => 30

/-- The part of the library that emits a record. -/
inductive Channel where
  | command
  | selector
  | grammar
  | document
  | edits
  deriving DecidableEq, Repr

/-- One report of the log. -/
structure Record where
  level : Level
  channel : Channel
  message : String
  deriving DecidableEq, Repr

/-- A threshold for records. -/
structure Threshold where
  number : Int := 30
  deriving DecidableEq, Repr

namespace Threshold

/-- Whether a record of a level is kept. -/
def admits (threshold : Threshold) (level : Level) : Bool :=
  (if threshold.number == 0 then 30 else threshold.number) ≤ level.severity

/-- The numbers of the level names, which are written in upper case. -/
def numbers : List (String × Int) :=
  [("CRITICAL", 50), ("FATAL", 50), ("ERROR", 40), ("WARN", 30), ("WARNING", 30), ("INFO", 20),
    ("DEBUG", 10), ("NOTSET", 0)]

/-- The threshold of a level name in any case, or the upper-cased name if no level is called so. -/
def named (name : String) : Except String Threshold :=
  match numbers.lookup (upperCase name) with
  | some number => .ok ⟨number⟩
  | none => .error (upperCase name)

/-- What is said of a name that no level has. -/
def unknownMessage (upperName : String) : String :=
  "Unknown level: " ++ quoted ("Level " ++ upperName)

end Threshold

end Arborist

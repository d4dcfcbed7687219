import Arborist.Text.Quoted

/-!
# Edits

An edit replaces a range of bytes of a source by a text. Its offsets are kept as they were asked
for, valid or not; they are checked when the edits are rendered.
-/

namespace Arborist

open Text

/-- Replace the bytes from `start` up to `stop` by a text. -/
structure Edit where
  start : Int
  stop : Int
  text : String
  deriving DecidableEq, Repr

namespace Edit

/-- How many bytes are replaced. -/
def length (edit : Edit) : Int := edit.stop - edit.start

/-- An edit that replaces nothing. -/
def isInsertion (edit : Edit) : Bool := edit.start == edit.stop

/-- The range of an edit. -/
def shownRange (edit : Edit) : String :=
  "[" ++ toString edit.start ++ "-" ++ toString edit.stop ++ "]"

/-- An edit in one line. -/
def shown (edit : Edit) : String := edit.shownRange ++ " -> " ++ quoted edit.text

/-- By start, then by end: the order in which edits take effect along a source. -/
def notAfter (a b : Edit) : Bool := a.start < b.start || (a.start == b.start && a.stop ≤ b.stop)

end Edit

end Arborist

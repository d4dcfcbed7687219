import Arborist.Proofs.Text.LineEnds

/-!
# Reading and applying differences

The other side of a printed difference: its text is cut after the line feeds, read as a header with
two names and hunks behind it (`readPatch`), and the hunks are applied to the lines of a text, each
at the place that it names (`applyHunks`). All that a hunk says is checked: how many lines it has of
each kind, where it stands in either text, and that the old text has the lines that it keeps or
removes.
-/

namespace Arborist.Diff

open Text

/-! ## Hunks -/

/-- The sign of a line of a hunk: what it is there for. -/
inductive Sign where
  | kept
  | removed
  | added
  deriving DecidableEq, Repr

namespace Sign

/-- Whether lines with this sign are lines of the old text. -/
def inOld : Sign → Bool
  | .added => false
  | _ => true

/-- Whether lines with this sign are lines of the new text. -/
def inNew : Sign → Bool
  | .removed => false
  | _ => true

end Sign

/-- A range of lines: how many lines are before it, and how many it has. -/
structure Range where
  start : Nat
  length : Nat
  deriving DecidableEq, Repr

/-- A hunk: the ranges that it covers, and its lines. -/
structure Hunk where
  old : Range
  new : Range
  lines : List (Sign × String)
  deriving DecidableEq, Repr

/-- How many of some lines are lines of the old text, and how many of the new one. -/
def tally (lines : List (Sign × String)) : Nat × Nat :=
  (lines.countP (·.1.inOld), lines.countP (·.1.inNew))

/-- A hunk has as many lines of either text as it says. -/
def Hunk.IsCounted (hunk : Hunk) : Prop := tally hunk.lines = (hunk.old.length, hunk.new.length)

instance (hunk : Hunk) : Decidable hunk.IsCounted := inferInstanceAs (Decidable (_ = _))

/-! ## Reading -/

/-- Read a number. -/
def readNumber (cs : List Char) : Option (Nat × List Char) :=
  let digits := cs.takeWhile Char.isDigit
  if digits.isEmpty then none else some (Nat.ofDigitChars 10 digits 0, cs.drop digits.length)

/-- Read a range: its first line and its length, which may be left out if it is one. An empty range
is named by the line before it. -/
def readRange (cs : List Char) : Option (Range × List Char) := do
  let (first, rest) ← readNumber cs
  match rest with
  | ',' :: rest =>
    let (length, rest) ← readNumber rest
    return (⟨if length = 0 then first else first - 1, length⟩, rest)
  | _ => return (⟨first - 1, 1⟩, rest)

/-- Read past given characters. -/
def readPast (expected cs : List Char) : Option (List Char) :=
  if expected.isPrefixOf cs then some (cs.drop expected.length) else none

/-- Read the line that opens a hunk. -/
def readHeader (line : String) : Option (Range × Range) := do
  let rest ← readPast ['@', '@', ' ', '-'] line.toList
  let (old, rest) ← readRange rest
  let rest ← readPast [' ', '+'] rest
  let (new, rest) ← readRange rest
  if rest = [' ', '@', '@', '\n'] then some (old, new) else none

/-- Read a line inside a hunk. -/
def readLine (line : String) : Option (Sign × String) :=
  match line.toList with
  | ' ' :: cs => some (.kept, String.ofList cs)
  | '-' :: cs => some (.removed, String.ofList cs)
  | '+' :: cs => some (.added, String.ofList cs)
  | _ => none

/-- Read hunks. The lines before the first of them come first. -/
def readHunks : List String → Option (List (Sign × String) × List Hunk)
  | [] => some ([], [])
  | line :: lines => do
    let (body, hunks) ← readHunks lines
    match readLine line with
    | some shown => return (shown :: body, hunks)
    | none =>
      let (old, new) ← readHeader line
      let hunk : Hunk := ⟨old, new, body⟩
      if hunk.IsCounted then return ([], hunk :: hunks) else none

/-- Read a difference, line by line: two names, and hunks with nothing before them. -/
def readPatch : List String → Option (List Hunk)
  | oldName :: newName :: lines => do
    let _ ← readPast ['-', '-', '-', ' '] oldName.toList
    let _ ← readPast ['+', '+', '+', ' '] newName.toList
    let (body, hunks) ← readHunks lines
    if body.isEmpty then return hunks else none
  | _ => none

/-! ## Applying -/

/-- Apply the lines of a hunk to the lines from its place on. The result is what the hunk makes of
them, and the lines behind it. -/
def applyLines : List (Sign × String) → List String → Option (List String × List String)
  | [], old => some ([], old)
  | (.added, line) :: lines, old => (applyLines lines old).map fun made => (line :: made.1, made.2)
  | (.kept, line) :: lines, first :: old =>
    if line = first then (applyLines lines old).map fun made => (line :: made.1, made.2) else none
  | (.removed, line) :: lines, first :: old => if line = first then applyLines lines old else none
  | _, [] => none

/-- Apply hunks to the lines from a place on, given how many lines are before it in either text. -/
def applyHunks (oldStart newStart : Nat) : List Hunk → List String → Option (List String)
  | [], old => some old
  | hunk :: hunks, old =>
    let skipped := hunk.old.start - oldStart
    if oldStart ≤ hunk.old.start ∧ hunk.new.start = newStart + skipped ∧ skipped ≤ old.length
    then do
      let (made, rest) ← applyLines hunk.lines (old.drop skipped)
      let behind ← applyHunks (hunk.old.start + hunk.old.length) (hunk.new.start + hunk.new.length)
        hunks rest
      return old.take skipped ++ made ++ behind
    else none

/-- The lines that a difference makes of the lines of a text. -/
def patchLines (diff source : List String) : Option (List String) := do
  applyHunks 0 0 (← readPatch diff) source

/-- What a difference makes of a text. -/
def patch (diff source : String) : Option String :=
  (patchLines (feedLines diff) (feedLines source)).map String.join

end Arborist.Diff

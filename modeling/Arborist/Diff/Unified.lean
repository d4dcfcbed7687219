import Arborist.Diff.Blocks

/-!
# Unified differences

The difference of two texts as a list of changes with three lines of context, in the usual format:
a header with both names, and hunks with the line ranges they cover. Lines are shown with their
ends, so a last line without one is followed directly by the next line of the difference.
-/

namespace Arborist.Diff

/-- What becomes of a range of lines. -/
inductive ChangeKind where
  | equal
  | replace
  | delete
  | insert
  deriving DecidableEq, Repr

/-- A range of lines of the old text and what stands for it in the new one. -/
structure Change where
  kind : ChangeKind
  oldStart : Nat
  oldStop : Nat
  newStart : Nat
  newStop : Nat
  deriving DecidableEq, Repr

/-- How many lines of context are shown. -/
def context : Nat := 3

/-- The change between two common blocks, if there is one. -/
def gap (oldStart oldStop newStart newStop : Nat) : List Change :=
  if oldStart < oldStop && newStart < newStop then
    [⟨.replace, oldStart, oldStop, newStart, newStop⟩]
  else if oldStart < oldStop then [⟨.delete, oldStart, oldStop, newStart, newStop⟩]
  else if newStart < newStop then [⟨.insert, oldStart, oldStop, newStart, newStop⟩]
  else []

/-- The changes from a place in both texts on, given the common blocks and the lengths. -/
def changesFrom (oldLength newLength old new : Nat) : List Block → List Change
  | [] => gap old oldLength new newLength
  | block :: rest =>
    let oldStop := block.old + block.size
    let newStop := block.new + block.size
    gap old block.old new block.new
      ++ ⟨.equal, block.old, oldStop, block.new, newStop⟩
      :: changesFrom oldLength newLength oldStop newStop rest

/-- The changes that make a text from another, unchanged ranges included. -/
def changes (old new : List String) : List Change :=
  changesFrom old.length new.length 0 0 (commonBlocks old new)

/-- Shorten an unchanged range to the context before what follows it. -/
def trimLead (change : Change) : Change :=
  if change.kind == .equal then
    { change with
      oldStart := max change.oldStart (change.oldStop - context)
      newStart := max change.newStart (change.newStop - context) }
  else change

/-- Shorten an unchanged range to the context after what comes before it. -/
def trimTrail (change : Change) : Change :=
  if change.kind == .equal then
    { change with
      oldStop := min change.oldStop (change.oldStart + context)
      newStop := min change.newStop (change.newStart + context) }
  else change

/-- Apply a function to the last element. -/
def mapLast {α : Type} (f : α → α) : List α → List α
  | [] => []
  | [x] => [f x]
  | x :: rest => x :: mapLast f rest

/-- Apply a function to the first element. -/
def mapFirst {α : Type} (f : α → α) : List α → List α
  | [] => []
  | x :: rest => f x :: rest

/-- Cut changes into hunks wherever more lines are unchanged than the context on both sides;
`hunk` is the hunk being made, last change first. -/
def hunksFrom (hunk : List Change) : List Change → List (List Change)
  | [] =>
    match hunk with
    | [] => []
    | [only] => if only.kind == .equal then [] else [[only]]
    | _ => [hunk.reverse]
  | change :: rest =>
    if change.kind == .equal && change.oldStop - change.oldStart > 2 * context then
      (trimTrail change :: hunk).reverse :: hunksFrom [trimLead change] rest
    else hunksFrom (change :: hunk) rest

/-- The hunks of a difference. -/
def hunks (old new : List String) : List (List Change) :=
  hunksFrom [] (mapLast trimTrail (mapFirst trimLead (changes old new)))

/-- A range of lines: its first line, counted from one, and its length unless that is one. An empty
range is named by the line before it. -/
def shownRange (start stop : Nat) : String :=
  let length := stop - start
  if length == 1 then toString (start + 1)
  else toString (if length == 0 then start else start + 1) ++ "," ++ toString length

/-- The lines of a range. -/
def linesOf (text : List String) (start stop : Nat) : List String := (text.take stop).drop start

/-- The lines of one change. -/
def changeLines (old new : List String) (change : Change) : List String :=
  let removed := (linesOf old change.oldStart change.oldStop).map ("-" ++ ·)
  let added := (linesOf new change.newStart change.newStop).map ("+" ++ ·)
  match change.kind with
  | .equal => (linesOf old change.oldStart change.oldStop).map (" " ++ ·)
  | .replace => removed ++ added
  | .delete => removed
  | .insert => added

/-- A hunk with its header. -/
def hunkLines (old new : List String) (hunk : List Change) : List String :=
  match hunk.head?, hunk.getLast? with
  | some first, some last =>
    ("@@ -" ++ shownRange first.oldStart last.oldStop ++ " +"
        ++ shownRange first.newStart last.newStop ++ " @@\n")
      :: hunk.flatMap (changeLines old new)
  | _, _ => []

/-- The difference of two texts under names; equal texts have none. -/
def unified (oldName newName : String) (old new : List String) : String :=
  match hunks old new with
  | [] => ""
  | all =>
    let header := ["--- " ++ oldName ++ "\n", "+++ " ++ newName ++ "\n"]
    String.join (header ++ all.flatMap (hunkLines old new))

end Arborist.Diff

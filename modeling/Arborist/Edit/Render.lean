import Arborist.Edit.Basic
import Arborist.Text.Bytes

/-!
# Rendering edits

`render` applies a queue of edits to a source in one go. All offsets mean the source before any
edit. The queue is checked first: every edit in bounds and between characters, in the order of the
queue; then no two edits overlapping. Edits are applied from the end of the source backwards, so
that offsets stay valid; edits of one range apply in the order of the queue.
-/

namespace Arborist

open Text

/-- Why a queue of edits cannot be rendered. -/
inductive Conflict where
  /-- An edit reaches outside the source or is inverted. -/
  | outOfBounds (edit : Edit) (size : Nat)
  /-- An end of an edit lies inside a character. -/
  | splitsCharacter (edit : Edit) (offset : Int)
  /-- Two edits share bytes, or one inserts inside the other. -/
  | overlap (first second : Edit)
  /-- The result is not UTF-8. Edits between characters never bring this about. -/
  | garbled
  deriving DecidableEq, Repr

namespace Conflict

/-- The wording of a conflict. -/
def message : Conflict → String
  | .outOfBounds edit size =>
    "Edit out of bounds: " ++ edit.shown ++ " in source of length " ++ toString size
  | .splitsCharacter edit offset =>
    "Edit " ++ edit.shown ++ " splits a UTF-8 character at byte " ++ toString offset
  | .overlap first second =>
    "Overlapping edits detected: " ++ first.shownRange ++ " overlaps with " ++ second.shownRange
  | .garbled => ""

/-- The edits that a conflict is about. -/
def edits : Conflict → List Edit
  | .outOfBounds edit _ => [edit]
  | .splitsCharacter edit _ => [edit]
  | .overlap first second => [first, second]
  | .garbled => []

end Conflict

namespace Edit

/-- Whether an offset lies inside a character of the source. -/
def insideCharacter (source : Bytes) (offset : Int) : Bool :=
  ((source[offset.toNat]?).map isContinuation).getD false

/-- What is wrong with a single edit. -/
def flaw? (source : Bytes) (edit : Edit) : Option Conflict :=
  if edit.start < 0 || edit.stop > source.length || edit.start > edit.stop then
    some (.outOfBounds edit source.length)
  else if insideCharacter source edit.start then some (.splitsCharacter edit edit.start)
  else if insideCharacter source edit.stop then some (.splitsCharacter edit edit.stop)
  else none

/-- The edits in the order in which they take effect; edits of one range keep their order. -/
def sorted (edits : List Edit) : List Edit := edits.mergeSort notAfter

/-- The first two neighbours that overlap. -/
def firstOverlap : List Edit → Option (Edit × Edit)
  | first :: second :: rest =>
    if first.stop > second.start then some (first, second) else firstOverlap (second :: rest)
  | _ => none

/-- Check a queue of edits. -/
def check (source : Bytes) (edits : List Edit) : Except Conflict Unit :=
  match edits.findSome? (flaw? source) with
  | some conflict => .error conflict
  | none =>
    match firstOverlap (sorted edits) with
    | some (first, second) => .error (.overlap first second)
    | none => .ok ()

/-- Apply one edit. -/
def apply (source : Bytes) (edit : Edit) : Bytes :=
  source.take edit.start.toNat ++ encode edit.text ++ source.drop edit.stop.toNat

/-- Apply edits from the end of the source backwards. -/
def applyAll (source : Bytes) (edits : List Edit) : Bytes :=
  (sorted edits).foldr (fun edit result => apply result edit) source

/-- The source with all edits made. -/
def render (source : Bytes) (edits : List Edit) : Except Conflict String := do
  check source edits
  match decode? (applyAll source edits) with
  | some text => return text
  | none => throw .garbled

end Edit

end Arborist

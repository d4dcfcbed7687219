import Arborist.Tree.Basic

/-!
# Rows and columns

A place is a row and a column, both counted from zero, the column in bytes. Places are ordered
row first. People are shown places counted from one (`shown`).

`Node.deepestAt` finds the deepest node around a place.
-/

namespace Arborist

open Text

/-- A row of a source and a byte in it, both counted from zero. -/
structure Place where
  row : Int
  column : Int
  deriving DecidableEq, Repr

namespace Place

/-- The place of a byte offset. -/
def ofOffset (source : Bytes) (offset : Nat) : Place :=
  ⟨rowOf source offset, (offset : Int) - lineStart source offset⟩

/-- Row first, then column. -/
def before (a b : Place) : Bool := a.row < b.row || (a.row == b.row && a.column < b.column)

/-- Not after. -/
def upTo (a b : Place) : Bool := !b.before a

/-- A place as people write it, counted from one. -/
def shown (place : Place) : String := toString (place.row + 1) ++ ":" ++ toString (place.column + 1)

end Place

namespace Node

/-- Where a node starts. -/
def startPlace (source : Bytes) (node : Node) : Place := Place.ofOffset source node.start

/-- Where a node ends. -/
def stopPlace (source : Bytes) (node : Node) : Place := Place.ofOffset source node.stop

/-- The line a node starts on, counted from one. -/
def line (source : Bytes) (node : Node) : Int := (node.startPlace source).row + 1

/-- The line a node ends on, counted from one. -/
def endLine (source : Bytes) (node : Node) : Int := (node.stopPlace source).row + 1

/-- The column a node starts at, counted from one. -/
def column (source : Bytes) (node : Node) : Int := (node.startPlace source).column + 1

/-- The column a node ends at, counted from one. -/
def endColumn (source : Bytes) (node : Node) : Int := (node.stopPlace source).column + 1

/-- A node by its kind and its extent. -/
def describe (source : Bytes) (node : Node) : String :=
  "<Node " ++ node.kind ++ " " ++ (node.startPlace source).shown ++ "-"
    ++ (node.stopPlace source).shown ++ ">"

/-- Whether a tree is around a place, its end excluded. -/
def surrounds (source : Bytes) (place : Place) : Tree → Bool
  | .absent => false
  | .node _ mark _ =>
    (Place.ofOffset source mark.start).upTo place && place.before (Place.ofOffset source mark.stop)

mutual

/-- The deepest node around a place, in the tree of a node that is around it. -/
def deepestIn (source : Bytes) (place : Place) (above : List (Nat × Element)) :
    Tree → Except Fault (Option Node)
  | .absent => .error .absent
  | .node none _ _ => .error .untyped
  | .node (some kind) mark below =>
    let here : Node := ⟨⟨kind, mark, below⟩, above⟩
    match Tree.firstFault below with
    | some fault => .error fault
    | none => do
      match ← deepestAmong source place here 0 below with
      | some deeper => return some deeper
      | none => return some here

/-- The deepest node around a place, below the first child that is around it. -/
def deepestAmong (source : Bytes) (place : Place) (parent : Node) (position : Nat) :
    List Tree → Except Fault (Option Node)
  | [] => .ok none
  | tree :: rest =>
    if surrounds source place tree then
      deepestIn source place ((position, parent.toElement) :: parent.above) tree
    else deepestAmong source place parent (position + 1) rest

end

/-- The deepest node around a place. The starting node counts up to and including its end, the
nodes below it only up to their end. -/
def deepestAt (source : Bytes) (node : Node) (place : Place) : Except Fault (Option Node) :=
  if (node.startPlace source).upTo place && place.upTo (node.stopPlace source) then
    deepestIn source place node.above (.node (some node.kind) node.mark node.below)
  else .ok none

end Node

end Arborist

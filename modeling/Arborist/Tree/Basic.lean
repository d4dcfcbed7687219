import Arborist.Text.Bytes

/-!
# Syntax trees and the nodes in them

A `Tree` is what a parser hands over, and a parser may hand over less than a tree: a child can be
absent and a node can lack its kind. A `Node` is a place in a tree that can be worked with: its
`Element` has a kind, and it knows the elements above it up to the root. A node is told from
another by its `path`, the positions among siblings from the root down, so that two nodes of the
same kind and extent stay apart.

Trees are read through nodes. Reading the children of a node makes nodes of all of them at once,
so one bad child is a `Fault` of the whole reading, the leftmost bad child deciding which.

Offsets, flags and field names are taken as given and never derived.
-/

namespace Arborist

open Text

/-- What a parser says of a node besides its kind and its children. -/
structure Mark where
  /-- Offset of the first byte. -/
  start : Nat
  /-- Offset after the last byte. -/
  stop : Nat
  /-- Named in the grammar, as opposed to punctuation and keywords. -/
  named : Bool
  /-- Made up by the parser to recover from an error. -/
  missing : Bool
  /-- Said to hold a syntax error somewhere. -/
  flawed : Bool
  /-- The name of the place that the node fills in its parent. -/
  field : Option String
  deriving DecidableEq, Repr

/-- The mark of a named node that fills no place and has no error. -/
def Mark.extent (start stop : Nat) : Mark := ⟨start, stop, true, false, false, none⟩

/-- A syntax tree as handed over by a parser. -/
inductive Tree where
  /-- No node where one should be. -/
  | absent
  /-- A node with its children; its kind may be lacking. -/
  | node (kind : Option String) (mark : Mark) (below : List Tree)
  deriving Repr

/-- Why a tree or its source cannot be read. -/
inductive Fault where
  /-- A node is absent. -/
  | absent
  /-- A node has no kind. -/
  | untyped
  /-- The extent of a node cuts a character of the source. -/
  | cut
  deriving DecidableEq, Repr

/-- Ways to fail that the faults of trees are among. What is called while a tree is gone through may
fail in ways of its own. -/
class Raises (ε : Type) where
  /-- A fault of the tree as one of these ways. -/
  ofFault : Fault → ε

instance : Raises Fault := ⟨id⟩

/-- A node of a tree that has a kind, without its surroundings. -/
structure Element where
  kind : String
  mark : Mark
  below : List Tree
  deriving Repr

/-- A place in a tree: an element and, nearest first, the elements above it, each with the position
at which the way down leaves it. -/
structure Node extends Element where
  above : List (Nat × Element)
  deriving Repr

/-- The element at the top of a tree. -/
def Tree.element : Tree → Except Fault Element
  | .absent => .error .absent
  | .node none _ _ => .error .untyped
  | .node (some kind) mark below => .ok ⟨kind, mark, below⟩

/-- The fault of the first tree of a list that has no element at its top. -/
def Tree.firstFault : List Tree → Option Fault
  | [] => none
  | tree :: rest =>
    match tree.element with
    | .error fault => some fault
    | .ok _ => firstFault rest

/-- Whether a tree fills the place of a name in its parent. -/
def Tree.fills (name : String) : Tree → Bool
  | .absent => false
  | .node _ mark _ => mark.field == some name

/-- A tree seen from its root. -/
def Tree.root (tree : Tree) : Except Fault Node := do
  return { toElement := ← tree.element, above := [] }

namespace Node

/-- Offset of the first byte of a node. -/
def start (node : Node) : Nat := node.mark.start

/-- Offset after the last byte of a node. -/
def stop (node : Node) : Nat := node.mark.stop

/-- The positions among siblings on the way from the root to a node. -/
def path (node : Node) : List Nat := (node.above.map Prod.fst).reverse

/-- Whether two nodes of one tree are the same node. -/
def same (a b : Node) : Bool := a.above.map Prod.fst == b.above.map Prod.fst

/-- The element one step down, as a node. -/
def child (node : Node) (position : Nat) (element : Element) : Node :=
  { toElement := element, above := (position, node.toElement) :: node.above }

/-- The children of a node, or the fault of the first bad one. -/
def children (node : Node) : Except Fault (List Node) := do
  let elements ← node.below.mapM Tree.element
  return elements.mapIdx node.child

/-- The children that are named in the grammar. -/
def namedChildren (node : Node) : Except Fault (List Node) := do
  return (← node.children).filter (·.mark.named)

/-- The child that fills a place: the first one marked with its name. The children are read only
if there is one. -/
def field (node : Node) (name : String) : Except Fault (Option Node) :=
  match node.below.findIdx? (Tree.fills name) with
  | none => .ok none
  | some position => do return (← node.children)[position]?

/-- The node directly above. -/
def parent (node : Node) : Option Node :=
  match node.above with
  | [] => none
  | (_, element) :: above => some { toElement := element, above := above }

/-- The nodes above, given the elements above. -/
def nodesAbove : List (Nat × Element) → List Node
  | [] => []
  | (_, element) :: above => { toElement := element, above := above } :: nodesAbove above

/-- The nodes above a node, nearest first. -/
def ancestors (node : Node) : List Node := nodesAbove node.above

/-- The nodes from the root down to a node, itself included. -/
def lineage (node : Node) : List Node := node.ancestors.reverse ++ [node]

/-- The nearest node above whose kind is among the given ones. -/
def ancestorOfKind (kinds : List String) (node : Node) : Option Node :=
  node.ancestors.find? fun ancestor => kinds.contains ancestor.kind

/-- The other children of the parent. -/
def siblings (node : Node) : Except Fault (List Node) :=
  match node.parent with
  | none => .ok []
  | some parent => do return (← parent.children).filter (!·.same node)

/-- The text of a node, cut from the source of its tree. -/
def text (source : Bytes) (node : Node) : Except Fault String :=
  match decode? (slice source node.start node.stop) with
  | some text => .ok text
  | none => .error .cut

/-- The text of the child that fills a place. -/
def fieldText (source : Bytes) (node : Node) (name : String) : Except Fault (Option String) := do
  match ← node.field name with
  | none => return none
  | some child => return some (← child.text source)

/-- The name that a node declares. -/
def name (source : Bytes) (node : Node) : Except Fault (Option String) :=
  node.fieldText source "name"

end Node

/-- A wording of a fault. A character that is cut has none: it is reported by its kind alone. -/
def Fault.message : Fault → String
  | .absent => "Node wrapper received no syntax node (tree-sitter binding returned None)"
  | .untyped => "Node wrapper received an invalid syntax node without a type"
  | .cut => ""

end Arborist

import Arborist.Tree.Basic

/-!
# Walks

A walk visits a subtree parents first, children left to right, and stops at the first node whose
children cannot be read. It is kept as the nodes met and the fault that stopped it, if any: a
search that finds what it wants early never learns of the fault, a search that needs them all
fails with it.

* `Node.walk`: the walk over a node and everything below it.
* `Walk.findFirst`, `Walk.findAll`: search with a test that may itself fail.
-/

namespace Arborist

/-- Nodes met in order, and the fault that cut the walk short. -/
structure Walk where
  nodes : List Node
  fault : Option Fault

namespace Walk

/-- A walk that goes on with another one unless it was cut short. -/
def followedBy (first second : Walk) : Walk :=
  match first.fault with
  | some fault => ⟨first.nodes, some fault⟩
  | none => ⟨first.nodes ++ second.nodes, second.fault⟩

section Search

-- The ways in which a test may fail.
variable {ε : Type}

/-- A result that stands only if the walk was not cut short. -/
def unlessCut [Raises ε] {α : Type} (walk : Walk) (result : α) : Except ε α :=
  match walk.fault with
  | some fault => .error (Raises.ofFault fault)
  | none => .ok result

/-- The first node of a list that passes a test, and how the tests before it went. -/
def firstPassing (test : Node → Except ε Bool) : List Node → Except ε (Option Node)
  | [] => .ok none
  | node :: rest => do
    if ← test node then return some node else firstPassing test rest

/-- The nodes of a list that pass a test. -/
def allPassing (test : Node → Except ε Bool) : List Node → Except ε (List Node)
  | [] => .ok []
  | node :: rest => do
    let passes ← test node
    let others ← allPassing test rest
    return if passes then node :: others else others

/-- The first node met that passes a test. -/
def findFirst [Raises ε] (walk : Walk) (test : Node → Except ε Bool) :
    Except ε (Option Node) := do
  match ← firstPassing test walk.nodes with
  | some node => return some node
  | none => walk.unlessCut none

/-- Every node met that passes a test. -/
def findAll [Raises ε] (walk : Walk) (test : Node → Except ε Bool) : Except ε (List Node) := do
  walk.unlessCut (← allPassing test walk.nodes)

end Search

/-- A walk without the node it starts from. -/
def below (walk : Walk) : Walk := ⟨walk.nodes.tail, walk.fault⟩

end Walk

mutual

/-- The walk over a tree whose surroundings are given. -/
def Tree.walk (above : List (Nat × Element)) : Tree → Walk
  | .absent => ⟨[], some .absent⟩
  | .node none _ _ => ⟨[], some .untyped⟩
  | .node (some kind) mark below =>
    let here : Node := ⟨⟨kind, mark, below⟩, above⟩
    match Tree.firstFault below with
    | some fault => ⟨[here], some fault⟩
    | none => Walk.followedBy ⟨[here], none⟩ (Tree.walkList here 0 below)

/-- The walks over the children of a node, one after the other. -/
def Tree.walkList (parent : Node) (position : Nat) : List Tree → Walk
  | [] => ⟨[], none⟩
  | tree :: rest =>
    Walk.followedBy (tree.walk ((position, parent.toElement) :: parent.above))
      (Tree.walkList parent (position + 1) rest)

end

/-- The walk over a node and everything below it. -/
def Node.walk (node : Node) : Walk :=
  Tree.walk node.above (.node (some node.kind) node.mark node.below)

end Arborist

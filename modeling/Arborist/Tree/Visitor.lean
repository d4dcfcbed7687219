import Arborist.Tree.Basic

/-!
# Visitors

A visitor is told when a node is entered and when it is left, together with the node above it in
the visited subtree. Both callbacks are optional, carry a state along and may end the visit.

* `Node.visit` runs a visitor over a subtree.
* `Node.collect`, `Node.visitFirst` and `Node.wayTo` are visitors put to work.
-/

namespace Arborist

/-- Whether a visit goes on. -/
inductive Signal where
  | goOn
  | stop
  deriving DecidableEq, Repr

/-- What is called with a node and the node above it. It may fail, in the ways of `ε`. -/
abbrev Callback (σ : Type) (ε : Type := Fault) := Node → Option Node → σ → Except ε (σ × Signal)

/-- Callbacks for entering and for leaving a node. -/
structure Visitor (σ : Type) (ε : Type := Fault) where
  enter : Option (Callback σ ε) := none
  leave : Option (Callback σ ε) := none

namespace Visitor

variable {σ ε : Type}

/-- Call a callback that may not be there. -/
def call (callback : Option (Callback σ ε)) (node : Node) (parent : Option Node) (state : σ) :
    Except ε (σ × Signal) :=
  match callback with
  | none => .ok (state, .goOn)
  | some f => f node parent state

mutual

/-- Visit a tree whose surroundings are given. -/
def visitTree [Raises ε] (visitor : Visitor σ ε) (parent : Option Node)
    (above : List (Nat × Element)) : Tree → σ → Except ε (σ × Signal)
  | .absent, _ => .error (Raises.ofFault .absent)
  | .node none _ _, _ => .error (Raises.ofFault .untyped)
  | .node (some kind) mark below, state => do
    let here : Node := ⟨⟨kind, mark, below⟩, above⟩
    match ← call visitor.enter here parent state with
    | (state, .stop) => return (state, .stop)
    | (state, .goOn) =>
      match Tree.firstFault below with
      | some fault => .error (Raises.ofFault fault)
      | none =>
        match ← visitTrees visitor here 0 below state with
        | (state, .stop) => return (state, .stop)
        | (state, .goOn) => call visitor.leave here parent state

/-- Visit the children of a node, one after the other. -/
def visitTrees [Raises ε] (visitor : Visitor σ ε) (parent : Node) (position : Nat) :
    List Tree → σ → Except ε (σ × Signal)
  | [], state => .ok (state, .goOn)
  | tree :: rest, state => do
    match ← visitTree visitor (some parent) ((position, parent.toElement) :: parent.above) tree
        state with
    | (state, .stop) => return (state, .stop)
    | (state, .goOn) => visitTrees visitor parent (position + 1) rest state

end

end Visitor

namespace Node

variable {σ ε : Type} [Raises ε]

/-- Run a visitor over a node and everything below it; the node it starts from is shown without a
node above. The result is the last state. -/
def visit (node : Node) (visitor : Visitor σ ε) (state : σ) : Except ε σ := do
  let tree : Tree := .node (some node.kind) node.mark node.below
  return (← visitor.visitTree none node.above tree state).1

/-- Every node that passes a test, in the order entered. -/
def collect (node : Node) (test : Node → Except ε Bool) : Except ε (List Node) := do
  let enter : Callback (List Node) ε := fun here _ found => do
    return (if ← test here then here :: found else found, .goOn)
  return (← node.visit ⟨some enter, none⟩ []).reverse

/-- The first node entered that passes a test; the visit ends there. -/
def visitFirst (node : Node) (test : Node → Except ε Bool) : Except ε (Option Node) := do
  let enter : Callback (Option Node) ε := fun here _ found => do
    return if ← test here then (some here, .stop) else (found, .goOn)
  node.visit ⟨some enter, none⟩ none

/-- The nodes from this node down to a target, both included, or none if the target is not below.
The nodes entered and not yet left are kept, nearest first, until the target is entered. -/
def wayTo (node target : Node) : Except Fault (List Node) := do
  let enter : Callback (List Node × Bool) := fun here _ (trail, _) =>
    .ok <| if here.same target then ((here :: trail, true), .stop)
      else ((here :: trail, false), .goOn)
  let leave : Callback (List Node × Bool) := fun _ _ (trail, found) =>
    .ok ((trail.tail, found), .goOn)
  let (trail, found) ← node.visit ⟨some enter, some leave⟩ ([], false)
  return if found then trail.reverse else []

end Node

end Arborist

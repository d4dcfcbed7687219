import Arborist.Tree.Visitor
import Arborist.Proofs.Tree.Stack

/-!
# Visits that only enter nodes

A tree is gone through in two ways. A walk lists its nodes and ends where children cannot be read;
a visit goes down the tree and calls back, and the callback may end it. For a visitor that is told
only when nodes are entered the two come to the same. Its visit is a run over the walk: a step taken
at one node after the other until a step ends the run or fails, and at the end of the nodes the
fault that cut the walk short (`Visitor.visitTree_enter`).

So the searches made of visitors and those over walks agree (`Node.searches_agree`), on trees that
cannot be read to the end and for tests that fail as well.
-/

namespace Arborist

variable {σ ε : Type}

/-! ## Runs -/

namespace Visitor

/-- Go on from where a run stands, unless it has ended. -/
def goingOn (result : Except ε (σ × Signal)) (next : σ → Except ε (σ × Signal)) :
    Except ε (σ × Signal) := do
  match ← result with
  | (state, .stop) => return (state, .stop)
  | (state, .goOn) => next state

theorem goingOn_assoc (result : Except ε (σ × Signal)) (next last : σ → Except ε (σ × Signal)) :
    goingOn (goingOn result next) last = goingOn result fun state => goingOn (next state) last := by
  rcases result with _ | ⟨state, _ | _⟩ <;> rfl

theorem goingOn_ok (result : Except ε (σ × Signal)) :
    (goingOn result fun state => .ok (state, .goOn)) = result := by
  rcases result with _ | ⟨state, _ | _⟩ <;> rfl

section Run

variable {α : Type} (step : α → σ → Except ε (σ × Signal)) (state : σ)

/-- A step taken for one element after the other, until it ends the run. -/
def run : List α → σ → Except ε (σ × Signal)
  | [], state => .ok (state, .goOn)
  | first :: rest, state => goingOn (step first state) (run rest)

theorem run_append (first second : List α) :
    run step (first ++ second) state = goingOn (run step first state) (run step second) := by
  induction first generalizing state with
  | nil => rfl
  | cons element first ih =>
      rw [List.cons_append, run, run, goingOn_assoc]
      exact congrArg (goingOn (step element state)) (funext ih)

end Run

end Visitor

namespace Walk

open Visitor

section Run

variable (step : Node → σ → Except ε (σ × Signal)) (state : σ)

/-- A run over the nodes of a walk, which fails at their end if the walk was cut short. -/
def runThrough [Raises ε] (walk : Walk) : Except ε (σ × Signal) :=
  goingOn (run step walk.nodes state) fun state => walk.unlessCut (state, .goOn)

theorem runThrough_followedBy [Raises ε] (first second : Walk) :
    (first.followedBy second).runThrough step state =
      goingOn (first.runThrough step state) fun state => second.runThrough step state := by
  obtain ⟨nodes, fault⟩ := first
  unfold runThrough followedBy
  cases fault with
  | some fault =>
      -- The second walk is not taken up.
      rw [goingOn_assoc]
      rfl
  | none =>
      dsimp only [unlessCut]
      rw [run_append, goingOn_assoc, goingOn_ok]

theorem runThrough_single [Raises ε] (node : Node) :
    (⟨[node], none⟩ : Walk).runThrough step state = step node state := by
  dsimp only [runThrough, run, unlessCut]
  rw [goingOn_ok, goingOn_ok]

end Run

/-! ## Searches as runs -/

variable (test : Node → Except ε Bool)

/-- The step that puts down the nodes which pass a test, the last one first. -/
def collecting (here : Node) (found : List Node) : Except ε (List Node × Signal) := do
  return (if ← test here then here :: found else found, .goOn)

/-- The step that ends with a node which passes a test. -/
def seeking (here : Node) (found : Option Node) : Except ε (Option Node × Signal) := do
  return if ← test here then (some here, .stop) else (found, .goOn)

theorem run_collecting (nodes found : List Node) :
    run (collecting test) nodes found = do
      return ((← allPassing test nodes).reverse ++ found, .goOn) := by
  induction nodes generalizing found with
  | nil => rfl
  | cons node nodes ih =>
      rw [run, allPassing, collecting]
      cases test node with
      | error e => rfl
      | ok passes =>
          refine (ih _).trans ?_
          cases allPassing test nodes with
          | error e => rfl
          | ok others =>
              cases passes
              · rfl
              · simp [ok_bind]

theorem run_seeking (nodes : List Node) :
    run (seeking test) nodes none = do
      match ← firstPassing test nodes with
      | some node => return (some node, .stop)
      | none => return (none, .goOn) := by
  induction nodes with
  | nil => rfl
  | cons node nodes ih =>
      rw [run, firstPassing, seeking]
      cases test node with
      | error e => rfl
      | ok passes =>
          cases passes
          · exact ih
          · rfl

theorem sublist_of_allPassing {test : Node → Except ε Bool} {nodes found : List Node}
    (h : allPassing test nodes = .ok found) : found.Sublist nodes := by
  induction nodes generalizing found with
  | nil =>
      cases h
      exact .slnil
  | cons node nodes ih =>
      rw [allPassing, bind_eq_ok_iff] at h
      obtain ⟨passes, -, h⟩ := h
      obtain ⟨others, hothers, h⟩ := bind_eq_ok_iff.mp h
      cases h
      cases passes
      · exact (ih hothers).cons node
      · exact (ih hothers).cons_cons node

theorem firstPassing_eq_head? {test : Node → Except ε Bool} {nodes found : List Node}
    (h : allPassing test nodes = .ok found) : firstPassing test nodes = .ok found.head? := by
  induction nodes generalizing found with
  | nil =>
      cases h
      rfl
  | cons node nodes ih =>
      rw [allPassing, bind_eq_ok_iff] at h
      obtain ⟨passes, htest, h⟩ := h
      obtain ⟨others, hothers, h⟩ := bind_eq_ok_iff.mp h
      cases h
      rw [firstPassing, htest, ok_bind]
      cases passes
      · exact ih hothers
      · rfl

theorem findAll_eq_ok_iff [Raises ε] {walk : Walk} {test : Node → Except ε Bool}
    {found : List Node} :
    walk.findAll test = .ok found ↔
      walk.fault = none ∧ allPassing test walk.nodes = .ok found := by
  rw [findAll, bind_eq_ok_iff]
  unfold unlessCut
  cases walk.fault with
  | some fault => simp
  | none => simp

theorem findFirst_eq_head? [Raises ε] {walk : Walk} {test : Node → Except ε Bool}
    {found : List Node} (h : walk.findAll test = .ok found) :
    walk.findFirst test = .ok found.head? := by
  obtain ⟨hfault, hpassing⟩ := findAll_eq_ok_iff.mp h
  rw [findFirst, firstPassing_eq_head? hpassing, ok_bind, unlessCut, hfault]
  cases found with
  | nil => rfl
  | cons node rest => rfl

end Walk

/-! ## Visits as runs -/

namespace Visitor

variable [Raises ε] (step : Node → σ → Except ε (σ × Signal))

mutual

/-- The visit of a visitor that is told when nodes are entered is a run over the walk. -/
theorem visitTree_enter :
    ∀ (tree : Tree) (parent : Option Node) (above : List (Nat × Element)) (state : σ),
      visitTree ⟨some fun here _ => step here, none⟩ parent above tree state =
        (tree.walk above).runThrough step state
  | .absent, _, _, _ => rfl
  | .node none _ _, _, _, _ => rfl
  | .node (some kind) mark below, parent, above, state => by
      rw [visitTree, Tree.walk]
      cases Tree.firstFault below with
      | some fault =>
          -- The node is entered before its children are read.
          dsimp only [Walk.runThrough, run, Walk.unlessCut]
          rw [goingOn_ok]
          rfl
      | none =>
          dsimp only
          rw [Walk.runThrough_followedBy, Walk.runThrough_single]
          simp only [← visitTrees_enter below]
          exact congrArg (goingOn (step _ state)) (funext fun state => goingOn_ok _)

theorem visitTrees_enter :
    ∀ (trees : List Tree) (parent : Node) (position : Nat) (state : σ),
      visitTrees ⟨some fun here _ => step here, none⟩ parent position trees state =
        (Tree.walkList parent position trees).runThrough step state
  | [], _, _, _ => rfl
  | tree :: trees, parent, position, state => by
      rw [Tree.walkList, Walk.runThrough_followedBy, ← visitTree_enter tree (some parent)]
      simp only [← visitTrees_enter trees]
      rfl

end

end Visitor

/-! ## A tree that cannot be read to the end -/

namespace Gapped

open Mark (extent)

/-- A name, and after it a block in which a node is absent. -/
def program : Node :=
  ⟨⟨"program", extent 0 2, [.node (some "identifier") (extent 0 1) [],
    .node (some "statement_block") (extent 1 2) [.absent]]⟩, []⟩

def name : Node := program.child 0 ⟨"identifier", extent 0 1, []⟩

def isName (node : Node) : Except Fault Bool := .ok (node.kind == "identifier")

end Gapped

/-! ## Searches -/

namespace Node

variable [Raises ε] (node : Node) (test : Node → Except ε Bool)

theorem visit_enter (step : Node → σ → Except ε (σ × Signal)) (state : σ) :
    node.visit ⟨some fun here _ => step here, none⟩ state =
      (node.walk.runThrough step state).map Prod.fst := by
  rw [visit, Visitor.visitTree_enter]
  rfl

theorem collect_eq_findAll : node.collect test = node.walk.findAll test := by
  have hcollect : node.collect test = do
      return (← node.visit ⟨some fun here _ => Walk.collecting test here, none⟩ []).reverse := rfl
  rw [hcollect, visit_enter, Walk.runThrough, Walk.run_collecting, Walk.findAll]
  cases Walk.allPassing test node.walk.nodes with
  | error e => rfl
  | ok found =>
      unfold Walk.unlessCut
      cases node.walk.fault with
      | some fault => rfl
      | none =>
          have hfound : (found.reverse ++ []).reverse = found := by
            rw [List.append_nil, List.reverse_reverse]
          exact congrArg Except.ok hfound

theorem visitFirst_eq_findFirst : node.visitFirst test = node.walk.findFirst test := by
  have hfirst : node.visitFirst test =
      node.visit ⟨some fun here _ => Walk.seeking test here, none⟩ none := rfl
  rw [hfirst, visit_enter, Walk.runThrough, Walk.run_seeking, Walk.findFirst]
  cases Walk.firstPassing test node.walk.nodes with
  | error e => rfl
  | ok found =>
      cases found with
      | some node => rfl
      | none =>
          unfold Walk.unlessCut
          cases node.walk.fault with
          | some fault => rfl
          | none => rfl

/-- Searches made of visitors and searches over walks agree, on the nodes found and on the failure;
the nodes are gone through in the order in which they come out of a stack. When every node that
passes can be found, the first of them is what a search for one finds. -/
theorem searches_agree :
    node.collect test = node.walk.findAll test ∧
      node.visitFirst test = node.walk.findFirst test ∧
      Walk.FromStack [node] node.walk ∧
      ∀ found, node.walk.findAll test = .ok found → node.walk.findFirst test = .ok found.head? :=
  ⟨node.collect_eq_findAll test, node.visitFirst_eq_findFirst test, fromStack_iff.mpr rfl,
    fun _ => Walk.findFirst_eq_head?⟩

open Gapped in
/-- The gap is in the way of finding every name, and not in the way of finding one. -/
theorem searches_agree_gapped :
    program.collect isName = .error .absent ∧ program.visitFirst isName = .ok (some Gapped.name) ∧
      Gapped.name.walk.findAll isName = .ok [Gapped.name] ∧
      Gapped.name.walk.findFirst isName = .ok (some Gapped.name) := by
  obtain ⟨hall, hfirst, -, -⟩ := searches_agree program isName
  obtain ⟨-, -, -, hhead⟩ := searches_agree Gapped.name isName
  refine ⟨?_, ?_, rfl, hhead [Gapped.name] rfl⟩
  · rw [hall]
    rfl
  · rw [hfirst]
    rfl

end Node

end Arborist

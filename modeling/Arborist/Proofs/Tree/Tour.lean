import Arborist.Proofs.Tree.Layout
import Arborist.Proofs.Tree.Visiting

/-!
# Tours

A visitor is told of a node twice: when the node is entered, and when it is left. In between it is
told of what lies below. What there is to be told of a node and everything below it, in this order,
is the tour around the node (`Node.Tour`).

A visit follows the tour. It calls back where the visitor has a callback, and ends with the first
call that is answered with `Signal.stop`, however deep in the tree that happens; if no call is, it
goes all the way round (`Node.visit_follows_tour`). To say which calls are made, the visitor is
replaced by one that does the same and writes down each call with its answer (`Visitor.recorded`).
-/

namespace Arborist

/-! ## Tours around nodes -/

/-- How a visit passes a node. -/
inductive Passage where
  | entering
  | leaving
  deriving DecidableEq, Repr

/-- What a visitor is told: that a node is entered or left, and which node is above it in the
visited subtree. -/
structure Notice where
  passage : Passage
  node : Node
  parent : Option Node

namespace Node

/-- The tour around a node: the node is entered, then come the tours around its children from the
left, with the node above them, and then it is left. -/
inductive Tour : Node → Option Node → List Notice → Prop
  | mk {node : Node} {parent : Option Node} {children : List Node} {tour : Node → List Notice} :
      node.children = .ok children → (∀ child ∈ children, Tour child (some node) (tour child)) →
      Tour node parent
        (⟨.entering, node, parent⟩ :: (children.flatMap tour ++ [⟨.leaving, node, parent⟩]))

/-- There is a tour around every valid node. -/
theorem exists_tour {text : String} {node : Node} (h : node.tree.Valid text)
    (parent : Option Node) : ∃ notices, node.Tour parent notices := by
  revert parent
  refine valid_induction (fun {node children} _ hchildren hchild parent => ?_) h
  have hbelow : ∀ child ∈ children, ∃ notices, child.Tour (some node) notices :=
    fun child hmem => hchild child hmem (some node)
  choose! tour htour using hbelow
  exact ⟨_, .mk hchildren htour⟩

end Node

/-! ## Visits as runs over tours -/

namespace Visitor

variable {σ ε : Type}

/-- The callback for a passage. -/
def callback (visitor : Visitor σ ε) : Passage → Option (Callback σ ε)
  | .entering => visitor.enter
  | .leaving => visitor.leave

/-- Whether the visitor has a callback for a notice. -/
def hears (visitor : Visitor σ ε) (notice : Notice) : Bool :=
  (visitor.callback notice.passage).isSome

/-- What the visitor answers to a notice. -/
def answer (visitor : Visitor σ ε) (notice : Notice) (state : σ) : Except ε (σ × Signal) :=
  call (visitor.callback notice.passage) notice.node notice.parent state

variable [Raises ε] {visitor : Visitor σ ε}

/-- The visit of the children of a node is a run over the tours around them. -/
theorem visitTrees_eq_run {parent : Node} {position : Nat} {trees : List Tree}
    {children : List Node} (h : parent.ReadFrom position trees children)
    {tour : Node → List Notice}
    (htour : ∀ child ∈ children, ∀ state,
      visitor.visitTree (some parent) child.above child.tree state =
        run visitor.answer (tour child) state) (state : σ) :
    visitor.visitTrees parent position trees state =
      run visitor.answer (children.flatMap tour) state := by
  induction h generalizing state with
  | nil => rfl
  | @cons position element trees children _ ih =>
      obtain ⟨hfirst, hrest⟩ := List.forall_mem_cons.mp htour
      rw [List.flatMap_cons, run_append, ← hfirst state]
      show goingOn _ (visitor.visitTrees parent (position + 1) trees) = _
      exact congrArg (goingOn _) (funext (ih hrest))

/-- A visit is a run over the tour. -/
theorem visitTree_eq_run {node : Node} {parent : Option Node} {notices : List Notice}
    (h : node.Tour parent notices) (state : σ) :
    visitor.visitTree parent node.above node.tree state = run visitor.answer notices state := by
  induction h generalizing state with
  | @mk node parent children tour hchildren _ ih =>
      have hbelow : visitor.visitTrees node 0 node.below =
          run visitor.answer (children.flatMap tour) :=
        funext (visitTrees_eq_run (Node.readFrom_of_children hchildren) ih)
      rw [Node.tree, visitTree, Node.firstFault_below hchildren]
      show goingOn (visitor.answer ⟨.entering, node, parent⟩ state) (fun state =>
        goingOn (visitor.visitTrees node 0 node.below state)
          (visitor.answer ⟨.leaving, node, parent⟩)) = _
      rw [run, hbelow]
      refine congrArg (goingOn _) (funext fun state => ?_)
      rw [run_append]
      exact congrArg (goingOn _) (funext fun state => (goingOn_ok _).symm)

end Visitor

theorem Node.visit_eq_run {σ ε : Type} [Raises ε] {visitor : Visitor σ ε} {node : Node}
    {notices : List Notice} (h : node.Tour none notices) (state : σ) :
    node.visit visitor state = (Visitor.run visitor.answer notices state).map Prod.fst := by
  rw [Node.visit, ← Visitor.visitTree_eq_run h]
  rfl

/-! ## Which calls are made -/

namespace Visitor

variable {σ ε : Type}

/-- A callback that does what another one does, and writes down the call with its answer. -/
def recording (passage : Passage) (callback : Callback σ ε) :
    Callback (σ × List (Notice × Signal)) ε := fun node parent state => do
  let answer ← callback node parent state.1
  return ((answer.1, state.2 ++ [(⟨passage, node, parent⟩, answer.2)]), answer.2)

/-- A visitor that does what another one does, and writes down every call with its answer. -/
def recorded (visitor : Visitor σ ε) : Visitor (σ × List (Notice × Signal)) ε where
  enter := visitor.enter.map (recording .entering)
  leave := visitor.leave.map (recording .leaving)

/-- From one state to another the visitor is called and answers as written down. -/
inductive Answers (visitor : Visitor σ ε) : σ → List (Notice × Signal) → σ → Prop
  | nil {state : σ} : Answers visitor state [] state
  | cons {state next last : σ} {notice : Notice} {signal : Signal}
      {calls : List (Notice × Signal)} :
      visitor.answer notice state = .ok (next, signal) → Answers visitor next calls last →
      Answers visitor state ((notice, signal) :: calls) last

/-- The calls are those of a row of notices, up to and including the first that is answered with
`Signal.stop`; all of them if none is. -/
inductive UpToStop : List Notice → List (Notice × Signal) → Prop
  | done : UpToStop [] []
  | stop {notice : Notice} {rest : List Notice} : UpToStop (notice :: rest) [(notice, .stop)]
  | goOn {notice : Notice} {rest : List Notice} {calls : List (Notice × Signal)} :
      UpToStop rest calls → UpToStop (notice :: rest) ((notice, .goOn) :: calls)

/-- What comes of calls that are made for a row of notices. They end as they should, and the last
state is the result; or none of them ends the visit, and the next call fails. -/
inductive Ends (visitor : Visitor σ ε) (heard : List Notice) (calls : List (Notice × Signal))
    (last : σ) : Except ε σ → Prop
  | answered : UpToStop heard calls → Ends visitor heard calls last (.ok last)
  | failed {notice : Notice} {error : ε} :
      calls.map Prod.fst ++ [notice] <+: heard → (∀ call ∈ calls, call.2 = .goOn) →
      visitor.answer notice last = .error error → Ends visitor heard calls last (.error error)

section Calls

variable {visitor : Visitor σ ε} {notice : Notice}

theorem callback_recorded (passage : Passage) :
    visitor.recorded.callback passage = (visitor.callback passage).map (recording passage) := by
  cases passage <;> rfl

theorem answer_of_not_hears (h : visitor.hears notice = false) (state : σ) :
    visitor.answer notice state = .ok (state, .goOn) := by
  have hnone : visitor.callback notice.passage = none := by
    simpa [hears] using h
  rw [answer, hnone]
  rfl

theorem hears_recorded : visitor.recorded.hears notice = visitor.hears notice := by
  simp [hears, callback_recorded]

/-- What the visitor writes down of a call, if it has a callback. -/
theorem answer_recorded (h : visitor.hears notice = true) (state : σ)
    (calls : List (Notice × Signal)) :
    visitor.recorded.answer notice (state, calls) = do
      let answer ← visitor.answer notice state
      return ((answer.1, calls ++ [(notice, answer.2)]), answer.2) := by
  obtain ⟨callback, hcallback⟩ := Option.isSome_iff_exists.mp h
  rw [answer, answer, callback_recorded, hcallback]
  rfl

theorem Ends.cons {heard : List Notice} {calls : List (Notice × Signal)} {last : σ}
    {result : Except ε σ} (h : visitor.Ends heard calls last result) :
    visitor.Ends (notice :: heard) ((notice, .goOn) :: calls) last result := by
  cases h with
  | answered hcalls => exact .answered (.goOn hcalls)
  | failed hprefix hcalls herror =>
      refine .failed ?_ ?_ herror
      · exact List.cons_prefix_cons.mpr ⟨rfl, hprefix⟩
      · exact List.forall_mem_cons.mpr ⟨rfl, hcalls⟩

/-- A run makes the calls it should, and ends as it should. -/
theorem exists_ends (visitor : Visitor σ ε) (notices : List Notice) (state : σ)
    (earlier : List (Notice × Signal)) :
    ∃ calls last result, visitor.Answers state calls last ∧
      visitor.Ends (notices.filter visitor.hears) calls last result ∧
      (run visitor.answer notices state).map Prod.fst = result ∧
      (run visitor.recorded.answer notices (state, earlier)).map Prod.fst =
        result.map fun last => (last, earlier ++ calls) := by
  induction notices generalizing state earlier with
  | nil => exact ⟨[], state, .ok state, .nil, .answered .done, rfl, by simp [run, Except.map]⟩
  | cons notice notices ih =>
      rw [run, run]
      cases hhears : visitor.hears notice with
      | false =>
          rw [List.filter_cons_of_neg (by simp [hhears]), answer_of_not_hears hhears,
            answer_of_not_hears (hears_recorded.trans hhears)]
          exact ih state earlier
      | true =>
          rw [List.filter_cons_of_pos hhears, answer_recorded hhears]
          cases hanswer : visitor.answer notice state with
          | error error =>
              refine ⟨[], state, .error error, .nil, ?_, rfl, rfl⟩
              exact .failed (by simp) (by simp) hanswer
          | ok answer =>
              obtain ⟨next, signal⟩ := answer
              cases signal with
              | stop =>
                  exact ⟨[(notice, .stop)], next, .ok next, .cons hanswer .nil, .answered .stop,
                    rfl, rfl⟩
              | goOn =>
                  obtain ⟨calls, last, result, hcalls, hends, hrun, hrecorded⟩ :=
                    ih next (earlier ++ [(notice, .goOn)])
                  refine ⟨(notice, .goOn) :: calls, last, result, .cons hanswer hcalls, hends.cons,
                    hrun, ?_⟩
                  rw [List.append_assoc] at hrecorded
                  exact hrecorded

end Calls

end Visitor

/-! ## A call of a function -/

namespace FunctionCall

open Mark (extent)

/-- The tree of `f(x)`. -/
def program : Node :=
  ⟨⟨"call_expression", extent 0 4, [.node (some "identifier") (extent 0 1) [],
    .node (some "arguments") (extent 1 4) [.node (some "identifier") (extent 2 3) []]]⟩, []⟩

def function : Node := program.child 0 ⟨"identifier", extent 0 1, []⟩

def arguments : Node :=
  program.child 1 ⟨"arguments", extent 1 4, [.node (some "identifier") (extent 2 3) []]⟩

def argument : Node := arguments.child 0 ⟨"identifier", extent 2 3, []⟩

/-- Counts the names that are left, and ends the visit with the second. -/
def visitor : Visitor Nat where
  enter := some fun _ _ count => .ok (count, .goOn)
  leave := some fun here _ count => .ok <|
    if here.kind = "identifier" then (count + 1, if count = 1 then .stop else .goOn)
    else (count, .goOn)

def calls : List (Notice × Signal) :=
  [(⟨.entering, program, none⟩, .goOn), (⟨.entering, function, some program⟩, .goOn),
    (⟨.leaving, function, some program⟩, .goOn), (⟨.entering, arguments, some program⟩, .goOn),
    (⟨.entering, argument, some arguments⟩, .goOn), (⟨.leaving, argument, some arguments⟩, .stop)]

theorem valid : program.tree.Valid "f(x)" := Tree.fitsIn_iff.mp (by decide +kernel)

theorem contains : program.tree.Contains program :=
  ⟨program, Tree.root_eq_ok_iff.mpr ⟨rfl, rfl⟩, .refl⟩

theorem visit_recorded : program.visit visitor.recorded (0, []) = .ok (2, calls) := rfl

end FunctionCall

/-! ## Visits -/

namespace Node

variable {tree : Tree} {text : String} {node : Node}

/-- A visit to a node of a valid tree calls back along the tour around the node, wherever the
visitor has a callback, up to and including the first call that is answered with `Signal.stop`; or
up to a call that fails. The visitor that writes down its calls does and ends as the other one. -/
theorem visit_follows_tour (hvalid : tree.Valid text) (hnode : tree.Contains node) :
    ∃ tour, node.Tour none tour ∧
      ∀ {σ ε : Type} [Raises ε] (visitor : Visitor σ ε) (state : σ), ∃ calls last result,
        visitor.Answers state calls last ∧
        visitor.Ends (tour.filter visitor.hears) calls last result ∧
        node.visit visitor state = result ∧
        node.visit visitor.recorded (state, []) = result.map fun last => (last, calls) := by
  obtain ⟨tour, htour⟩ := exists_tour (hnode.valid hvalid) none
  refine ⟨tour, htour, fun visitor state => ?_⟩
  obtain ⟨calls, last, result, hanswers, hends, hrun, hrecorded⟩ :=
    visitor.exists_ends tour state []
  refine ⟨calls, last, result, hanswers, hends, ?_, ?_⟩
  · rw [visit_eq_run htour, hrun]
  · rw [visit_eq_run htour, hrecorded]
    rfl

/-- The second name that is left ends the visit: neither the arguments nor the call are left. -/
theorem visit_follows_tour_second_name :
    FunctionCall.program.tree.Valid "f(x)" ∧
      FunctionCall.program.tree.Contains FunctionCall.program ∧
      FunctionCall.program.visit FunctionCall.visitor.recorded (0, []) =
        .ok (2, FunctionCall.calls) ∧
      FunctionCall.program.visit FunctionCall.visitor 0 = .ok 2 ∧
      ∃ tour, FunctionCall.program.Tour none tour ∧
        Visitor.UpToStop (tour.filter FunctionCall.visitor.hears) FunctionCall.calls := by
  obtain ⟨tour, htour, hvisits⟩ := visit_follows_tour FunctionCall.valid FunctionCall.contains
  obtain ⟨calls, last, result, -, hends, hvisit, hrecorded⟩ := hvisits FunctionCall.visitor 0
  rw [FunctionCall.visit_recorded] at hrecorded
  cases hends with
  | answered hcalls =>
      cases hrecorded
      exact ⟨FunctionCall.valid, FunctionCall.contains, FunctionCall.visit_recorded, hvisit, tour,
        htour, hcalls⟩
  | failed => cases hrecorded

end Node

end Arborist

import Arborist.Proofs.Selector.Attribute
import Arborist.Proofs.Tree.Preorder

/-!
# The meaning of selectors

`Selector.Satisfies` says of which nodes a selector is true, by recursion on the selector and in
terms of kinship alone: `:has` looks at what a node is an ancestor of, a chain at what is a parent
or an ancestor of the node. There is no order of search in it and nothing that can fail.

`Selector.decides_holds`: on every node of a valid tree the test of a selector ends with the answer
that the meaning gives. Negation makes the two directions depend on each other, so the induction is
on answers, not on success.
-/

namespace Arborist

open Text

/-! ## Searches whose test has an answer -/

namespace Walk

variable {test : Node → Except Fault Bool} {p : Node → Prop} [DecidablePred p] {nodes : List Node}
  {walk : Walk}

/-- Of each node the test gives the answer to the statement. -/
theorem test_eq_ok {node : Node} (h : Decides (test node) (p node)) :
    test node = .ok (decide (p node)) := by
  obtain ⟨answer, hanswer, hiff⟩ := h
  rw [hanswer, Bool.eq_iff_iff.mpr (hiff.trans decide_eq_true_iff.symm)]

theorem allPassing_eq (h : ∀ node ∈ nodes, Decides (test node) (p node)) :
    allPassing test nodes = .ok (nodes.filter fun node => decide (p node)) := by
  induction nodes with
  | nil => rfl
  | cons node rest ih =>
      obtain ⟨hnode, hrest⟩ := List.forall_mem_cons.mp h
      rw [allPassing, test_eq_ok hnode, ok_bind, ih hrest, ok_bind, List.filter_cons]
      rfl

theorem firstPassing_eq (h : ∀ node ∈ nodes, Decides (test node) (p node)) :
    firstPassing test nodes = .ok (nodes.find? fun node => decide (p node)) := by
  induction nodes with
  | nil => rfl
  | cons node rest ih =>
      obtain ⟨hnode, hrest⟩ := List.forall_mem_cons.mp h
      rw [firstPassing, test_eq_ok hnode, ok_bind, ih hrest, List.find?_cons]
      cases decide (p node) <;> rfl

theorem findAll_eq (hfault : walk.fault = none)
    (h : ∀ node ∈ walk.nodes, Decides (test node) (p node)) :
    walk.findAll test = .ok (walk.nodes.filter fun node => decide (p node)) := by
  unfold findAll unlessCut
  rw [allPassing_eq h, ok_bind, hfault]

theorem findFirst_eq (hfault : walk.fault = none)
    (h : ∀ node ∈ walk.nodes, Decides (test node) (p node)) :
    walk.findFirst test = .ok (walk.nodes.find? fun node => decide (p node)) := by
  unfold findFirst unlessCut
  rw [firstPassing_eq h, ok_bind, hfault]
  cases walk.nodes.find? fun node => decide (p node) <;> rfl

end Walk

namespace Node

variable {text : String} {tree : Tree} {node : Node} {test : Node → Except Fault Bool}
  {p : Node → Prop}

/-- The search below a node finds whether some node has it as an ancestor. -/
theorem decides_below (hvalid : tree.Valid text) (hnode : tree.Contains node)
    (h : ∀ other, tree.Contains other → Decides (test other) (p other)) :
    Decides (do return (← node.walk.below.findFirst test).isSome)
      (∃ other, node.AncestorOf other ∧ p other) := by
  classical
  obtain ⟨below, hwalk, hpreorder⟩ := exists_walk_eq (hnode.valid hvalid)
  have htest : ∀ other ∈ node.walk.below.nodes, Decides (test other) (p other) := by
    rw [hwalk]
    intro other hother
    exact h other (hnode.of_ancestorOf (hpreorder.mem_below_iff.mp hother))
  have hfault : node.walk.below.fault = none := by
    rw [hwalk]
    rfl
  refine ⟨_, by rw [Walk.findFirst_eq hfault htest, ok_bind]; rfl, ?_⟩
  rw [hwalk]
  simp [Walk.below, hpreorder.mem_below_iff]

/-- The search above a node finds whether it has some node as an ancestor. -/
theorem decides_above (hnode : tree.Contains node)
    (h : ∀ other, tree.Contains other → Decides (test other) (p other)) :
    Decides (do return (← Walk.firstPassing test node.ancestors).isSome)
      (∃ other, other.AncestorOf node ∧ p other) := by
  classical
  have htest : ∀ other ∈ node.ancestors, Decides (test other) (p other) := by
    intro other hother
    exact h other (hnode.ancestorOf ((mem_ancestors_iff hnode).mp hother))
  refine ⟨_, by rw [Walk.firstPassing_eq htest, ok_bind]; rfl, ?_⟩
  simp [mem_ancestors_iff hnode]

end Node

namespace Selector

/-! ## Satisfaction -/

mutual

/-- Whether a selector is true of a node. -/
def Satisfies (source : Bytes) : Selector → Node → Prop
  | .kind name, node => node.kind ∈ Kind.resolve name
  | .attr name operator wanted, node =>
    ∃ actual, node.HasAttribute source name actual ∧ operator.Admits wanted actual
  | .pseudo _ _ none, _ => False
  | .pseudo name _ (some inner), node =>
    (name = "has" ∧ ∃ other, node.AncestorOf other ∧ inner.Satisfies source other) ∨
      (name = "not" ∧ ¬inner.Satisfies source node)
  | .child left right, node =>
    right.Satisfies source node ∧ ∃ parent, parent.ParentOf node ∧ left.Satisfies source parent
  | .descendant left right, node =>
    right.Satisfies source node ∧
      ∃ ancestor, ancestor.AncestorOf node ∧ left.Satisfies source ancestor
  | .all parts, node => SatisfiesAll source parts node
  | .never, _ => False

/-- Whether all selectors of a list are true of a node. -/
def SatisfiesAll (source : Bytes) : List Selector → Node → Prop
  | [], _ => True
  | part :: rest, node => part.Satisfies source node ∧ SatisfiesAll source rest node

end

theorem satisfiesAll_iff {source : Bytes} {parts : List Selector} {node : Node} :
    SatisfiesAll source parts node ↔ ∀ part ∈ parts, part.Satisfies source node := by
  induction parts with
  | nil => simp [SatisfiesAll]
  | cons part rest ih => rw [SatisfiesAll, ih, List.forall_mem_cons]

/-! ## Testing is satisfaction -/

section Holds

variable {text : String} {tree : Tree}

/-- The second of two tests is made only if the first holds. -/
theorem decides_and {first : Except Fault Bool} {second : Bool → Except Fault Bool} {p q : Prop}
    (hfirst : Decides first p) (hfalse : second false = .ok false)
    (htrue : Decides (second true) q) : Decides (first >>= second) (p ∧ q) := by
  obtain ⟨answer, rfl, hanswer⟩ := hfirst
  rw [ok_bind]
  cases answer with
  | false =>
      refine ⟨false, hfalse, iff_of_false Bool.false_ne_true fun h => ?_⟩
      exact Bool.false_ne_true (hanswer.mpr h.1)
  | true =>
      obtain ⟨answer, hsecond, hq⟩ := htrue
      exact ⟨answer, hsecond, by rw [hq, and_iff_right (hanswer.mp rfl)]⟩

theorem decides_not {test : Except Fault Bool} {p : Prop} (h : Decides test p) :
    Decides (do return !(← test)) ¬p := by
  obtain ⟨answer, rfl, hanswer⟩ := h
  exact ⟨!answer, rfl, by rw [← hanswer, Bool.not_eq_true', Bool.not_eq_true]⟩

theorem decides_attr {node : Node} (h : node.tree.Valid text) (name : String)
    (operator : Operator) (wanted : Option String) :
    Decides (holds (encode text) (.attr name operator wanted) node)
      (Satisfies (encode text) (.attr name operator wanted) node) := by
  obtain ⟨found, hfound, hiff⟩ := Node.finds_attributeText h name
  rw [holds, hfound, ok_bind, Satisfies]
  refine ⟨_, rfl, ?_⟩
  simp only [Operator.accepts_iff, hiff]

mutual

/-- On a node of a valid tree the test of a selector ends, and its answer is whether the selector
is true of the node. -/
theorem decides_holds (hvalid : tree.Valid text) :
    ∀ (s : Selector) {node : Node}, tree.Contains node →
      Decides (s.holds (encode text) node) (s.Satisfies (encode text) node)
  | .kind name, node, _ => by
      rw [holds, Satisfies]
      exact ⟨_, rfl, List.contains_iff_mem⟩
  | .attr name operator wanted, node, hnode =>
      decides_attr (hnode.valid hvalid) name operator wanted
  | .pseudo name argument none, node, _ => by
      rw [holds, Satisfies]
      exact ⟨false, rfl, iff_of_false Bool.false_ne_true id⟩
  | .pseudo name argument (some inner), node, hnode => by
      rw [holds, Satisfies]
      simp only [beq_iff_eq]
      split_ifs with hnot hhas
      · subst hnot
        simpa using decides_not (decides_holds hvalid inner hnode)
      · subst hhas
        simpa using Node.decides_below hvalid hnode fun other => decides_holds hvalid inner
      · refine ⟨false, rfl, iff_of_false Bool.false_ne_true ?_⟩
        rintro (⟨rfl, -⟩ | ⟨rfl, -⟩)
        · exact hhas rfl
        · exact hnot rfl
  | .child left right, node, hnode => by
      rw [holds, Satisfies]
      refine decides_and (decides_holds hvalid right hnode) rfl ?_
      cases hparent : node.parent with
      | none =>
          refine ⟨false, rfl, iff_of_false Bool.false_ne_true ?_⟩
          rintro ⟨parent, h, -⟩
          rw [h.parent_eq] at hparent
          cases hparent
      | some parent =>
          have hparentOf := (Node.parent_eq_some_iff hnode).mp hparent
          obtain ⟨answer, hanswer, hiff⟩ := decides_holds hvalid left (hnode.parentOf hparentOf)
          refine ⟨answer, hanswer, hiff.trans ⟨fun h => ⟨parent, hparentOf, h⟩, ?_⟩⟩
          rintro ⟨other, hother, h⟩
          exact hparentOf.unique hother ▸ h
  | .descendant left right, node, hnode => by
      rw [holds, Satisfies]
      refine decides_and (decides_holds hvalid right hnode) rfl ?_
      exact Node.decides_above hnode fun other => decides_holds hvalid left
  | .all parts, node, hnode => by
      rw [holds, Satisfies]
      exact decides_allHold hvalid parts hnode
  | .never, node, _ => by
      rw [holds, Satisfies]
      exact ⟨false, rfl, iff_of_false Bool.false_ne_true id⟩

theorem decides_allHold (hvalid : tree.Valid text) :
    ∀ (parts : List Selector) {node : Node}, tree.Contains node →
      Decides (allHold (encode text) parts node) (SatisfiesAll (encode text) parts node)
  | [], node, _ => ⟨true, rfl, by simp [SatisfiesAll]⟩
  | part :: rest, node, hnode => by
      rw [allHold, SatisfiesAll]
      exact decides_and (decides_holds hvalid part hnode) rfl (decides_allHold hvalid rest hnode)

end

end Holds

end Selector

end Arborist

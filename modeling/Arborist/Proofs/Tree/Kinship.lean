import Arborist.Proofs.Computation
import Arborist.Proofs.Text.Utf8
import Arborist.Tree.Walk
import Mathlib.Logic.Relation

/-!
# Kinship of nodes

A node is a place in a tree: the trees below it are part of its element, and the elements above it
are kept on a list. Going down reads the first, going up reads the second, and nothing in the type
ties them together. Here both are one relation, `Node.ParentOf`, which says that a node was made
from a tree below another; `Node.AncestorOf` is one or more such steps. In a tree (`Tree.Contains`)
the relation is what the two directions compute:

* `Node.parent_eq_some_iff`, `Node.mem_ancestors_iff` — going up;
* `Node.children_eq_ok_iff`, `Node.mem_children_iff` — going down.

`Tree.Valid` are the trees that can be read: no node is absent or lacks its kind, and no extent cuts
a character of the source. Reading them never fails (`Node.exists_children`, `Node.exists_text`),
and what is true of a node whenever it is true of its children is true of all their nodes
(`Node.valid_induction`).
-/

namespace Arborist

open Text

/-! ## Parents, ancestors and the nodes of a tree -/

namespace Node

/-- The node is made from the tree at a position below the parent. -/
def ChildAt (parent : Node) (position : Nat) (node : Node) : Prop :=
  ∃ tree element, parent.below[position]? = some tree ∧ tree.element = .ok element ∧
    node = parent.child position element

/-- The node is made from one of the trees below the parent. -/
def ParentOf (parent node : Node) : Prop := ∃ position, parent.ChildAt position node

/-- The node lies one or more steps below the ancestor. -/
def AncestorOf (ancestor node : Node) : Prop := Relation.TransGen ParentOf ancestor node

/-- The node lies below the other, or is the other. -/
def Within (node top : Node) : Prop := Relation.ReflTransGen ParentOf top node

/-- A node as a tree, without its surroundings. -/
def tree (node : Node) : Tree := .node (some node.kind) node.mark node.below

end Node

/-- The nodes of a tree: its root, and what lies below. -/
def Tree.Contains (tree : Tree) (node : Node) : Prop :=
  ∃ root, tree.root = .ok root ∧ node.Within root

namespace Node

variable {parent node : Node}

theorem ParentOf.parent_eq (h : parent.ParentOf node) : node.parent = some parent := by
  obtain ⟨position, tree, element, -, -, rfl⟩ := h
  rfl

theorem ParentOf.ancestors_eq (h : parent.ParentOf node) :
    node.ancestors = parent :: parent.ancestors := by
  obtain ⟨position, tree, element, -, -, rfl⟩ := h
  rfl

/-- A step down adds a position to the path. -/
theorem ParentOf.exists_path_eq (h : parent.ParentOf node) :
    ∃ position, node.path = parent.path ++ [position] := by
  obtain ⟨position, tree, element, -, -, rfl⟩ := h
  exact ⟨position, List.reverse_cons⟩

theorem ParentOf.unique {other : Node} (h : parent.ParentOf node) (h' : other.ParentOf node) :
    parent = other :=
  Option.some.inj (h.parent_eq.symm.trans h'.parent_eq)

end Node

theorem Tree.element_eq_ok_iff {tree : Tree} {element : Element} :
    tree.element = .ok element ↔ tree = .node (some element.kind) element.mark element.below := by
  unfold Tree.element
  split
  · exact iff_of_false (by rintro ⟨⟩) (by rintro ⟨⟩)
  · exact iff_of_false (by rintro ⟨⟩) (by rintro ⟨⟩)
  · cases element
    simp

theorem Tree.root_eq_ok_iff {tree : Tree} {root : Node} :
    tree.root = .ok root ↔ tree = root.tree ∧ root.above = [] := by
  obtain ⟨element, above⟩ := root
  unfold Tree.root
  simp only [bind_eq_ok_iff, pure_eq_ok_iff, Tree.element_eq_ok_iff, Node.mk.injEq]
  constructor
  · rintro ⟨_, htree, rfl, rfl⟩
    exact ⟨htree, rfl⟩
  · rintro ⟨htree, rfl⟩
    exact ⟨element, htree, rfl, rfl⟩

namespace Node

variable {parent node ancestor : Node}

theorem not_parentOf_of_above_eq_nil (h : node.above = []) : ¬parent.ParentOf node := by
  rintro ⟨position, tree, element, -, -, rfl⟩
  cases h

theorem not_ancestorOf_of_below_eq_nil (h : ancestor.below = []) : ¬ancestor.AncestorOf node := by
  intro hancestor
  obtain ⟨child, ⟨position, tree, element, htree, -⟩, -⟩ := Relation.TransGen.head'_iff.mp hancestor
  rw [h] at htree
  cases htree

/-- Above a node are its parent and what is above the parent. -/
theorem ancestorOf_iff_of_parentOf (h : parent.ParentOf node) :
    ancestor.AncestorOf node ↔ ancestor = parent ∨ ancestor.AncestorOf parent := by
  constructor
  · intro hancestor
    obtain ⟨other, habove, hother⟩ := Relation.TransGen.tail'_iff.mp hancestor
    obtain rfl := h.unique hother
    exact (Relation.reflTransGen_iff_eq_or_transGen.mp habove).imp_left Eq.symm
  · rintro (rfl | hancestor)
    · exact .single h
    · exact hancestor.tail h

/-- Below a node are its children and what is below them. -/
theorem ancestorOf_iff_exists_parentOf {top : Node} :
    top.AncestorOf node ↔ ∃ child, top.ParentOf child ∧ node.Within child :=
  Relation.TransGen.head'_iff

theorem within_iff {top : Node} : node.Within top ↔ node = top ∨ top.AncestorOf node := by
  rw [Within, AncestorOf, Relation.reflTransGen_iff_eq_or_transGen]

end Node

namespace Tree.Contains

variable {tree : Tree} {node other : Node}

/-- A node is the root or has a parent in the tree. -/
theorem root_or_parentOf (h : tree.Contains node) :
    node.above = [] ∨ ∃ parent, tree.Contains parent ∧ parent.ParentOf node := by
  obtain ⟨root, hroot, hwithin⟩ := h
  cases hwithin with
  | refl => exact .inl (Tree.root_eq_ok_iff.mp hroot).2
  | tail hparent hstep => exact .inr ⟨_, ⟨root, hroot, hparent⟩, hstep⟩

theorem of_within (h : tree.Contains node) (hwithin : other.Within node) : tree.Contains other := by
  obtain ⟨root, hroot, hnode⟩ := h
  exact ⟨root, hroot, hnode.trans hwithin⟩

theorem of_ancestorOf (h : tree.Contains node) (hbelow : node.AncestorOf other) :
    tree.Contains other :=
  h.of_within hbelow.to_reflTransGen

theorem parentOf (h : tree.Contains node) (hparent : other.ParentOf node) :
    tree.Contains other := by
  rcases h.root_or_parentOf with habove | ⟨parent, hcontains, hother⟩
  · exact absurd hparent (Node.not_parentOf_of_above_eq_nil habove)
  · exact hparent.unique hother ▸ hcontains

theorem ancestorOf (h : tree.Contains node) (hancestor : other.AncestorOf node) :
    tree.Contains other := by
  induction hancestor with
  | single hparent => exact h.parentOf hparent
  | tail _ hparent ih => exact ih (h.parentOf hparent)

end Tree.Contains

/-! ## Nodes on one way down -/

namespace Node

variable {node parent child top above : Node}

theorem ParentOf.length_above (h : parent.ParentOf node) :
    node.above.length = parent.above.length + 1 := by
  obtain ⟨position, tree, element, -, -, rfl⟩ := h
  rfl

theorem AncestorOf.length_above_lt (h : top.AncestorOf node) :
    top.above.length < node.above.length := by
  induction h with
  | single hparent =>
      rw [hparent.length_above]
      exact Nat.lt_succ_self _
  | tail _ hparent ih =>
      rw [hparent.length_above]
      exact Nat.lt_succ_of_lt ih

theorem AncestorOf.ne (h : top.AncestorOf node) : top ≠ node := by
  intro heq
  have hdeeper := h.length_above_lt
  rw [heq] at hdeeper
  exact Nat.lt_irrefl _ hdeeper

theorem Within.length_above_le (h : node.Within top) : top.above.length ≤ node.above.length := by
  rcases within_iff.mp h with rfl | hancestor
  · exact Nat.le_refl _
  · exact Nat.le_of_lt hancestor.length_above_lt

/-- A node does not lie below what lies within it. -/
theorem Within.not_ancestorOf (h : above.Within top) : ¬above.AncestorOf top := by
  intro hancestor
  exact Nat.not_lt_of_le h.length_above_le hancestor.length_above_lt

theorem Within.antisymm (h : node.Within top) (h' : top.Within node) : node = top := by
  rcases within_iff.mp h' with heq | hancestor
  · exact heq.symm
  · exact absurd hancestor h.not_ancestorOf

/-- Two nodes that a third lies within are on one way down. -/
theorem Within.total (h : node.Within top) (h' : node.Within above) :
    top.Within above ∨ above.Within top := by
  induction h with
  | refl => exact .inl h'
  | tail hparent hstep ih =>
      rcases within_iff.mp h' with rfl | hancestor
      · exact .inr (hparent.tail hstep)
      · rcases (ancestorOf_iff_of_parentOf hstep).mp hancestor with rfl | hfurther
        · exact .inr hparent
        · exact ih hfurther.to_reflTransGen

/-- On the way from a node down into a child there is nothing between the two. -/
theorem Within.eq_or_within_child (h : above.Within top) (hparent : top.ParentOf child)
    (hnode : node.Within child) (habove : node.Within above) :
    above = top ∨ above.Within child := by
  rcases habove.total hnode with hbelow | hchild
  · exact .inr hbelow
  · rcases within_iff.mp hchild with rfl | hancestor
    · exact .inr .refl
    · rcases (ancestorOf_iff_of_parentOf hparent).mp hancestor with rfl | hfurther
      · exact .inl rfl
      · exact absurd hfurther h.not_ancestorOf

end Node

/-! ## Going up -/

namespace Node

variable {tree : Tree} {parent node ancestor : Node}

/-- In a tree the parent that a node knows is the node it was made from. -/
theorem parent_eq_some_iff (h : tree.Contains node) :
    node.parent = some parent ↔ parent.ParentOf node := by
  refine ⟨fun hparent => ?_, ParentOf.parent_eq⟩
  rcases h.root_or_parentOf with habove | ⟨other, -, hother⟩
  · unfold Node.parent at hparent
    rw [habove] at hparent
    cases hparent
  · obtain rfl := Option.some.inj (hother.parent_eq.symm.trans hparent)
    exact hother

/-- In a tree the nodes that a node has above it are its ancestors. -/
theorem mem_ancestors_iff (h : tree.Contains node) :
    ancestor ∈ node.ancestors ↔ ancestor.AncestorOf node := by
  obtain ⟨root, hroot, hwithin⟩ := h
  induction hwithin with
  | refl =>
      have habove := (Tree.root_eq_ok_iff.mp hroot).2
      refine iff_of_false ?_ fun hancestor => ?_
      · unfold ancestors
        rw [habove]
        exact List.not_mem_nil
      · obtain ⟨parent, -, hparent⟩ := Relation.TransGen.tail'_iff.mp hancestor
        exact not_parentOf_of_above_eq_nil habove hparent
  | tail _ hparent ih =>
      rw [hparent.ancestors_eq, List.mem_cons, ih, ancestorOf_iff_of_parentOf hparent]

end Node

/-! ## Going down -/

namespace Node

variable {node child : Node} {children : List Node}

theorem children_eq_ok_iff :
    node.children = .ok children ↔ ∃ elements,
      List.Forall₂ (fun tree element => tree.element = .ok element) node.below elements ∧
        children = elements.mapIdx node.child := by
  unfold Node.children
  simp only [bind_eq_ok_iff, mapM_eq_ok_iff, pure_eq_ok_iff]
  exact exists_congr fun elements => and_congr_right fun _ => eq_comm

/-- The child at a position is made from the tree at the position. -/
theorem getElem?_children (h : node.children = .ok children) {position : Nat} :
    children[position]? = some child ↔ node.ChildAt position child := by
  obtain ⟨elements, helements, rfl⟩ := children_eq_ok_iff.mp h
  obtain ⟨hlength, hget⟩ := List.forall₂_iff_get.mp helements
  rw [List.getElem?_mapIdx, Option.map_eq_some_iff]
  constructor
  · rintro ⟨element, helement, rfl⟩
    obtain ⟨hlt, rfl⟩ := List.getElem?_eq_some_iff.mp helement
    exact ⟨_, _, List.getElem?_eq_getElem (hlength ▸ hlt), hget position (hlength ▸ hlt) hlt, rfl⟩
  · rintro ⟨tree, element, htree, helement, rfl⟩
    obtain ⟨hlt, rfl⟩ := List.getElem?_eq_some_iff.mp htree
    have hsame := (hget position hlt (hlength ▸ hlt)).symm.trans helement
    exact ⟨_, List.getElem?_eq_getElem (hlength ▸ hlt), by rw [← Except.ok.inj hsame]; rfl⟩

/-- The children that are read are the nodes of which this one is the parent. -/
theorem mem_children_iff (h : node.children = .ok children) :
    child ∈ children ↔ node.ParentOf child := by
  rw [List.mem_iff_getElem?]
  exact exists_congr fun position => getElem?_children h

/-- The children made from trees that stand in a row below the parent, the first of them at a
position. Functions that go through such a row count positions as they go. -/
inductive ReadFrom (parent : Node) : Nat → List Tree → List Node → Prop
  | nil {position : Nat} : ReadFrom parent position [] []
  | cons {position : Nat} {element : Element} {trees : List Tree} {children : List Node} :
      ReadFrom parent (position + 1) trees children →
      ReadFrom parent position ((parent.child position element).tree :: trees)
        (parent.child position element :: children)

theorem readFrom_mapIdx {trees : List Tree} {elements : List Element}
    (h : List.Forall₂ (fun tree element => tree.element = .ok element) trees elements)
    (position : Nat) :
    node.ReadFrom position trees
      (elements.mapIdx fun i element => node.child (position + i) element) := by
  induction h generalizing position with
  | nil => exact .nil
  | @cons tree element trees elements helement _ ih =>
      have hshift : (fun i element => node.child (position + (i + 1)) element)
          = fun i element => node.child (position + 1 + i) element := by
        funext i element
        rw [Nat.add_assoc, Nat.add_comm 1 i]
      rw [List.mapIdx_cons, hshift, Tree.element_eq_ok_iff.mp helement]
      exact .cons (ih (position + 1))

theorem readFrom_of_children (h : node.children = .ok children) :
    node.ReadFrom 0 node.below children := by
  obtain ⟨elements, helements, rfl⟩ := children_eq_ok_iff.mp h
  have hread : node.ReadFrom 0 node.below
      (elements.mapIdx fun i element => node.child (0 + i) element) := readFrom_mapIdx helements 0
  simp only [Nat.zero_add] at hread
  exact hread

/-- Children stand in the order of their positions. -/
theorem path_getElem_children (h : node.children = .ok children) {position : Nat}
    (hchild : children[position]? = some child) : child.path = node.path ++ [position] := by
  obtain ⟨tree, element, -, -, rfl⟩ := (getElem?_children h).mp hchild
  exact List.reverse_cons

end Node

/-! ## Trees that can be read -/

/-- Every node is there and has its kind, and no extent begins or ends inside a character. -/
inductive Tree.Valid (text : String) : Tree → Prop
  | node {kind : String} {mark : Mark} {below : List Tree} :
      ¬InsideCharacter text mark.start → ¬InsideCharacter text mark.stop →
      (∀ tree ∈ below, Valid text tree) → Valid text (.node (some kind) mark below)

section Valid

variable {text : String} {tree : Tree} {parent node : Node}

theorem Tree.Valid.exists_element (h : tree.Valid text) :
    ∃ element, tree.element = .ok element := by
  cases h with
  | node => exact ⟨_, rfl⟩

theorem Tree.Valid.of_mem_below (h : node.tree.Valid text) :
    ∀ tree ∈ node.below, tree.Valid text := by
  cases h with
  | node _ _ hbelow => exact hbelow

theorem Node.ParentOf.valid (hparent : parent.ParentOf node) (h : parent.tree.Valid text) :
    node.tree.Valid text := by
  obtain ⟨position, tree, element, htree, helement, rfl⟩ := hparent
  have hvalid := h.of_mem_below tree (List.mem_of_getElem? htree)
  rw [Tree.element_eq_ok_iff.mp helement] at hvalid
  exact hvalid

/-- All nodes of a valid tree are valid. -/
theorem Tree.Contains.valid (hnode : tree.Contains node) (h : tree.Valid text) :
    node.tree.Valid text := by
  obtain ⟨root, hroot, hwithin⟩ := hnode
  induction hwithin with
  | refl => exact (Tree.root_eq_ok_iff.mp hroot).1 ▸ h
  | tail _ hparent ih => exact hparent.valid ih

theorem Tree.exists_elements {trees : List Tree} (h : ∀ tree ∈ trees, tree.Valid text) :
    ∃ elements, List.Forall₂ (fun tree element => tree.element = .ok element) trees elements :=
  exists_forall₂ fun tree htree => (h tree htree).exists_element

/-- The children of a valid node can be read. -/
theorem Node.exists_children (h : node.tree.Valid text) :
    ∃ children, node.children = .ok children := by
  obtain ⟨elements, helements⟩ := Tree.exists_elements h.of_mem_below
  exact ⟨_, Node.children_eq_ok_iff.mpr ⟨elements, helements, rfl⟩⟩

/-- What passes from the children to their parent is true of every valid node. The induction is on
the tree of the node; its surroundings do not matter. -/
@[elab_as_elim]
theorem Node.valid_induction {motive : Node → Prop}
    (step : ∀ {node : Node} {children : List Node}, node.tree.Valid text →
      node.children = .ok children → (∀ child ∈ children, motive child) → motive node)
    (h : node.tree.Valid text) : motive node := by
  generalize htree : node.tree = tree at h
  induction h generalizing node with
  | @node kind mark below hstart hstop hbelow ih =>
      have hvalid : node.tree.Valid text := htree ▸ .node hstart hstop hbelow
      obtain ⟨children, hchildren⟩ := Node.exists_children hvalid
      refine step hvalid hchildren fun child hmem => ?_
      obtain ⟨position, tree, element, hget, helement, rfl⟩ :=
        (Node.mem_children_iff hchildren).mp hmem
      cases htree
      exact ih tree (List.mem_of_getElem? hget) (Tree.element_eq_ok_iff.mp helement).symm

/-- The bytes of the source that a node covers are those of a text. -/
def Node.Spells (source : Bytes) (node : Node) (text : String) : Prop :=
  slice source node.start node.stop = encode text

/-- A node spells no two texts. -/
theorem Node.Spells.unique {source : Bytes} {first second : String} (h : node.Spells source first)
    (h' : node.Spells source second) : first = second :=
  encode_injective (h.symm.trans h')

theorem Node.text_eq_ok_iff {source : Bytes} : node.text source = .ok text ↔
    node.Spells source text := by
  unfold Node.text Node.Spells
  rw [← decode?_eq_some_iff]
  cases decode? (slice source node.start node.stop) with
  | none => exact iff_of_false (by rintro ⟨⟩) (by rintro ⟨⟩)
  | some found => rw [Except.ok.injEq, Option.some.injEq]

/-- Bytes between two offsets of a source that lie inside no character are those of a text. The
offsets may be in the wrong order or past the end, where there is less to cut or nothing. -/
theorem validUtf8_slice {start stop : Nat} (hstart : ¬InsideCharacter text start)
    (hstop : ¬InsideCharacter text stop) : ValidUtf8 (slice (encode text) start stop) := by
  have hcut : ∀ {offset : Nat}, offset ≤ (encode text).length → ¬InsideCharacter text offset →
      Edit.insideCharacter (encode text) offset = false := by
    intro offset hle hinside
    rw [← Bool.not_eq_true, insideCharacter_iff (Int.natCast_nonneg offset) (by omega)]
    exact hinside
  by_cases horder : start ≤ stop ∧ start ≤ (encode text).length
  · obtain ⟨hle, hlength⟩ := horder
    by_cases hend : stop ≤ (encode text).length
    · exact (ValidUtf8.encode text).slice hle hend (hcut hlength hstart) (hcut hend hstop)
    · unfold slice
      rw [List.take_of_length_le (by omega)]
      exact (ValidUtf8.encode text).drop hlength (hcut hlength hstart)
  · have hempty : slice (encode text) start stop = [] := by
      unfold slice
      rw [List.drop_eq_nil_iff, List.length_take]
      omega
    rw [hempty]
    exact ValidUtf8.encode ""

/-- The text of a valid node can be read, and is the one that the node spells. -/
theorem Node.exists_text (h : node.tree.Valid text) :
    ∃ actual, node.text (encode text) = .ok actual ∧
      ∀ value, actual = value ↔ node.Spells (encode text) value := by
  cases h with
  | node hstart hstop _ =>
      obtain ⟨actual, hactual⟩ := validUtf8_slice hstart hstop
      have htext := Node.text_eq_ok_iff.mpr (decode?_eq_some_iff.mp hactual)
      refine ⟨actual, htext, fun value => ?_⟩
      rw [← Node.text_eq_ok_iff, htext, Except.ok.injEq]

end Valid

end Arborist

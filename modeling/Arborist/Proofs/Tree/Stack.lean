import Arborist.Proofs.Tree.Preorder

/-!
# Walks out of a stack

`Tree.walk` follows the tree: the walk over a node is put together from the walks over its children.
A search that goes node by node keeps a stack instead. It takes the node on top, and puts the
children of this node in its place once they are asked for, so that a tree which cannot be read to
the end is read as far as the search gets. `Walk.FromStack` says which walk comes out of a stack,
and `Node.fromStack_iff` that the two are the same, for trees that can be read and others.

A walk that is not cut short has read everything below the nodes it met (`Node.whole_of_mem_walk`).
That nodes come from reading trees at all is `Node.Reached`; a walk passes it on, and the children
of the parent of such a node can be read (`Node.Reached.exists_children_of_parent`).
-/

namespace Arborist

namespace Walk

/-- The walk out of a stack of nodes. The one on top is met, and its children are put in its place,
the first of them on top; if they cannot be read, that is the end. -/
inductive FromStack : List Node → Walk → Prop
  | done : FromStack [] ⟨[], none⟩
  | cut {node : Node} {rest : List Node} {fault : Fault} :
      node.children = .error fault → FromStack (node :: rest) ⟨[node], some fault⟩
  | step {node : Node} {rest children : List Node} {walk : Walk} :
      node.children = .ok children → FromStack (children ++ rest) walk →
      FromStack (node :: rest) ⟨node :: walk.nodes, walk.fault⟩

/-- A stack has one walk at most. -/
theorem FromStack.unique {stack : List Node} {walk other : Walk} (h : FromStack stack walk)
    (h' : FromStack stack other) : walk = other := by
  induction h generalizing other with
  | done =>
      cases h' with
      | done => rfl
  | cut hfault =>
      cases h' with
      | cut hfault' =>
          cases hfault.symm.trans hfault'
          rfl
      | step hchildren _ => cases hfault.symm.trans hchildren
  | step hchildren _ ih =>
      cases h' with
      | cut hfault => cases hchildren.symm.trans hfault
      | step hchildren' hrest =>
          cases hchildren.symm.trans hchildren'
          rw [ih hrest]

theorem followedBy_assoc (first second third : Walk) :
    (first.followedBy second).followedBy third = first.followedBy (second.followedBy third) := by
  unfold followedBy
  cases first.fault with
  | some fault => rfl
  | none =>
      cases second.fault with
      | some fault => rfl
      | none => simp only [List.append_assoc]

theorem followedBy_done (walk : Walk) : walk.followedBy ⟨[], none⟩ = walk := by
  obtain ⟨nodes, fault⟩ := walk
  cases fault with
  | some fault => rfl
  | none => simp [followedBy]

end Walk

/-! ## The walk over a tree -/

section Reading

variable {trees : List Tree} {fault : Fault} {node : Node}

theorem Tree.mapM_element_eq_error (h : Tree.firstFault trees = some fault) :
    trees.mapM Tree.element = .error fault := by
  induction trees with
  | nil => cases h
  | cons tree trees ih =>
      rw [Tree.firstFault] at h
      rw [List.mapM_cons]
      cases helement : tree.element with
      | error first =>
          rw [helement] at h
          cases h
          rfl
      | ok element =>
          rw [helement] at h
          rw [ok_bind, ih h]
          rfl

theorem Tree.exists_elements_of_firstFault (h : Tree.firstFault trees = none) :
    ∃ elements, List.Forall₂ (fun tree element => tree.element = .ok element) trees elements := by
  induction trees with
  | nil => exact ⟨[], .nil⟩
  | cons tree trees ih =>
      rw [Tree.firstFault] at h
      cases helement : tree.element with
      | error first =>
          rw [helement] at h
          cases h
      | ok element =>
          rw [helement] at h
          obtain ⟨elements, helements⟩ := ih h
          exact ⟨element :: elements, .cons helement helements⟩

theorem Node.children_eq_error (h : Tree.firstFault node.below = some fault) :
    node.children = .error fault := by
  unfold Node.children
  rw [Tree.mapM_element_eq_error h]
  rfl

end Reading

section Stack

open Walk

mutual

/-- What comes out of a node on top of a stack is the walk over its tree, and then what comes out of
the rest. -/
theorem Tree.fromStack_walk :
    ∀ (tree : Tree) {element : Element} (above : List (Nat × Element)) {rest : List Node}
      {walk : Walk}, tree.element = .ok element → FromStack rest walk →
      FromStack (⟨element, above⟩ :: rest) ((tree.walk above).followedBy walk)
  | .absent, _, _, _, _, helement, _ => by cases helement
  | .node none _ _, _, _, _, _, helement, _ => by cases helement
  | .node (some kind) mark below, _, above, rest, walk, helement, hrest => by
      cases helement
      rw [Tree.walk]
      cases hfault : Tree.firstFault below with
      | some fault => exact .cut (Node.children_eq_error hfault)
      | none =>
          obtain ⟨elements, helements⟩ := Tree.exists_elements_of_firstFault hfault
          have hbelow :=
            Tree.fromStack_walkList below ⟨⟨kind, mark, below⟩, above⟩ 0 helements hrest
          simp only [Nat.zero_add] at hbelow
          dsimp only
          rw [followedBy_assoc]
          exact .step (Node.children_eq_ok_iff.mpr ⟨elements, helements, rfl⟩) hbelow

/-- The same of siblings on top of a stack. -/
theorem Tree.fromStack_walkList :
    ∀ (trees : List Tree) (parent : Node) (position : Nat) {elements : List Element}
      {rest : List Node} {walk : Walk},
      List.Forall₂ (fun tree element => tree.element = .ok element) trees elements →
      FromStack rest walk →
      FromStack (elements.mapIdx (fun i element => parent.child (position + i) element) ++ rest)
        ((Tree.walkList parent position trees).followedBy walk)
  | [], parent, position, _, rest, walk, helements, hrest => by
      cases helements
      exact hrest
  | tree :: trees, parent, position, _, rest, walk, helements, hrest => by
      cases helements with
      | @cons _ element _ elements helement helements =>
          have hothers := Tree.fromStack_walkList trees parent (position + 1) helements hrest
          simp only [Nat.add_assoc, Nat.add_comm 1] at hothers
          rw [Tree.walkList, followedBy_assoc, List.mapIdx_cons, List.cons_append]
          exact Tree.fromStack_walk tree ((position, parent.toElement) :: parent.above) helement
            hothers

end

end Stack

/-- The walk over a node is what comes out of a stack with this node alone. -/
theorem Node.fromStack_iff {node : Node} {walk : Walk} :
    Walk.FromStack [node] walk ↔ walk = node.walk := by
  have h : Walk.FromStack [node] node.walk := by
    have h := Tree.fromStack_walk node.tree node.above rfl Walk.FromStack.done
    rwa [Walk.followedBy_done] at h
  constructor
  · intro hwalk
    exact hwalk.unique h
  · rintro rfl
    exact h

/-! ## What has been read -/

namespace Node

/-- Everything below the node can be read. -/
inductive Whole : Node → Prop
  | intro {node : Node} {children : List Node} :
      node.children = .ok children → (∀ child ∈ children, Whole child) → Whole node

/-- The node comes from reading a tree from its root down. -/
inductive Reached : Node → Prop
  | root {tree : Tree} {node : Node} : tree.root = .ok node → Reached node
  | child {parent node : Node} {children : List Node} :
      Reached parent → parent.children = .ok children → node ∈ children → Reached node

end Node

section Read

open Walk

variable {stack : List Node} {walk : Walk} {node parent other : Node}

theorem Walk.FromStack.whole (h : FromStack stack walk) (hfault : walk.fault = none) :
    (∀ node ∈ stack, node.Whole) ∧ ∀ node ∈ walk.nodes, node.Whole := by
  induction h with
  | done => simp
  | cut => cases hfault
  | @step node rest children walk hchildren _ ih =>
      obtain ⟨hstack, hnodes⟩ := ih hfault
      obtain ⟨hchild, hrest⟩ := List.forall_mem_append.mp hstack
      have hnode : node.Whole := .intro hchildren hchild
      exact ⟨List.forall_mem_cons.mpr ⟨hnode, hrest⟩, List.forall_mem_cons.mpr ⟨hnode, hnodes⟩⟩

theorem Walk.FromStack.reached (h : FromStack stack walk) (hstack : ∀ node ∈ stack, node.Reached) :
    ∀ node ∈ walk.nodes, node.Reached := by
  induction h with
  | done => exact hstack
  | cut =>
      intro node hnode
      obtain rfl := List.mem_singleton.mp hnode
      exact hstack node List.mem_cons_self
  | @step node rest children walk hchildren _ ih =>
      obtain ⟨hnode, hrest⟩ := List.forall_mem_cons.mp hstack
      have hchild : ∀ child ∈ children, child.Reached := fun child => hnode.child hchildren
      exact List.forall_mem_cons.mpr ⟨hnode, ih (List.forall_mem_append.mpr ⟨hchild, hrest⟩)⟩

namespace Node

theorem whole_of_mem_walk (hfault : node.walk.fault = none) (h : other ∈ node.walk.nodes) :
    other.Whole :=
  ((fromStack_iff.mpr rfl).whole hfault).2 other h

theorem Reached.of_mem_walk (hnode : node.Reached) (h : other ∈ node.walk.nodes) :
    other.Reached := by
  refine (fromStack_iff.mpr rfl).reached ?_ other h
  exact List.forall_mem_singleton.mpr hnode

theorem Whole.exists_children (h : node.Whole) :
    ∃ children, node.children = .ok children ∧ ∀ child ∈ children, child.Whole := by
  cases h with
  | intro hchildren hbelow => exact ⟨_, hchildren, hbelow⟩

theorem Whole.of_mem_children {children : List Node} (h : node.Whole)
    (hchildren : node.children = .ok children) (hmem : other ∈ children) : other.Whole := by
  obtain ⟨found, hfound, hbelow⟩ := h.exists_children
  cases hfound.symm.trans hchildren
  exact hbelow other hmem

/-- A node that was reached has a parent whose children were read. -/
theorem Reached.exists_children_of_parent (h : node.Reached) (hparent : node.parent = some parent) :
    ∃ children, parent.children = .ok children := by
  cases h with
  | root hroot =>
      rw [Node.parent, (Tree.root_eq_ok_iff.mp hroot).2] at hparent
      cases hparent
  | child _ hchildren hmem =>
      have hup := ((mem_children_iff hchildren).mp hmem).parent_eq
      cases hup.symm.trans hparent
      exact ⟨_, hchildren⟩

end Node

end Read

end Arborist

import Arborist.Proofs.Tree.Kinship

/-!
# Pre-order

`Node.Preorder node nodes` says that `nodes` is the pre-order of a node: the node itself, then the
pre-orders of its children from the left. A walk over a valid node is not cut short and meets
exactly these nodes (`Node.walk_of_valid`). Two facts describe the list without recursion:

* `Preorder.mem_iff`, `Preorder.mem_below_iff` — it has the node and what lies below it;
* `Preorder.pairwise_path_lt` — paths increase along it in the order of dictionaries, so that
  parents come before children, left before right, and no node twice.
-/

namespace Arborist

namespace Node

/-- The pre-order of a node is the node, followed by the pre-orders of its children. -/
inductive Preorder : Node → List Node → Prop
  | mk {node : Node} {children : List Node} {listing : Node → List Node} :
      node.children = .ok children → (∀ child ∈ children, Preorder child (listing child)) →
      Preorder node (node :: children.flatMap listing)

variable {node other : Node} {nodes below : List Node}

/-! ## Which nodes, and in which order -/

theorem Preorder.exists_eq_cons (h : node.Preorder nodes) : ∃ below, nodes = node :: below := by
  cases h with
  | mk => exact ⟨_, rfl⟩

/-- The nodes of a pre-order are those within the node. -/
theorem Preorder.mem_iff (h : node.Preorder nodes) : other ∈ nodes ↔ other.Within node := by
  induction h with
  | @mk node children listing hchildren _ ih =>
      rw [List.mem_cons, List.mem_flatMap, within_iff, ancestorOf_iff_exists_parentOf]
      refine or_congr_right (exists_congr fun child => ?_)
      rw [mem_children_iff hchildren]
      exact and_congr_right fun hchild => ih child ((mem_children_iff hchildren).mpr hchild)

/-- Behind the node itself come those strictly below. -/
theorem Preorder.mem_below_iff (h : node.Preorder (node :: below)) :
    other ∈ below ↔ node.AncestorOf other := by
  cases h with
  | mk hchildren hlisting =>
      rw [List.mem_flatMap, ancestorOf_iff_exists_parentOf]
      refine exists_congr fun child => ?_
      rw [mem_children_iff hchildren]
      exact and_congr_right fun hchild =>
        (hlisting child ((mem_children_iff hchildren).mpr hchild)).mem_iff

/-- The path of a node begins with those of the nodes above. -/
theorem Within.exists_path_eq (h : other.Within node) : ∃ way, other.path = node.path ++ way := by
  induction h with
  | refl => exact ⟨[], (List.append_nil _).symm⟩
  | tail _ hparent ih =>
      obtain ⟨way, hway⟩ := ih
      obtain ⟨position, hposition⟩ := hparent.exists_path_eq
      exact ⟨way ++ [position], by rw [hposition, hway, List.append_assoc]⟩

/-- In a pre-order paths increase. -/
theorem Preorder.pairwise_path_lt (h : node.Preorder nodes) :
    nodes.Pairwise fun first second => first.path < second.path := by
  induction h with
  | @mk node children listing hchildren hlisting ih =>
      -- What is listed for the child at a position has a path through that position.
      have hpath : ∀ (position : Nat) (hlt : position < children.length),
          ∀ x ∈ listing children[position], ∃ way, x.path = node.path ++ position :: way := by
        intro position hlt x hx
        have hwithin := (hlisting _ (List.getElem_mem hlt)).mem_iff.mp hx
        obtain ⟨way, hway⟩ := hwithin.exists_path_eq
        rw [path_getElem_children hchildren (List.getElem?_eq_getElem hlt)] at hway
        exact ⟨way, by rw [hway, List.append_assoc, List.singleton_append]⟩
      rw [List.pairwise_cons, List.pairwise_flatMap, List.pairwise_iff_getElem]
      refine ⟨fun x hx => ?_, ih, fun i j hi hj hij x hx y hy => ?_⟩
      · obtain ⟨child, hchild, hx⟩ := List.mem_flatMap.mp hx
        obtain ⟨position, hlt, rfl⟩ := List.mem_iff_getElem.mp hchild
        obtain ⟨way, hway⟩ := hpath position hlt x hx
        calc node.path
          _ = node.path ++ [] := (List.append_nil _).symm
          _ < node.path ++ position :: way := List.append_left_lt (List.nil_lt_cons position way)
          _ = x.path := hway.symm
      · obtain ⟨way, hway⟩ := hpath i hi x hx
        obtain ⟨way', hway'⟩ := hpath j hj y hy
        rw [hway, hway']
        exact List.append_left_lt (List.cons_lt_cons_iff.mpr (.inl hij))

end Node

/-! ## Walks -/

theorem Tree.firstFault_eq_none {trees : List Tree} {elements : List Element}
    (h : List.Forall₂ (fun tree element => tree.element = .ok element) trees elements) :
    Tree.firstFault trees = none := by
  induction h with
  | nil => rfl
  | cons helement _ ih =>
      rw [Tree.firstFault, helement]
      exact ih

theorem Node.firstFault_below {node : Node} {children : List Node}
    (h : node.children = .ok children) : Tree.firstFault node.below = none := by
  obtain ⟨elements, helements, -⟩ := Node.children_eq_ok_iff.mp h
  exact Tree.firstFault_eq_none helements

/-- The walks over the children of a node, if none of them is cut short. -/
theorem Tree.walkList_eq {parent : Node} {position : Nat} {trees : List Tree}
    {children : List Node} (h : parent.ReadFrom position trees children)
    (hfault : ∀ child ∈ children, child.walk.fault = none) :
    Tree.walkList parent position trees =
      ⟨children.flatMap fun child => child.walk.nodes, none⟩ := by
  induction h with
  | nil => rfl
  | @cons position element trees children _ ih =>
      obtain ⟨hfirst, hrest⟩ := List.forall_mem_cons.mp hfault
      rw [Tree.walkList, ih hrest]
      show Walk.followedBy (parent.child position element).walk _ = _
      unfold Walk.followedBy
      rw [hfirst]
      rfl

namespace Node

variable {text : String} {node : Node} {children : List Node}

/-- A walk meets the node and then goes over its children, if no walk over a child is cut short. -/
theorem walk_eq (hchildren : node.children = .ok children)
    (hfault : ∀ child ∈ children, child.walk.fault = none) :
    node.walk = ⟨node :: children.flatMap fun child => child.walk.nodes, none⟩ := by
  unfold Node.walk
  rw [Tree.walk, firstFault_below hchildren]
  show Walk.followedBy ⟨[node], none⟩ (Tree.walkList node 0 node.below) = _
  rw [Tree.walkList_eq (readFrom_of_children hchildren) hfault]
  rfl

/-- The walk over a valid node is not cut short, and meets the nodes in pre-order. -/
theorem walk_of_valid (h : node.tree.Valid text) :
    node.walk.fault = none ∧ node.Preorder node.walk.nodes := by
  refine valid_induction (fun {node children} _ hchildren hchild => ?_) h
  rw [walk_eq hchildren fun child hmem => (hchild child hmem).1]
  exact ⟨rfl, .mk hchildren fun child hmem => (hchild child hmem).2⟩

/-- A walk over a valid node is the node and what comes behind it in pre-order. -/
theorem exists_walk_eq (h : node.tree.Valid text) :
    ∃ below, node.walk = ⟨node :: below, none⟩ ∧ node.Preorder (node :: below) := by
  obtain ⟨hfault, hpreorder⟩ := walk_of_valid h
  obtain ⟨below, hbelow⟩ := hpreorder.exists_eq_cons
  rw [hbelow] at hpreorder
  refine ⟨below, ?_, hpreorder⟩
  rw [← hbelow, ← hfault]

end Node

end Arborist

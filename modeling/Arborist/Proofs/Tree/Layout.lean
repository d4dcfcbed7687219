import Arborist.Proofs.Tree.Preorder
import Mathlib.Data.List.Pairwise

/-!
# How extents lie

Parsers hand over extents that are in order: children lie inside their parent, and each starts at or
after the end of the one before (`Node.LaidOut`). Nothing in the type of trees says so. Where it
does hold, pre-order is also the order of the extents (`Preorder.pairwise_ancestorOf_or_le`): of two
nodes the first is above the second or ends before it.

Whether a tree is valid can be found out by looking at each node once (`Tree.fitsIn_iff`).
-/

namespace Arborist

open Text

/-! ## Nodes in order -/

namespace Node

variable {node parent child top : Node} {nodes children : List Node}

/-- The node ends after its start, its children lie inside it, and each child starts at or after the
end of the one before. -/
def InOrder (node : Node) : Prop :=
  node.start ≤ node.stop ∧ ∀ children, node.children = .ok children →
    (∀ child ∈ children, node.start ≤ child.start ∧ child.stop ≤ node.stop) ∧
      children.IsChain fun child next => child.stop ≤ next.start

instance (node : Node) : Decidable node.InOrder :=
  match hchildren : node.children with
  | .error _ => decidable_of_iff (node.start ≤ node.stop)
      ⟨fun h => ⟨h, fun _ hread => by cases hchildren.symm.trans hread⟩, And.left⟩
  | .ok children => decidable_of_iff
      (node.start ≤ node.stop ∧
        (∀ child ∈ children, node.start ≤ child.start ∧ child.stop ≤ node.stop) ∧
          children.IsChain fun child next => child.stop ≤ next.start)
      ⟨fun h => ⟨h.1, fun _ hread => Except.ok.inj (hchildren.symm.trans hread) ▸ h.2⟩,
        fun h => ⟨h.1, h.2 children hchildren⟩⟩

/-- All nodes within the node are in order. -/
def LaidOut (top : Node) : Prop := ∀ node : Node, node.Within top → node.InOrder

theorem LaidOut.of_within (h : top.LaidOut) (hnode : node.Within top) : node.LaidOut :=
  fun other hother => h other (hnode.trans hother)

theorem Preorder.laidOut_iff (h : top.Preorder nodes) :
    top.LaidOut ↔ ∀ node ∈ nodes, node.InOrder :=
  forall_congr' fun _ => imp_congr_left h.mem_iff.symm

theorem InOrder.of_parentOf (h : parent.InOrder) (hchildren : parent.children = .ok children)
    (hchild : parent.ParentOf child) : parent.start ≤ child.start ∧ child.stop ≤ parent.stop :=
  (h.2 children hchildren).1 child ((mem_children_iff hchildren).mpr hchild)

/-- What lies below a node lies inside it. -/
theorem LaidOut.inside {text : String} (hvalid : top.tree.Valid text) (h : top.LaidOut)
    (hnode : node.Within top) : top.start ≤ node.start ∧ node.stop ≤ top.stop := by
  suffices hinside : node.tree.Valid text ∧ top.start ≤ node.start ∧ node.stop ≤ top.stop from
    hinside.2
  induction hnode with
  | refl => exact ⟨hvalid, Nat.le_refl _, Nat.le_refl _⟩
  | @tail parent child hparent hstep ih =>
      obtain ⟨hvalid', hstart, hstop⟩ := ih
      obtain ⟨children, hchildren⟩ := exists_children hvalid'
      obtain ⟨hstart', hstop'⟩ := (h parent hparent).of_parentOf hchildren hstep
      exact ⟨hstep.valid hvalid', Nat.le_trans hstart hstart', Nat.le_trans hstop' hstop⟩

/-- Children in a row are apart from all later ones, not only from the next. -/
theorem LaidOut.pairwise_children (h : node.LaidOut) (hchildren : node.children = .ok children) :
    children.Pairwise fun child later => child.stop ≤ later.start := by
  have hself : ∀ child ∈ children, child.start ≤ child.stop := by
    intro child hchild
    have hwithin : child.Within node := .single ((mem_children_iff hchildren).mp hchild)
    exact (h child hwithin).1
  have hrow := ((h node .refl).2 children hchildren).2
  clear h hchildren
  induction hrow with
  | nil => exact .nil
  | singleton => exact List.pairwise_singleton _ _
  | @cons_cons first second rest hnext _ ih =>
      obtain ⟨-, hrest⟩ := List.forall_mem_cons.mp hself
      have hlater := List.pairwise_cons.mp (ih hrest)
      refine .cons (fun later hmem => ?_) (ih hrest)
      rcases List.mem_cons.mp hmem with rfl | hmem
      · exact hnext
      · have hself' := hrest second List.mem_cons_self
        have hle := hlater.1 later hmem
        omega

/-- Of two nodes in pre-order the first is above the second or ends before it. -/
theorem Preorder.pairwise_ancestorOf_or_le {text : String} (h : node.Preorder nodes)
    (hvalid : node.tree.Valid text) (hlaid : node.LaidOut) :
    nodes.Pairwise fun first second => first.AncestorOf second ∨ first.stop ≤ second.start := by
  induction h with
  | @mk node children listing hchildren hlisting ih =>
      have hchild : ∀ child ∈ children, child.tree.Valid text ∧ child.LaidOut := by
        intro child hmem
        have hparent := (mem_children_iff hchildren).mp hmem
        exact ⟨hparent.valid hvalid, hlaid.of_within (.single hparent)⟩
      -- What is listed for a child lies inside the child.
      have hinside : ∀ child ∈ children, ∀ x ∈ listing child,
          child.start ≤ x.start ∧ x.stop ≤ child.stop := by
        intro child hmem x hx
        obtain ⟨hvalid', hlaid'⟩ := hchild child hmem
        exact hlaid'.inside hvalid' ((hlisting child hmem).mem_iff.mp hx)
      rw [List.pairwise_cons, List.pairwise_flatMap]
      refine ⟨fun x hx => .inl ?_, fun child hmem => ?_, ?_⟩
      · exact (Preorder.mk hchildren hlisting).mem_below_iff.mp hx
      · obtain ⟨hvalid', hlaid'⟩ := hchild child hmem
        exact ih child hmem hvalid' hlaid'
      · refine (hlaid.pairwise_children hchildren).imp_of_mem fun hfirst hsecond hle x hx y hy => ?_
        have hx' := (hinside _ hfirst x hx).2
        have hy' := (hinside _ hsecond y hy).1
        exact .inr (Nat.le_trans hx' (Nat.le_trans hle hy'))

/-- Of two nodes one is above the other, or one ends before the other. -/
theorem LaidOut.nested_or_apart {text : String} {first second : Node} (h : top.LaidOut)
    (hvalid : top.tree.Valid text) (hfirst : first.Within top) (hsecond : second.Within top)
    (hne : first ≠ second) :
    (first.AncestorOf second ∨ second.AncestorOf first) ∨
      first.stop ≤ second.start ∨ second.stop ≤ first.start := by
  obtain ⟨-, hpreorder⟩ := walk_of_valid hvalid
  have hpairs : top.walk.nodes.Pairwise fun a b =>
      (a.AncestorOf b ∨ b.AncestorOf a) ∨ a.stop ≤ b.start ∨ b.stop ≤ a.start :=
    (hpreorder.pairwise_ancestorOf_or_le hvalid h).imp fun hor => hor.imp .inl .inl
  have : Std.Symm fun a b : Node =>
      (a.AncestorOf b ∨ b.AncestorOf a) ∨ a.stop ≤ b.start ∨ b.stop ≤ a.start :=
    ⟨fun _ _ hor => hor.imp Or.symm Or.symm⟩
  exact hpairs.forall (hpreorder.mem_iff.mpr hfirst) (hpreorder.mem_iff.mpr hsecond) hne

/-- Nodes of a pre-order none of which is above another follow one another in the source. -/
theorem Preorder.pairwise_le_of_sublist {text : String} {chosen : List Node}
    (h : node.Preorder nodes) (hvalid : node.tree.Valid text) (hlaid : node.LaidOut)
    (hchosen : chosen.Sublist nodes)
    (hnested : ∀ outer ∈ chosen, ∀ inner ∈ chosen, ¬outer.AncestorOf inner) :
    chosen.Pairwise fun first second => first.stop ≤ second.start := by
  have hpairs := (h.pairwise_ancestorOf_or_le hvalid hlaid).sublist hchosen
  exact hpairs.imp_of_mem fun hfirst hsecond hor =>
    hor.resolve_left (hnested _ hfirst _ hsecond)

end Node

/-! ## Extents that nest -/

/-- Every extent is a range of bytes of a source of the given size, and the extents of children lie
inside that of their parent. Where the extents of siblings lie is left open. -/
structure Tree.Nests (tree : Tree) (size : Nat) : Prop where
  in_source : ∀ node : Node, tree.Contains node → node.start ≤ node.stop ∧ node.stop ≤ size
  in_parent : ∀ parent child : Node, tree.Contains parent → parent.ParentOf child →
    parent.start ≤ child.start ∧ child.stop ≤ parent.stop

namespace Tree.Nests

variable {tree : Tree} {size : Nat} {node outer inner : Node}

/-- What lies below a node lies inside it. -/
theorem in_ancestor (h : tree.Nests size) (houter : tree.Contains outer)
    (hinner : outer.AncestorOf inner) : outer.start ≤ inner.start ∧ inner.stop ≤ outer.stop := by
  induction hinner with
  | single hchild => exact h.in_parent outer _ houter hchild
  | @tail parent child hparent hchild ih =>
      have hstep := h.in_parent parent child (houter.of_ancestorOf hparent) hchild
      omega

/-- Extents that are in order nest. -/
theorem of_laidOut {text : String} {root : Node} (hroot : tree.root = .ok root)
    (hvalid : tree.Valid text) (h : root.LaidOut) (hsize : root.stop ≤ size) :
    tree.Nests size := by
  have hwithin : ∀ {node : Node}, tree.Contains node → node.Within root := by
    intro node hnode
    obtain ⟨root', hroot', hnode⟩ := hnode
    obtain rfl := Except.ok.inj (hroot.symm.trans hroot')
    exact hnode
  have hvalid' : root.tree.Valid text := (Tree.root_eq_ok_iff.mp hroot).1 ▸ hvalid
  constructor
  · intro node hnode
    have hinside := h.inside hvalid' (hwithin hnode)
    exact ⟨(h node (hwithin hnode)).1, Nat.le_trans hinside.2 hsize⟩
  · intro parent child hparent hchild
    obtain ⟨children, hchildren⟩ := Node.exists_children (hparent.valid hvalid)
    exact (h parent (hwithin hparent)).of_parentOf hchildren hchild

end Tree.Nests

/-- Extents nest, and each child starts at or after the end of the one before. -/
structure Tree.Ordered (tree : Tree) (size : Nat) : Prop extends tree.Nests size where
  in_row : ∀ (parent : Node) (children : List Node), tree.Contains parent →
    parent.children = .ok children → children.IsChain fun child next => child.stop ≤ next.start

namespace Tree.Ordered

variable {tree : Tree} {size : Nat} {node : Node}

/-- Within every node of such a tree extents are in order. -/
theorem laidOut (h : tree.Ordered size) (hnode : tree.Contains node) : node.LaidOut := by
  intro inner hinner
  have hcontains := hnode.of_within hinner
  refine ⟨(h.in_source inner hcontains).1, fun children hchildren => ?_⟩
  refine ⟨fun child hchild => ?_, h.in_row inner children hcontains hchildren⟩
  exact h.in_parent inner child hcontains ((Node.mem_children_iff hchildren).mp hchild)

theorem of_laidOut {text : String} {root : Node} (hroot : tree.root = .ok root)
    (hvalid : tree.Valid text) (h : root.LaidOut) (hsize : root.stop ≤ size) :
    tree.Ordered size where
  toNests := .of_laidOut hroot hvalid h hsize
  in_row := by
    rintro parent children ⟨root', hroot', hparent⟩ hchildren
    obtain rfl := Except.ok.inj (hroot.symm.trans hroot')
    exact ((h parent hparent).2 children hchildren).2

end Tree.Ordered

/-! ## Checking that a tree is valid -/

mutual

/-- Whether all nodes of a tree are there, have a kind, and cut no character. -/
def Tree.fitsIn (source : Bytes) : Tree → Bool
  | .absent => false
  | .node none _ _ => false
  | .node (some _) mark below =>
    !Edit.insideCharacter source mark.start && !Edit.insideCharacter source mark.stop &&
      Tree.fitInto source below

/-- Whether all nodes of a list of trees do. -/
def Tree.fitInto (source : Bytes) : List Tree → Bool
  | [] => true
  | tree :: rest => tree.fitsIn source && Tree.fitInto source rest

end

mutual

theorem Tree.fitsIn_iff {text : String} :
    ∀ {tree : Tree}, tree.fitsIn (encode text) = true ↔ tree.Valid text
  | .absent => iff_of_false Bool.false_ne_true (by rintro ⟨⟩)
  | .node none _ _ => iff_of_false Bool.false_ne_true (by rintro ⟨⟩)
  | .node (some kind) mark below => by
      simp only [Tree.fitsIn, Bool.and_eq_true, Bool.not_eq_true', ← Bool.not_eq_true,
        insideCharacter_natCast_iff, Tree.fitInto_iff]
      constructor
      · rintro ⟨⟨hstart, hstop⟩, hbelow⟩
        exact .node hstart hstop hbelow
      · rintro ⟨hstart, hstop, hbelow⟩
        exact ⟨⟨hstart, hstop⟩, hbelow⟩

theorem Tree.fitInto_iff {text : String} :
    ∀ {trees : List Tree}, Tree.fitInto (encode text) trees = true ↔ ∀ tree ∈ trees, tree.Valid text
  | [] => by simp [Tree.fitInto]
  | tree :: rest => by
      rw [Tree.fitInto, Bool.and_eq_true, Tree.fitsIn_iff, Tree.fitInto_iff, List.forall_mem_cons]

end

end Arborist

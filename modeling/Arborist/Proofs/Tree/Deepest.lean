import Arborist.Proofs.Text.Rows
import Arborist.Proofs.Tree.Layout
import Arborist.Tree.Place

/-!
# The deepest node around an offset

People name places by rows and columns, and `Node.deepestAt` compares rows and columns. Offsets are
in the same order as the places they have (`Place.before_ofOffset_iff`), so that a node is around
the place of an offset exactly if it covers the offset.

If extents are in order, at most one child of a node covers an offset, and all nodes that do are on
one way down (`Node.eq_of_covers`). The search follows this way to its end, and finds the node that
every other node around the offset lies above (`Node.deepestAt_ofOffset`). An empty node covers
nothing, and an end belongs to what comes next; only the node that the search starts from counts up
to and including its end.
-/

namespace Arborist

open Text

/-! ## Places are in the order of offsets -/

namespace Place

variable (source : Bytes) (first second : Nat)

theorem lineStart_eq_of_rowOf_eq {source : Bytes} {first second : Nat}
    (h : rowOf source first = rowOf source second) :
    lineStart source first = lineStart source second := by
  have hle : ∀ {a b : Nat}, rowOf source a = rowOf source b →
      lineStart source a ≤ lineStart source b := by
    intro a b hrow
    rw [lineStart_le_iff, rowOf_lineStart]
    exact Nat.le_of_eq hrow
  exact Nat.le_antisymm (hle h) (hle h.symm)

theorem before_iff (first second : Place) : first.before second = true ↔
    first.row < second.row ∨ first.row = second.row ∧ first.column < second.column := by
  simp [before]

theorem before_ofOffset_iff :
    (ofOffset source first).before (ofOffset source second) = true ↔ first < second := by
  rw [before_iff]
  simp only [ofOffset, Int.ofNat_lt, Int.ofNat_inj]
  constructor
  · rintro (hrow | ⟨hrow, hcolumn⟩)
    · refine Nat.lt_of_not_le fun hle => ?_
      exact Nat.not_le_of_lt hrow (rowOf_mono hle)
    · rw [lineStart_eq_of_rowOf_eq hrow] at hcolumn
      omega
  · intro hlt
    have hmono : rowOf source first ≤ rowOf source second := rowOf_mono (Nat.le_of_lt hlt)
    rcases Nat.lt_or_eq_of_le hmono with hrow | hrow
    · exact .inl hrow
    · rw [lineStart_eq_of_rowOf_eq hrow]
      exact .inr ⟨hrow, by omega⟩

theorem upTo_ofOffset_iff :
    (ofOffset source first).upTo (ofOffset source second) = true ↔ first ≤ second := by
  rw [upTo, Bool.not_eq_true', ← Bool.not_eq_true, before_ofOffset_iff, Nat.not_lt]

end Place

/-! ## Nodes that cover an offset -/

namespace Node

variable {text : String} {source : Bytes} {offset : Nat} {node child other top found : Node}
  {children : List Node}

/-- The byte at the offset belongs to the node. -/
def Covers (node : Node) (offset : Nat) : Prop := node.start ≤ offset ∧ offset < node.stop

/-- The node is the deepest one around an offset that lies within another one: it is this one or
covers the offset, and what else covers the offset lies above it. -/
structure DeepestWithin (top : Node) (offset : Nat) (node : Node) : Prop where
  within : node.Within top
  covers : node = top ∨ node.Covers offset
  above : ∀ other : Node, top.AncestorOf other → other.Covers offset →
    other = node ∨ other.AncestorOf node

/-- There is one deepest node at most. -/
theorem DeepestWithin.unique (h : top.DeepestWithin offset node)
    (h' : top.DeepestWithin offset other) : node = other := by
  -- Each of the two lies within the other.
  have hle : ∀ {a b : Node}, top.DeepestWithin offset a → top.DeepestWithin offset b →
      b.Within a := by
    intro a b ha hb
    rcases ha.covers with rfl | hcovers
    · exact hb.within
    · rcases within_iff.mp ha.within with rfl | hancestor
      · exact hb.within
      · exact within_iff.mpr ((hb.above a hancestor hcovers).imp_left Eq.symm)
  exact (hle h' h).antisymm (hle h h')

theorem surrounds_iff : surrounds source (Place.ofOffset source offset) node.tree = true ↔
    node.Covers offset := by
  rw [Node.tree, surrounds, Bool.and_eq_true, Place.upTo_ofOffset_iff, Place.before_ofOffset_iff]
  rfl

/-- Of the children of a node one at most covers an offset. -/
theorem eq_of_covers (hlaid : node.LaidOut) (hchildren : node.children = .ok children)
    (hchild : child ∈ children) (hother : other ∈ children) (hcovers : child.Covers offset)
    (hcovers' : other.Covers offset) : child = other := by
  by_contra hne
  have hpairs : children.Pairwise fun a b => ¬(a.Covers offset ∧ b.Covers offset) := by
    refine (hlaid.pairwise_children hchildren).imp fun hle => ?_
    rintro ⟨⟨-, hstop⟩, hstart, -⟩
    omega
  have : Std.Symm fun a b : Node => ¬(a.Covers offset ∧ b.Covers offset) :=
    ⟨fun _ _ hnot hboth => hnot hboth.symm⟩
  exact hpairs.forall hchild hother hne ⟨hcovers, hcovers'⟩

/-- What covers an offset below a node lies within a child that covers it. -/
theorem exists_child_covers (hvalid : node.tree.Valid text) (hlaid : node.LaidOut)
    (hchildren : node.children = .ok children) (hother : node.AncestorOf other)
    (hcovers : other.Covers offset) :
    ∃ child ∈ children, other.Within child ∧ child.Covers offset := by
  obtain ⟨child, hparent, hwithin⟩ := ancestorOf_iff_exists_parentOf.mp hother
  have hinside := (hlaid.of_within (.single hparent)).inside (hparent.valid hvalid) hwithin
  obtain ⟨hstart, hstop⟩ := hcovers
  exact ⟨child, (mem_children_iff hchildren).mpr hparent, hwithin, by omega, by omega⟩

/-! ## One step down -/

/-- A node none of whose children covers the offset is the deepest. -/
theorem deepestWithin_self (hvalid : node.tree.Valid text) (hlaid : node.LaidOut)
    (hchildren : node.children = .ok children) (hnone : ∀ child ∈ children, ¬child.Covers offset) :
    node.DeepestWithin offset node where
  within := .refl
  covers := .inl rfl
  above := by
    intro other hother hcovers
    obtain ⟨child, hmem, -, hchild⟩ := exists_child_covers hvalid hlaid hchildren hother hcovers
    exact absurd hchild (hnone child hmem)

/-- The deepest node within the child that covers the offset is the deepest within the parent. -/
theorem DeepestWithin.of_child (h : child.DeepestWithin offset found)
    (hvalid : node.tree.Valid text) (hlaid : node.LaidOut)
    (hchildren : node.children = .ok children) (hchild : child ∈ children)
    (hcovers : child.Covers offset) : node.DeepestWithin offset found where
  within := .head ((mem_children_iff hchildren).mp hchild) h.within
  covers := by
    rcases h.covers with rfl | hfound
    · exact .inr hcovers
    · exact .inr hfound
  above := by
    intro other hother hcovers'
    obtain ⟨child', hmem, hwithin, hchild'⟩ :=
      exists_child_covers hvalid hlaid hchildren hother hcovers'
    obtain rfl := eq_of_covers hlaid hchildren hchild hmem hcovers hchild'
    rcases within_iff.mp hwithin with rfl | hbelow
    · exact (within_iff.mp h.within).imp_left Eq.symm
    · exact h.above other hbelow hcovers'

/-! ## The search -/

/-- The search among siblings ends, or goes on with one that covers the offset. -/
theorem deepestAmong_cases (source : Bytes) (offset : Nat) {parent : Node} {position : Nat}
    {trees : List Tree} (h : parent.ReadFrom position trees children) :
    ((∀ child ∈ children, ¬child.Covers offset) ∧
      deepestAmong source (Place.ofOffset source offset) parent position trees = .ok none) ∨
    ∃ child ∈ children, child.Covers offset ∧
      deepestAmong source (Place.ofOffset source offset) parent position trees =
        deepestIn source (Place.ofOffset source offset) child.above child.tree := by
  induction h with
  | nil => exact .inl ⟨by simp, rfl⟩
  | @cons position element trees children _ ih =>
      rw [deepestAmong]
      by_cases hcovers : (parent.child position element).Covers offset
      · rw [if_pos (surrounds_iff.mpr hcovers)]
        exact .inr ⟨_, List.mem_cons_self, hcovers, rfl⟩
      · rw [if_neg (mt surrounds_iff.mp hcovers)]
        rcases ih with ⟨hnone, hend⟩ | ⟨child, hmem, hchild, hgoOn⟩
        · exact .inl ⟨List.forall_mem_cons.mpr ⟨hcovers, hnone⟩, hend⟩
        · exact .inr ⟨child, List.mem_cons_of_mem _ hmem, hchild, hgoOn⟩

/-- The search below a node ends at the deepest node. -/
theorem exists_deepestIn (source : Bytes) (offset : Nat) (hvalid : node.tree.Valid text)
    (hlaid : node.LaidOut) :
    ∃ found, deepestIn source (Place.ofOffset source offset) node.above node.tree =
      .ok (some found) ∧ node.DeepestWithin offset found := by
  revert hlaid
  refine valid_induction (fun {node children} hvalid hchildren ih hlaid => ?_) hvalid
  rw [Node.tree, deepestIn, firstFault_below hchildren]
  show ∃ found, (deepestAmong source (Place.ofOffset source offset) node 0 node.below >>= _) = _ ∧ _
  rcases deepestAmong_cases source offset (readFrom_of_children hchildren) with
    ⟨hnone, hend⟩ | ⟨child, hmem, hcovers, hgoOn⟩
  · rw [hend]
    exact ⟨node, rfl, deepestWithin_self hvalid hlaid hchildren hnone⟩
  · have hparent := (mem_children_iff hchildren).mp hmem
    obtain ⟨found, hfound, hdeepest⟩ := ih child hmem (hlaid.of_within (.single hparent))
    rw [hgoOn, hfound]
    exact ⟨found, rfl, hdeepest.of_child hvalid hlaid hchildren hmem hcovers⟩

end Node

/-! ## A name in brackets, and nothing behind it -/

namespace Bracketed

open Mark (extent)

/-- On the second row of the source a name stands in brackets, and between the name and the bracket
that closes them a node that has no bytes. -/
def brackets : Element :=
  ⟨"brackets", extent 2 5, [.node (some "(") (extent 2 3) [], .node (some "name") (extent 3 4) [],
    .node (some "nothing") (extent 4 4) [], .node (some ")") (extent 4 5) []]⟩

def program : Node :=
  ⟨⟨"program", extent 0 5, [.node (some "name") (extent 0 1) [],
    .node (some brackets.kind) brackets.mark brackets.below]⟩, []⟩

def name : Node := (program.child 1 brackets).child 1 ⟨"name", extent 3 4, []⟩

def closing : Node := (program.child 1 brackets).child 3 ⟨")", extent 4 5, []⟩

def source : String := "a\n(b)"

theorem valid : program.tree.Valid source := Tree.fitsIn_iff.mp (by decide +kernel)

theorem root_eq : program.tree.root = .ok program := Tree.root_eq_ok_iff.mpr ⟨rfl, rfl⟩

theorem ordered : program.tree.Ordered (encode source).length := by
  have hlaid : program.LaidOut :=
    (Node.walk_of_valid valid).2.laidOut_iff.mpr (by decide +kernel)
  exact .of_laidOut root_eq valid hlaid (by decide +kernel)

theorem contains : program.tree.Contains program := ⟨program, root_eq, .refl⟩

theorem contains_name : program.tree.Contains name := by
  have hbrackets : program.ParentOf (program.child 1 brackets) := ⟨1, _, _, rfl, rfl, rfl⟩
  exact ⟨program, root_eq, .tail (.single hbrackets) ⟨1, _, _, rfl, rfl, rfl⟩⟩

end Bracketed

/-! ## What is found -/

namespace Node

variable {tree : Tree} {text : String} {node : Node}

/-- From a node of a tree whose extents are in order, the search for the place of an offset finds
the deepest node around the offset if the offset is inside the node or at its end, and finds nothing
otherwise. -/
theorem deepestAt_ofOffset (hvalid : tree.Valid text) (hordered : tree.Ordered (encode text).length)
    (hnode : tree.Contains node) (offset : Nat) :
    (node.start ≤ offset ∧ offset ≤ node.stop → ∃ found,
      node.deepestAt (encode text) (Place.ofOffset (encode text) offset) = .ok (some found) ∧
        ∀ other, node.DeepestWithin offset other ↔ other = found) ∧
    (¬(node.start ≤ offset ∧ offset ≤ node.stop) →
      node.deepestAt (encode text) (Place.ofOffset (encode text) offset) = .ok none) := by
  have hinside : ((node.startPlace (encode text)).upTo (Place.ofOffset (encode text) offset) &&
      (Place.ofOffset (encode text) offset).upTo (node.stopPlace (encode text))) = true ↔
      node.start ≤ offset ∧ offset ≤ node.stop := by
    rw [Bool.and_eq_true, startPlace, stopPlace, Place.upTo_ofOffset_iff, Place.upTo_ofOffset_iff]
  unfold deepestAt
  constructor
  · intro h
    rw [if_pos (hinside.mpr h)]
    obtain ⟨found, hfound, hdeepest⟩ := exists_deepestIn (encode text) offset
      (hnode.valid hvalid) (hordered.laidOut hnode)
    refine ⟨found, hfound, fun other => ⟨fun hother => hother.unique hdeepest, ?_⟩⟩
    rintro rfl
    exact hdeepest
  · intro h
    exact if_neg (mt hinside.mp h)

/-- At the end of the name in brackets the bracket is found that closes them: neither the name nor
the node without bytes is around this place. The search that starts from the name stays there, and
one byte further finds nothing. -/
theorem deepestAt_ofOffset_closing :
    Bracketed.program.tree.Valid Bracketed.source ∧
      Bracketed.program.tree.Ordered (encode Bracketed.source).length ∧
      Bracketed.program.tree.Contains Bracketed.program ∧
      Bracketed.program.tree.Contains Bracketed.name ∧
      Bracketed.program.deepestAt (encode Bracketed.source) ⟨1, 2⟩ =
        .ok (some Bracketed.closing) ∧
      Bracketed.program.DeepestWithin 4 Bracketed.closing ∧
      Bracketed.name.deepestAt (encode Bracketed.source) ⟨1, 2⟩ = .ok (some Bracketed.name) ∧
      Bracketed.name.deepestAt (encode Bracketed.source) ⟨1, 3⟩ = .ok none := by
  obtain ⟨hfound, -⟩ :=
    deepestAt_ofOffset Bracketed.valid Bracketed.ordered Bracketed.contains 4
  obtain ⟨-, hnothing⟩ :=
    deepestAt_ofOffset Bracketed.valid Bracketed.ordered Bracketed.contains_name 5
  have hplace : Place.ofOffset (encode Bracketed.source) 4 = ⟨1, 2⟩ := by decide +kernel
  have hplace' : Place.ofOffset (encode Bracketed.source) 5 = ⟨1, 3⟩ := by decide +kernel
  rw [hplace] at hfound
  rw [hplace'] at hnothing
  have hclosing : Bracketed.program.deepestAt (encode Bracketed.source) ⟨1, 2⟩ =
      .ok (some Bracketed.closing) := by
    rfl
  obtain ⟨found, hsearch, hdeepest⟩ := hfound (by decide)
  obtain rfl := Option.some.inj (Except.ok.inj (hclosing.symm.trans hsearch))
  exact ⟨Bracketed.valid, Bracketed.ordered, Bracketed.contains, Bracketed.contains_name, hclosing,
    (hdeepest _).mpr rfl, rfl, hnothing (by decide)⟩

end Node

end Arborist

import Arborist.Proofs.Tree.Preorder
import Arborist.Revision.Imports

/-!
# Which names are used

A name is used within a node if an identifier spells it that lies outside all import statements
there: `Node.Uses`, said of one place at a time and without an order of search. The names of a draft
are collected in one pass, which goes down from the right and turns back at import statements.
`Node.uses_iff` is the step from a node to its children, `Node.mem_usedNames_iff` the whole pass.
-/

namespace Arborist

open Text

namespace Node

variable {top : Node}

/-! ## Uses of a name -/

/-- An identifier within the node spells the name, and no import statement lies on the way down to
it. -/
def Uses (source : Bytes) (top : Node) (name : String) : Prop :=
  ∃ node : Node, node.Within top ∧
    node.kind ∈ ["identifier", "type_identifier", "shorthand_property_identifier"] ∧
    node.Spells source name ∧
    ∀ above : Node, above.Within top → node.Within above → above.kind ≠ "import_statement"

/-- A name is used within a node that is no import statement, if the node itself or a child uses
it. -/
theorem uses_iff {source : Bytes} {name : String} :
    top.Uses source name ↔ top.kind ≠ "import_statement" ∧
      ((top.kind ∈ Kind.uses ∧ top.Spells source name) ∨
        ∃ child, top.ParentOf child ∧ child.Uses source name) := by
  constructor
  · rintro ⟨node, hwithin, hkind, hspells, hfree⟩
    refine ⟨hfree top .refl hwithin, ?_⟩
    rcases within_iff.mp hwithin with rfl | hancestor
    · exact .inl ⟨hkind, hspells⟩
    · obtain ⟨child, hparent, hchild⟩ := ancestorOf_iff_exists_parentOf.mp hancestor
      refine .inr ⟨child, hparent, node, hchild, hkind, hspells, fun above habove => ?_⟩
      exact hfree above (Relation.ReflTransGen.head hparent habove)
  · rintro ⟨htop, ⟨hkind, hspells⟩ | ⟨child, hparent, node, hwithin, hkind, hspells, hfree⟩⟩
    · refine ⟨top, .refl, hkind, hspells, fun above habove hbelow => ?_⟩
      rw [habove.antisymm hbelow]
      exact htop
    · refine ⟨node, Relation.ReflTransGen.head hparent hwithin, hkind, hspells,
        fun above habove hbelow => ?_⟩
      rcases habove.eq_or_within_child hparent hwithin hbelow with rfl | hchild
      · exact htop
      · exact hfree above hchild hbelow

end Node

/-! ## Collecting the names -/

/-- Names collected from siblings are those used within each of them. -/
theorem Tree.mem_usedNamesAmong_iff {source : Bytes} {parent : Node} {position : Nat}
    {trees : List Tree} {children : List Node} (h : parent.ReadFrom position trees children)
    (hchild : ∀ child ∈ children, ∃ names, child.tree.usedNames source = .ok names ∧
      ∀ name, name ∈ names ↔ child.Uses source name) :
    ∃ all, Tree.usedNamesAmong source trees = .ok all ∧
      ∀ name, name ∈ all ↔ ∃ child ∈ children, child.Uses source name := by
  induction h with
  | nil => exact ⟨[], rfl, by simp⟩
  | @cons position element trees children _ ih =>
      obtain ⟨⟨names, hnames, huses⟩, hrest⟩ := List.forall_mem_cons.mp hchild
      obtain ⟨later, hlater, hmem⟩ := ih hrest
      refine ⟨later ++ names, ?_, fun name => ?_⟩
      · rw [Tree.usedNamesAmong, hlater, hnames]
        rfl
      · simp [huses, hmem, or_comm]

namespace Node

variable {text : String} {node : Node}

/-- What the pass over a valid node collects: what the children use, and what the node itself
spells. -/
theorem usedNames_tree (h : node.tree.Valid text) {below : List String}
    (hbelow : Tree.usedNamesAmong (encode text) node.below = .ok below) :
    ∃ used, node.tree.usedNames (encode text) = .ok used ∧ ∀ name, name ∈ used ↔
      node.kind ≠ "import_statement" ∧
        ((node.kind ∈ Kind.uses ∧ node.Spells (encode text) name) ∨
          name ∈ below) := by
  obtain ⟨elements, helements⟩ := Tree.exists_elements h.of_mem_below
  obtain ⟨actual, hactual, hspells⟩ := exists_text h
  unfold Node.tree
  rw [Tree.usedNames, Tree.firstFault_eq_none helements, hbelow]
  by_cases himport : node.kind = "import_statement"
  · rw [if_pos (by simp [himport])]
    exact ⟨[], rfl, by simp [himport]⟩
  · rw [if_neg (by simp [himport])]
    by_cases hkind : node.kind ∈ Kind.uses
    · rw [if_pos (List.contains_iff_mem.mpr hkind)]
      have htext : Node.text (encode text) ⟨⟨node.kind, node.mark, node.below⟩, []⟩ = .ok actual :=
        hactual
      rw [htext]
      refine ⟨actual :: below, rfl, fun name => ?_⟩
      simp [himport, hkind, ← hspells, eq_comm]
    · rw [if_neg (mt List.contains_iff_mem.mp hkind)]
      refine ⟨below, rfl, fun name => ?_⟩
      simp [himport, hkind]

/-- The pass over a valid node ends, and collects the names that are used within it. -/
theorem mem_usedNames_iff (h : node.tree.Valid text) :
    ∃ used, node.tree.usedNames (encode text) = .ok used ∧
      ∀ name, name ∈ used ↔ node.Uses (encode text) name := by
  refine valid_induction (fun {node children} hvalid hchildren hchild => ?_) h
  obtain ⟨all, hall, hmem⟩ :=
    Tree.mem_usedNamesAmong_iff (readFrom_of_children hchildren) hchild
  obtain ⟨used, hused, hiff⟩ := usedNames_tree hvalid hall
  refine ⟨used, hused, fun name => ?_⟩
  rw [hiff, uses_iff, hmem]
  simp only [mem_children_iff hchildren]

end Node

end Arborist

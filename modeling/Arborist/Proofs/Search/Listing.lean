import Arborist.Proofs.Selector.Meaning
import Arborist.Proofs.Selector.Remembered
import Arborist.Query

/-!
# What searches find

A search by pattern puts three things together: the pattern is looked up or read, the tree is
walked, and each node met is tested. On a valid tree each of them has a meaning of its own (what
reading gives, the pre-order, satisfaction), and the searches are put together from these:

* `Node.gives_findAll`, `Node.gives_find`, `Node.gives_descendants`, `Node.gives_matchesPattern` —
  each search by itself, for the selector that the pattern stands for;
* `Node.search_eq_preorder_filter` — all of them at once, for every pattern.
-/

namespace Arborist

open Text

namespace Selector

/-- A well-formed pattern describes what is read from it. -/
theorem compile_of_parse {pattern : String} {s : Selector} (h : parse pattern = .ok s)
    (suggest : Bool) : (compile pattern suggest).1 = s := by
  unfold compile
  rw [h]

/-- A malformed pattern describes nothing. -/
theorem compile_of_flaw {pattern : String} {flaw : Flaw} (h : parse pattern = .error flaw)
    (suggest : Bool) : (compile pattern suggest).1 = .never := by
  unfold compile
  rw [h]

end Selector

/-! ## Nested lists

The tree of `[[é]]`, for use as a witness: a program with a list in it, in this a second list, and
in this a name. -/

namespace NestedLists

open Mark (extent)

def nameElement : Element := ⟨"name", extent 2 4, []⟩

def innerElement : Element := ⟨"list", extent 1 5, [.node (some "name") (extent 2 4) []]⟩

def outerElement : Element :=
  ⟨"list", extent 0 6, [.node (some "list") (extent 1 5) innerElement.below]⟩

def tree : Tree :=
  .node (some "program") (extent 0 6) [.node (some "list") (extent 0 6) outerElement.below]

def program : Node :=
  ⟨⟨"program", extent 0 6, [.node (some "list") (extent 0 6) outerElement.below]⟩, []⟩

def outer : Node := program.child 0 outerElement

def inner : Node := outer.child 0 innerElement

def name : Node := inner.child 0 nameElement

/-- Only the offset 3 lies inside a character. -/
theorem valid : tree.Valid "[[é]]" := by
  have outside : ∀ offset ∈ [0, 1, 2, 4, 5, 6], ¬InsideCharacter "[[é]]" (offset : Nat) := by
    have table : ∀ offset ∈ [0, 1, 2, 4, 5, 6], offset ≤ (encode "[[é]]").length ∧
        Edit.insideCharacter (encode "[[é]]") (offset : Nat) = false := by
      decide +kernel
    intro offset hoffset
    obtain ⟨hle, hbyte⟩ := table offset hoffset
    rw [← insideCharacter_iff (by omega) (by omega), hbyte]
    exact Bool.false_ne_true
  have hname : Tree.Valid "[[é]]" (.node (some "name") (extent 2 4) []) :=
    .node (outside 2 (by decide)) (outside 4 (by decide)) (by simp)
  have hinner : Tree.Valid "[[é]]" (.node (some "list") (extent 1 5) innerElement.below) :=
    .node (outside 1 (by decide)) (outside 5 (by decide)) (List.forall_mem_singleton.mpr hname)
  have houter : Tree.Valid "[[é]]" (.node (some "list") (extent 0 6) outerElement.below) :=
    .node (outside 0 (by decide)) (outside 6 (by decide)) (List.forall_mem_singleton.mpr hinner)
  exact .node (outside 0 (by decide)) (outside 6 (by decide)) (List.forall_mem_singleton.mpr houter)

theorem contains_program : tree.Contains program := ⟨program, rfl, .refl⟩

theorem contains_outer : tree.Contains outer :=
  contains_program.of_within (.single ⟨0, _, outerElement, rfl, rfl, rfl⟩)

theorem contains_inner : tree.Contains inner :=
  contains_outer.of_within (.single ⟨0, _, innerElement, rfl, rfl, rfl⟩)

theorem contains_name : tree.Contains name :=
  contains_inner.of_within (.single ⟨0, _, nameElement, rfl, rfl, rfl⟩)

end NestedLists

namespace Node

open scoped Classical

variable {text : String} {tree : Tree} {node other : Node} {pattern : String} {s : Selector}
  {suggest : Bool}

/-- A walk meets the nodes of the tree that lie within the node it starts from. -/
theorem mem_walk_iff (hvalid : tree.Valid text) (hnode : tree.Contains node) :
    other ∈ node.walk.nodes ↔ other.Within node :=
  (walk_of_valid (hnode.valid hvalid)).2.mem_iff

theorem mem_walk_tail_iff (hvalid : tree.Valid text) (hnode : tree.Contains node) :
    other ∈ node.walk.nodes.tail ↔ node.AncestorOf other := by
  obtain ⟨below, hwalk, hpreorder⟩ := exists_walk_eq (hnode.valid hvalid)
  rw [hwalk]
  exact hpreorder.mem_below_iff

theorem decides_of_mem_walk (hvalid : tree.Valid text) (hnode : tree.Contains node) (s : Selector) :
    ∀ other ∈ node.walk.nodes,
      Decides (s.holds (encode text) other) (s.Satisfies (encode text) other) := by
  intro other hother
  exact Selector.decides_holds hvalid s (hnode.of_within ((mem_walk_iff hvalid hnode).mp hother))

theorem filter_never (source : Bytes) (nodes : List Node) :
    (nodes.filter fun other => decide (Selector.never.Satisfies source other)) = [] := by
  rw [List.filter_eq_nil_iff]
  intro other _ hnever
  rw [decide_eq_true_iff, Selector.Satisfies] at hnever
  exact hnever

theorem gives_findAll (hvalid : tree.Valid text) (hnode : tree.Contains node)
    (hs : (Selector.compile pattern suggest).1 = s) :
    (node.findAll ⟨encode text, suggest⟩ pattern).Gives
      (node.walk.nodes.filter fun other => decide (s.Satisfies (encode text) other)) := by
  have hfault := (walk_of_valid (hnode.valid hvalid)).1
  refine Logged.gives_of_compile (fun s => node.walk.findAll (s.holds (encode text))) ?_
  rw [hs]
  exact Walk.findAll_eq hfault (decides_of_mem_walk hvalid hnode s)

theorem gives_find (hvalid : tree.Valid text) (hnode : tree.Contains node)
    (hs : (Selector.compile pattern suggest).1 = s) :
    (node.find ⟨encode text, suggest⟩ pattern).Gives
      (node.walk.nodes.filter fun other => decide (s.Satisfies (encode text) other)).head? := by
  have hfault := (walk_of_valid (hnode.valid hvalid)).1
  refine Logged.gives_of_compile (fun s => node.walk.findFirst (s.holds (encode text))) ?_
  rw [hs, List.head?_filter]
  exact Walk.findFirst_eq hfault (decides_of_mem_walk hvalid hnode s)

theorem gives_descendants (hvalid : tree.Valid text) (hnode : tree.Contains node)
    (hs : (Selector.compile pattern suggest).1 = s) :
    (node.descendants ⟨encode text, suggest⟩ (some pattern)).Gives
      (node.walk.nodes.tail.filter fun other => decide (s.Satisfies (encode text) other)) := by
  have hfault := (walk_of_valid (hnode.valid hvalid)).1
  refine Logged.gives_of_compile (fun s => node.walk.below.findAll (s.holds (encode text))) ?_
  rw [hs]
  refine Walk.findAll_eq hfault fun other hother => ?_
  exact decides_of_mem_walk hvalid hnode s other (List.mem_of_mem_tail hother)

/-- Without a pattern everything below is found. -/
theorem gives_descendants_none (hvalid : tree.Valid text) (hnode : tree.Contains node)
    (setting : Setting) : (node.descendants setting none).Gives node.walk.nodes.tail := by
  have hfault := (walk_of_valid (hnode.valid hvalid)).1
  intro journal hjournal
  refine ⟨?_, hjournal⟩
  change node.walk.below.unlessCut node.walk.below.nodes = _
  unfold Walk.unlessCut Walk.below
  rw [hfault]

theorem gives_matchesPattern (hvalid : tree.Valid text) (hnode : tree.Contains node)
    (hs : (Selector.compile pattern suggest).1 = s) :
    (node.matchesPattern ⟨encode text, suggest⟩ pattern).Gives
      (decide (s.Satisfies (encode text) node)) := by
  refine Logged.gives_of_compile (fun s => s.holds (encode text) node) ?_
  rw [hs]
  exact Walk.test_eq_ok (Selector.decides_holds hvalid s hnode)

/-- In a valid tree searches go through the nodes within the one they start from in pre-order,
parents before children and from the left, each node once. By a pattern that stands for a selector
they find exactly the nodes of which the selector is true, by a malformed or blank one nothing; and
they do so at every moment, whatever was searched for before. -/
theorem search_eq_preorder_filter (hvalid : tree.Valid text) (hnode : tree.Contains node)
    (suggest : Bool) :
    ∃ below, node.Preorder (node :: below) ∧
      (node :: below).Pairwise (fun first second => first.path < second.path) ∧
      (∀ other, other ∈ below ↔ node.AncestorOf other) ∧
      ∀ pattern,
        (∀ s, Selector.parse pattern = .ok s →
          let found := (node :: below).filter fun other => decide (s.Satisfies (encode text) other)
          (node.findAll ⟨encode text, suggest⟩ pattern).Gives found ∧
            (node.find ⟨encode text, suggest⟩ pattern).Gives found.head? ∧
            (node.descendants ⟨encode text, suggest⟩ (some pattern)).Gives
              (below.filter fun other => decide (s.Satisfies (encode text) other))) ∧
        ((allBlank pattern = true ∨ ∃ flaw, Selector.parse pattern = .error flaw) →
          (node.findAll ⟨encode text, suggest⟩ pattern).Gives [] ∧
            (node.find ⟨encode text, suggest⟩ pattern).Gives none ∧
            (node.descendants ⟨encode text, suggest⟩ (some pattern)).Gives []) := by
  obtain ⟨below, hwalk, hpreorder⟩ := exists_walk_eq (hnode.valid hvalid)
  refine ⟨below, hpreorder, hpreorder.pairwise_path_lt, fun other => hpreorder.mem_below_iff,
    fun pattern => ⟨fun s hparse => ?_, fun hbad => ?_⟩⟩
  · have hs := Selector.compile_of_parse hparse suggest
    have hall := gives_findAll hvalid hnode hs
    have hfirst := gives_find hvalid hnode hs
    have hbelow := gives_descendants hvalid hnode hs
    rw [hwalk] at hall hfirst hbelow
    exact ⟨hall, hfirst, hbelow⟩
  · have hnever : (Selector.compile pattern suggest).1 = .never := by
      rcases hbad with hblank | ⟨flaw, hflaw⟩
      · exact Selector.compile_of_allBlank hblank
      · exact Selector.compile_of_flaw hflaw suggest
    have hall := gives_findAll hvalid hnode hnever
    have hfirst := gives_find hvalid hnode hnever
    have hbelow := gives_descendants hvalid hnode hnever
    rw [filter_never] at hall hfirst hbelow
    exact ⟨hall, hfirst, hbelow⟩

/-- Searches from the inner of two lists, by a chain whose left part lies above the start and by a
chain that breaks off. -/
theorem search_eq_preorder_filter_inner_list :
    NestedLists.tree.Valid "[[é]]" ∧ NestedLists.tree.Contains NestedLists.inner ∧
      ∃ below, NestedLists.inner.Preorder (NestedLists.inner :: below) ∧
        (NestedLists.inner.findAll ⟨encode "[[é]]", true⟩ "list > list").Gives
          ((NestedLists.inner :: below).filter fun other => decide
            (Selector.Satisfies (encode "[[é]]") (.child (.kind "list") (.kind "list")) other)) ∧
        (NestedLists.inner.findAll ⟨encode "[[é]]", true⟩ "list >").Gives [] := by
  obtain ⟨below, hpreorder, -, -, hsearch⟩ :=
    search_eq_preorder_filter NestedLists.valid NestedLists.contains_inner true
  refine ⟨NestedLists.valid, NestedLists.contains_inner, below, hpreorder, ?_, ?_⟩
  · exact ((hsearch "list > list").1 _ (by rfl)).1
  · exact ((hsearch "list >").2 (.inr ⟨_, rfl⟩)).1

end Node

end Arborist

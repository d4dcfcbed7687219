import Arborist.Proofs.Search.Listing
import Arborist.Proofs.Selector.Composition
import Mathlib.Data.Fin.Tuple.Basic
import Mathlib.Data.Fin.VecNotation

/-!
# Laws of searching

What searches by composed patterns find, in terms of what searches by their parts find. Each law
goes through the text: the parts are patterns, the whole is their texts joined, and that the whole
is read as the parts together is proved in `Selector.Composition`.

* `Node.matchesPattern_chainText_iff` — a chain matches where nodes above one another match its
  compounds, whichever ancestors have to be tried for that;
* `Node.findAll_has_or_not_has` — `:has` and `:not(:has)` divide what is found without them;
* `Node.findAll_has_iff_descendant` — looking for ancestors from below and for descendants from
  above comes to the same.
-/

namespace Arborist

open Text

namespace Selector

variable {source : Bytes} {node : Node}

/-- The selector with one more part requires what it did, and the part. -/
theorem satisfies_extend (s part : Selector) :
    (s.extend part).Satisfies source node ↔
      s.Satisfies source node ∧ part.Satisfies source node := by
  fun_induction extend s part with
  | case1 part left right ih => rw [Satisfies, ih, Satisfies, and_right_comm]
  | case2 part left right ih => rw [Satisfies, ih, Satisfies, and_right_comm]
  | case3 part parts =>
      rw [Satisfies, Satisfies, satisfiesAll_iff, satisfiesAll_iff, List.forall_mem_append,
        List.forall_mem_singleton]
  | case4 part s => simp [Satisfies, SatisfiesAll]

theorem satisfies_has {argument : Option String} {inner : Selector} :
    (pseudo "has" argument (some inner)).Satisfies source node ↔
      ∃ other, node.AncestorOf other ∧ inner.Satisfies source other := by
  simp [Satisfies]

theorem satisfies_not {argument : Option String} {inner : Selector} :
    (pseudo "not" argument (some inner)).Satisfies source node ↔
      ¬inner.Satisfies source node := by
  simp [Satisfies]

end Selector

/-! ## Chains -/

/-- How two compounds of a chain are joined. -/
inductive Joint where
  | child
  | descendant
  deriving DecidableEq, Repr

namespace Joint

/-- How a joint is written. -/
def text : Joint → String
  | .child => " > "
  | .descendant => " "

/-- What a joint asks of the nodes at its sides, going up from the right one. -/
def Holds : Joint → Node → Node → Prop
  | .child, left, right => right.parent = some left
  | .descendant, left, right => left ∈ right.ancestors

/-- The selector of two patterns joined. -/
def join : Joint → Selector → Selector → Selector
  | .child => .child
  | .descendant => .descendant

variable {tree : Tree} {left right : Node}

theorem Holds.contains {joint : Joint} (h : joint.Holds left right) (hright : tree.Contains right) :
    tree.Contains left := by
  cases joint with
  | child => exact hright.parentOf ((Node.parent_eq_some_iff hright).mp h)
  | descendant => exact hright.ancestorOf ((Node.mem_ancestors_iff hright).mp h)

theorem satisfies_join {source : Bytes} {joint : Joint} {s t : Selector}
    (hright : tree.Contains right) :
    (joint.join s t).Satisfies source right ↔
      t.Satisfies source right ∧ ∃ left, joint.Holds left right ∧ s.Satisfies source left := by
  cases joint with
  | child => simp only [join, Selector.Satisfies, Holds, Node.parent_eq_some_iff hright]
  | descendant => simp only [join, Selector.Satisfies, Holds, Node.mem_ancestors_iff hright]

theorem parse_join {first second : String} {s t : Selector} (joint : Joint)
    (hs : Selector.parse first = .ok s) (ht : Selector.parse second = .ok t)
    (hcompound : t.isChain = false) :
    Selector.parse (first ++ joint.text ++ second) = .ok (joint.join s t) := by
  cases joint with
  | child => exact Selector.parse_child hs ht hcompound
  | descendant => exact Selector.parse_descendant hs ht hcompound

end Joint

/-- Compounds with joints between them, as a text. -/
def chainText : (n : Nat) → (Fin (n + 1) → String) → (Fin n → Joint) → String
  | 0, compounds, _ => compounds 0
  | n + 1, compounds, joints =>
    chainText n (fun i => compounds i.castSucc) (fun i => joints i.castSucc)
      ++ (joints (Fin.last n)).text ++ compounds (Fin.last (n + 1))

/-- Compounds with joints between them, as a selector. -/
def chainSelector : (n : Nat) → (Fin (n + 1) → Selector) → (Fin n → Joint) → Selector
  | 0, selectors, _ => selectors 0
  | n + 1, selectors, joints =>
    (joints (Fin.last n)).join
      (chainSelector n (fun i => selectors i.castSucc) (fun i => joints i.castSucc))
      (selectors (Fin.last (n + 1)))

theorem parse_chainText {n : Nat} {compounds : Fin (n + 1) → String}
    {selectors : Fin (n + 1) → Selector} (joints : Fin n → Joint)
    (hparse : ∀ i, Selector.parse (compounds i) = .ok (selectors i))
    (hcompound : ∀ i, (selectors i).isChain = false) :
    Selector.parse (chainText n compounds joints) = .ok (chainSelector n selectors joints) := by
  induction n with
  | zero => exact hparse 0
  | succ n ih =>
      have hleft := ih (fun i => joints i.castSucc) (fun i => hparse i.castSucc)
        (fun i => hcompound i.castSucc)
      exact Joint.parse_join _ hleft (hparse _) (hcompound _)

/-- Nodes above one another as the joints ask, from the top down to a given node, of each of which
something is true. -/
structure Ladder {n : Nat} (Fits : Fin (n + 1) → Node → Prop) (joints : Fin n → Joint) (node : Node)
    (rungs : Fin (n + 1) → Node) : Prop where
  last : rungs (Fin.last n) = node
  fits : ∀ i, Fits i (rungs i)
  holds : ∀ i : Fin n, (joints i).Holds (rungs i.castSucc) (rungs i.succ)

namespace Ladder

variable {n : Nat} {node : Node} {tree : Tree}

/-- All rungs lie in the tree that the last one lies in. -/
theorem contains {Fits : Fin (n + 1) → Node → Prop} {joints : Fin n → Joint}
    {rungs : Fin (n + 1) → Node} (h : Ladder Fits joints node rungs) (hnode : tree.Contains node)
    (i : Fin (n + 1)) : tree.Contains (rungs i) := by
  induction i using Fin.reverseInduction with
  | last => exact h.last ▸ hnode
  | cast i ih => exact (h.holds i).contains ih

/-- A longer ladder is a ladder to a node above the last one. -/
theorem exists_succ_iff {Fits : Fin (n + 2) → Node → Prop} {joints : Fin (n + 1) → Joint} :
    (∃ rungs, Ladder Fits joints node rungs) ↔
      Fits (Fin.last (n + 1)) node ∧ ∃ left, (joints (Fin.last n)).Holds left node ∧
        ∃ rungs, Ladder (fun i => Fits i.castSucc) (fun i => joints i.castSucc) left rungs := by
  constructor
  · rintro ⟨rungs, rfl, hfits, hholds⟩
    exact ⟨hfits _, rungs (Fin.last n).castSucc, hholds (Fin.last n), fun i => rungs i.castSucc,
      rfl, fun i => hfits i.castSucc, fun i => hholds i.castSucc⟩
  · rintro ⟨hlast, left, hleft, rungs, rfl, hfits, hholds⟩
    refine ⟨Fin.snoc rungs node, Fin.snoc_last _ _, fun i => ?_, fun i => ?_⟩
    · induction i using Fin.lastCases with
      | last => simpa using hlast
      | cast i => simpa using hfits i
    · induction i using Fin.lastCases with
      | last => simpa [Fin.succ_last] using hleft
      | cast i => simpa only [Fin.succ_castSucc, Fin.snoc_castSucc] using hholds i

end Ladder

theorem satisfies_chainSelector_iff {source : Bytes} {tree : Tree} {n : Nat}
    (selectors : Fin (n + 1) → Selector) (joints : Fin n → Joint) {node : Node}
    (hnode : tree.Contains node) :
    (chainSelector n selectors joints).Satisfies source node ↔
      ∃ rungs, Ladder (fun i => (selectors i).Satisfies source) joints node rungs := by
  induction n generalizing node with
  | zero =>
      constructor
      · intro h
        refine ⟨fun _ => node, rfl, fun i => ?_, fun i => i.elim0⟩
        rw [Fin.fin_one_eq_zero i]
        exact h
      · rintro ⟨rungs, rfl, hfits, -⟩
        exact hfits 0
  | succ n ih =>
      rw [chainSelector, Joint.satisfies_join hnode, Ladder.exists_succ_iff]
      refine and_congr_right fun _ => exists_congr fun left => and_congr_right fun hleft => ?_
      exact ih _ _ (hleft.contains hnode)

namespace Node

open scoped Classical

variable {text : String} {tree : Tree} {node : Node} {suggest : Bool}

theorem gives_matchesPattern_true_iff (hvalid : tree.Valid text) (hnode : tree.Contains node)
    {pattern : String} {s : Selector} (hs : Selector.parse pattern = .ok s) :
    (node.matchesPattern ⟨encode text, suggest⟩ pattern).Gives true ↔
      s.Satisfies (encode text) node := by
  have hgives := gives_matchesPattern hvalid hnode (Selector.compile_of_parse hs suggest)
  constructor
  · intro h
    exact decide_eq_true_iff.mp (hgives.unique h)
  · intro h
    rwa [decide_eq_true h] at hgives

/-- A node matches a chain of compounds exactly if it is the last of as many nodes above one
another, each matching its compound and each the parent of the next where the joint is ` > `, and an
ancestor of it where the joint is a blank. -/
theorem matchesPattern_chainText_iff (hvalid : tree.Valid text) (hnode : tree.Contains node)
    (suggest : Bool) {n : Nat} (compounds : Fin (n + 1) → String) (joints : Fin n → Joint)
    (hcompounds : ∀ i, ∃ s, Selector.parse (compounds i) = .ok s ∧ s.isChain = false) :
    ∃ answer,
      (node.matchesPattern ⟨encode text, suggest⟩ (chainText n compounds joints)).Gives answer ∧
      (answer = true ↔ ∃ rungs : Fin (n + 1) → Node, rungs (Fin.last n) = node ∧
        (∀ i, ((rungs i).matchesPattern ⟨encode text, suggest⟩ (compounds i)).Gives true) ∧
        ∀ i : Fin n, (joints i).Holds (rungs i.castSucc) (rungs i.succ)) := by
  choose selectors hparse hchain using hcompounds
  have hs := parse_chainText joints hparse hchain
  refine ⟨_, gives_matchesPattern hvalid hnode (Selector.compile_of_parse hs suggest), ?_⟩
  rw [decide_eq_true_iff, satisfies_chainSelector_iff selectors joints hnode]
  refine exists_congr fun rungs => ?_
  constructor
  · intro h
    exact ⟨h.last, fun i => (gives_matchesPattern_true_iff hvalid (h.contains hnode i)
      (hparse i)).mpr (h.fits i), h.holds⟩
  · rintro ⟨hlast, hmatches, hholds⟩
    -- That the rungs lie in the tree does not depend on what they match.
    have h : Ladder (fun _ _ => True) joints node rungs := ⟨hlast, fun _ => trivial, hholds⟩
    exact ⟨hlast, fun i => (gives_matchesPattern_true_iff hvalid (h.contains hnode i)
      (hparse i)).mp (hmatches i), hholds⟩

/-- The list nearest to the name is not directly below the program; the one further up is. -/
theorem matchesPattern_chainText_iff_further_list :
    NestedLists.tree.Valid "[[é]]" ∧ NestedLists.tree.Contains NestedLists.name ∧
      (NestedLists.name.matchesPattern ⟨encode "[[é]]", true⟩ "program > list name").Gives
        true := by
  have hcompounds : ∀ i : Fin 3, ∃ s,
      Selector.parse (![ "program", "list", "name"] i) = .ok s ∧ s.isChain = false
    | 0 => ⟨.kind "program", rfl, rfl⟩
    | 1 => ⟨.kind "list", rfl, rfl⟩
    | 2 => ⟨.kind "name", rfl, rfl⟩
  have fits {node : Node} (hnode : NestedLists.tree.Contains node) {pattern kind : String}
      (hparse : Selector.parse pattern = .ok (.kind kind)) (hkind : node.kind ∈ Kind.resolve kind) :
      (node.matchesPattern ⟨encode "[[é]]", true⟩ pattern).Gives true := by
    rw [gives_matchesPattern_true_iff NestedLists.valid hnode hparse, Selector.Satisfies]
    exact hkind
  obtain ⟨answer, hgives, hiff⟩ := matchesPattern_chainText_iff NestedLists.valid
    NestedLists.contains_name true ![ "program", "list", "name"] ![.child, .descendant] hcompounds
  obtain rfl : answer = true := by
    refine hiff.mpr ⟨![NestedLists.program, NestedLists.outer, NestedLists.name], rfl, ?_, ?_⟩
    · intro i
      match i with
      | 0 => exact fits NestedLists.contains_program rfl (by decide +kernel)
      | 1 => exact fits NestedLists.contains_outer rfl (by decide +kernel)
      | 2 => exact fits NestedLists.contains_name rfl (by decide +kernel)
    · intro i
      match i with
      | 0 => exact rfl
      | 1 => exact .tail _ (.head _)
  exact ⟨NestedLists.valid, NestedLists.contains_name, hgives⟩

/-! ## Dividing by `:has` -/

/-- Whether something is to be found below a node. -/
theorem exists_descendants_ne_nil_iff (hvalid : tree.Valid text) (hnode : tree.Contains node)
    {pattern : String} {s : Selector} (hs : Selector.parse pattern = .ok s) :
    (∃ below, (node.descendants ⟨encode text, suggest⟩ (some pattern)).Gives below ∧ below ≠ []) ↔
      ∃ other, node.AncestorOf other ∧ s.Satisfies (encode text) other := by
  have hgives := gives_descendants hvalid hnode (Selector.compile_of_parse hs suggest)
  rw [hgives.exists_and_iff, Ne, List.filter_eq_nil_iff]
  simp [mem_walk_tail_iff hvalid hnode]

/-- One more part keeps those of the nodes found that satisfy it. -/
theorem mem_filter_extend {source : Bytes} {nodes : List Node} {s part : Selector} :
    (node ∈ nodes.filter fun other => decide ((s.extend part).Satisfies source other)) ↔
      (node ∈ nodes.filter fun other => decide (s.Satisfies source other)) ∧
        part.Satisfies source node := by
  simp only [List.mem_filter, decide_eq_true_iff, Selector.satisfies_extend, and_assoc]

theorem filter_extend_sublist (source : Bytes) (nodes : List Node) (s part : Selector) :
    (nodes.filter fun other => decide ((s.extend part).Satisfies source other)).Sublist
      (nodes.filter fun other => decide (s.Satisfies source other)) := by
  refine List.monotone_filter_right nodes fun other h => ?_
  rw [decide_eq_true_iff, Selector.satisfies_extend] at h
  exact decide_eq_true h.1

/-- Of what a pattern finds, `:has` keeps the nodes with something to find below them, and
`:not(:has)` the others, in the same order. -/
theorem findAll_has_or_not_has (hvalid : tree.Valid text) (hnode : tree.Contains node)
    (suggest : Bool) {S X : String} (hS : ∃ s, Selector.parse S = .ok s)
    (hend : ∀ c ∈ S.toList.getLast?, isBlank c = false) (hX : ∃ x, Selector.parse X = .ok x) :
    ∃ all having lacking,
      (node.findAll ⟨encode text, suggest⟩ S).Gives all ∧
      (node.findAll ⟨encode text, suggest⟩ (S ++ ":has(" ++ X ++ ")")).Gives having ∧
      (node.findAll ⟨encode text, suggest⟩ (S ++ ":not(:has(" ++ X ++ "))")).Gives lacking ∧
      having.Disjoint lacking ∧ having.Sublist all ∧ lacking.Sublist all ∧
      (∀ found ∈ all, found ∈ having ∨ found ∈ lacking) ∧
      ∀ found ∈ all, found ∈ having ↔
        ∃ below, (found.descendants ⟨encode text, suggest⟩ (some X)).Gives below ∧ below ≠ [] := by
  obtain ⟨s, hs⟩ := hS
  obtain ⟨x, hx⟩ := hX
  have hhas := Selector.parse_has hs hend hx
  have hlacks := Selector.parse_not_has hs hend hx
  refine ⟨_, _, _, gives_findAll hvalid hnode (Selector.compile_of_parse hs suggest),
    gives_findAll hvalid hnode (Selector.compile_of_parse hhas suggest),
    gives_findAll hvalid hnode (Selector.compile_of_parse hlacks suggest), ?_, ?_, ?_, ?_, ?_⟩
  · intro found hhaving hlacking
    rw [mem_filter_extend] at hhaving hlacking
    exact Selector.satisfies_not.mp hlacking.2 hhaving.2
  · exact filter_extend_sublist _ _ _ _
  · exact filter_extend_sublist _ _ _ _
  · intro found hfound
    rw [mem_filter_extend, mem_filter_extend, Selector.satisfies_not]
    by_cases h : (Selector.pseudo "has" (some X) (some x)).Satisfies (encode text) found
    · exact .inl ⟨hfound, h⟩
    · exact .inr ⟨hfound, h⟩
  · intro found hfound
    have hmet := (List.mem_filter.mp hfound).1
    have hcontains := hnode.of_within ((mem_walk_iff hvalid hnode).mp hmet)
    rw [mem_filter_extend, exists_descendants_ne_nil_iff hvalid hcontains hx,
      Selector.satisfies_has, and_iff_right hfound]

/-- A text whose last character is known to be no blank. -/
theorem getLast?_not_blank {pattern : String} {last : Char}
    (hlast : pattern.toList.getLast? = some last) (hblank : isBlank last = false) :
    ∀ c ∈ pattern.toList.getLast?, isBlank c = false := by
  rw [hlast]
  rintro c ⟨⟩
  exact hblank

/-- An argument with a quoted parenthesis and a nested argument, behind a chain. -/
theorem findAll_has_or_not_has_nested :
    NestedLists.tree.Valid "[[é]]" ∧ NestedLists.tree.Contains NestedLists.program ∧
      ∃ having lacking,
        (NestedLists.program.findAll ⟨encode "[[é]]", true⟩
          "program list:has(name:not([text=')']))").Gives having ∧
        (NestedLists.program.findAll ⟨encode "[[é]]", true⟩
          "program list:not(:has(name:not([text=')'])))").Gives lacking ∧
        having.Disjoint lacking := by
  have hreads : ∀ pattern ∈ ["program list", "name:not([text=')'])"],
      ∃ s, Selector.parse pattern = .ok s := by
    have table : ∀ pattern ∈ ["program list", "name:not([text=')'])"],
        (Selector.parse pattern).isOk = true := by
      decide +kernel
    intro pattern hpattern
    exact exists_eq_ok_of_isOk (table pattern hpattern)
  obtain ⟨all, having, lacking, -, hhaving, hlacking, hdisjoint, -⟩ :=
    findAll_has_or_not_has NestedLists.valid NestedLists.contains_program true
      (hreads "program list" (by simp)) (getLast?_not_blank rfl rfl)
      (hreads "name:not([text=')'])" (by simp))
  exact ⟨NestedLists.valid, NestedLists.contains_program, having, lacking, hhaving, hlacking,
    hdisjoint⟩

/-! ## Downward and upward -/

/-- What is found from the root: the nodes of the tree of which the selector is true. -/
theorem exists_findAll_root (hvalid : tree.Valid text) {root : Node} (hroot : tree.root = .ok root)
    (suggest : Bool) {pattern : String} {s : Selector} (hs : Selector.parse pattern = .ok s) :
    ∃ found, (root.findAll ⟨encode text, suggest⟩ pattern).Gives found ∧
      ∀ other, other ∈ found ↔ tree.Contains other ∧ s.Satisfies (encode text) other := by
  have hcontains : tree.Contains root := ⟨root, hroot, .refl⟩
  refine ⟨_, gives_findAll hvalid hcontains (Selector.compile_of_parse hs suggest),
    fun other => ?_⟩
  have hwithin : other.Within root ↔ tree.Contains other := by
    constructor
    · exact fun h => ⟨root, hroot, h⟩
    · rintro ⟨top, htop, h⟩
      exact Except.ok.inj (hroot.symm.trans htop) ▸ h
  rw [List.mem_filter, mem_walk_iff hvalid hcontains, hwithin, decide_eq_true_iff]

theorem exists_mem_descendants_iff (hvalid : tree.Valid text) (hnode : tree.Contains node)
    (setting : Setting) {other : Node} :
    (∃ below, (node.descendants setting none).Gives below ∧ other ∈ below) ↔
      node.AncestorOf other := by
  rw [(gives_descendants_none hvalid hnode setting).exists_and_iff, mem_walk_tail_iff hvalid hnode]

/-- In a whole tree, `A:has(B)` finds what `A` finds and is an ancestor of something that `B` finds,
`A B` what `B` finds and is a descendant of something that `A` finds; so each finds something
exactly if the other does. -/
theorem findAll_has_iff_descendant (hvalid : tree.Valid text) {root : Node}
    (hroot : tree.root = .ok root) (suggest : Bool) {A B : String}
    (hA : ∃ a, Selector.parse A = .ok a)
    (hend : ∀ c ∈ A.toList.getLast?, isBlank c = false)
    (hB : ∃ b, Selector.parse B = .ok b ∧ b.isChain = false) :
    ∃ upper lower having below,
      (root.findAll ⟨encode text, suggest⟩ A).Gives upper ∧
      (root.findAll ⟨encode text, suggest⟩ B).Gives lower ∧
      (root.findAll ⟨encode text, suggest⟩ (A ++ ":has(" ++ B ++ ")")).Gives having ∧
      (root.findAll ⟨encode text, suggest⟩ (A ++ " " ++ B)).Gives below ∧
      (∀ x, x ∈ having ↔ x ∈ upper ∧ ∃ y ∈ lower, x ∈ y.ancestors) ∧
      (∀ y, y ∈ below ↔ y ∈ lower ∧ ∃ x ∈ upper, ∃ under,
        (x.descendants ⟨encode text, suggest⟩ none).Gives under ∧ y ∈ under) ∧
      (having = [] ↔ below = []) := by
  obtain ⟨a, ha⟩ := hA
  obtain ⟨b, hb, hcompound⟩ := hB
  obtain ⟨upper, hupper, mem_upper⟩ := exists_findAll_root hvalid hroot suggest ha
  obtain ⟨lower, hlower, mem_lower⟩ := exists_findAll_root hvalid hroot suggest hb
  obtain ⟨having, hhaving, mem_having⟩ :=
    exists_findAll_root hvalid hroot suggest (Selector.parse_has ha hend hb)
  obtain ⟨below, hbelow, mem_below⟩ :=
    exists_findAll_root hvalid hroot suggest (Selector.parse_descendant ha hb hcompound)
  -- Both searches look for pairs of an upper and a lower node; they report different ends.
  have having_iff : ∀ x, x ∈ having ↔ x ∈ upper ∧ ∃ y ∈ lower, x.AncestorOf y := by
    intro x
    rw [mem_having, Selector.satisfies_extend, Selector.satisfies_has, mem_upper, ← and_assoc]
    refine and_congr_right fun hx => exists_congr fun y => ?_
    rw [mem_lower]
    exact ⟨fun h => ⟨⟨hx.1.of_ancestorOf h.1, h.2⟩, h.1⟩, fun h => ⟨h.2, h.1.2⟩⟩
  have below_iff : ∀ y, y ∈ below ↔ y ∈ lower ∧ ∃ x ∈ upper, x.AncestorOf y := by
    intro y
    rw [mem_below, Selector.Satisfies, mem_lower, ← and_assoc]
    refine and_congr_right fun hy => exists_congr fun x => ?_
    rw [mem_upper]
    exact ⟨fun h => ⟨⟨hy.1.ancestorOf h.1, h.2⟩, h.1⟩, fun h => ⟨h.2, h.1.2⟩⟩
  refine ⟨upper, lower, having, below, hupper, hlower, hhaving, hbelow,
    fun x => ?_, fun y => ?_, ?_⟩
  · rw [having_iff]
    refine and_congr_right fun _ => exists_congr fun y => and_congr_right fun hy => ?_
    rw [mem_ancestors_iff ((mem_lower y).mp hy).1]
  · rw [below_iff]
    refine and_congr_right fun _ => exists_congr fun x => and_congr_right fun hx => ?_
    rw [exists_mem_descendants_iff hvalid ((mem_upper x).mp hx).1]
  · rw [List.eq_nil_iff_forall_not_mem, List.eq_nil_iff_forall_not_mem]
    constructor
    · intro hempty y hy
      obtain ⟨hylower, x, hxupper, hxy⟩ := (below_iff y).mp hy
      exact hempty x ((having_iff x).mpr ⟨hxupper, y, hylower, hxy⟩)
    · intro hempty x hx
      obtain ⟨hxupper, y, hylower, hxy⟩ := (having_iff x).mp hx
      exact hempty y ((below_iff y).mpr ⟨hylower, x, hxupper, hxy⟩)

/-- Lists above a name, and names below a list. -/
theorem findAll_has_iff_descendant_lists :
    NestedLists.tree.Valid "[[é]]" ∧ NestedLists.tree.root = .ok NestedLists.program ∧
      ∃ having below,
        (NestedLists.program.findAll ⟨encode "[[é]]", true⟩ "list:has(name)").Gives having ∧
        (NestedLists.program.findAll ⟨encode "[[é]]", true⟩ "list name").Gives below ∧
        (having = [] ↔ below = []) := by
  obtain ⟨upper, lower, having, below, -, -, hhaving, hbelow, -, -, hempty⟩ :=
    findAll_has_iff_descendant NestedLists.valid rfl true (A := "list") (B := "name")
      ⟨.kind "list", rfl⟩ (getLast?_not_blank rfl rfl) ⟨.kind "name", rfl, rfl⟩
  exact ⟨NestedLists.valid, rfl, having, below, hhaving, hbelow, hempty⟩

end Node

end Arborist

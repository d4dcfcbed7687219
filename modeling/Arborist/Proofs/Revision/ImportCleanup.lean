import Arborist.Proofs.Revision.Atomicity
import Arborist.Proofs.Revision.Usage
import Arborist.Proofs.Search.Listing
import Arborist.Proofs.Tree.Layout
import Mathlib.Data.List.ReduceOption

/-!
# What is left of imports

The bindings of an import clause are its default name, its namespace and the specifiers in its
braces (`Node.Binds`). A binding is kept exactly if one of its names is used (`Draft.Keeps`), and
from this follows what is left of each part of a clause (`Draft.Remains`), of all parts in a row
(`Draft.Leaves`), and what has to be done to the statement (`Draft.Tidied`). These are relations
between nodes and texts; none of them computes anything or can fail.

On a tree that fits its sources the cleanup does what they say, for every statement in pre-order
(`Draft.perform_removeUnusedImports`). The lemmas before it follow the functions: each says that the
function ends, and what its answer is.
-/

namespace Arborist

open Text

/-! ## Bindings -/

namespace Node

/-- The first child of a kind. -/
def FirstOfKind (parent : Node) (kind : String) (node : Node) : Prop :=
  ∃ position, parent.ChildAt position node ∧ node.kind = kind ∧
    ∀ earlier < position, ∀ sibling : Node, parent.ChildAt earlier sibling → sibling.kind ≠ kind

/-- What a part of an import clause binds. A default name and a namespace are bindings themselves;
a list in braces has its specifiers. -/
inductive Binds (part : Node) : Node → Prop
  | name : part.kind = "identifier" → Binds part part
  | space : part.kind = "namespace_import" → Binds part part
  | specifier {binding : Node} :
      part.kind = "named_imports" → part.ParentOf binding → binding.kind = "import_specifier" →
      Binds part binding

/-- A list in braces has children, and specifiers among them. -/
structure Lists (part : Node) (children specifiers : List Node) : Prop where
  kind_eq : part.kind = "named_imports"
  children_eq : part.children = .ok children
  specifiers_eq : specifiers = children.filter (·.kind == "import_specifier")

/-- The names that a binding goes by. A specifier goes by the name it takes and by the one it
gives. -/
inductive GoesBy (source : Bytes) (binding : Node) (name : String) : Prop
  | name : binding.kind = "identifier" → binding.Spells source name → GoesBy source binding name
  | space {localName : Node} :
      binding.kind = "namespace_import" → binding.FirstOfKind "identifier" localName →
      localName.Spells source name → GoesBy source binding name
  | specifier {field : String} {child : Node} :
      binding.kind = "import_specifier" → field ∈ ["name", "alias"] →
      binding.FieldOf field child → child.Spells source name → GoesBy source binding name

end Node

namespace Draft

variable (draft : Draft)

/-- A binding is kept if one of its names is used within the root of the draft. -/
def Keeps (binding : Node) : Prop :=
  ∃ name, binding.GoesBy draft.setting.source name ∧ draft.root.Uses draft.setting.source name

/-- The edited source has a text between two nodes. -/
def Between (left right : Node) (text : String) : Prop :=
  slice draft.source left.stop right.start = encode text

open scoped Classical in
/-- The specifiers of a list that are kept. -/
noncomputable def kept (specifiers : List Node) : List Node :=
  specifiers.filter fun specifier => decide (draft.Keeps specifier)

/-- What is left of a part of an import clause: the part as it is if all its bindings are kept, and
a list of specifiers if only some are. The list keeps what stands before its first and after its
last specifier; what stood between the first two separates those that are kept. -/
inductive Remains (part : Node) : String → Prop
  | whole {text : String} :
      (∃ binding, part.Binds binding) → (∀ binding, part.Binds binding → draft.Keeps binding) →
      part.Spells draft.setting.source text → Remains part text
  | pruned {children specifiers others : List Node} {opening closing first second last : Node}
      {lead separator trail : String} {texts : List String} :
      part.Lists children specifiers →
      draft.kept specifiers ≠ [] → draft.kept specifiers ≠ specifiers →
      children.head? = some opening → children.getLast? = some closing →
      specifiers = first :: second :: others → specifiers.getLast? = some last →
      draft.Between opening first lead → draft.Between first second separator →
      draft.Between last closing trail →
      List.Forall₂ (Node.Spells draft.setting.source) (draft.kept specifiers) texts →
      Remains part ("\x7b" ++ lead ++ separator.intercalate texts ++ trail ++ "\x7d")

/-- What is left of the parts of an import clause, in their order. -/
inductive Leaves : List Node → List String → Prop
  | nil : Leaves [] []
  | kept {part : Node} {parts : List Node} {text : String} {texts : List String} :
      draft.Remains part text → Leaves parts texts → Leaves (part :: parts) (text :: texts)
  | dropped {part : Node} {parts : List Node} {texts : List String} :
      (∀ binding, part.Binds binding → ¬draft.Keeps binding) → Leaves parts texts →
      Leaves (part :: parts) texts

/-- Where a removal from the edited source ends that goes up to an offset: after the line end that
stands there, if one does. -/
inductive LineEndAfter (offset : Nat) : Nat → Prop
  | carriageReturn : encode "\r\n" <+: draft.source.drop offset → LineEndAfter offset (offset + 2)
  | lineFeed : encode "\n" <+: draft.source.drop offset → LineEndAfter offset (offset + 1)
  | nothing : ¬encode "\r\n" <+: draft.source.drop offset →
      ¬encode "\n" <+: draft.source.drop offset → LineEndAfter offset offset

/-- What is done to an import statement. Its first clause counts. A statement without a clause, or
with one that binds nothing, is left alone. If no binding is kept, the statement goes with its line
end. Otherwise the clause comes to be what is left of its parts, separated by commas. -/
inductive Tidied (statement : Node) : Option Edit → Prop
  | noClause :
      (∀ clause, ¬statement.FirstOfKind "import_clause" clause) → Tidied statement none
  | noBinding {clause : Node} :
      statement.FirstOfKind "import_clause" clause →
      (∀ part binding, clause.ParentOf part → ¬part.Binds binding) → Tidied statement none
  | removed {clause : Node} {stop : Nat} :
      statement.FirstOfKind "import_clause" clause →
      (∃ part binding, clause.ParentOf part ∧ part.Binds binding) →
      (∀ part binding, clause.ParentOf part → part.Binds binding → ¬draft.Keeps binding) →
      draft.LineEndAfter statement.stop stop →
      Tidied statement (some ⟨statement.start, stop, ""⟩)
  | settled {clause : Node} {parts : List Node} {texts : List String} :
      statement.FirstOfKind "import_clause" clause → clause.children = .ok parts →
      draft.Leaves parts texts → texts ≠ [] →
      clause.Spells draft.setting.source (", ".intercalate texts) → Tidied statement none
  | pruned {clause : Node} {parts : List Node} {texts : List String} :
      statement.FirstOfKind "import_clause" clause → clause.children = .ok parts →
      draft.Leaves parts texts → texts ≠ [] →
      ¬clause.Spells draft.setting.source (", ".intercalate texts) →
      Tidied statement (some (replacement clause (", ".intercalate texts)))

end Draft

/-! ## Finding bindings -/

namespace Node

variable {text : String} {node child part binding : Node} {children : List Node} {kind : String}

theorem FirstOfKind.parentOf (h : node.FirstOfKind kind child) : node.ParentOf child := by
  obtain ⟨position, hchild, -⟩ := h
  exact ⟨position, hchild⟩

theorem find?_children_eq_some_iff (h : node.children = .ok children) :
    children.find? (·.kind == kind) = some child ↔ node.FirstOfKind kind child := by
  rw [List.find?_eq_some_iff_getElem]
  simp only [beq_iff_eq, Bool.not_eq_true', beq_eq_false_iff_ne]
  constructor
  · rintro ⟨hkind, position, hlt, rfl, hearlier⟩
    refine ⟨position, (getElem?_children h).mp (List.getElem?_eq_getElem hlt), hkind, ?_⟩
    intro earlier hlt' sibling hsibling
    obtain ⟨hlength, rfl⟩ := List.getElem?_eq_some_iff.mp ((getElem?_children h).mpr hsibling)
    exact hearlier earlier hlt'
  · rintro ⟨position, hchild, hkind, hearlier⟩
    obtain ⟨hlt, hget⟩ := List.getElem?_eq_some_iff.mp ((getElem?_children h).mpr hchild)
    refine ⟨hkind, position, hlt, hget, fun earlier hlt' => ?_⟩
    exact hearlier earlier hlt' _ ((getElem?_children h).mp (List.getElem?_eq_getElem _))

theorem find?_children_eq_none_iff (h : node.children = .ok children) :
    children.find? (·.kind == kind) = none ↔ ∀ child, ¬node.FirstOfKind kind child := by
  rw [Option.eq_none_iff_forall_ne_some]
  exact forall_congr' fun child => not_congr (find?_children_eq_some_iff h)

/-- What is a binding itself has no other. -/
theorem Binds.eq_of_self (hself : part.Binds part) (h : part.Binds binding) : binding = part := by
  cases h with
  | name => rfl
  | space => rfl
  | specifier hlist =>
      cases hself with
      | name hkind => simp [hlist] at hkind
      | space hkind => simp [hlist] at hkind
      | specifier _ _ hkind => simp [hlist] at hkind

theorem Lists.mem_iff {specifiers : List Node} (h : part.Lists children specifiers) :
    binding ∈ specifiers ↔ part.Binds binding := by
  rw [h.specifiers_eq, List.mem_filter, mem_children_iff h.children_eq, beq_iff_eq]
  constructor
  · rintro ⟨hparent, hkind⟩
    exact .specifier h.kind_eq hparent hkind
  · intro hbinds
    cases hbinds with
    | name hkind => simp [h.kind_eq] at hkind
    | space hkind => simp [h.kind_eq] at hkind
    | specifier _ hparent hkind => exact ⟨hparent, hkind⟩

theorem Lists.unique {specifiers children' specifiers' : List Node}
    (h : part.Lists children specifiers) (h' : part.Lists children' specifiers') :
    children = children' ∧ specifiers = specifiers' := by
  obtain rfl := Except.ok.inj (h.children_eq.symm.trans h'.children_eq)
  exact ⟨rfl, h.specifiers_eq.trans h'.specifiers_eq.symm⟩

theorem goesBy_iff_of_identifier {source : Bytes} {name : String}
    (h : binding.kind = "identifier") :
    binding.GoesBy source name ↔ binding.Spells source name := by
  constructor
  · intro hgoes
    cases hgoes with
    | name _ hspells => exact hspells
    | space hkind => simp [h] at hkind
    | specifier hkind => simp [h] at hkind
  · exact .name h

theorem goesBy_iff_of_namespace {source : Bytes} {name : String}
    (h : binding.kind = "namespace_import") :
    binding.GoesBy source name ↔
      ∃ localName, binding.FirstOfKind "identifier" localName ∧ localName.Spells source name := by
  constructor
  · intro hgoes
    cases hgoes with
    | name hkind => simp [h] at hkind
    | space _ hfirst hspells => exact ⟨_, hfirst, hspells⟩
    | specifier hkind => simp [h] at hkind
  · rintro ⟨localName, hfirst, hspells⟩
    exact .space h hfirst hspells

theorem goesBy_iff_of_specifier {source : Bytes} {name : String}
    (h : binding.kind = "import_specifier") :
    binding.GoesBy source name ↔
      (∃ child, binding.FieldOf "name" child ∧ child.Spells source name) ∨
        ∃ child, binding.FieldOf "alias" child ∧ child.Spells source name := by
  constructor
  · intro hgoes
    cases hgoes with
    | name hkind => simp [h] at hkind
    | space hkind => simp [h] at hkind
    | specifier _ hfield hchild hspells =>
        rcases List.mem_pair.mp hfield with rfl | rfl
        · exact .inl ⟨_, hchild, hspells⟩
        · exact .inr ⟨_, hchild, hspells⟩
  · rintro (⟨child, hchild, hspells⟩ | ⟨child, hchild, hspells⟩)
    · exact .specifier h (by simp) hchild hspells
    · exact .specifier h (by simp) hchild hspells

end Node

/-! ## What is left of a part -/

namespace Draft

variable {draft : Draft} {tree : Tree} {text edited : String} {node part binding : Node}
  {used : List String}

theorem sliceText_eq_ok_iff {left right : Node} {value : String} :
    draft.sliceText left.stop right.start = .ok value ↔ draft.Between left right value := by
  unfold sliceText Between
  rw [← decode?_eq_some_iff]
  cases decode? (slice draft.source left.stop right.start) with
  | none => exact iff_of_false (by rintro ⟨⟩) (by rintro ⟨⟩)
  | some found => rw [Except.ok.injEq, Option.some.injEq]

namespace Sound

theorem exists_text (h : draft.Sound tree text edited) (hnode : node.Within draft.root) :
    ∃ actual, node.text draft.setting.source = .ok actual ∧
      ∀ value, actual = value ↔ node.Spells draft.setting.source value := by
  rw [h.source_eq]
  exact Node.exists_text (h.node_valid hnode)

/-- The text between two nodes can be read. -/
theorem exists_between (h : draft.Sound tree text edited) {left right : Node}
    (hleft : left.Within draft.root) (hright : right.Within draft.root) :
    ∃ value, draft.Between left right value := by
  cases (h.contains.of_within hleft).valid h.validEdited with
  | node _ hstop _ =>
      cases (h.contains.of_within hright).valid h.validEdited with
      | node hstart _ _ =>
          obtain ⟨value, hvalue⟩ := validUtf8_slice hstop hstart
          rw [← h.edited_eq] at hvalue
          exact ⟨value, decode?_eq_some_iff.mp hvalue⟩

/-- The names collected are those used within the root. -/
theorem exists_usedNames (h : draft.Sound tree text edited) :
    ∃ used, draft.usedNames = .ok used ∧
      ∀ name, name ∈ used ↔ draft.root.Uses draft.setting.source name := by
  have hused := Node.mem_usedNames_iff (h.node_valid .refl)
  rw [← h.source_eq] at hused
  exact hused

/-- The test of a specifier ends, and finds whether it is kept. -/
theorem decides_specifierUsed (h : draft.Sound tree text edited)
    (hused : ∀ name, name ∈ used ↔ draft.root.Uses draft.setting.source name)
    (hnode : node.Within draft.root) (hkind : node.kind = "import_specifier") :
    Decides (specifierUsed draft.setting.source used node) (draft.Keeps node) := by
  obtain ⟨taken, htaken, hname⟩ := Node.finds_fieldText (h.node_valid hnode) "name"
  obtain ⟨given, hgiven, halias⟩ := Node.finds_fieldText (h.node_valid hnode) "alias"
  rw [← h.source_eq] at htaken hname hgiven halias
  have hanswer : specifierUsed draft.setting.source used node =
      .ok (taken.any used.contains || given.any used.contains) := by
    unfold specifierUsed
    rw [htaken, hgiven]
    cases taken with
    | none =>
        cases given with
        | none => rfl
        | some other => by_cases hother : other ∈ used <;> simp [ok_bind, pure_eq_ok_iff, hother]
    | some name =>
        by_cases hused : name ∈ used
        · simp [ok_bind, pure_eq_ok_iff, hused]
        · cases given with
          | none => simp [ok_bind, pure_eq_ok_iff, hused]
          | some other =>
              by_cases hother : other ∈ used <;> simp [ok_bind, pure_eq_ok_iff, hused, hother]
  refine ⟨_, hanswer, ?_⟩
  unfold Keeps
  simp only [Node.goesBy_iff_of_specifier hkind, ← hname, ← halias, ← hused, or_and_right,
    exists_or, Bool.or_eq_true, Option.any_eq_true, List.contains_iff_mem]

open scoped Classical in
/-- The specifiers that pass the test are those that are kept. -/
theorem allPassing_specifierUsed (h : draft.Sound tree text edited)
    (hused : ∀ name, name ∈ used ↔ draft.root.Uses draft.setting.source name)
    (hpart : part.Within draft.root) {children specifiers : List Node}
    (hlists : part.Lists children specifiers) :
    Walk.allPassing (specifierUsed draft.setting.source used) specifiers =
      .ok (draft.kept specifiers) := by
  refine Walk.allPassing_eq fun specifier hspecifier => ?_
  cases hlists.mem_iff.mp hspecifier with
  | name hkind => simp [hlists.kind_eq] at hkind
  | space hkind => simp [hlists.kind_eq] at hkind
  | specifier _ hparent hkind =>
      exact h.decides_specifierUsed hused (Relation.ReflTransGen.tail hpart hparent) hkind

end Sound

section Lists

variable {children specifiers : List Node} {value : String}

theorem mem_kept_iff : node ∈ draft.kept specifiers ↔ node ∈ specifiers ∧ draft.Keeps node := by
  simp only [kept, List.mem_filter, decide_eq_true_iff]

theorem kept_eq_self_iff (h : part.Lists children specifiers) :
    draft.kept specifiers = specifiers ↔
      ∀ binding, part.Binds binding → draft.Keeps binding := by
  simp only [kept, List.filter_eq_self, h.mem_iff, decide_eq_true_iff]

/-- A list some of whose elements are kept and some are not has two elements at least. -/
theorem exists_two_of_filter {α : Type} {xs : List α} {p : α → Bool} (hsome : xs.filter p ≠ [])
    (hproper : xs.filter p ≠ xs) : ∃ first second rest, xs = first :: second :: rest := by
  match xs with
  | [] => exact absurd rfl hproper
  | [x] =>
      by_cases hx : p x = true
      · exact absurd (by simp [hx]) hproper
      · exact absurd (by simp [hx]) hsome
  | first :: second :: rest => exact ⟨first, second, rest, rfl⟩

/-- The places that a list of specifiers is rebuilt around. -/
theorem exists_landmarks (h : part.Lists children specifiers)
    (hkept : draft.kept specifiers ≠ []) (hproper : draft.kept specifiers ≠ specifiers) :
    ∃ opening closing first second last others, children.head? = some opening ∧
      children.getLast? = some closing ∧ specifiers = first :: second :: others ∧
      specifiers.getLast? = some last := by
  obtain ⟨first, second, others, hspecifiers⟩ := exists_two_of_filter hkept hproper
  have hne : specifiers ≠ [] := hspecifiers ▸ List.cons_ne_nil _ _
  have hchildren : children ≠ [] := by
    rintro rfl
    exact hne h.specifiers_eq
  exact ⟨_, _, first, second, _, others, List.head?_eq_some_head hchildren,
    List.getLast?_eq_some_getLast hchildren, hspecifiers, List.getLast?_eq_some_getLast hne⟩

/-- A list of specifiers that are all kept stays as it is. -/
theorem remains_iff_of_all (h : part.Lists children specifiers) (hkept : draft.kept specifiers ≠ [])
    (hall : draft.kept specifiers = specifiers) :
    draft.Remains part value ↔ part.Spells draft.setting.source value := by
  constructor
  · intro hremains
    cases hremains with
    | whole _ _ hspells => exact hspells
    | pruned h' _ hproper =>
        obtain ⟨rfl, rfl⟩ := h.unique h'
        exact absurd hall hproper
  · obtain ⟨binding, hbinding⟩ := List.exists_mem_of_ne_nil specifiers (hall ▸ hkept)
    exact .whole ⟨binding, h.mem_iff.mp hbinding⟩ ((kept_eq_self_iff h).mp hall)

/-- A list some of whose specifiers are kept is put together from what is kept. -/
theorem remains_iff_of_some (h : part.Lists children specifiers)
    (hkept : draft.kept specifiers ≠ []) (hproper : draft.kept specifiers ≠ specifiers)
    {opening closing first second last : Node} {others : List Node}
    (hopening : children.head? = some opening) (hclosing : children.getLast? = some closing)
    (hspecifiers : specifiers = first :: second :: others)
    (hlast : specifiers.getLast? = some last) :
    draft.Remains part value ↔ ∃ lead, draft.Between opening first lead ∧
      ∃ trail, draft.Between last closing trail ∧
      ∃ separator, draft.Between first second separator ∧
      ∃ texts, List.Forall₂ (Node.Spells draft.setting.source) (draft.kept specifiers) texts ∧
        "\x7b" ++ lead ++ separator.intercalate texts ++ trail ++ "\x7d" = value := by
  constructor
  · intro hremains
    cases hremains with
    | whole _ hall => exact absurd ((kept_eq_self_iff h).mpr hall) hproper
    | pruned h' _ _ hopening' hclosing' hspecifiers' hlast' hlead hseparator htrail htexts =>
        obtain ⟨rfl, rfl⟩ := h.unique h'
        obtain rfl := Option.some.inj (hopening.symm.trans hopening')
        obtain rfl := Option.some.inj (hclosing.symm.trans hclosing')
        obtain rfl := Option.some.inj (hlast.symm.trans hlast')
        obtain ⟨rfl, hrest⟩ := List.cons.inj (hspecifiers.symm.trans hspecifiers')
        obtain ⟨rfl, -⟩ := List.cons.inj hrest
        exact ⟨_, hlead, _, htrail, _, hseparator, _, htexts, rfl⟩
  · rintro ⟨lead, hlead, trail, htrail, separator, hseparator, texts, htexts, rfl⟩
    exact .pruned h hkept hproper hopening hclosing hspecifiers hlast hlead hseparator htrail htexts

/-- Rebuilding a list of specifiers gives what is left of it. -/
theorem rebuildBlock_eq_ok_iff (h : part.Lists children specifiers)
    (hkept : draft.kept specifiers ≠ []) :
    draft.rebuildBlock part specifiers (draft.kept specifiers) = .ok value ↔
      draft.Remains part value := by
  unfold rebuildBlock
  by_cases hproper : draft.kept specifiers = specifiers
  · rw [remains_iff_of_all h hkept hproper, hproper, if_pos (beq_self_eq_true _)]
    exact Node.text_eq_ok_iff
  · obtain ⟨opening, closing, first, second, last, others, hopening, hclosing, hspecifiers,
      hlast⟩ := exists_landmarks h hkept hproper
    have hlength : ¬((draft.kept specifiers).length == specifiers.length) = true := by
      rw [beq_iff_eq]
      exact fun heq => hproper (List.Sublist.eq_of_length List.filter_sublist heq)
    rw [remains_iff_of_some h hkept hproper hopening hclosing hspecifiers hlast, if_neg hlength,
      h.children_eq, ok_bind, hopening, hclosing, hlast, hspecifiers]
    simp only [List.head?_cons, bind_eq_ok_iff, pure_eq_ok_iff, sliceText_eq_ok_iff,
      mapM_eq_ok_iff, Node.text_eq_ok_iff]

end Lists

namespace Sound

/-- Something is left of a list with a specifier that is kept. -/
theorem exists_remains (h : draft.Sound tree text edited) (hpart : part.Within draft.root)
    {children specifiers : List Node} (hlists : part.Lists children specifiers)
    (hkept : draft.kept specifiers ≠ []) : ∃ value, draft.Remains part value := by
  by_cases hproper : draft.kept specifiers = specifiers
  · obtain ⟨value, -, hvalue⟩ := h.exists_text hpart
    exact ⟨value, (remains_iff_of_all hlists hkept hproper).mpr ((hvalue value).mp rfl)⟩
  · obtain ⟨opening, closing, first, second, last, others, hopening, hclosing, hspecifiers,
      hlast⟩ := exists_landmarks hlists hkept hproper
    have hwithin : ∀ child ∈ children, child.Within draft.root := fun child hchild =>
      Relation.ReflTransGen.tail hpart ((Node.mem_children_iff hlists.children_eq).mp hchild)
    have hspecifier : ∀ specifier ∈ specifiers, specifier.Within draft.root := by
      rw [hlists.specifiers_eq]
      exact fun specifier hmem => hwithin specifier (List.mem_filter.mp hmem).1
    have hfirst := hspecifier first (by simp [hspecifiers])
    obtain ⟨lead, hlead⟩ :=
      h.exists_between (hwithin opening (List.mem_of_head? hopening)) hfirst
    obtain ⟨separator, hseparator⟩ :=
      h.exists_between hfirst (hspecifier second (by simp [hspecifiers]))
    obtain ⟨trail, htrail⟩ := h.exists_between (hspecifier last (List.mem_of_getLast? hlast))
      (hwithin closing (List.mem_of_getLast? hclosing))
    obtain ⟨texts, htexts⟩ : ∃ texts,
        List.Forall₂ (Node.Spells draft.setting.source) (draft.kept specifiers) texts := by
      refine exists_forall₂ fun specifier hmem => ?_
      obtain ⟨value, -, hvalue⟩ := h.exists_text (hspecifier specifier (mem_kept_iff.mp hmem).1)
      exact ⟨value, (hvalue value).mp rfl⟩
    exact ⟨_, .pruned hlists hkept hproper hopening hclosing hspecifiers hlast hlead hseparator
      htrail htexts⟩

end Sound

/-- Only of a part with a binding that is kept something is left. -/
theorem Remains.exists_keeps {value : String} (h : draft.Remains part value) :
    ∃ binding, part.Binds binding ∧ draft.Keeps binding := by
  cases h with
  | whole hsome hall =>
      obtain ⟨binding, hbinding⟩ := hsome
      exact ⟨binding, hbinding, hall binding hbinding⟩
  | pruned hlists hkept =>
      obtain ⟨binding, hbinding⟩ := List.exists_mem_of_ne_nil _ hkept
      obtain ⟨hmem, hkeeps⟩ := mem_kept_iff.mp hbinding
      exact ⟨binding, hlists.mem_iff.mp hmem, hkeeps⟩

/-- A default name or a namespace that is kept stays as it is. -/
theorem remains_iff_of_self (hself : part.Binds part) {value : String} :
    draft.Remains part value ↔ draft.Keeps part ∧ part.Spells draft.setting.source value := by
  constructor
  · intro hremains
    cases hremains with
    | whole _ hall hspells => exact ⟨hall part hself, hspells⟩
    | pruned hlists =>
        cases hself with
        | name hkind => simp [hlists.kind_eq] at hkind
        | space hkind => simp [hlists.kind_eq] at hkind
        | specifier _ _ hkind => simp [hlists.kind_eq] at hkind
  · rintro ⟨hkeeps, hspells⟩
    refine .whole ⟨part, hself⟩ (fun binding hbinding => ?_) hspells
    rw [hself.eq_of_self hbinding]
    exact hkeeps

theorem keeps_iff_of_goesBy
    (hused : ∀ name, name ∈ used ↔ draft.root.Uses draft.setting.source name) {only : String}
    (hgoes : ∀ name, binding.GoesBy draft.setting.source name ↔ only = name) :
    draft.Keeps binding ↔ only ∈ used := by
  simp [Keeps, hgoes, hused]

namespace Sound

variable (h : draft.Sound tree text edited) (hpart : part.Within draft.root)

include h hpart

/-- Something is left of a part exactly if one of its bindings is kept. -/
theorem exists_remains_iff :
    (∃ value, draft.Remains part value) ↔ ∃ binding, part.Binds binding ∧ draft.Keeps binding := by
  constructor
  · rintro ⟨value, hremains⟩
    exact hremains.exists_keeps
  · rintro ⟨binding, hbinds, hkeeps⟩
    obtain ⟨value, -, hvalue⟩ := h.exists_text hpart
    cases hbinds with
    | name hkind =>
        exact ⟨value, (remains_iff_of_self (.name hkind)).mpr ⟨hkeeps, (hvalue value).mp rfl⟩⟩
    | space hkind =>
        exact ⟨value, (remains_iff_of_self (.space hkind)).mpr ⟨hkeeps, (hvalue value).mp rfl⟩⟩
    | specifier hkind hparent hspecifier =>
        obtain ⟨children, hchildren, -⟩ := h.exists_children hpart
        have hlists : part.Lists children _ := ⟨hkind, hchildren, rfl⟩
        have hmem := hlists.mem_iff.mpr (.specifier hkind hparent hspecifier)
        exact h.exists_remains hpart hlists (List.ne_nil_of_mem (mem_kept_iff.mpr ⟨hmem, hkeeps⟩))

variable (hused : ∀ name, name ∈ used ↔ draft.root.Uses draft.setting.source name)

include hused

/-- What a default name binds, as it is read. -/
theorem exists_bindingOf_name (hkind : part.kind = "identifier") :
    ∃ found, draft.bindingOf used part = .ok found ∧ found.count = 1 ∧
      ∀ value, found.kept = some value ↔ draft.Remains part value := by
  obtain ⟨actual, hactual, hspells⟩ := h.exists_text hpart
  have hkeeps : draft.Keeps part ↔ actual ∈ used := by
    refine keeps_iff_of_goesBy hused fun name => ?_
    rw [Node.goesBy_iff_of_identifier hkind, hspells]
  unfold bindingOf
  rw [if_pos (by simp [hkind]), hactual]
  refine ⟨_, rfl, rfl, fun value => ?_⟩
  rw [remains_iff_of_self (.name hkind), hkeeps, ← hspells]
  simp

/-- What a namespace binds, as it is read. -/
theorem exists_bindingOf_space (hkind : part.kind = "namespace_import") :
    ∃ found, draft.bindingOf used part = .ok found ∧ found.count = 1 ∧
      ∀ value, found.kept = some value ↔ draft.Remains part value := by
  obtain ⟨actual, hactual, hspells⟩ := h.exists_text hpart
  obtain ⟨children, hchildren, hwithin⟩ := h.exists_children hpart
  simp only [remains_iff_of_self (.space hkind), ← hspells]
  unfold bindingOf
  rw [if_neg (by simp [hkind]), if_pos (by simp [hkind]), hchildren, ok_bind]
  cases hfind : children.find? (·.kind == "identifier") with
  | none =>
      have hnone := (Node.find?_children_eq_none_iff hchildren).mp hfind
      refine ⟨_, rfl, rfl, fun value => iff_of_false (by simp) ?_⟩
      rintro ⟨⟨name, hgoes, -⟩, -⟩
      obtain ⟨localName, hfirst, -⟩ := (Node.goesBy_iff_of_namespace hkind).mp hgoes
      exact hnone localName hfirst
  | some localName =>
      have hfirst := (Node.find?_children_eq_some_iff hchildren).mp hfind
      obtain ⟨name, hname, hlocal⟩ :=
        h.exists_text (hwithin localName (List.mem_of_find?_eq_some hfind))
      have hkeeps : draft.Keeps part ↔ name ∈ used := by
        refine keeps_iff_of_goesBy hused fun other => ?_
        rw [Node.goesBy_iff_of_namespace hkind, hlocal]
        constructor
        · rintro ⟨found, hfound, hother⟩
          rw [← Node.find?_children_eq_some_iff hchildren, hfind] at hfound
          cases hfound
          exact hother
        · exact fun hother => ⟨localName, hfirst, hother⟩
      simp only [hname, ok_bind, hactual, hkeeps]
      by_cases hmem : name ∈ used
      · rw [if_pos (List.contains_iff_mem.mpr hmem)]
        exact ⟨_, rfl, rfl, fun value => by simp [hmem]⟩
      · rw [if_neg (mt List.contains_iff_mem.mp hmem)]
        exact ⟨_, rfl, rfl, fun value => by simp [hmem]⟩

/-- What a list of specifiers binds, as it is read. -/
theorem exists_bindingOf_list {children specifiers : List Node}
    (hlists : part.Lists children specifiers) :
    ∃ found, draft.bindingOf used part = .ok found ∧ found.count = specifiers.length ∧
      ∀ value, found.kept = some value ↔ draft.Remains part value := by
  unfold bindingOf
  rw [if_neg (by simp [hlists.kind_eq]), if_neg (by simp [hlists.kind_eq]),
    if_pos (by simp [hlists.kind_eq]), hlists.children_eq, ok_bind, ← hlists.specifiers_eq]
  dsimp only
  rw [h.allPassing_specifierUsed hused hpart hlists, ok_bind]
  by_cases hkept : draft.kept specifiers = []
  · rw [if_pos (by simp [hkept])]
    refine ⟨_, rfl, rfl, fun value => iff_of_false (by simp) fun hremains => ?_⟩
    obtain ⟨binding, hbinding, hkeeps⟩ := hremains.exists_keeps
    have hmem := mem_kept_iff.mpr ⟨hlists.mem_iff.mpr hbinding, hkeeps⟩
    simp [hkept] at hmem
  · rw [if_neg (by simp [hkept])]
    obtain ⟨value, hvalue⟩ := h.exists_remains hpart hlists hkept
    have hrebuilt := (rebuildBlock_eq_ok_iff hlists hkept).mpr hvalue
    rw [hrebuilt]
    refine ⟨_, rfl, rfl, fun other => ?_⟩
    rw [← rebuildBlock_eq_ok_iff hlists hkept, hrebuilt, Except.ok.injEq, Option.some.injEq]

/-- What one part of a clause binds, as it is read. -/
theorem exists_bindingOf :
    ∃ found, draft.bindingOf used part = .ok found ∧
      (found.count = 0 ↔ ∀ binding, ¬part.Binds binding) ∧
      ∀ value, found.kept = some value ↔ draft.Remains part value := by
  by_cases hname : part.kind = "identifier"
  · obtain ⟨found, hfound, hcount, hkept⟩ := h.exists_bindingOf_name hpart hused hname
    exact ⟨found, hfound, iff_of_false (by simp [hcount]) fun hnone => hnone part (.name hname),
      hkept⟩
  by_cases hspace : part.kind = "namespace_import"
  · obtain ⟨found, hfound, hcount, hkept⟩ := h.exists_bindingOf_space hpart hused hspace
    exact ⟨found, hfound, iff_of_false (by simp [hcount]) fun hnone => hnone part (.space hspace),
      hkept⟩
  by_cases hlist : part.kind = "named_imports"
  · obtain ⟨children, hchildren, -⟩ := h.exists_children hpart
    have hlists : part.Lists children _ := ⟨hlist, hchildren, rfl⟩
    obtain ⟨found, hfound, hcount, hkept⟩ := h.exists_bindingOf_list hpart hused hlists
    refine ⟨found, hfound, ?_, hkept⟩
    rw [hcount, List.length_eq_zero_iff, List.eq_nil_iff_forall_not_mem]
    exact forall_congr' fun binding => not_congr hlists.mem_iff
  · have hnone : ∀ binding, ¬part.Binds binding := by
      intro binding hbinding
      cases hbinding with
      | name hkind => exact hname hkind
      | space hkind => exact hspace hkind
      | specifier hkind => exact hlist hkind
    unfold bindingOf
    rw [if_neg (by simp [hname]), if_neg (by simp [hspace]), if_neg (by simp [hlist])]
    refine ⟨_, rfl, iff_of_true rfl hnone, fun value => iff_of_false (by simp) fun hremains => ?_⟩
    obtain ⟨binding, hbinding, -⟩ := hremains.exists_keeps
    exact hnone binding hbinding

end Sound

/-! ## What is done to a statement -/

/-- Nothing is left of parts exactly if none of their bindings is kept. -/
theorem Leaves.eq_nil_iff {parts : List Node} {texts : List String} (h : draft.Leaves parts texts) :
    texts = [] ↔ ∀ part ∈ parts, ∀ binding, part.Binds binding → ¬draft.Keeps binding := by
  induction h with
  | nil => simp
  | @kept part parts text texts hremains _ _ =>
      refine iff_of_false (List.cons_ne_nil _ _) fun hgone => ?_
      obtain ⟨binding, hbinds, hkeeps⟩ := hremains.exists_keeps
      exact hgone part List.mem_cons_self binding hbinds hkeeps
  | dropped hgone _ ih =>
      rw [ih, List.forall_mem_cons]
      exact (and_iff_right hgone).symm

/-- What is left of parts is what is kept of each. -/
theorem Sound.leaves_of_forall₂ (h : draft.Sound tree text edited) {parts : List Node}
    {found : List Binding} (hwithin : ∀ part ∈ parts, part.Within draft.root)
    (hfound : List.Forall₂ (fun part found => ∀ value, Binding.kept found = some value ↔
      draft.Remains part value) parts found) :
    draft.Leaves parts (found.filterMap Binding.kept) := by
  induction hfound with
  | nil => exact .nil
  | @cons part found parts others hpart _ ih =>
      obtain ⟨hwithinPart, hwithinRest⟩ := List.forall_mem_cons.mp hwithin
      cases hkept : found.kept with
      | none =>
          rw [List.filterMap_cons_none hkept]
          refine .dropped (fun binding hbinds hkeeps => ?_) (ih hwithinRest)
          obtain ⟨value, hremains⟩ :=
            (h.exists_remains_iff hwithinPart).mpr ⟨binding, hbinds, hkeeps⟩
          simp [(hpart value).mpr hremains] at hkept
      | some value =>
          rw [List.filterMap_cons_some hkept]
          exact .kept ((hpart value).mp hkept) (ih hwithinRest)

/-- No part binds a name if none is counted. -/
theorem all_count_iff_of_forall₂ {parts : List Node} {found : List Binding}
    (h : List.Forall₂ (fun part found => Binding.count found = 0 ↔ ∀ binding, ¬part.Binds binding)
      parts found) :
    found.all (·.count == 0) = true ↔ ∀ part ∈ parts, ∀ binding, ¬part.Binds binding := by
  induction h with
  | nil => simp
  | cons hpart _ ih => simp [hpart, ih]

/-- What the parts of a clause bind, as it is read. -/
theorem Sound.exists_bindings (h : draft.Sound tree text edited)
    (hused : ∀ name, name ∈ used ↔ draft.root.Uses draft.setting.source name)
    {parts : List Node} (hwithin : ∀ part ∈ parts, part.Within draft.root) :
    ∃ found, parts.mapM (draft.bindingOf used) = .ok found ∧
      (found.all (·.count == 0) = true ↔ ∀ part ∈ parts, ∀ binding, ¬part.Binds binding) ∧
      draft.Leaves parts (found.filterMap Binding.kept) := by
  obtain ⟨found, hfound⟩ :=
    exists_forall₂ fun part hmem => h.exists_bindingOf (hwithin part hmem) hused
  refine ⟨found, mapM_eq_ok_iff.mpr (hfound.imp fun _ _ hpart => hpart.1), ?_, ?_⟩
  · exact all_count_iff_of_forall₂ (hfound.imp fun _ _ hpart => hpart.2.1)
  · exact h.leaves_of_forall₂ hwithin (hfound.imp fun _ _ hpart => hpart.2.2)

theorem slice_eq_iff_isPrefix {source bytes : Bytes} {offset size : Nat} (h : bytes.length = size) :
    slice source offset (offset + size) = bytes ↔ bytes <+: source.drop offset := by
  rw [slice, List.drop_take, Nat.add_sub_cancel_left, List.prefix_iff_eq_take, h]
  exact eq_comm

/-- A removal ends where it should. -/
theorem lineEndAfter_afterLineEnd (draft : Draft) (offset : Nat) :
    draft.LineEndAfter offset (afterLineEnd draft.source offset) := by
  have hreturn : slice draft.source offset (offset + 2) = [13, 10] ↔
      encode "\r\n" <+: draft.source.drop offset := slice_eq_iff_isPrefix rfl
  have hfeed : slice draft.source offset (offset + 1) = [10] ↔
      encode "\n" <+: draft.source.drop offset := slice_eq_iff_isPrefix rfl
  unfold afterLineEnd
  simp only [beq_iff_eq, hreturn, hfeed]
  split_ifs with h h'
  · exact .carriageReturn h
  · exact .lineFeed h'
  · exact .nothing h h'

/-- The cleanup of a statement ends, and does to the statement what it should. -/
theorem Sound.exists_tidyImport (h : draft.Sound tree text edited)
    (hused : ∀ name, name ∈ used ↔ draft.root.Uses draft.setting.source name) {statement : Node}
    (hstatement : statement.Within draft.root) :
    ∃ result, draft.tidyImport used statement = .ok result ∧
      draft.Tidied statement (result.map Prod.fst) := by
  obtain ⟨children, hchildren, hwithin⟩ := h.exists_children hstatement
  unfold tidyImport
  dsimp only
  rw [hchildren, ok_bind]
  cases hfind : children.find? (·.kind == "import_clause") with
  | none => exact ⟨none, rfl, .noClause ((Node.find?_children_eq_none_iff hchildren).mp hfind)⟩
  | some clause =>
      have hfirst := (Node.find?_children_eq_some_iff hchildren).mp hfind
      have hclause := hwithin clause (List.mem_of_find?_eq_some hfind)
      obtain ⟨parts, hparts, hpart⟩ := h.exists_children hclause
      obtain ⟨actual, hactual, hspells⟩ := h.exists_text hclause
      obtain ⟨found, hread, hcount, hleaves⟩ := h.exists_bindings hused hpart
      simp only [Node.mem_children_iff hparts] at hcount
      dsimp only
      rw [hparts, ok_bind, hread, ok_bind, hactual]
      by_cases hbindless : found.all (·.count == 0) = true
      · rw [if_pos hbindless]
        refine ⟨none, rfl, .noBinding hfirst fun part binding hparent => ?_⟩
        exact hcount.mp hbindless part hparent binding
      · rw [if_neg hbindless]
        generalize found.filterMap Binding.kept = texts at hleaves
        by_cases htexts : texts = []
        · have hgone := hleaves.eq_nil_iff.mp htexts
          simp only [Node.mem_children_iff hparts] at hgone
          rw [hcount] at hbindless
          push Not at hbindless
          obtain ⟨part, hparent, binding, hbinds⟩ := hbindless
          rw [if_pos (List.isEmpty_iff.mpr htexts)]
          exact ⟨_, rfl, .removed hfirst ⟨part, binding, hparent, hbinds⟩
            (fun part binding hparent => hgone part hparent binding)
            (lineEndAfter_afterLineEnd draft _)⟩
        · rw [if_neg (by simpa using htexts), ok_bind]
          by_cases hsame : ", ".intercalate texts = actual
          · rw [if_pos (beq_iff_eq.mpr hsame)]
            exact ⟨_, rfl, .settled hfirst hparts hleaves htexts ((hspells _).mp hsame.symm)⟩
          · rw [if_neg (mt beq_iff_eq.mp hsame)]
            refine ⟨_, rfl, .pruned hfirst hparts hleaves htexts fun hsettled => ?_⟩
            exact hsame ((hspells _).mpr hsettled).symm

/-- The cleanup of a row of statements does to each what it should, and does not stop. -/
theorem Sound.exists_tidyImports (h : draft.Sound tree text edited)
    (hused : ∀ name, name ∈ used ↔ draft.root.Uses draft.setting.source name)
    {statements : List Node} (hwithin : ∀ statement ∈ statements, statement.Within draft.root) :
    ∃ cleanups, List.Forall₂ draft.Tidied statements cleanups ∧
      (draft.tidyImports used statements).edits = cleanups.reduceOption ∧
      (draft.tidyImports used statements).failure = none := by
  induction statements with
  | nil => exact ⟨[], .nil, rfl, rfl⟩
  | cons statement statements ih =>
      obtain ⟨hstatement, hrest⟩ := List.forall_mem_cons.mp hwithin
      obtain ⟨cleanups, hcleanups, hedits, hfailure⟩ := ih hrest
      obtain ⟨result, hresult, htidied⟩ := h.exists_tidyImport hused hstatement
      refine ⟨_, .cons htidied hcleanups, ?_⟩
      unfold tidyImports at hedits hfailure ⊢
      rw [Outcome.forEach, hresult]
      cases result with
      | none => exact ⟨hedits, hfailure⟩
      | some result => exact ⟨congrArg _ hedits, hfailure⟩

theorem satisfies_import_statement {source : Bytes} :
    (Selector.kind "import_statement").Satisfies source node ↔ node.kind = "import_statement" := by
  rw [Selector.Satisfies]
  exact List.mem_singleton

/-- The statements that are worked on are the import statements within the root, in pre-order. -/
theorem Sound.resolve_imports (h : draft.Sound tree text edited) {journal : Journal}
    (hjournal : journal.Reached) :
    ∃ nodes, draft.root.Preorder nodes ∧
      ((draft.resolve (.pattern "import_statement")).run journal).1 =
        .ok (nodes.filter (·.kind == "import_statement")) := by
  have hs : (Selector.compile "import_statement" draft.setting.suggest).1 =
      .kind "import_statement" := Selector.compile_of_parse (by rfl) _
  refine ⟨draft.root.walk.nodes, (Node.walk_of_valid (h.node_valid .refl)).2, ?_⟩
  rw [h.run_resolve hjournal hs]
  simp only [satisfies_import_statement]
  rfl

/-- What the cleanup queues, and that it does not stop. -/
theorem Sound.exists_cleanups (h : draft.Sound tree text edited) {journal : Journal}
    (hjournal : journal.Reached) :
    ∃ nodes cleanups, draft.root.Preorder nodes ∧
      List.Forall₂ draft.Tidied (nodes.filter (·.kind == "import_statement")) cleanups ∧
      (draft.removeUnusedImports.run journal).1.edits = cleanups.reduceOption ∧
      (draft.removeUnusedImports.run journal).1.failure = none := by
  obtain ⟨used, hnames, hused⟩ := h.exists_usedNames
  obtain ⟨nodes, hpreorder, hresolve⟩ := h.resolve_imports hjournal
  have hwithin : ∀ statement ∈ nodes.filter (·.kind == "import_statement"),
      statement.Within draft.root := fun statement hmem =>
    hpreorder.mem_iff.mp (List.mem_filter.mp hmem).1
  obtain ⟨cleanups, hcleanups, hedits, hfailure⟩ := h.exists_tidyImports hused hwithin
  have houtcome : (draft.removeUnusedImports.run journal).1 =
      draft.tidyImports used (nodes.filter (·.kind == "import_statement")) := by
    rw [removeUnusedImports, hnames]
    dsimp only
    rw [run_onTarget, hresolve]
  rw [houtcome]
  exact ⟨nodes, cleanups, hpreorder, hcleanups, hedits, hfailure⟩

/-- Dropping unused imports goes through the import statements within the root in pre-order, and
does to each what should be done to it: at most one edit each, and nothing else is queued. -/
theorem perform_removeUnusedImports (h : draft.Sound tree text edited) {journal : Journal}
    (hjournal : journal.Reached) :
    ∃ nodes cleanups, draft.root.Preorder nodes ∧
      List.Forall₂ draft.Tidied (nodes.filter (·.kind == "import_statement")) cleanups ∧
      ((draft.perform .removeUnusedImports).run journal).1 =
        (draft.queue cleanups.reduceOption, none) := by
  obtain ⟨nodes, cleanups, hpreorder, hcleanups, hedits, hfailure⟩ := h.exists_cleanups hjournal
  refine ⟨nodes, cleanups, hpreorder, hcleanups, ?_⟩
  rw [run_perform, outcome, hedits, hfailure]

end Draft

/-! ## Four imports

A source with an import that is not used, two that are fully used and differ in their spacing, and
one of which a part is used. -/

namespace FourImports

open Mark (extent)

def source : String :=
  "import é from 'x';\nimport a, \x7bb\x7d from 'y';\nimport c,\x7bd\x7d from 'z';\n" ++
    "import \x7be, f\x7d from 'w';\na(b, c, d, f);"

def part (kind : String) (start stop : Nat) (below : List Tree) : Tree :=
  .node (some kind) (extent start stop) below

def name (start stop : Nat) : Tree := part "identifier" start stop []

def specifier (start stop : Nat) : Tree :=
  part "import_specifier" start stop
    [.node (some "identifier") ⟨start, stop, true, false, false, some "name"⟩ []]

/-- A specifier of one letter in braces. -/
def braces (start : Nat) : List Tree :=
  [part "\x7b" start (start + 1) [], specifier (start + 1) (start + 2),
    part "\x7d" (start + 2) (start + 3) []]

/-- A name of one letter and a specifier in braces. -/
def nameAndBraces (nameAt listAt : Nat) : List Tree :=
  [name nameAt (nameAt + 1), part "," (nameAt + 1) (nameAt + 2) [],
    part "named_imports" listAt (listAt + 3) (braces listAt)]

def statements : List Tree :=
  [part "import_statement" 0 19 [part "import_clause" 7 9 [name 7 9]],
    part "import_statement" 20 43 [part "import_clause" 27 33 (nameAndBraces 27 30)],
    part "import_statement" 44 66 [part "import_clause" 51 56 (nameAndBraces 51 53)],
    part "import_statement" 67 90 [part "import_clause" 74 80
      [part "named_imports" 74 80 [part "\x7b" 74 75 [], specifier 75 76, part "," 76 77 [],
        specifier 78 79, part "\x7d" 79 80 []]]],
    part "call_expression" 91 104
      [name 91 92, part "arguments" 92 104 [name 93 94, name 96 97, name 99 100, name 102 103]]]

def program : Node := ⟨⟨"program", extent 0 105, statements⟩, []⟩

def draft : Draft :=
  { root := program, setting := ⟨encode source, true⟩, source := encode source }

theorem sound : draft.Sound program.tree source source where
  contains := ⟨program, Tree.root_eq_ok_iff.mpr ⟨rfl, rfl⟩, .refl⟩
  valid := Tree.fitsIn_iff.mp (by decide +kernel)
  validEdited := Tree.fitsIn_iff.mp (by decide +kernel)
  source_eq := rfl
  edited_eq := rfl

/-- What the cleanup queues. -/
def edits : List Edit := [⟨0, 20, ""⟩, ⟨51, 56, "c, \x7bd\x7d"⟩, ⟨74, 80, "\x7bf\x7d"⟩]

theorem run_removeUnusedImports :
    ((draft.perform .removeUnusedImports).run {}).1 = (draft.queue edits, none) := rfl

end FourImports

/-- Of four imports the first goes with its line end, the second is as it should be, in the third
the parts come to be separated evenly, and from the last a specifier is dropped. -/
theorem Draft.perform_removeUnusedImports_four :
    FourImports.draft.Sound FourImports.program.tree FourImports.source FourImports.source ∧
      ({} : Journal).Reached ∧
      ((FourImports.draft.perform .removeUnusedImports).run {}).1 =
        (FourImports.draft.queue FourImports.edits, none) ∧
      ∃ nodes cleanups, FourImports.program.Preorder nodes ∧
        List.Forall₂ FourImports.draft.Tidied (nodes.filter (·.kind == "import_statement"))
          cleanups ∧
        ((FourImports.draft.perform .removeUnusedImports).run {}).1 =
          (FourImports.draft.queue cleanups.reduceOption, none) := by
  have hreached : ({} : Journal).Reached := ⟨[], rfl⟩
  exact ⟨FourImports.sound, hreached, FourImports.run_removeUnusedImports,
    Draft.perform_removeUnusedImports FourImports.sound hreached⟩

end Arborist

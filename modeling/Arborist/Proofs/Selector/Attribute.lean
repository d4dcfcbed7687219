import Arborist.Proofs.Tree.Kinship
import Arborist.Selector.Matching

/-!
# Attributes of nodes

What the attribute of a node under a name is, and when it compares with a value, said by relations:
`Node.HasAttribute` and `Operator.Admits`. Both follow the tree and the texts themselves. The child
that fills a place is the first one marked with its name (`Node.FieldOf`), the text of a node is
what its bytes encode (`Node.Spells`), and a word of a text is a run of characters that are not
blank and cannot be made longer (`IsWord`).

* `Operator.accepts_iff` — the comparison of attributes decides `Admits`;
* `Node.finds_attributeText` — on a valid node the reader of attributes finds what `HasAttribute`
  says, and does not fail.
-/

namespace Arborist

open Text

/-! ## Words -/

namespace Text

/-- A run of characters of the text that are not blank, with a blank or nothing on either side. -/
def IsWord (word text : List Char) : Prop :=
  ∃ before after, text = before ++ (word ++ after) ∧ word ≠ [] ∧ (∀ c ∈ word, isBlank c = false) ∧
    (∀ c ∈ before.getLast?, isBlank c = true) ∧ ∀ c ∈ after.head?, isBlank c = true

variable {word run before after : List Char}

theorem eq_nil_of_getLast? (h : ∀ c ∈ before, isBlank c = false)
    (hlast : ∀ c ∈ before.getLast?, isBlank c = true) : before = [] := by
  rcases List.eq_nil_or_concat before with rfl | ⟨cs, c, rfl⟩
  · rfl
  · have hc := h c (by simp)
    rw [hlast c (by simp)] at hc
    cases hc

theorem eq_nil_of_head? (h : ∀ c ∈ after, isBlank c = false)
    (hhead : ∀ c ∈ after.head?, isBlank c = true) : after = [] := by
  cases after with
  | nil => rfl
  | cons c cs =>
      have hc := h c List.mem_cons_self
      rw [hhead c rfl] at hc
      cases hc

/-- Characters that are not blank are one word, if there are any. -/
theorem isWord_iff_of_not_blank (hrun : ∀ c ∈ run, isBlank c = false) :
    IsWord word run ↔ word = run ∧ run ≠ [] := by
  constructor
  · rintro ⟨before, after, rfl, hne, -, hbefore, hafter⟩
    obtain rfl := eq_nil_of_getLast? (fun c hc => hrun c (List.mem_append_left _ hc)) hbefore
    rw [List.nil_append] at hrun ⊢
    obtain rfl := eq_nil_of_head? (fun c hc => hrun c (List.mem_append_right _ hc)) hafter
    exact ⟨(List.append_nil word).symm, by simpa using hne⟩
  · rintro ⟨rfl, hne⟩
    exact ⟨[], [], (List.append_nil word).symm, hne, hrun, by simp, by simp⟩

/-- A blank ends the word before it; the other words lie behind the blank. -/
theorem isWord_append_cons_iff {c : Char} {cs : List Char} (hrun : ∀ d ∈ run, isBlank d = false)
    (hc : isBlank c = true) :
    IsWord word (run ++ c :: cs) ↔ (word = run ∧ run ≠ []) ∨ IsWord word cs := by
  constructor
  · rintro ⟨before, after, htext, hne, hword, hbefore, hafter⟩
    have hnot : c ∉ word := fun hmem => by
      rw [hword c hmem] at hc
      cases hc
    rcases List.append_eq_append_iff.mp htext with ⟨gap, rfl, hrest⟩ | ⟨gap, rfl, hrest⟩
    · -- What is before the word goes past the run, so it goes past the blank too.
      cases gap with
      | nil =>
          obtain ⟨d, ds, rfl⟩ := List.exists_cons_of_ne_nil hne
          obtain ⟨rfl, -⟩ := List.cons.inj hrest
          exact absurd List.mem_cons_self hnot
      | cons d gap =>
          obtain ⟨rfl, rfl⟩ := List.cons.inj hrest
          refine .inr ⟨gap, after, rfl, hne, hword, fun e he => hbefore e ?_, hafter⟩
          rw [List.getLast?_append, List.getLast?_cons, Option.mem_def.mp he]
          rfl
    · obtain rfl := eq_nil_of_getLast? (fun d hd => hrun d (List.mem_append_left _ hd)) hbefore
      rw [List.nil_append] at hrun ⊢
      rcases List.append_eq_append_iff.mp hrest with ⟨more, rfl, hmore⟩ | ⟨more, rfl, hmore⟩
      · have hhead : ∀ d ∈ more.head?, isBlank d = true := by
          intro d hd
          refine hafter d ?_
          rw [hmore, List.head?_append, Option.mem_def.mp hd]
          rfl
        obtain rfl := eq_nil_of_head? (fun d hd => hrun d (List.mem_append_right _ hd)) hhead
        exact .inl ⟨(List.append_nil word).symm, by simpa using hne⟩
      · cases more with
        | nil => exact .inl ⟨List.append_nil gap, by simpa using hne⟩
        | cons d more =>
            obtain ⟨rfl, -⟩ := List.cons.inj hmore
            exact absurd (List.mem_append_right _ List.mem_cons_self) hnot
  · rintro (⟨rfl, hne⟩ | ⟨before, after, rfl, hne, hword, hbefore, hafter⟩)
    · refine ⟨[], c :: cs, rfl, hne, hrun, by simp, fun d hd => ?_⟩
      obtain rfl : c = d := by simpa using hd
      exact hc
    · refine ⟨run ++ c :: before, after, by simp, hne, hword, fun d hd => ?_, hafter⟩
      rw [List.getLast?_append, List.getLast?_cons] at hd
      cases hlast : before.getLast? with
      | none =>
          rw [hlast] at hd
          obtain rfl : c = d := by simpa using hd
          exact hc
      | some e =>
          rw [hlast] at hd
          obtain rfl : e = d := by simpa using hd
          exact hbefore e hlast

theorem mem_wordsFrom_iff {cs : List Char} (hrun : ∀ c ∈ run.reverse, isBlank c = false) :
    word ∈ wordsFrom run cs ↔ IsWord word (run.reverse ++ cs) := by
  induction cs generalizing run with
  | nil =>
      rw [List.append_nil, isWord_iff_of_not_blank hrun, wordsFrom]
      cases run with
      | nil => simp
      | cons c cs => simp
  | cons c cs ih =>
      rw [wordsFrom]
      by_cases hc : isBlank c = true
      · have hrest : word ∈ wordsFrom [] cs ↔ IsWord word cs := ih (by simp)
        rw [if_pos hc, isWord_append_cons_iff hrun hc]
        cases run with
        | nil => simp [hrest]
        | cons d ds => simp [hrest]
      · have hlonger : ∀ d ∈ (c :: run).reverse, isBlank d = false := by
          rw [List.reverse_cons, List.forall_mem_append]
          exact ⟨hrun, by simpa using hc⟩
        rw [if_neg hc, ih hlonger, List.reverse_cons, List.append_assoc, List.singleton_append]

/-- A text is cut into its words. -/
theorem mem_words_iff {text : List Char} : word ∈ words text ↔ IsWord word text :=
  mem_wordsFrom_iff (by simp)

end Text

/-! ## Comparisons -/

namespace Operator

/-- How an attribute has to be related to a value. -/
def Relates : Operator → String → String → Prop
  | .equals, actual, wanted => actual = wanted
  | .hasWord, actual, wanted => IsWord wanted.toList actual.toList
  | .startsWith, actual, wanted => wanted.toList <+: actual.toList
  | .endsWith, actual, wanted => wanted.toList <:+ actual.toList
  | .contains, actual, wanted => wanted.toList <:+: actual.toList
  | .unknown _, _, _ => False

/-- The attributes that pass: those that are not empty, or those related to a value. -/
def Admits (operator : Operator) (wanted : Option String) (actual : String) : Prop :=
  match wanted with
  | none => actual ≠ ""
  | some wanted => operator.Relates actual wanted

theorem compares_iff {operator : Operator} {actual wanted : String} :
    operator.compares actual wanted = true ↔ operator.Relates actual wanted := by
  cases operator with
  | equals => exact beq_iff_eq
  | hasWord => exact List.contains_iff_mem.trans mem_words_iff
  | startsWith => exact List.isPrefixOf_iff_prefix
  | endsWith => exact List.isSuffixOf_iff_suffix
  | contains => exact occursIn_iff
  | unknown => exact iff_of_false Bool.false_ne_true id

/-- An attribute passes the test if it is there and admitted. -/
theorem accepts_iff {operator : Operator} {wanted found : Option String} :
    operator.accepts wanted found = true ↔
      ∃ actual, found = some actual ∧ operator.Admits wanted actual := by
  cases found with
  | none => cases wanted <;> simp [accepts]
  | some actual =>
      cases wanted with
      | none => simp [accepts, Admits]
      | some wanted => simp [accepts, Admits, compares_iff]

end Operator

/-! ## Where attributes come from -/

namespace Node

/-- The first child that is marked with a name. -/
def FieldOf (parent : Node) (name : String) (child : Node) : Prop :=
  ∃ position, parent.ChildAt position child ∧ child.mark.field = some name ∧
    ∀ earlier < position, ∀ sibling, parent.ChildAt earlier sibling →
      sibling.mark.field ≠ some name

/-- The name that a node declares: the text in the place for it. A JSX attribute without such a
place begins with its name. -/
inductive HasName (source : Bytes) (node : Node) : String → Prop
  | field {child : Node} {value : String} :
      node.FieldOf "name" child → child.Spells source value → HasName source node value
  | leading {child : Node} {value : String} :
      (∀ other, ¬node.FieldOf "name" other) → node.kind = "jsx_attribute" →
      node.ChildAt 0 child → child.kind = "property_identifier" → child.Spells source value →
      HasName source node value

/-- What a node has as an attribute under a name. -/
def HasAttribute (source : Bytes) (node : Node) (name value : String) : Prop :=
  if name = "name" then node.HasName source value
  else if name = "text" then node.Spells source value
  else if name = "async" then value = "async" ∧ ∃ child, node.ParentOf child ∧ child.kind = "async"
  else ∃ child, node.FieldOf name child ∧ child.Spells source value

/-! ## Reading attributes of valid nodes -/

variable {text : String} {node child : Node}

theorem FieldOf.parentOf {name : String} (h : node.FieldOf name child) : node.ParentOf child := by
  obtain ⟨position, hchild, -⟩ := h
  exact ⟨position, hchild⟩

/-- The mark of a child is that of the tree it is made from. -/
theorem ChildAt.fills_iff {position : Nat} (h : node.ChildAt position child) (name : String) :
    ∃ tree, node.below[position]? = some tree ∧
      (tree.fills name = true ↔ child.mark.field = some name) := by
  obtain ⟨tree, element, htree, helement, rfl⟩ := h
  refine ⟨tree, htree, ?_⟩
  rw [Tree.element_eq_ok_iff.mp helement]
  exact beq_iff_eq

/-- Every position below a valid node has its child. -/
theorem exists_childAt (h : node.tree.Valid text) {position : Nat} {tree : Tree}
    (htree : node.below[position]? = some tree) : ∃ child, node.ChildAt position child := by
  obtain ⟨element, helement⟩ := (h.of_mem_below tree (List.mem_of_getElem? htree)).exists_element
  exact ⟨_, tree, element, htree, helement, rfl⟩

theorem finds_field (h : node.tree.Valid text) (name : String) :
    Finds (node.field name) (node.FieldOf name) := by
  obtain ⟨children, hchildren⟩ := exists_children h
  unfold Node.field
  cases hfind : node.below.findIdx? (Tree.fills name) with
  | none =>
      refine finds_none fun child => ?_
      rintro ⟨position, hchild, hmarked, -⟩
      obtain ⟨tree, htree, hfills⟩ := hchild.fills_iff name
      have hnone := List.findIdx?_eq_none_iff.mp hfind tree (List.mem_of_getElem? htree)
      rw [hfills.mpr hmarked] at hnone
      cases hnone
  | some position =>
      refine ⟨children[position]?, by rw [hchildren]; rfl, fun child => ?_⟩
      rw [getElem?_children hchildren]
      obtain ⟨hlt, hfound, hearlier⟩ := List.findIdx?_eq_some_iff_getElem.mp hfind
      have hget := List.getElem?_eq_getElem hlt
      -- The first tree that fills the place is the tree of the first child with the mark.
      have hmarked : ∀ sibling, node.ChildAt position sibling →
          sibling.mark.field = some name := by
        intro sibling hsibling
        obtain ⟨tree, htree, hfills⟩ := hsibling.fills_iff name
        obtain rfl := Option.some.inj (hget.symm.trans htree)
        exact hfills.mp hfound
      have hunmarked : ∀ earlier < position, ∀ sibling, node.ChildAt earlier sibling →
          sibling.mark.field ≠ some name := by
        intro earlier hlt' sibling hsibling hfield
        obtain ⟨tree, htree, hfills⟩ := hsibling.fills_iff name
        have hget' := List.getElem?_eq_getElem (Nat.lt_trans hlt' hlt)
        obtain rfl := Option.some.inj (hget'.symm.trans htree)
        exact hearlier earlier hlt' (hfills.mpr hfield)
      constructor
      · exact fun hchild => ⟨position, hchild, hmarked child hchild, hunmarked⟩
      · rintro ⟨other, hchild, hfield, hfirst⟩
        rcases Nat.lt_trichotomy other position with hother | rfl | hother
        · exact absurd hfield (hunmarked other hother child hchild)
        · exact hchild
        · obtain ⟨sibling, hsibling⟩ := exists_childAt h hget
          exact absurd (hmarked sibling hsibling) (hfirst position hother sibling hsibling)

theorem finds_text (h : node.tree.Valid text) :
    Finds (do return some (← node.text (encode text))) (node.Spells (encode text)) := by
  obtain ⟨actual, hactual, hspelled⟩ := exists_text h
  refine ⟨some actual, by rw [hactual, ok_bind]; rfl, fun value => ?_⟩
  rw [Option.some.injEq, hspelled]

theorem finds_fieldText (h : node.tree.Valid text) (name : String) :
    Finds (node.fieldText (encode text) name)
      fun value => ∃ child, node.FieldOf name child ∧ child.Spells (encode text) value := by
  obtain ⟨found, hfound, hfield⟩ := finds_field h name
  unfold Node.fieldText
  rw [hfound, ok_bind]
  cases found with
  | none =>
      refine finds_none fun value => ?_
      rintro ⟨child, hchild, -⟩
      cases (hfield child).mpr hchild
  | some child =>
      have hchild := (hfield child).mp rfl
      refine (finds_text (hchild.parentOf.valid h)).congr fun value => ?_
      constructor
      · exact fun hspells => ⟨child, hchild, hspells⟩
      · rintro ⟨other, hother, hspells⟩
        obtain rfl := Option.some.inj ((hfield other).mpr hother)
        exact hspells

/-- The text of the first child, if that is an identifier of a property. -/
theorem finds_leading (h : node.tree.Valid text) {children : List Node}
    (hchildren : node.children = .ok children) :
    Finds
      (match children.head? with
        | some first =>
          if first.kind == "property_identifier" then do return some (← first.text (encode text))
          else return none
        | none => return none)
      fun value => ∃ child, node.ChildAt 0 child ∧ child.kind = "property_identifier" ∧
        child.Spells (encode text) value := by
  simp only [← getElem?_children hchildren, ← List.head?_eq_getElem?]
  cases hfirst : children.head? with
  | none =>
      refine finds_none fun value => ?_
      rintro ⟨child, ⟨⟩, -⟩
  | some first =>
      rw [List.head?_eq_getElem?] at hfirst
      have hvalid := ParentOf.valid ⟨0, (getElem?_children hchildren).mp hfirst⟩ h
      by_cases hkind : first.kind = "property_identifier"
      · simp only [hkind, beq_self_eq_true, if_true]
        refine (finds_text hvalid).congr fun value => ?_
        simp [hkind]
      · simp only [beq_iff_eq, hkind, if_false]
        refine finds_none fun value => ?_
        rintro ⟨child, ⟨⟩, hchildKind, -⟩
        exact hkind hchildKind

theorem finds_nameAttribute (h : node.tree.Valid text) :
    Finds (node.nameAttribute (encode text)) (node.HasName (encode text)) := by
  obtain ⟨found, hfound, hfield⟩ := finds_fieldText h "name"
  obtain ⟨children, hchildren⟩ := exists_children h
  unfold nameAttribute Node.name
  rw [hfound, ok_bind, hchildren]
  cases found with
  | some actual =>
      obtain ⟨child, hchild, hspells⟩ := (hfield actual).mp rfl
      refine ⟨some actual, rfl, fun value => ?_⟩
      constructor
      · intro hvalue
        obtain ⟨other, hother, hvalue⟩ := (hfield value).mp hvalue
        exact .field hother hvalue
      · rintro (⟨hother, hvalue⟩ | ⟨hnone, -, -, -, -⟩)
        · exact (hfield value).mpr ⟨_, hother, hvalue⟩
        · exact absurd hchild (hnone child)
  | none =>
      -- Without a place for the name only the leading child can give it.
      have hunfilled : ∀ other, ¬node.FieldOf "name" other := by
        intro other hother
        obtain ⟨actual, -, hactual⟩ := exists_text (hother.parentOf.valid h)
        cases (hfield actual).mpr ⟨other, hother, (hactual actual).mp rfl⟩
      by_cases hkind : node.kind = "jsx_attribute"
      · simp only [hkind, bne_self_eq_false, Bool.false_eq_true, if_false, ok_bind]
        refine (finds_leading h hchildren).congr fun value => ?_
        constructor
        · rintro ⟨child, hchild, hchildKind, hspells⟩
          exact .leading hunfilled hkind hchild hchildKind hspells
        · rintro (⟨hother, -⟩ | ⟨-, -, hchild, hchildKind, hspells⟩)
          · exact absurd hother (hunfilled _)
          · exact ⟨_, hchild, hchildKind, hspells⟩
      · simp only [bne_iff_ne, ne_eq, hkind, not_false_eq_true, if_true]
        refine finds_none fun value => ?_
        rintro (⟨hother, -⟩ | ⟨-, hattribute, -, -, -⟩)
        · exact hunfilled _ hother
        · exact hkind hattribute

theorem finds_asyncAttribute (h : node.tree.Valid text) :
    Finds node.asyncAttribute
      fun value => value = "async" ∧ ∃ child, node.ParentOf child ∧ child.kind = "async" := by
  obtain ⟨children, hchildren⟩ := exists_children h
  unfold asyncAttribute
  rw [hchildren, ok_bind]
  refine ⟨_, rfl, fun value => ?_⟩
  simp only [Option.ite_none_right_eq_some, List.any_eq_true, beq_iff_eq, Option.some.injEq,
    mem_children_iff hchildren]
  rw [and_comm, eq_comm]

/-- On a valid node the reader of attributes finds what the node has. -/
theorem finds_attributeText (h : node.tree.Valid text) (name : String) :
    Finds (node.attributeText (encode text) name) (node.HasAttribute (encode text) name) := by
  unfold attributeText HasAttribute
  simp only [beq_iff_eq]
  split_ifs with hname htext hasync
  · exact finds_nameAttribute h
  · exact finds_text h
  · exact finds_asyncAttribute h
  · exact finds_fieldText h name

end Node

end Arborist

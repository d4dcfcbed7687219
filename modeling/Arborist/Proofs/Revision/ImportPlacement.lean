import Arborist.Proofs.Edit.Outcome
import Arborist.Proofs.Revision.ImportCleanup

/-!
# Where imports are edited

The cleanup of imports queues at most one edit for each statement, and this edit lies between the
start of the statement and the line end behind it (`Draft.EditedAt`). If extents are in order, and
no import statement is nested in another or begins at a line end (`Draft.ImportsApart`), the edits
of different statements are apart, so that they can all be made (`Sound.render_cleanups`).

A statement all of whose bindings are used may still be edited: the parts of its clause are put
together anew, and come to be separated by a comma and a blank each. It is left alone exactly if
they already are (`Draft.fullyUsed_untouched_or_respaced`, `Draft.fullyUsed_respaced_tight`).
-/

namespace Arborist

open Text

/-! ## Lists related element by element -/

section Lists

variable {α β : Type} {xs : List α}

/-- What holds of results of different elements holds along the results that are there. -/
theorem pairwise_reduceOption {R : α → Option β → Prop} {S : β → β → Prop} {ys : List (Option β)}
    (h : List.Forall₂ R xs ys)
    (hxs : xs.Pairwise fun x x' => ∀ y y', R x (some y) → R x' (some y') → S y y') :
    ys.reduceOption.Pairwise S := by
  induction h with
  | nil => exact .nil
  | @cons x result xs ys hx hrest ih =>
      obtain ⟨hfirst, hxs⟩ := List.pairwise_cons.mp hxs
      cases result with
      | none =>
          rw [List.reduceOption_cons_of_none]
          exact ih hxs
      | some y =>
          rw [List.reduceOption_cons_of_some]
          refine .cons (fun y' hy' => ?_) (ih hxs)
          obtain ⟨x', hmem, hx'⟩ := exists_mem_of_forall₂ hrest (List.reduceOption_mem_iff.mp hy')
          exact hfirst x' hmem y y' hx hx'

end Lists

namespace Draft

/-! ## Statements apart from each other -/

/-- The node is an import statement within the root of the draft. -/
def Imports (draft : Draft) (statement : Node) : Prop :=
  statement.Within draft.root ∧ statement.kind = "import_statement"

/-- The extents within the root are in order and end before the edited source does. No import
statement is nested in another, and none begins with a line feed or a carriage return. -/
structure ImportsApart (draft : Draft) : Prop where
  laidOut : draft.root.LaidOut
  stop_le : draft.root.stop ≤ draft.source.length
  not_nested : ∀ statement below, draft.Imports statement → draft.Imports below →
    ¬statement.AncestorOf below
  not_lineEnd : ∀ statement, draft.Imports statement →
    draft.source[statement.start]? ∉ [some 10, some 13]

variable {draft : Draft} {tree : Tree} {text edited : String} {node statement : Node}
  {nodes : List Node} {cleanups : List (Option Edit)} {e : Edit}

theorem mem_filter_imports_iff (hpreorder : draft.root.Preorder nodes) :
    statement ∈ nodes.filter (·.kind == "import_statement") ↔ draft.Imports statement := by
  rw [List.mem_filter, hpreorder.mem_iff, beq_iff_eq, Imports]

/-- Import statements follow one another in the source. -/
theorem ImportsApart.pairwise_statements (hapart : draft.ImportsApart)
    (h : draft.Sound tree text edited) (hpreorder : draft.root.Preorder nodes) :
    (nodes.filter (·.kind == "import_statement")).Pairwise fun first second =>
      first.stop ≤ second.start := by
  refine hpreorder.pairwise_le_of_sublist (h.node_valid .refl) hapart.laidOut
    List.filter_sublist fun statement hstatement below hbelow => ?_
  rw [mem_filter_imports_iff hpreorder] at hstatement hbelow
  exact hapart.not_nested statement below hstatement hbelow

/-- Of two import statements one ends before the other. -/
theorem ImportsApart.eq_or_le (hapart : draft.ImportsApart) (h : draft.Sound tree text edited)
    {other : Node} (hother : draft.Imports other) (hstatement : draft.Imports statement) :
    other = statement ∨ other.stop ≤ statement.start ∨ statement.stop ≤ other.start := by
  by_cases heq : other = statement
  · exact .inl heq
  · rcases hapart.laidOut.nested_or_apart (h.node_valid .refl) hother.1 hstatement.1 heq with
      (hnested | hnested) | hor
    · exact absurd hnested (hapart.not_nested other statement hother hstatement)
    · exact absurd hnested (hapart.not_nested statement other hstatement hother)
    · exact .inr hor

/-- Whether imports are apart can be found out by going through the nodes within the root. -/
theorem Sound.importsApart_of_walk (h : draft.Sound tree text edited)
    (hlaid : ∀ node ∈ draft.root.walk.nodes, node.InOrder)
    (hstop : draft.root.stop ≤ draft.source.length)
    (hnested : ∀ statement ∈ draft.root.walk.nodes, statement.kind = "import_statement" →
      ∀ below ∈ statement.walk.nodes.tail, below.kind ≠ "import_statement")
    (hlineEnd : ∀ statement ∈ draft.root.walk.nodes, statement.kind = "import_statement" →
      draft.source[statement.start]? ∉ [some 10, some 13]) : draft.ImportsApart := by
  have hpreorder := (Node.walk_of_valid (h.node_valid .refl)).2
  refine ⟨hpreorder.laidOut_iff.mpr hlaid, hstop, ?_, ?_⟩
  · intro statement below hstatement hbelow habove
    have hcontains := h.contains.of_within hstatement.1
    exact hnested statement (hpreorder.mem_iff.mpr hstatement.1) hstatement.2 below
      ((Node.mem_walk_tail_iff h.valid hcontains).mpr habove) hbelow.2
  · intro statement hstatement
    exact hlineEnd statement (hpreorder.mem_iff.mpr hstatement.1) hstatement.2

/-! ## The line end behind a statement -/

namespace LineEndAfter

variable {offset stop : Nat}

/-- A line end takes one or two bytes. -/
theorem bytes_eq (h : draft.LineEndAfter offset stop) :
    stop = offset ∨ (stop = offset + 1 ∧ draft.source[offset]? = some 10) ∨
      (stop = offset + 2 ∧ draft.source[offset]? = some 13 ∧
        draft.source[offset + 1]? = some 10) := by
  cases h with
  | carriageReturn hprefix =>
      obtain ⟨rest, hrest⟩ := hprefix
      have hbytes : ∀ i, draft.source[offset + i]? = (encode "\r\n" ++ rest)[i]? := by
        intro i
        rw [hrest, List.getElem?_drop]
      exact .inr (.inr ⟨rfl, hbytes 0, hbytes 1⟩)
  | lineFeed hprefix =>
      obtain ⟨rest, hrest⟩ := hprefix
      have hbyte : draft.source[offset + 0]? = (encode "\n" ++ rest)[0]? := by
        rw [hrest, List.getElem?_drop]
      exact .inr (.inl ⟨rfl, hbyte⟩)
  | nothing => exact .inl rfl

theorem le (h : draft.LineEndAfter offset stop) : offset ≤ stop := by
  rcases h.bytes_eq with rfl | ⟨rfl, -⟩ | ⟨rfl, -, -⟩
  · exact Nat.le_refl _
  · exact Nat.le_succ _
  · exact Nat.le_add_right _ _

/-- The line end does not reach into what follows, unless that begins with a part of it. -/
theorem le_of_le (h : draft.LineEndAfter offset stop) {next : Nat} (hle : offset ≤ next)
    (hnext : draft.source[next]? ∉ [some 10, some 13]) : stop ≤ next := by
  simp only [List.mem_cons, List.not_mem_nil, or_false, not_or] at hnext
  by_contra hlt
  rcases h.bytes_eq with rfl | ⟨rfl, hfeed⟩ | ⟨rfl, hreturn, hfeed⟩
  · exact hlt hle
  · obtain rfl : next = offset := by omega
    exact hnext.1 hfeed
  · obtain rfl | rfl : next = offset ∨ next = offset + 1 := by omega
    · exact hnext.2 hreturn
    · exact hnext.1 hfeed

theorem le_length (h : draft.LineEndAfter offset stop) (hle : offset ≤ draft.source.length) :
    stop ≤ draft.source.length := by
  rcases h.bytes_eq with rfl | ⟨rfl, hfeed⟩ | ⟨rfl, -, hfeed⟩
  · exact hle
  · exact (List.getElem?_eq_some_iff.mp hfeed).1
  · exact (List.getElem?_eq_some_iff.mp hfeed).1

/-- Behind a line end another character begins. -/
theorem not_insideCharacter (h : draft.LineEndAfter offset stop) (hvalid : ValidUtf8 draft.source)
    (hcut : Edit.insideCharacter draft.source offset = false) :
    Edit.insideCharacter draft.source stop = false := by
  rcases h.bytes_eq with rfl | ⟨rfl, hfeed⟩ | ⟨rfl, hreturn, hfeed⟩
  · exact hcut
  · exact hvalid.insideCharacter_succ hcut hfeed (by decide)
  · have hbetween := hvalid.insideCharacter_succ hcut hreturn (by decide)
    exact hvalid.insideCharacter_succ hbetween hfeed (by decide)

end LineEndAfter

/-! ## The edit of a statement -/

/-- The edit can be made, and lies between the start of the statement and the end of the line end
behind it. -/
structure EditedAt (draft : Draft) (statement : Node) (e : Edit) : Prop where
  fits : Edit.Fits draft.source e
  start_le : statement.start ≤ e.start
  exists_stop : ∃ stop : Nat, e.stop ≤ stop ∧ draft.LineEndAfter statement.stop stop

/-- What is done to a statement is done at its place. -/
theorem Tidied.editedAt (htidied : draft.Tidied statement (some e))
    (h : draft.Sound tree text edited) (hapart : draft.ImportsApart)
    (hstatement : statement.Within draft.root) : draft.EditedAt statement e := by
  have hvalid := h.validUtf8
  have hself := (hapart.laidOut statement hstatement).1
  have hinside := hapart.laidOut.inside (h.node_valid .refl) hstatement
  have hbound := hapart.stop_le
  cases htidied with
  | removed _ _ _ hstop =>
      obtain ⟨hcutStart, hcutStop⟩ := h.not_insideCharacter (h.contains.of_within hstatement)
      have hle := hstop.le
      have hlength := hstop.le_length (by omega)
      refine ⟨⟨?_, ?_, ?_, hcutStart, hstop.not_insideCharacter hvalid hcutStop⟩, ?_, ?_⟩
      · exact Int.natCast_nonneg _
      · exact Int.ofNat_le.mpr (Nat.le_trans hself hle)
      · exact Int.ofNat_le.mpr hlength
      · exact Int.le_refl _
      · exact ⟨_, Int.le_refl _, hstop⟩
  | @pruned clause _ _ hfirst =>
      have hclause : clause.Within draft.root :=
        Relation.ReflTransGen.tail hstatement hfirst.parentOf
      have hbetween := (hapart.laidOut.of_within hstatement).inside (h.node_valid hstatement)
        (.single hfirst.parentOf)
      have hstartStop := (hapart.laidOut clause hclause).1
      obtain ⟨hcutStart, hcutStop⟩ := h.not_insideCharacter (h.contains.of_within hclause)
      have hend := lineEndAfter_afterLineEnd draft statement.stop
      have hle := hend.le
      refine ⟨⟨?_, ?_, ?_, hcutStart, hcutStop⟩, ?_, ?_⟩
      · exact Int.natCast_nonneg _
      · exact Int.ofNat_le.mpr hstartStop
      · exact Int.ofNat_le.mpr (by omega)
      · exact Int.ofNat_le.mpr hbetween.1
      · exact ⟨_, Int.ofNat_le.mpr (Nat.le_trans hbetween.2 hle), hend⟩

/-- The edit of a statement ends before the next statement begins. -/
theorem EditedAt.stop_le_start (hedit : draft.EditedAt statement e) (hapart : draft.ImportsApart)
    {next : Node} (hnext : draft.Imports next) (hle : statement.stop ≤ next.start) :
    e.stop ≤ next.start := by
  obtain ⟨stop, hstop, hend⟩ := hedit.exists_stop
  have hbefore := hend.le_of_le hle (hapart.not_lineEnd next hnext)
  omega

/-- The edits of the cleanup can be made, and are apart from each other. -/
theorem Sound.fits_and_apart (h : draft.Sound tree text edited) (hapart : draft.ImportsApart)
    (hpreorder : draft.root.Preorder nodes)
    (hcleanups :
      List.Forall₂ draft.Tidied (nodes.filter (·.kind == "import_statement")) cleanups) :
    (∀ e ∈ cleanups.reduceOption, Edit.Fits draft.source e) ∧ Edit.Apart cleanups.reduceOption := by
  constructor
  · intro e he
    obtain ⟨statement, hmem, htidied⟩ :=
      exists_mem_of_forall₂ hcleanups (List.reduceOption_mem_iff.mp he)
    obtain ⟨hwithin, -⟩ := (mem_filter_imports_iff hpreorder).mp hmem
    exact (htidied.editedAt h hapart hwithin).fits
  · refine pairwise_reduceOption hcleanups ?_
    refine (hapart.pairwise_statements h hpreorder).imp_of_mem ?_
    intro first second hfirst hsecond hle e f he hf
    rw [mem_filter_imports_iff hpreorder] at hfirst hsecond
    have hbefore := (he.editedAt h hapart hfirst.1).stop_le_start hapart hsecond hle
    exact Int.le_trans hbefore (hf.editedAt h hapart hsecond.1).start_le

/-- If nothing else is queued, the cleanup renders. -/
theorem Sound.render_cleanups (h : draft.Sound tree text edited) (hapart : draft.ImportsApart)
    (hpreorder : draft.root.Preorder nodes)
    (hcleanups :
      List.Forall₂ draft.Tidied (nodes.filter (·.kind == "import_statement")) cleanups) :
    ∃ result, Edit.render draft.source cleanups.reduceOption = .ok result ∧
      Edit.Ahead draft.source 0 (Edit.sorted cleanups.reduceOption) ∧
      encode result = Edit.splice draft.source (Edit.sorted cleanups.reduceOption) := by
  have hvalid := h.validUtf8
  obtain ⟨hfits, happart⟩ := h.fits_and_apart hapart hpreorder hcleanups
  obtain ⟨hsorted, result, hrender, hbytes⟩ := Edit.render_of_not_inConflict hvalid hfits
    (Edit.not_inConflict_iff.mpr happart.not_conflicting)
  exact ⟨result, hrender, Edit.Ahead.of_check (Edit.check_eq_ok_iff.mpr ⟨hfits, hsorted⟩), hbytes⟩

/-! ## Statements that are fully used -/

/-- All bindings of the import statement are kept. -/
def KeepsAll (draft : Draft) (statement : Node) : Prop :=
  ∀ clause part binding, statement.FirstOfKind "import_clause" clause → clause.ParentOf part →
    part.Binds binding → draft.Keeps binding

end Draft

namespace Node

open scoped Classical in
/-- The texts of the parts of an import clause that bind names, in their order. -/
def BindingTexts (source : Bytes) (clause : Node) (texts : List String) : Prop :=
  ∃ parts, clause.children = .ok parts ∧ List.Forall₂ (Node.Spells source)
    (parts.filter fun part => decide (∃ binding, part.Binds binding)) texts

/-- A clause that binds names consists of the parts that do, with a comma and a blank between
them. -/
def EvenlySpaced (source : Bytes) (statement : Node) : Prop :=
  ∀ clause texts, statement.FirstOfKind "import_clause" clause → clause.BindingTexts source texts →
    texts ≠ [] → clause.Spells source (", ".intercalate texts)

theorem ChildAt.unique {parent first second : Node} {position : Nat}
    (h : parent.ChildAt position first) (h' : parent.ChildAt position second) : first = second := by
  obtain ⟨tree, element, htree, helement, rfl⟩ := h
  obtain ⟨tree', element', htree', helement', rfl⟩ := h'
  obtain rfl := Option.some.inj (htree.symm.trans htree')
  obtain rfl := Except.ok.inj (helement.symm.trans helement')
  rfl

theorem FirstOfKind.unique {parent first second : Node} {kind : String}
    (h : parent.FirstOfKind kind first) (h' : parent.FirstOfKind kind second) : first = second := by
  obtain ⟨i, hfirst, hkind, hearlier⟩ := h
  obtain ⟨j, hsecond, hkind', hearlier'⟩ := h'
  rcases Nat.lt_trichotomy i j with hlt | rfl | hlt
  · exact absurd hkind (hearlier' i hlt first hfirst)
  · exact hfirst.unique hsecond
  · exact absurd hkind' (hearlier j hlt second hsecond)

theorem BindingTexts.unique {source : Bytes} {clause : Node} {texts others : List String}
    (h : clause.BindingTexts source texts) (h' : clause.BindingTexts source others) :
    texts = others := by
  obtain ⟨parts, hparts, htexts⟩ := h
  obtain ⟨parts', hparts', hothers⟩ := h'
  obtain rfl := Except.ok.inj (hparts.symm.trans hparts')
  have hunique : Relator.RightUnique (Node.Spells source) := fun _ _ _ h h' => h.unique h'
  exact hunique.forall₂ htexts hothers

/-- There are such texts exactly if the clause binds names. -/
theorem BindingTexts.ne_nil_iff {source : Bytes} {clause : Node} {texts : List String}
    (h : clause.BindingTexts source texts) :
    texts ≠ [] ↔ ∃ part binding, clause.ParentOf part ∧ part.Binds binding := by
  obtain ⟨parts, hparts, htexts⟩ := h
  rw [← List.length_pos_iff, ← htexts.length_eq, List.length_pos_iff_exists_mem]
  simp only [List.mem_filter, mem_children_iff hparts, decide_eq_true_iff, exists_and_left]

end Node

namespace Draft

variable {draft : Draft} {tree : Tree} {text edited : String} {statement clause part : Node}
  {parts : List Node} {texts : List String}

/-- A part all of whose bindings are kept stays as it is, if it has any. -/
theorem remains_iff_of_keeps (hall : ∀ binding, part.Binds binding → draft.Keeps binding)
    {value : String} : draft.Remains part value ↔
      (∃ binding, part.Binds binding) ∧ part.Spells draft.setting.source value := by
  constructor
  · intro hremains
    cases hremains with
    | whole hsome _ hspells => exact ⟨hsome, hspells⟩
    | pruned hlists _ hproper => exact absurd ((kept_eq_self_iff hlists).mpr hall) hproper
  · intro h
    exact .whole h.1 hall h.2

/-- Of parts whose bindings are all kept those are left that have any. -/
theorem Leaves.bindingTexts (hleaves : draft.Leaves parts texts)
    (hall : ∀ part ∈ parts, ∀ binding, part.Binds binding → draft.Keeps binding)
    (hparts : clause.children = .ok parts) :
    clause.BindingTexts draft.setting.source texts := by
  refine ⟨parts, hparts, ?_⟩
  clear hparts
  induction hleaves with
  | nil => exact .nil
  | kept hremains _ ih =>
      obtain ⟨hpart, hrest⟩ := List.forall_mem_cons.mp hall
      obtain ⟨hbinds, hspells⟩ := (remains_iff_of_keeps hpart).mp hremains
      rw [List.filter_cons_of_pos (by simpa using hbinds)]
      exact .cons hspells (ih hrest)
  | @dropped part _ _ hgone _ ih =>
      obtain ⟨hpart, hrest⟩ := List.forall_mem_cons.mp hall
      have hnone : ∀ binding, ¬part.Binds binding :=
        fun binding hbinds => hgone binding hbinds (hpart binding hbinds)
      rw [List.filter_cons_of_neg (by simpa using hnone)]
      exact ih hrest

/-- A statement that is fully used is left alone if it is evenly spaced, and otherwise comes to be
so. -/
theorem Tidied.of_keepsAll {cleanup : Option Edit} (htidied : draft.Tidied statement cleanup)
    (hall : draft.KeepsAll statement) :
    (statement.EvenlySpaced draft.setting.source ∧ cleanup = none) ∨
      ∃ clause texts, statement.FirstOfKind "import_clause" clause ∧
        clause.BindingTexts draft.setting.source texts ∧ texts ≠ [] ∧
        ¬clause.Spells draft.setting.source (", ".intercalate texts) ∧
        cleanup = some (replacement clause (", ".intercalate texts)) := by
  -- What is left of the clause are the parts that bind names.
  have htexts : ∀ {clause parts texts}, statement.FirstOfKind "import_clause" clause →
      clause.children = .ok parts → draft.Leaves parts texts →
      clause.BindingTexts draft.setting.source texts := by
    intro clause parts texts hfirst hparts hleaves
    refine hleaves.bindingTexts (fun part hmem binding => ?_) hparts
    exact hall clause part binding hfirst ((Node.mem_children_iff hparts).mp hmem)
  cases htidied with
  | noClause hnone =>
      exact .inl ⟨fun clause _ hfirst => absurd hfirst (hnone clause), rfl⟩
  | noBinding hfirst hnone =>
      refine .inl ⟨fun clause texts hfirst' hbinding hne => ?_, rfl⟩
      obtain rfl := hfirst.unique hfirst'
      obtain ⟨part, binding, hparent, hbinds⟩ := hbinding.ne_nil_iff.mp hne
      exact absurd hbinds (hnone part binding hparent)
  | removed hfirst hsome hgone =>
      obtain ⟨part, binding, hparent, hbinds⟩ := hsome
      exact absurd (hall _ part binding hfirst hparent hbinds) (hgone part binding hparent hbinds)
  | settled hfirst hparts hleaves _ hspells =>
      refine .inl ⟨fun clause texts hfirst' hbinding _ => ?_, rfl⟩
      obtain rfl := hfirst.unique hfirst'
      obtain rfl := (htexts hfirst hparts hleaves).unique hbinding
      exact hspells
  | pruned hfirst hparts hleaves hne hspells =>
      exact .inr ⟨_, _, hfirst, htexts hfirst hparts hleaves, hne, hspells, rfl⟩

end Draft

/-- The edit replaces a byte between two offsets, or inserts a text strictly between them. -/
def Edit.Touches (e : Edit) (start stop : Nat) : Prop := e.start < stop ∧ start < e.stop

instance (e : Edit) (start stop : Nat) : Decidable (e.Touches start stop) :=
  inferInstanceAs (Decidable (_ ∧ _))

namespace Draft

variable {draft : Draft} {tree : Tree} {text edited : String} {statement : Node}
  {nodes : List Node} {cleanups : List (Option Edit)}

/-- A fully used statement that is evenly spaced is not edited itself. -/
theorem exists_other_of_keepsAll (hpreorder : draft.root.Preorder nodes)
    (hcleanups :
      List.Forall₂ draft.Tidied (nodes.filter (·.kind == "import_statement")) cleanups)
    (hall : draft.KeepsAll statement) (hspaced : statement.EvenlySpaced draft.setting.source) :
    ∀ e ∈ cleanups.reduceOption, ∃ other, draft.Imports other ∧ other ≠ statement ∧
      draft.Tidied other (some e) := by
  intro e he
  obtain ⟨other, hmem, htidied⟩ := exists_mem_of_forall₂ hcleanups (List.reduceOption_mem_iff.mp he)
  have hother := (mem_filter_imports_iff hpreorder).mp hmem
  refine ⟨other, hother, ?_, htidied⟩
  rintro rfl
  rcases htidied.of_keepsAll hall with
    ⟨-, hnone⟩ | ⟨clause, texts, hfirst, hbinding, hne, hnot, -⟩
  · cases hnone
  · exact hnot (hspaced clause texts hfirst hbinding hne)

/-- What is done to one statement does not touch another. -/
theorem Tidied.not_touches {other : Node} {e : Edit} (htidied : draft.Tidied other (some e))
    (h : draft.Sound tree text edited) (hapart : draft.ImportsApart)
    (hother : draft.Imports other) (hstatement : draft.Imports statement)
    (hne : other ≠ statement) : ¬e.Touches statement.start statement.stop := by
  have hedit := htidied.editedAt h hapart hother.1
  unfold Edit.Touches
  rcases hapart.eq_or_le h hother hstatement with heq | hbefore | hafter
  · exact absurd heq hne
  · have hstop := hedit.stop_le_start hapart hstatement hbefore
    omega
  · have hstart := hedit.start_le
    omega

/-- A fully used import statement is left alone exactly if it is evenly spaced. Every queued edit
then is that of another statement; if statements are apart, none touches this one, and its bytes
appear as they are in what is rendered, unless something else was queued. If the statement is not
evenly spaced, its clause is replaced by its own parts with a comma and a blank between them. -/
theorem fullyUsed_untouched_or_respaced (h : draft.Sound tree text edited) {journal : Journal}
    (hjournal : journal.Reached) (hstatement : draft.Imports statement)
    (hall : draft.KeepsAll statement) :
    ∃ edits, ((draft.perform .removeUnusedImports).run journal).1 = (draft.queue edits, none) ∧
      (statement.EvenlySpaced draft.setting.source →
        (∀ e ∈ edits, ∃ other, draft.Imports other ∧ other ≠ statement ∧
          draft.Tidied other (some e)) ∧
        (draft.ImportsApart →
          (∀ e ∈ edits, ¬e.Touches statement.start statement.stop) ∧
          (draft.edits = [] → ∃ result,
            (∀ later, ((draft.queue edits).render.run later).1 = .ok result) ∧
            slice draft.source statement.start statement.stop <:+: encode result))) ∧
      (¬statement.EvenlySpaced draft.setting.source →
        ∃ clause texts, statement.FirstOfKind "import_clause" clause ∧
          clause.BindingTexts draft.setting.source texts ∧
          replacement clause (", ".intercalate texts) ∈ edits) := by
  obtain ⟨nodes, cleanups, hpreorder, hcleanups, hedits, hfailure⟩ := h.exists_cleanups hjournal
  refine ⟨cleanups.reduceOption, ?_, fun hspaced => ?_, fun hspaced => ?_⟩
  · rw [run_perform, outcome, hedits, hfailure]
  · have hothers := exists_other_of_keepsAll hpreorder hcleanups hall hspaced
    refine ⟨hothers, fun hapart => ?_⟩
    have hfree : ∀ e ∈ cleanups.reduceOption, ¬e.Touches statement.start statement.stop := by
      intro e he
      obtain ⟨other, hother, hne, htidied⟩ := hothers e he
      exact htidied.not_touches h hapart hother hstatement hne
    refine ⟨hfree, fun hempty => ?_⟩
    obtain ⟨result, hrender, hahead, hbytes⟩ := h.render_cleanups hapart hpreorder hcleanups
    refine ⟨result, fun later => ?_, ?_⟩
    · rw [render_fst, queue, hempty, List.nil_append, hrender]
    · rw [hbytes]
      refine Edit.slice_infix_spliceFrom hahead (Nat.zero_le _)
        (hapart.laidOut statement hstatement.1).1 fun e he => ?_
      have hnot := hfree e (Edit.mem_sorted.mp he)
      unfold Edit.Touches at hnot
      omega
  · have hmem := (mem_filter_imports_iff hpreorder).mpr hstatement
    obtain ⟨cleanup, hcleanup, htidied⟩ :=
      exists_mem_of_forall₂ (List.Forall₂.flip (R := flip draft.Tidied) hcleanups) hmem
    rcases Tidied.of_keepsAll htidied hall with
      ⟨hspaced', -⟩ | ⟨clause, texts, hfirst, hbinding, -, -, rfl⟩
    · exact absurd hspaced' hspaced
    · exact ⟨clause, texts, hfirst, hbinding, List.reduceOption_mem_iff.mpr hcleanup⟩

end Draft

/-! ## The second and the third of four imports -/

namespace FourImports

open Mark (extent)

/-- A statement that imports a name and a specifier. -/
def statementAt (position start stop nameAt listAt : Nat) : Node :=
  program.child position ⟨"import_statement", extent start stop,
    [part "import_clause" nameAt (listAt + 3) (nameAndBraces nameAt listAt)]⟩

def clauseAt (position start stop nameAt listAt : Nat) : Node :=
  (statementAt position start stop nameAt listAt).child 0
    ⟨"import_clause", extent nameAt (listAt + 3), nameAndBraces nameAt listAt⟩

def blockAt (position start stop nameAt listAt : Nat) : Node :=
  (clauseAt position start stop nameAt listAt).child 2
    ⟨"named_imports", extent listAt (listAt + 3), braces listAt⟩

/-- The import with a blank before its braces. -/
def spaced : Node := statementAt 1 20 43 27 30

/-- The import without a blank before its braces. -/
def tight : Node := statementAt 2 44 66 51 53

theorem importsApart : draft.ImportsApart :=
  sound.importsApart_of_walk (by decide +kernel) (by decide +kernel) (by decide +kernel)
    (by decide +kernel)

theorem imports_spaced : draft.Imports spaced :=
  ⟨.single ⟨1, _, _, rfl, rfl, rfl⟩, rfl⟩

theorem imports_tight : draft.Imports tight :=
  ⟨.single ⟨2, _, _, rfl, rfl, rfl⟩, rfl⟩

/-- All names but the first and the fifth are used. -/
theorem uses_of_mem {used : String} (h : used ∈ ["a", "b", "c", "d", "f"]) :
    program.Uses (encode source) used := by
  obtain ⟨names, hnames, hmem⟩ := sound.exists_usedNames
  have hread : draft.usedNames = .ok ["f", "d", "c", "b", "a"] := rfl
  obtain rfl := Except.ok.inj (hnames.symm.trans hread)
  refine (hmem used).mp ?_
  simp only [List.mem_cons, List.not_mem_nil, or_false] at h ⊢
  tauto

/-- A statement is fully used if its name and its specifier spell used names. -/
theorem keepsAll_statementAt {position start stop nameAt listAt : Nat} {first second : String}
    (hfirst : slice (encode source) nameAt (nameAt + 1) = encode first)
    (hsecond : slice (encode source) (listAt + 1) (listAt + 2) = encode second)
    (hused : first ∈ ["a", "b", "c", "d", "f"]) (hused' : second ∈ ["a", "b", "c", "d", "f"]) :
    draft.KeepsAll (statementAt position start stop nameAt listAt) := by
  intro clause part binding hclause hparent hbinds
  have hclauses : (statementAt position start stop nameAt listAt).children =
      .ok [clauseAt position start stop nameAt listAt] := rfl
  obtain rfl := List.mem_singleton.mp ((Node.mem_children_iff hclauses).mpr hclause.parentOf)
  have hparts : (clauseAt position start stop nameAt listAt).children =
      .ok [_, _, blockAt position start stop nameAt listAt] := rfl
  have hpart := (Node.mem_children_iff hparts).mpr hparent
  simp only [List.mem_cons, List.not_mem_nil, or_false] at hpart
  rcases hpart with rfl | rfl | rfl
  · cases hbinds with
    | name => exact ⟨first, .name rfl hfirst, uses_of_mem hused⟩
    | space hkind => simp [Node.child] at hkind
    | specifier hkind => simp [Node.child] at hkind
  · cases hbinds with
    | name hkind => simp [Node.child] at hkind
    | space hkind => simp [Node.child] at hkind
    | specifier hkind => simp [Node.child] at hkind
  · cases hbinds with
    | name hkind => simp [blockAt, Node.child] at hkind
    | space hkind => simp [blockAt, Node.child] at hkind
    | specifier _ hspecifier hkind =>
        have hlist : (blockAt position start stop nameAt listAt).children =
            .ok [_, _, _] := rfl
        have hbinding := (Node.mem_children_iff hlist).mpr hspecifier
        simp only [List.mem_cons, List.not_mem_nil, or_false] at hbinding
        rcases hbinding with rfl | rfl | rfl
        · simp [Node.child] at hkind
        · refine ⟨second, .specifier rfl (by simp) ⟨0, ⟨_, _, rfl, rfl, rfl⟩, rfl, ?_⟩ hsecond,
            uses_of_mem hused'⟩
          exact fun earlier hlt => absurd hlt (Nat.not_lt_zero earlier)
        · simp [Node.child] at hkind

theorem keepsAll_spaced : draft.KeepsAll spaced :=
  have hfirst : slice (encode source) 27 28 = encode "a" := by decide +kernel
  have hsecond : slice (encode source) 31 32 = encode "b" := by decide +kernel
  keepsAll_statementAt hfirst hsecond (by simp) (by simp)

theorem keepsAll_tight : draft.KeepsAll tight :=
  have hfirst : slice (encode source) 51 52 = encode "c" := by decide +kernel
  have hsecond : slice (encode source) 54 55 = encode "d" := by decide +kernel
  keepsAll_statementAt hfirst hsecond (by simp) (by simp)

end FourImports

/-- Of four imports the second stays as it is, whatever is done to the others. -/
theorem Draft.fullyUsed_untouched_or_respaced_spaced :
    FourImports.draft.Sound FourImports.program.tree FourImports.source FourImports.source ∧
      FourImports.draft.ImportsApart ∧ ({} : Journal).Reached ∧
      FourImports.draft.Imports FourImports.spaced ∧
      FourImports.draft.KeepsAll FourImports.spaced ∧
      FourImports.spaced.EvenlySpaced (encode FourImports.source) ∧
      (∀ e ∈ FourImports.edits, ¬e.Touches 20 43) ∧
      ∃ result,
        (((FourImports.draft.queue FourImports.edits).render).run {}).1 = .ok result ∧
        encode "import a, \x7bb\x7d from 'y';" <:+: encode result := by
  have hreached : ({} : Journal).Reached := ⟨[], rfl⟩
  obtain ⟨edits, hrun, huntouched, hrespaced⟩ := Draft.fullyUsed_untouched_or_respaced
    FourImports.sound hreached FourImports.imports_spaced FourImports.keepsAll_spaced
  obtain rfl : edits = FourImports.edits :=
    congrArg (fun answer => answer.1.edits) (hrun.symm.trans FourImports.run_removeUnusedImports)
  have hspaced : FourImports.spaced.EvenlySpaced (encode FourImports.source) := by
    by_contra hnot
    obtain ⟨clause, texts, hfirst, -, hmem⟩ := hrespaced hnot
    have hclauses : FourImports.spaced.children = .ok [FourImports.clauseAt 1 20 43 27 30] := rfl
    obtain rfl := List.mem_singleton.mp ((Node.mem_children_iff hclauses).mpr hfirst.parentOf)
    simp [FourImports.edits, Draft.replacement, FourImports.clauseAt, Node.child, Node.start,
      Mark.extent] at hmem
  obtain ⟨hfree, hrendered⟩ := (huntouched hspaced).2 FourImports.importsApart
  obtain ⟨result, hresult, hinfix⟩ := hrendered rfl
  have hbytes : slice (encode FourImports.source) 20 43 =
      encode "import a, \x7bb\x7d from 'y';" := by
    decide +kernel
  exact ⟨FourImports.sound, FourImports.importsApart, hreached, FourImports.imports_spaced,
    FourImports.keepsAll_spaced, hspaced, hfree, result, hresult {}, hbytes ▸ hinfix⟩

/-- The third is edited although all its bindings are used: a blank comes between its parts. -/
theorem Draft.fullyUsed_respaced_tight :
    FourImports.draft.Sound FourImports.program.tree FourImports.source FourImports.source ∧
      FourImports.draft.ImportsApart ∧ FourImports.draft.Imports FourImports.tight ∧
      FourImports.draft.KeepsAll FourImports.tight ∧
      ((FourImports.draft.perform .removeUnusedImports).run {}).1 =
        (FourImports.draft.queue FourImports.edits, none) ∧
      (∃ e ∈ FourImports.edits, e.Touches FourImports.tight.start FourImports.tight.stop) ∧
      (((FourImports.draft.queue FourImports.edits).render).run {}).1 =
        .ok ("import a, \x7bb\x7d from 'y';\nimport c, \x7bd\x7d from 'z';\n" ++
          "import \x7bf\x7d from 'w';\na(b, c, d, f);") := by
  refine ⟨FourImports.sound, FourImports.importsApart, FourImports.imports_tight,
    FourImports.keepsAll_tight, FourImports.run_removeUnusedImports, ?_, ?_⟩
  · exact ⟨⟨51, 56, "c, \x7bd\x7d"⟩, by simp [FourImports.edits], by decide⟩
  · have hsorted : Edit.sorted FourImports.edits = FourImports.edits := by
      simp [FourImports.edits, Edit.sorted, List.mergeSort, Edit.notAfter]
    rw [Draft.render_fst]
    change Edit.render (encode FourImports.source) FourImports.edits = _
    unfold Edit.render Edit.check Edit.applyAll
    rw [hsorted]
    decide +kernel

/-! ## All edits together -/

/-- If imports are apart, dropping the unused ones always renders, whatever is done to each of them:
the result is the source with the edits of all statements made, one after the other. -/
theorem Draft.render_removeUnusedImports {draft : Draft} {tree : Tree} {text edited : String}
    (h : draft.Sound tree text edited) (hapart : draft.ImportsApart) (hempty : draft.edits = [])
    {journal : Journal} (hjournal : journal.Reached) :
    ∃ nodes cleanups result, draft.root.Preorder nodes ∧
      List.Forall₂ draft.Tidied (nodes.filter (·.kind == "import_statement")) cleanups ∧
      ((draft.perform .removeUnusedImports).run journal).1 =
        (draft.queue cleanups.reduceOption, none) ∧
      (∀ later, ((draft.queue cleanups.reduceOption).render.run later).1 = .ok result) ∧
      encode result = Edit.splice draft.source (Edit.sorted cleanups.reduceOption) := by
  obtain ⟨nodes, cleanups, hpreorder, hcleanups, hedits, hfailure⟩ := h.exists_cleanups hjournal
  obtain ⟨result, hrender, -, hbytes⟩ := h.render_cleanups hapart hpreorder hcleanups
  refine ⟨nodes, cleanups, result, hpreorder, hcleanups, ?_, fun later => ?_, hbytes⟩
  · rw [run_perform, outcome, hedits, hfailure]
  · rw [render_fst, queue, hempty, List.nil_append, hrender]

/-! Two imports that share a line, and a third behind a line end of two bytes. -/

namespace Touching

open FourImports (part name specifier)
open Mark (extent)

def source : String :=
  "import a from 'x';import \x7bb, c\x7d from 'y';\r\nimport d from 'z';\r\nc();"

/-- The second statement begins where the first one ends. -/
def statements : List Tree :=
  [part "import_statement" 0 18 [part "import_clause" 7 8 [name 7 8]],
    part "import_statement" 18 41 [part "import_clause" 25 31
      [part "named_imports" 25 31 [part "\x7b" 25 26 [], specifier 26 27, part "," 27 28 [],
        specifier 29 30, part "\x7d" 30 31 []]]],
    part "import_statement" 43 61 [part "import_clause" 50 51 [name 50 51]],
    part "call_expression" 63 66 [name 63 64]]

def draft : Draft :=
  { root := ⟨⟨"program", extent 0 67, statements⟩, []⟩, setting := ⟨encode source, true⟩,
    source := encode source }

theorem sound : draft.Sound draft.root.tree source source where
  contains := ⟨draft.root, Tree.root_eq_ok_iff.mpr ⟨rfl, rfl⟩, .refl⟩
  valid := Tree.fitsIn_iff.mp (by decide +kernel)
  validEdited := Tree.fitsIn_iff.mp (by decide +kernel)
  source_eq := rfl
  edited_eq := rfl

theorem importsApart : draft.ImportsApart :=
  sound.importsApart_of_walk (by decide +kernel) (by decide +kernel) (by decide +kernel)
    (by decide +kernel)

/-- What the cleanup queues. -/
def edits : List Edit := [⟨0, 18, ""⟩, ⟨25, 31, "\x7bc\x7d"⟩, ⟨43, 63, ""⟩]

theorem run_removeUnusedImports :
    ((draft.perform .removeUnusedImports).run {}).1 = (draft.queue edits, none) := rfl

theorem splice_edits :
    Edit.splice draft.source edits = encode "import \x7bc\x7d from 'y';\r\nc();" := by
  decide +kernel

end Touching

/-- Of three imports two go, one of them with its line end, and the one between is pruned. -/
theorem Draft.render_removeUnusedImports_touching :
    Touching.draft.Sound Touching.draft.root.tree Touching.source Touching.source ∧
      Touching.draft.ImportsApart ∧ Touching.draft.edits = [] ∧ ({} : Journal).Reached ∧
      ((Touching.draft.perform .removeUnusedImports).run {}).1 =
        (Touching.draft.queue Touching.edits, none) ∧
      (((Touching.draft.queue Touching.edits).render).run {}).1 =
        .ok "import \x7bc\x7d from 'y';\r\nc();" := by
  have hreached : ({} : Journal).Reached := ⟨[], rfl⟩
  obtain ⟨nodes, cleanups, result, -, -, hrun, hrender, hbytes⟩ :=
    Draft.render_removeUnusedImports Touching.sound Touching.importsApart rfl hreached
  have hedits : cleanups.reduceOption = Touching.edits :=
    congrArg (fun answer => answer.1.edits) (hrun.symm.trans Touching.run_removeUnusedImports)
  have hsorted : Edit.sorted Touching.edits = Touching.edits := by
    simp [Touching.edits, Edit.sorted, List.mergeSort, Edit.notAfter]
  rw [hedits] at hrender hbytes
  rw [hsorted, Touching.splice_edits] at hbytes
  obtain rfl := encode_injective hbytes
  exact ⟨Touching.sound, Touching.importsApart, rfl, hreached,
    Touching.run_removeUnusedImports, hrender {}⟩

end Arborist

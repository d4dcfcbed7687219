import Arborist.Proofs.Replace.Literal
import Arborist.Proofs.Revision.Removal

/-!
# What replacing inside nodes changes

`replaceIn` rewrites the text of every node that a pattern describes and queues an edit for each
text that changes. For a text that is looked for literally, and replaced by another one, a node gets
an edit exactly if it has the text in its own (`Draft.replacementIn_cases`).

Nodes may match inside each other. What occurs in the inner text occurs in the outer text as well
(`Node.Spells.infix_of_inside`), so both get an edit, and the two are in conflict. Otherwise the
nodes with an edit follow one another in the source, and all edits are made. Both cases together are
`Draft.perform_replaceIn`.
-/

namespace Arborist

open Text

/-! ## Texts of nodes inside each other -/

namespace Node

variable {text : String} {outer inner node : Node} {old new copy : String}

/-- A text occurs in that of a node. -/
def TextHas (source : Bytes) (node : Node) (part : String) : Prop :=
  ∃ own, node.Spells source own ∧ part.toList <:+: own.toList

/-- A text occurs in that of a node, and with all occurrences replaced from the left the text of the
node becomes a copy. -/
def RewrittenTo (source : Bytes) (old new : String) (node : Node) (copy : String) : Prop :=
  ∃ own, node.Spells source own ∧ old.toList <:+: own.toList ∧
    Rewritten old.toList new.toList own.toList copy.toList

theorem RewrittenTo.textHas {source : Bytes} (h : node.RewrittenTo source old new copy) :
    node.TextHas source old := by
  obtain ⟨own, hown, hoccurs, -⟩ := h
  exact ⟨own, hown, hoccurs⟩

theorem TextHas.exists_rewrittenTo {source : Bytes} (h : node.TextHas source old) (hold : old ≠ "")
    (new : String) : ∃ copy, node.RewrittenTo source old new copy := by
  obtain ⟨own, hown, hoccurs⟩ := h
  obtain ⟨copy, -, hrewritten⟩ := Needle.exists_replaceIn_literal hold new own
  exact ⟨copy, own, hown, hoccurs, hrewritten⟩

theorem RewrittenTo.unique {source : Bytes} {other : String}
    (h : node.RewrittenTo source old new copy) (hother : node.RewrittenTo source old new other) :
    copy = other := by
  obtain ⟨own, hown, -, hcopy⟩ := h
  obtain ⟨own', hown', -, hcopy'⟩ := hother
  obtain rfl := hown.unique hown'
  exact String.toList_inj.mp (hcopy.unique hcopy')

/-- The text of a node is part of the text of every node around it. -/
theorem Spells.infix_of_inside {whole part : String} (houter : outer.Spells (encode text) whole)
    (hinner : inner.Spells (encode text) part) (houterValid : outer.tree.Valid text)
    (hinnerValid : inner.tree.Valid text) (hstart : outer.start ≤ inner.start)
    (hle : inner.start ≤ inner.stop) (hstop : inner.stop ≤ outer.stop) :
    part.toList <:+: whole.toList := by
  -- What stands before and behind the inner text is text as well, so no character is cut.
  cases houterValid with
  | node houterStart houterStop _ =>
      cases hinnerValid with
      | node hinnerStart hinnerStop _ =>
          obtain ⟨before, hbefore⟩ := validUtf8_slice houterStart hinnerStart
          obtain ⟨behind, hbehind⟩ := validUtf8_slice hinnerStop houterStop
          have hwhole : encode whole = encode (before ++ part ++ behind) :=
            calc encode whole
              _ = slice (encode text) outer.start outer.stop := houter.symm
              _ = slice (encode text) outer.start inner.start ++
                  slice (encode text) inner.start inner.stop ++
                  slice (encode text) inner.stop outer.stop :=
                Edit.slice_eq_slices (encode text) hstart hle hstop
              _ = encode before ++ encode part ++ encode behind :=
                congrArg₂ (· ++ ·) (congrArg₂ (· ++ ·) (decode?_eq_some_iff.mp hbefore) hinner)
                  (decode?_eq_some_iff.mp hbehind)
              _ = encode (before ++ part ++ behind) := by simp [encode_eq_bytesOf]
          exact ⟨before.toList, behind.toList, by simp [encode_injective hwhole]⟩

theorem TextHas.start_lt_stop {source : Bytes} (h : node.TextHas source old) (hold : old ≠ "") :
    node.start < node.stop := by
  obtain ⟨own, hown, hoccurs⟩ := h
  refine Nat.lt_of_not_le fun hle => hold ?_
  have hempty : slice source node.start node.stop = [] := by
    rw [slice, List.drop_eq_nil_iff, List.length_take]
    omega
  have hnothing : own = "" := encode_injective (hown.symm.trans hempty)
  rw [hnothing] at hoccurs
  simpa using hoccurs

end Node

namespace Draft

variable {draft : Draft} {tree : Tree} {text edited pattern old new : String} {node : Node}
  {nodes : List Node} {journal : Journal}

/-! ## The edits -/

/-- A node that has the text gets an edit with its rewritten text, and any other node gets none. -/
theorem replacementIn_cases (hvalid : node.tree.Valid text) (hold : old ≠ "") (hne : old ≠ new) :
    (¬node.TextHas (encode text) old ∧
      replacementIn (encode text) (.literal old) (.text new) node = .ok []) ∨
    ∃ copy, node.RewrittenTo (encode text) old new copy ∧
      replacementIn (encode text) (.literal old) (.text new) node =
        .ok [replacement node copy] := by
  obtain ⟨own, hown, hspells⟩ := Node.exists_text hvalid
  obtain ⟨copy, hcopy, hrewritten⟩ := Needle.exists_replaceIn_literal hold new own
  have hedits : replacementIn (encode text) (.literal old) (.text new) node =
      .ok (if copy == own then [] else [replacement node copy]) := by
    unfold replacementIn
    rw [hown]
    show (((Needle.literal old).replaceIn (.text new) own).mapError Failure.refused >>= _) = _
    rw [hcopy]
    rfl
  by_cases hoccurs : old.toList <:+: own.toList
  · have hchanged : copy ≠ own := by
      intro hsame
      refine hrewritten.ne_of_infix ?_ hoccurs (congrArg String.toList hsame)
      exact fun heq => hne (String.toList_inj.mp heq)
    rw [if_neg (by simpa using hchanged)] at hedits
    exact .inr ⟨copy, ⟨own, (hspells own).mp rfl, hoccurs, hrewritten⟩, hedits⟩
  · obtain rfl : copy = own := String.toList_inj.mp (hrewritten.unique (.done hoccurs))
    rw [if_pos (by simp)] at hedits
    refine .inl ⟨fun hhas => ?_, hedits⟩
    obtain ⟨own, hown', hoccurs'⟩ := hhas
    obtain rfl := (hspells own).mpr hown'
    exact hoccurs hoccurs'

/-- Each of some nodes is replaced by a text of its own. -/
def replacements (changed : List (Node × String)) : List Edit :=
  changed.map fun change => replacement change.1 change.2

/-- The nodes that have the text, in their order and each with its rewritten text, make up the
edits. -/
theorem exists_changed (hold : old ≠ "") (hne : old ≠ new)
    (hvalid : ∀ node ∈ nodes, node.tree.Valid text) :
    ∃ changed : List (Node × String), (changed.map Prod.fst).Sublist nodes ∧
      (∀ node copy, (node, copy) ∈ changed ↔
        node ∈ nodes ∧ node.RewrittenTo (encode text) old new copy) ∧
      (Outcome.forEach (fun node =>
        .ofEdits (replacementIn (encode text) (.literal old) (.text new) node)) nodes).edits =
          replacements changed ∧
      (Outcome.forEach (fun node =>
        .ofEdits (replacementIn (encode text) (.literal old) (.text new) node)) nodes).failure =
          none := by
  induction nodes with
  | nil => exact ⟨[], .slnil, by simp, rfl, rfl⟩
  | cons first rest ih =>
      obtain ⟨hfirst, hrest⟩ := List.forall_mem_cons.mp hvalid
      obtain ⟨changed, hsublist, hchanged, hedits, hfailure⟩ := ih hrest
      rcases replacementIn_cases hfirst hold hne with ⟨hnone, hstep⟩ | ⟨copy, hcopy, hstep⟩
      · refine ⟨changed, hsublist.cons first, fun node copy => ?_, ?_, ?_⟩
        · rw [hchanged, List.mem_cons, or_and_right, or_iff_right]
          intro hhas
          obtain ⟨rfl, hrewritten⟩ := hhas
          exact hnone hrewritten.textHas
        · rw [Outcome.forEach, hstep]
          exact hedits
        · rw [Outcome.forEach, hstep]
          exact hfailure
      · refine ⟨(first, copy) :: changed, hsublist.cons_cons first, fun node other => ?_, ?_, ?_⟩
        · rw [List.mem_cons, hchanged, List.mem_cons, or_and_right, Prod.mk.injEq]
          refine or_congr_left (and_congr_right fun hsame => ?_)
          rw [hsame]
          exact ⟨fun heq => heq ▸ hcopy, fun hother => hother.unique hcopy⟩
        · rw [Outcome.forEach, hstep]
          exact congrArg (replacement first copy :: ·) hedits
        · rw [Outcome.forEach, hstep]
          exact hfailure

/-! ## Rendering them -/

/-- A node that the pattern describes has the text, and lies below another one that the pattern
describes. -/
def NestedHit (draft : Draft) (pattern old : String) : Prop :=
  ∃ outer inner : Node, draft.Matched pattern outer ∧ draft.Matched pattern inner ∧
    outer.AncestorOf inner ∧ inner.TextHas draft.setting.source old

/-- Around a node that has the text every node has it. -/
theorem Sound.textHas_of_ancestorOf (h : draft.Sound tree text edited)
    (hnests : tree.Nests draft.source.length) {outer inner : Node}
    (houter : outer.Within draft.root) (hnested : outer.AncestorOf inner)
    (hhas : inner.TextHas draft.setting.source old) :
    outer.TextHas draft.setting.source old := by
  have hcontains := h.contains.of_within houter
  have hcontains' := hcontains.of_ancestorOf hnested
  obtain ⟨hstart, hstop⟩ := hnests.in_ancestor hcontains hnested
  obtain ⟨part, hpart, hoccurs⟩ := hhas
  obtain ⟨whole, -, hwhole⟩ := Node.exists_text (hcontains.valid h.valid)
  rw [h.source_eq] at hpart ⊢
  have hspells := (hwhole whole).mp rfl
  exact ⟨whole, hspells, hoccurs.trans (hspells.infix_of_inside hpart (hcontains.valid h.valid)
    (hcontains'.valid h.valid) hstart (hnests.in_source inner hcontains').1 hstop)⟩

/-- The edits are those of the nodes that match and have the text, in pre-order. -/
theorem Sound.exists_run_replaceIn (h : draft.Sound tree text edited) (hjournal : journal.Reached)
    (pattern : String) (hold : old ≠ "") (hne : old ≠ new) :
    ∃ changed : List (Node × String),
      (∀ node copy, (node, copy) ∈ changed ↔ draft.Matched pattern node ∧
        node.RewrittenTo draft.setting.source old new copy) ∧
      (changed.map Prod.fst).Sublist draft.root.walk.nodes ∧
      ((draft.perform (.replaceIn pattern (.literal old) (.text new))).run journal).1 =
        (draft.queue (replacements changed), none) := by
  classical
  let found := draft.root.walk.nodes.filter fun node => decide
    ((Selector.compile pattern draft.setting.suggest).1.Satisfies draft.setting.source node)
  have hresolve : ((draft.resolve (.pattern pattern)).run journal).1 = .ok found :=
    h.run_resolve hjournal rfl
  have hmatched : ∀ node, node ∈ found ↔ draft.Matched pattern node := by
    intro node
    rw [List.mem_filter, Node.mem_walk_iff h.valid h.contains, decide_eq_true_iff, Matched]
  have hvalid : ∀ node ∈ found, node.tree.Valid text :=
    fun node hnode => h.node_valid ((hmatched node).mp hnode).1
  obtain ⟨changed, hsublist, hchanged, hedits, hfailure⟩ := exists_changed hold hne hvalid
  rw [← h.source_eq] at hchanged hedits hfailure
  refine ⟨changed, fun node copy => ?_, hsublist.trans List.filter_sublist, ?_⟩
  · rw [hchanged, hmatched]
  · rw [run_perform, outcome, replaceIn, run_onTarget, hresolve, Outcome.edits_reported,
      Outcome.failure_reported, hedits, hfailure]

section Changed

variable {changed : List (Node × String)}

theorem mem_changed_iff (hold : old ≠ "")
    (hchanged : ∀ node copy, (node, copy) ∈ changed ↔ draft.Matched pattern node ∧
      node.RewrittenTo draft.setting.source old new copy) :
    node ∈ changed.map Prod.fst ↔
      draft.Matched pattern node ∧ node.TextHas draft.setting.source old := by
  constructor
  · intro hnode
    obtain ⟨⟨node, copy⟩, hchange, rfl⟩ := List.mem_map.mp hnode
    obtain ⟨hmatched, hcopy⟩ := (hchanged node copy).mp hchange
    exact ⟨hmatched, hcopy.textHas⟩
  · intro hnode
    obtain ⟨hmatched, hhas⟩ := hnode
    obtain ⟨copy, hcopy⟩ := hhas.exists_rewrittenTo hold new
    exact List.mem_map.mpr ⟨(node, copy), (hchanged node copy).mpr ⟨hmatched, hcopy⟩, rfl⟩

/-- The edits of the changed nodes span them. -/
theorem Sound.forall₂_spans_changed (h : draft.Sound tree text edited)
    (hnests : tree.Nests draft.source.length)
    (hcontains : ∀ change ∈ changed, tree.Contains change.1) :
    List.Forall₂ (Spans draft.source) (changed.map Prod.fst) (replacements changed) := by
  rw [replacements, List.forall₂_map_left_iff, List.forall₂_map_right_iff, List.forall₂_same]
  intro change hchange
  exact h.spans_replacement hnests (hcontains change hchange) change.2

/-- A hit below another match is in conflict with that match, which is changed as well. -/
theorem Sound.inConflict_of_nestedHit (h : draft.Sound tree text edited)
    (hnests : tree.Nests draft.source.length) (hold : old ≠ "")
    (hspans : List.Forall₂ (Spans draft.source) (changed.map Prod.fst) (replacements changed))
    (hchanged : ∀ node, draft.Matched pattern node → node.TextHas draft.setting.source old →
      node ∈ changed.map Prod.fst)
    (hnested : draft.NestedHit pattern old) :
    ∃ e f, Edit.InConflict (replacements changed) e f := by
  obtain ⟨outer, inner, houter, hinner, hancestor, hhas⟩ := hnested
  have hhas' := h.textHas_of_ancestorOf hnests houter.1 hancestor hhas
  exact inConflict_of_spans hspans (hchanged outer houter hhas') (hchanged inner hinner hhas)
    (Node.AncestorOf.ne hancestor)
    (hnests.in_ancestor (h.contains.of_within houter.1) hancestor) (hhas.start_lt_stop hold)

end Changed

/-- Replacing a text by another one inside all nodes that a pattern describes changes the nodes that
have the text. It can be rendered exactly if none of these lies below another node that the pattern
describes; the result then is the source with the text of each replaced by the rewritten text.
Otherwise there is an overlap. -/
theorem perform_replaceIn (h : draft.Sound tree text edited)
    (horder : tree.Ordered draft.source.length) (hnew : draft.edits = [])
    (hjournal : journal.Reached) (pattern : String) (hold : old ≠ "") (hne : old ≠ new) :
    ∃ (changed : List (Node × String)) (after : Draft),
      (∀ node copy, (node, copy) ∈ changed ↔ draft.Matched pattern node ∧
        node.RewrittenTo draft.setting.source old new copy) ∧
      changed.Pairwise (fun first second => first.1.path < second.1.path) ∧
      ((draft.perform (.replaceIn pattern (.literal old) (.text new))).run journal).1 =
        (after, none) ∧
      ∀ later,
        ((∃ result, (after.render.run later).1 = .ok result) ↔ ¬draft.NestedHit pattern old) ∧
        (∀ result, (after.render.run later).1 = .ok result →
          changed.Pairwise (fun first second => first.1.stop ≤ second.1.start) ∧
          encode result = Edit.splice draft.source (replacements changed)) ∧
        (draft.NestedHit pattern old → ∃ conflict,
          (after.render.run later).1 = .error conflict ∧ conflict.isOverlap = true) := by
  obtain ⟨-, hpreorder⟩ := Node.walk_of_valid (h.node_valid .refl)
  obtain ⟨changed, hchanged, hsublist, hperform⟩ :=
    h.exists_run_replaceIn hjournal pattern hold hne
  have hhits : ∀ node, node ∈ changed.map Prod.fst ↔
      draft.Matched pattern node ∧ node.TextHas draft.setting.source old :=
    fun _ => mem_changed_iff hold hchanged
  have hspans := h.forall₂_spans_changed horder.toNests fun change hchange =>
    h.contains.of_within ((hchanged change.1 change.2).mp hchange).1.1
  have hfits : ∀ e ∈ replacements changed, Edit.Fits draft.source e := by
    intro e he
    obtain ⟨node, -, hspan⟩ := exists_mem_of_forall₂ hspans he
    exact hspan.fits
  refine ⟨changed, _, hchanged, ?_, hperform, fun later => ?_⟩
  · have hpaths : (changed.map Prod.fst).Pairwise fun first second => first.path < second.path :=
      hpreorder.pairwise_path_lt.sublist hsublist
    rwa [List.pairwise_map] at hpaths
  rw [render_queue hnew]
  by_cases hnested : draft.NestedHit pattern old
  · obtain ⟨conflict, hconflict, hkind⟩ := Edit.render_of_inConflict h.validUtf8 hfits
      (h.inConflict_of_nestedHit horder.toNests hold hspans
        (fun node hmatched hhas => (hhits node).mpr ⟨hmatched, hhas⟩) hnested)
    rw [hconflict]
    refine ⟨iff_of_false (fun hok => ?_) (not_not.mpr hnested), fun result hok => ?_,
      fun _ => ⟨conflict, rfl, hkind⟩⟩
    · obtain ⟨result, hok⟩ := hok
      cases hok
    · cases hok
  · have hrow : (changed.map Prod.fst).Pairwise fun first second => first.stop ≤ second.start := by
      apply hpreorder.pairwise_le_of_sublist (h.node_valid .refl) (horder.laidOut h.contains)
        hsublist
      intro outer houter inner hinner hancestor
      obtain ⟨hmatched, hhas⟩ := (hhits inner).mp hinner
      exact hnested ⟨outer, inner, ((hhits outer).mp houter).1, hmatched, hancestor, hhas⟩
    have hapart : Edit.Apart (replacements changed) :=
      List.pairwise_map.mpr ((List.pairwise_map.mp hrow).imp Int.ofNat_le.mpr)
    obtain ⟨result, hok, -, hbytes⟩ := Edit.render_of_apart h.validUtf8 hfits hapart
    rw [hok]
    refine ⟨iff_of_true ⟨result, rfl⟩ hnested, fun result' hresult => ?_,
      fun hnested' => absurd hnested' hnested⟩
    obtain rfl := Except.ok.inj hresult
    exact ⟨List.pairwise_map.mp hrow, hbytes⟩

end Draft

/-- Of two declarators one inside the other, the name of the outer one can be replaced, since the
inner one does not have it. The name of the inner one occurs in both. -/
theorem Draft.perform_replaceIn_declarators :
    NestedDeclarations.draft.Sound NestedDeclarations.program.tree NestedDeclarations.source
        NestedDeclarations.source ∧
      NestedDeclarations.program.tree.Ordered NestedDeclarations.draft.source.length ∧
      ({} : Journal).Reached ∧
      ¬NestedDeclarations.draft.NestedHit "variable_declarator" "a" ∧
      (∃ after, ((NestedDeclarations.draft.perform
          (.replaceIn "variable_declarator" (.literal "a") (.text "né"))).run {}).1 =
            (after, none) ∧
        (after.render.run {}).1 = .ok "let né = () => \x7b\n  let b\n\x7d") ∧
      NestedDeclarations.draft.NestedHit "variable_declarator" "b" ∧
      ∃ after conflict, ((NestedDeclarations.draft.perform
          (.replaceIn "variable_declarator" (.literal "b") (.text "né"))).run {}).1 =
            (after, none) ∧
        (after.render.run {}).1 = .error conflict ∧ conflict.isOverlap = true := by
  have hreached : ({} : Journal).Reached := ⟨[], rfl⟩
  have houter := NestedDeclarations.matched_of_kind NestedDeclarations.outer_within rfl
  have hinner := NestedDeclarations.matched_of_kind
    (NestedDeclarations.outer_within.trans
      NestedDeclarations.outer_ancestorOf_inner.to_reflTransGen) rfl
  have hhas : NestedDeclarations.inner.TextHas NestedDeclarations.draft.setting.source "b" :=
    ⟨"b", rfl, List.infix_rfl⟩
  have hnested : NestedDeclarations.draft.NestedHit "variable_declarator" "b" :=
    ⟨_, _, houter, hinner, NestedDeclarations.outer_ancestorOf_inner, hhas⟩
  obtain ⟨_, after, -, -, hperform, hrender⟩ := Draft.perform_replaceIn
    NestedDeclarations.sound NestedDeclarations.ordered rfl hreached "variable_declarator"
    (by decide : "a" ≠ "") (by decide : "a" ≠ "né")
  obtain ⟨_, after', -, -, hperform', hrender'⟩ := Draft.perform_replaceIn
    NestedDeclarations.sound NestedDeclarations.ordered rfl hreached "variable_declarator"
    (by decide : "b" ≠ "") (by decide : "b" ≠ "né")
  obtain ⟨conflict, hconflict, hoverlap⟩ := (hrender' {}).2.2 hnested
  have hcomputed : ((NestedDeclarations.draft.perform
      (.replaceIn "variable_declarator" (.literal "a") (.text "né"))).run {}).1 =
        (NestedDeclarations.draft.queue [⟨4, 25, "né = () => \x7b\n  let b\n\x7d"⟩], none) := rfl
  have hok : (after.render.run {}).1 = .ok "let né = () => \x7b\n  let b\n\x7d" := by
    obtain rfl := congrArg Prod.fst (hperform.symm.trans hcomputed)
    decide +kernel
  exact ⟨NestedDeclarations.sound, NestedDeclarations.ordered, hreached,
    (hrender {}).1.mp ⟨_, hok⟩, ⟨after, hperform, hok⟩, hnested, after', conflict, hperform',
    hconflict, hoverlap⟩

end Arborist

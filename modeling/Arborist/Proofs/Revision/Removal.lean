import Arborist.Proofs.Edit.Outcome
import Arborist.Proofs.Revision.Operations
import Arborist.Proofs.Text.Rows
import Arborist.Proofs.Tree.Layout

/-!
# What removals delete

A removal deletes the extent of a node, or all lines that the node stands on if it is a statement;
and the node that goes may be the parent of the one that was asked for. Two laws follow.

Statements go line by line. The byte at an offset is deleted exactly if its row is one of the rows
of a statement (`Draft.covers_removal_iff`), and two edits are in conflict exactly if they have a
row in common (`Draft.conflicting_removal_iff`). So the lines on the other rows are what is left, or
there is an overlap (`Draft.perform_remove_lines`).

Nested nodes are in each other's way. Whatever a removal or a replacement makes of a node, its edit
spans the node (`Draft.Spans`). Of two nodes one inside the other, both edits have the inner extent
to themselves, so they cannot both be made (`Draft.render_of_nested_matches`).
-/

namespace Arborist

open Text

/-! ## The ends of lines split no character -/

namespace Edit

variable {source : Bytes}

/-- Behind a line feed another character begins, or nothing. -/
theorem insideCharacter_behind_lineFeed {offset : Nat} (hvalid : ValidUtf8 source)
    (hbyte : source[offset]? = some lineFeed) :
    insideCharacter source (offset + 1 : Nat) = false := by
  have hcut : insideCharacter source offset = false := by
    rw [insideCharacter, Int.toNat_natCast, hbyte]
    rfl
  exact hvalid.insideCharacter_succ hcut hbyte (by decide)

theorem insideCharacter_lineStart (hvalid : ValidUtf8 source) (offset : Nat) :
    insideCharacter source (lineStart source offset) = false := by
  obtain ⟨before, line, hsplit, hlength, -, rfl | ⟨earlier, rfl⟩⟩ := exists_lineStart source offset
  · rw [← hlength]
    exact insideCharacter_zero hvalid
  · rw [List.length_append, List.length_singleton] at hlength
    rw [← hlength]
    apply insideCharacter_behind_lineFeed hvalid
    have hsource := List.take_append_drop offset source
    rw [hsplit, List.append_assoc, List.append_assoc] at hsource
    rw [← hsource, List.getElem?_append_right (Nat.le_refl _), Nat.sub_self]
    rfl

theorem insideCharacter_nextLineStart (hvalid : ValidUtf8 source) (offset : Nat) :
    insideCharacter source (nextLineStart source offset) = false := by
  rcases nextLineStart_cases source offset with ⟨-, hnext⟩ | ⟨line, rest, hsplit, -, hnext⟩
  · rw [hnext, insideCharacter, Int.toNat_natCast, List.getElem?_eq_none (Nat.le_refl _)]
    rfl
  · rw [hnext]
    apply insideCharacter_behind_lineFeed hvalid
    rw [← List.getElem?_drop, hsplit, List.getElem?_append_right (Nat.le_refl _), Nat.sub_self]
    rfl

end Edit

/-! ## Rows -/

namespace Node

/-- The node stands on a row: one from the row of its start to the row of its end. -/
def OnRow (source : Bytes) (node : Node) (row : Nat) : Prop :=
  rowOf source node.start ≤ row ∧ row ≤ rowOf source node.stop

instance (source : Bytes) (node : Node) (row : Nat) : Decidable (node.OnRow source row) :=
  inferInstanceAs (Decidable (_ ∧ _))

/-- A statement with at least one byte, inside the source. -/
structure StatementIn (source : Bytes) (node : Node) : Prop where
  kind_mem : node.kind ∈ Kind.statements
  start_lt : node.start < node.stop
  stop_le : node.stop ≤ source.length

/-- Two nodes that stand on no row together. -/
def RowsApart (source : Bytes) (node other : Node) : Prop :=
  ∀ row, ¬(node.OnRow source row ∧ other.OnRow source row)

/-- Whether none of the nodes stands on a row. -/
def rowFree (source : Bytes) (nodes : List Node) (row : Nat) : Bool :=
  !nodes.any fun node => decide (node.OnRow source row)

/-- The lines of a text on which none of the nodes stands. -/
def linesLeft (source : Bytes) (nodes : List Node) (text : String) : List (List Char) :=
  picked (rowFree source nodes) 0 (pieces '\n' text.toList)

/-- Two intervals of rows meet unless one ends before the other begins. -/
theorem not_rowsApart_iff {source : Bytes} {node other : Node} (hnode : node.start ≤ node.stop)
    (hother : other.start ≤ other.stop) :
    ¬RowsApart source node other ↔ rowOf source other.start ≤ rowOf source node.stop ∧
      rowOf source node.start ≤ rowOf source other.stop := by
  have hrows : rowOf source node.start ≤ rowOf source node.stop := rowOf_mono hnode
  have hrows' : rowOf source other.start ≤ rowOf source other.stop := rowOf_mono hother
  unfold RowsApart OnRow
  constructor
  · intro h
    obtain ⟨row, hrow⟩ := not_forall.mp h
    have := not_not.mp hrow
    omega
  · intro h hapart
    -- The later of the two first rows is one that both have.
    refine hapart (max (rowOf source node.start) (rowOf source other.start)) ?_
    omega

end Node

namespace Draft

variable {source : Bytes} {node other target : Node} {nodes targets : List Node}
  {wholeStatement : Bool}

/-! ## The edit that removes a node -/

/-- The edit can be made, and no byte of the node is outside it. -/
structure Spans (source : Bytes) (node : Node) (e : Edit) : Prop where
  fits : Edit.Fits source e
  start_le : e.start ≤ node.start
  le_stop : node.stop ≤ e.stop

theorem text_removal : (removal source node).text = "" := by
  unfold removal
  split <;> rfl

theorem removal_of_statement (h : node.kind ∈ Kind.statements) :
    removal source node = ⟨lineStart source node.start, nextLineStart source node.stop, ""⟩ := by
  rw [removal, if_pos (List.contains_iff_mem.mpr h)]
  rfl

theorem removal_of_not_statement (h : node.kind ∉ Kind.statements) :
    removal source node = replacement node "" := by
  rw [removal, if_neg (fun hcontains => h (List.contains_iff_mem.mp hcontains))]
  rfl

/-- Replacing a node spans it, by its very extent. -/
theorem spans_replacement (hle : node.start ≤ node.stop) (hstop : node.stop ≤ source.length)
    (hcut : Edit.insideCharacter source node.start = false ∧
      Edit.insideCharacter source node.stop = false) (text : String) :
    Spans source node (replacement node text) where
  fits := ⟨Int.natCast_nonneg _, Int.ofNat_le.mpr hle, Int.ofNat_le.mpr hstop, hcut.1, hcut.2⟩
  start_le := Int.le_refl _
  le_stop := Int.le_refl _

/-- The lines of a statement can be removed, wherever in them the statement begins and ends. -/
theorem spans_removal_of_statement (hvalid : ValidUtf8 source) (h : node.kind ∈ Kind.statements)
    (hle : node.start ≤ node.stop) (hstop : node.stop ≤ source.length) :
    Spans source node (removal source node) := by
  have hstart := lineStart_le source node.start
  have hnext := le_nextLineStart hstop
  rw [removal_of_statement h]
  refine ⟨⟨?_, ?_, ?_, ?_, ?_⟩, ?_, ?_⟩
  · exact Int.natCast_nonneg _
  · exact Int.ofNat_le.mpr (by omega)
  · exact Int.ofNat_le.mpr hnext.2
  · exact Edit.insideCharacter_lineStart hvalid _
  · exact Edit.insideCharacter_nextLineStart hvalid _
  · exact Int.ofNat_le.mpr hstart.1
  · exact Int.ofNat_le.mpr hnext.1

theorem spans_removal (hvalid : ValidUtf8 source) (hle : node.start ≤ node.stop)
    (hstop : node.stop ≤ source.length)
    (hcut : Edit.insideCharacter source node.start = false ∧
      Edit.insideCharacter source node.stop = false) :
    Spans source node (removal source node) := by
  by_cases h : node.kind ∈ Kind.statements
  · exact spans_removal_of_statement hvalid h hle hstop
  · rw [removal_of_not_statement h]
    exact spans_replacement hle hstop hcut ""

/-- The removal of a statement deletes the bytes on its rows. -/
theorem covers_removal_iff {offset : Nat} (h : node.kind ∈ Kind.statements)
    (hoffset : offset < source.length) :
    (removal source node).covers offset = true ↔ node.OnRow source (rowOf source offset) := by
  rw [removal_of_statement h]
  simp only [Edit.covers, Bool.and_eq_true, decide_eq_true_eq, Int.ofNat_le, Int.ofNat_lt]
  rw [lineStart_le_iff, lt_nextLineStart_iff hoffset, Node.OnRow]

/-- Lines that are removed overlap exactly if some row is removed twice. -/
theorem conflicting_removal_iff (hnode : node.StatementIn source)
    (hother : other.StatementIn source) :
    Edit.Conflicting (removal source node) (removal source other) ↔
      ¬node.RowsApart source other := by
  obtain ⟨hkind, hlt, hle⟩ := hnode
  obtain ⟨hkind', hlt', hle'⟩ := hother
  have hstart := lineStart_le source node.start
  have hstart' := lineStart_le source other.start
  rw [Node.not_rowsApart_iff (by omega) (by omega), removal_of_statement hkind,
    removal_of_statement hkind']
  simp only [Edit.Conflicting, Int.not_le, Int.ofNat_lt]
  rw [lt_nextLineStart_iff (by omega), lt_nextLineStart_iff (by omega), rowOf_lineStart,
    rowOf_lineStart]

/-- The removals of statements leave untouched the lines on which none of them stands. -/
theorem untouched_removals (h : ∀ target ∈ targets, target.kind ∈ Kind.statements) :
    Edit.untouched source (targets.map (removal source)) =
      pickedWithEnds lineFeed (Node.rowFree source targets) 0 (pieces lineFeed source) := by
  rw [← map_fst_filter_row (Node.rowFree source targets) 0 0 source, Edit.untouched,
    Edit.untouchedFrom, List.drop_zero]
  congr 1
  refine List.filter_congr fun byte hbyte => ?_
  have hbounds := List.mem_zipIdx hbyte
  have hrow : ∀ target ∈ targets, (removal source target).covers byte.2 =
      decide (target.OnRow source (rowOf source byte.2)) := by
    intro target htarget
    rw [Bool.eq_iff_iff, decide_eq_true_iff]
    exact covers_removal_iff (h target htarget) (by omega)
  rw [Edit.isUntouched, Node.rowFree, List.any_map, Nat.zero_add, Nat.sub_zero]
  congr 1
  rw [Bool.eq_iff_iff, List.any_eq_true, List.any_eq_true]
  refine exists_congr fun target => and_congr_right fun htarget => ?_
  rw [Function.comp_apply, hrow target htarget]

/-! ## Removing nodes -/

/-- In a valid tree there always is a node that goes: the one asked for or its parent. -/
theorem exists_removalTarget {tree : Tree} {text : String} (hvalid : tree.Valid text)
    (hnode : tree.Contains node) (wholeStatement : Bool) :
    ∃ target, removalTarget wholeStatement node = .ok target ∧
      (target = node ∨ target.ParentOf node) := by
  have hself : ∃ target, (pure node : Except Fault Node) = .ok target ∧
      (target = node ∨ target.ParentOf node) := ⟨node, rfl, .inl rfl⟩
  unfold removalTarget
  cases hparent : node.parent with
  | none => exact hself
  | some parent =>
      have hparentOf := (Node.parent_eq_some_iff hnode).mp hparent
      have hup : ∃ target, (pure parent : Except Fault Node) = .ok target ∧
          (target = node ∨ target.ParentOf node) := ⟨parent, rfl, .inr hparentOf⟩
      obtain ⟨children, hchildren⟩ :=
        Node.exists_children ((hnode.parentOf hparentOf).valid hvalid)
      have hnamed : parent.namedChildren = .ok (children.filter (·.mark.named)) := by
        rw [Node.namedChildren, hchildren]
        rfl
      simp only [hchildren, hnamed, ok_bind]
      refine exists_ok_ite (exists_ok_ite hup ?_) ?_
      all_goals
        refine exists_ok_ite ?_ hself
        split
        · exact exists_ok_ite hup hself
        · exact hself

/-- If it is known for each node what goes, there is one edit for each, and nothing fails. -/
theorem removeNodes_of_targets (draft : Draft)
    (h : List.Forall₂ (fun node target => removalTarget wholeStatement node = .ok target)
      nodes targets) :
    (draft.removeNodes wholeStatement nodes).edits = targets.map (removal draft.source) ∧
      (draft.removeNodes wholeStatement nodes).failure = none := by
  induction h with
  | nil => exact ⟨rfl, rfl⟩
  | @cons node target nodes targets htarget _ ih =>
      obtain ⟨hedits, hfailure⟩ := ih
      unfold removeNodes at hedits hfailure ⊢
      rw [Outcome.forEach, htarget]
      change [removal draft.source target] ++ _ = _ ∧ _ = none
      rw [hedits]
      exact ⟨rfl, hfailure⟩

/-- What a target stands for in a removal: a pattern may name calls for short. -/
def meant : Target → Target
  | .pattern text => .pattern (removalPattern text)
  | .node node => .node node
  | .nodes nodes => .nodes nodes

/-- A removal whose nodes can be found queues the removals of what goes with them. -/
theorem perform_remove_of_targets {draft : Draft} {journal : Journal} {asked : Target}
    (hnodes : ((draft.resolve (meant asked)).run journal).1 = .ok nodes)
    (htargets : List.Forall₂ (fun node target => removalTarget wholeStatement node = .ok target)
      nodes targets) :
    ((draft.perform (.remove asked wholeStatement)).run journal).1 =
      (draft.queue (targets.map (removal draft.source)), none) := by
  obtain ⟨hedits, hfailure⟩ := removeNodes_of_targets draft htargets
  obtain ⟨wording, hwording⟩ : ∃ wording, ((draft.remove asked wholeStatement).run journal).1 =
      ((draft.onTarget (meant asked) fun nodes =>
        (draft.removeNodes wholeStatement nodes).reported wording).run journal).1 := by
    cases asked with
    | pattern text => exact ⟨_, rfl⟩
    | node node => exact ⟨_, rfl⟩
    | nodes nodes => exact ⟨_, rfl⟩
  rw [run_perform, outcome, hwording, run_onTarget, hnodes, Outcome.edits_reported,
    Outcome.failure_reported, hedits, hfailure]

/-! ## Statements go line by line -/

/-- The edits that remove statements are free of conflicts exactly if no row is removed twice. -/
theorem not_inConflict_removals_iff (h : ∀ target ∈ targets, target.StatementIn source) :
    (¬∃ e f, Edit.InConflict (targets.map (removal source)) e f) ↔
      targets.Pairwise (Node.RowsApart source) := by
  rw [Edit.not_inConflict_iff, List.pairwise_map]
  refine List.Pairwise.iff_of_mem fun {node other} hnode hother => ?_
  rw [conflicting_removal_iff (h node hnode) (h other hother), not_not]

theorem fits_removals (hvalid : ValidUtf8 source)
    (h : ∀ target ∈ targets, target.StatementIn source) :
    ∀ e ∈ targets.map (removal source), Edit.Fits source e := by
  intro e he
  obtain ⟨target, htarget, rfl⟩ := List.mem_map.mp he
  obtain ⟨hkind, hlt, hle⟩ := h target htarget
  exact (spans_removal_of_statement hvalid hkind (Nat.le_of_lt hlt) hle).fits

/-- If the rows of statements are apart, removing the statements leaves the other lines. -/
theorem render_removals {text : String} (hvalid : decode? source = some text)
    (h : ∀ target ∈ targets, target.StatementIn source)
    (hapart : targets.Pairwise (Node.RowsApart source)) :
    ∃ result, Edit.render source (targets.map (removal source)) = .ok result ∧
      result.toList =
        pickedWithEnds '\n' (Node.rowFree source targets) 0 (pieces '\n' text.toList) := by
  have hfits := fits_removals ⟨text, hvalid⟩ h
  obtain ⟨hsorted, result, hrender, hbytes⟩ := Edit.render_of_not_inConflict ⟨text, hvalid⟩ hfits
    ((not_inConflict_removals_iff h).mpr hapart)
  have hahead := Edit.Ahead.of_check (Edit.check_eq_ok_iff.mpr ⟨hfits, hsorted⟩)
  have hdeletes : ∀ e ∈ Edit.sorted (targets.map (removal source)), e.text = "" := by
    intro e he
    obtain ⟨target, -, rfl⟩ := List.mem_map.mp (Edit.mem_sorted.mp he)
    exact text_removal
  have hlines : pieces lineFeed source = (pieces '\n' text.toList).map bytesOf := by
    rw [decode?_eq_some_iff.mp hvalid, encode_eq_bytesOf, pieces_bytesOf]
  have hresult : encode result = encode (String.ofList
      (pickedWithEnds '\n' (Node.rowFree source targets) 0 (pieces '\n' text.toList))) := by
    calc encode result
      _ = Edit.splice source (Edit.sorted (targets.map (removal source))) := hbytes
      _ = Edit.untouched source (Edit.sorted (targets.map (removal source))) :=
        Edit.spliceFrom_eq_untouchedFrom hahead hdeletes
      _ = Edit.untouched source (targets.map (removal source)) := Edit.untouched_sorted _ _
      _ = pickedWithEnds lineFeed (Node.rowFree source targets) 0 (pieces lineFeed source) :=
        untouched_removals fun target htarget => (h target htarget).kind_mem
      _ = _ := by rw [hlines, ← bytesOf_pickedWithEnds, encode_ofList]
  refine ⟨result, hrender, ?_⟩
  rw [encode_injective hresult, String.toList_ofList]

theorem rowFree_eq_false_iff {row : Nat} :
    Node.rowFree source targets row = false ↔ ∃ target ∈ targets, target.OnRow source row := by
  simp [Node.rowFree]

/-- Removing statements removes the lines they stand on. If no two of them have a row in common, the
other lines are left in their order, with a line feed behind the last one if the last line of the
source has gone. If two have a row in common, there is an overlap. -/
theorem perform_remove_lines (draft : Draft) (text : String) (journal later : Journal)
    (hvalid : decode? draft.source = some text) (hnew : draft.edits = [])
    (htargets : List.Forall₂ (fun node target => removalTarget wholeStatement node = .ok target)
      nodes targets)
    (hstatements : ∀ target ∈ targets, target.StatementIn draft.source) :
    ∃ after, ((draft.perform (.remove (.nodes nodes) wholeStatement)).run journal).1 =
        (after, none) ∧
      (targets.Pairwise (Node.RowsApart draft.source) →
        ∃ result, (after.render.run later).1 = .ok result ∧
          result.toList = joinPieces ['\n'] (Node.linesLeft draft.source targets text) ++
            if (∃ target ∈ targets,
                target.OnRow draft.source ((pieces '\n' text.toList).length - 1)) ∧
              Node.linesLeft draft.source targets text ≠ [] then ['\n'] else []) ∧
      (¬targets.Pairwise (Node.RowsApart draft.source) →
        ∃ conflict, (after.render.run later).1 = .error conflict ∧ conflict.isOverlap = true) := by
  refine ⟨_, perform_remove_of_targets rfl htargets, ?_⟩
  rw [render_fst, queue, hnew, List.nil_append]
  constructor
  · intro hapart
    obtain ⟨result, hrender, hresult⟩ := render_removals hvalid hstatements hapart
    obtain ⟨line, rest, hlines, -⟩ := exists_pieces_cons '\n' text.toList
    refine ⟨result, hrender, ?_⟩
    rw [hresult, Node.linesLeft, hlines, pickedWithEnds_eq]
    simp only [rowFree_eq_false_iff, Nat.zero_add, List.length_cons, Nat.add_sub_cancel]
  · intro hmeet
    refine Edit.render_of_inConflict ⟨text, hvalid⟩ (fits_removals ⟨text, hvalid⟩ hstatements) ?_
    exact not_not.mp fun hfree => hmeet ((not_inConflict_removals_iff hstatements).mp hfree)

end Draft

namespace ThreeStatements

open Mark (extent)

/-- Statements on one row, on two, and on the last one. -/
def source : String := "a();\nb(\n);\né;"

def callElement : Element := ⟨"call_expression", extent 5 9, []⟩

def middleElement : Element :=
  ⟨"expression_statement", extent 5 10, [.node (some "call_expression") (extent 5 9) []]⟩

def lastElement : Element := ⟨"expression_statement", extent 11 14, []⟩

def program : Node :=
  ⟨⟨"program", extent 0 14,
    [.node (some "expression_statement") (extent 0 4) [],
      .node (some "expression_statement") (extent 5 10) middleElement.below,
      .node (some "expression_statement") (extent 11 14) []]⟩, []⟩

def middle : Node := program.child 1 middleElement

def call : Node := middle.child 0 callElement

def last : Node := program.child 2 lastElement

def draft : Draft :=
  { root := program, setting := ⟨encode source, true⟩, source := encode source }

end ThreeStatements

/-- The second of three statements goes with both its rows if its call is removed as a whole
statement. The last one has no line feed of its own, and leaves the one before it. -/
theorem Draft.perform_remove_lines_last :
    decode? ThreeStatements.draft.source = some ThreeStatements.source ∧
      ThreeStatements.draft.edits = [] ∧
      List.Forall₂ (fun node target => Draft.removalTarget true node = .ok target)
        [ThreeStatements.call, ThreeStatements.last]
        [ThreeStatements.middle, ThreeStatements.last] ∧
      (∀ target ∈ [ThreeStatements.middle, ThreeStatements.last],
        target.StatementIn ThreeStatements.draft.source) ∧
      [ThreeStatements.middle, ThreeStatements.last].Pairwise
        (Node.RowsApart ThreeStatements.draft.source) ∧
      ∃ after, ((ThreeStatements.draft.perform
          (.remove (.nodes [ThreeStatements.call, ThreeStatements.last]) true)).run {}).1 =
            (after, none) ∧
        (after.render.run {}).1 = .ok "a();\n" := by
  have hvalid : decode? ThreeStatements.draft.source = some ThreeStatements.source :=
    decode?_encode _
  have htargets : List.Forall₂ (fun node target => Draft.removalTarget true node = .ok target)
      [ThreeStatements.call, ThreeStatements.last]
      [ThreeStatements.middle, ThreeStatements.last] := .cons rfl (.cons rfl .nil)
  have hmiddle : ThreeStatements.middle.StatementIn ThreeStatements.draft.source :=
    ⟨by decide, by decide, by decide +kernel⟩
  have hlast : ThreeStatements.last.StatementIn ThreeStatements.draft.source :=
    ⟨by decide, by decide, by decide +kernel⟩
  have hstatements : ∀ target ∈ [ThreeStatements.middle, ThreeStatements.last],
      target.StatementIn ThreeStatements.draft.source := by
    simp [hmiddle, hlast]
  have hapart : [ThreeStatements.middle, ThreeStatements.last].Pairwise
      (Node.RowsApart ThreeStatements.draft.source) := by
    rw [List.pairwise_pair]
    refine not_not.mp fun hmeet => ?_
    rw [Node.not_rowsApart_iff (by decide) (by decide)] at hmeet
    revert hmeet
    decide +kernel
  obtain ⟨after, hperform, hrender, -⟩ := Draft.perform_remove_lines ThreeStatements.draft
    ThreeStatements.source {} {} hvalid rfl htargets hstatements
  obtain ⟨result, hresult, hlines⟩ := hrender hapart
  have hcomputed : result.toList = "a();\n".toList := by
    rw [hlines]
    decide +kernel
  refine ⟨hvalid, rfl, htargets, hstatements, hapart, after, hperform, ?_⟩
  rw [hresult, String.toList_inj.mp hcomputed]

/-! ## Nested nodes -/

/-- The pattern that is searched for by a removal or a replacement of all that match. -/
def Operation.sought : Operation → Option String
  | .replace (.pattern text) _ => some text
  | .remove (.pattern text) _ => some (Draft.removalPattern text)
  | _ => none

namespace Draft

variable {draft : Draft} {tree : Tree} {text edited pattern : String} {operation : Operation}
  {nodes : List Node} {edits : List Edit} {outer inner : Node} {journal : Journal}

/-- If each node has an edit that spans it, those of two nested nodes are in conflict. -/
theorem inConflict_of_spans {source : Bytes} (h : List.Forall₂ (Spans source) nodes edits)
    (houter : outer ∈ nodes) (hinner : inner ∈ nodes) (hne : outer ≠ inner)
    (hinside : outer.start ≤ inner.start ∧ inner.stop ≤ outer.stop)
    (hlong : inner.start < inner.stop) : ∃ e f, Edit.InConflict edits e f := by
  obtain ⟨hlength, hspans⟩ := List.forall₂_iff_get.mp h
  obtain ⟨i, hi, rfl⟩ := List.mem_iff_getElem.mp houter
  obtain ⟨j, hj, rfl⟩ := List.mem_iff_getElem.mp hinner
  obtain ⟨-, hstart, hstop⟩ := hspans i hi (hlength ▸ hi)
  obtain ⟨-, hstart', hstop'⟩ := hspans j hj (hlength ▸ hj)
  refine ⟨_, _, i, j, ?_, List.getElem?_eq_getElem (hlength ▸ hi),
    List.getElem?_eq_getElem (hlength ▸ hj), ?_⟩
  · intro hij
    subst hij
    exact hne rfl
  · simp only [List.get_eq_getElem] at hstart hstop hstart' hstop'
    unfold Edit.Conflicting
    omega

/-- In a tree whose extents nest, every node can be replaced. -/
theorem Sound.spans_replacement (h : draft.Sound tree text edited)
    (hnests : tree.Nests draft.source.length) {node : Node} (hnode : tree.Contains node)
    (new : String) : Spans draft.source node (replacement node new) := by
  obtain ⟨hle, hstop⟩ := hnests.in_source node hnode
  exact Draft.spans_replacement hle hstop (h.not_insideCharacter hnode) new

/-- In a tree whose extents nest, what a removal makes of a node spans the node. -/
theorem Sound.exists_spans_removal (h : draft.Sound tree text edited)
    (hnests : tree.Nests draft.source.length) {node : Node} (hnode : tree.Contains node)
    (wholeStatement : Bool) :
    ∃ target, removalTarget wholeStatement node = .ok target ∧
      Spans draft.source node (removal draft.source target) := by
  obtain ⟨target, htarget, hself | hparent⟩ := exists_removalTarget h.valid hnode wholeStatement
  · subst hself
    obtain ⟨hle, hstop⟩ := hnests.in_source target hnode
    exact ⟨target, htarget, spans_removal h.validUtf8 hle hstop (h.not_insideCharacter hnode)⟩
  · have hcontains := hnode.parentOf hparent
    obtain ⟨hle, hstop⟩ := hnests.in_source target hcontains
    obtain ⟨hfits, hbefore, hbehind⟩ :=
      spans_removal h.validUtf8 hle hstop (h.not_insideCharacter hcontains)
    have hinside := hnests.in_parent target node hcontains hparent
    exact ⟨target, htarget, hfits, by omega, by omega⟩

/-- Such an operation queues one edit for each match, which spans it. -/
theorem Sound.exists_spans (h : draft.Sound tree text edited)
    (hnests : tree.Nests draft.source.length) (hjournal : journal.Reached)
    (hsought : operation.sought = some pattern) :
    ∃ found edits, (∀ node, node ∈ found ↔ draft.Matched pattern node) ∧
      List.Forall₂ (Spans draft.source) found edits ∧
      ((draft.perform operation).run journal).1 = (draft.queue edits, none) := by
  obtain ⟨found, hfound, hmatched⟩ := h.exists_found hjournal pattern
  have hcontains : ∀ node ∈ found, tree.Contains node :=
    fun node hnode => h.contains.of_within ((hmatched node).mp hnode).1
  refine ⟨found, ?_⟩
  unfold Operation.sought at hsought
  split at hsought
  · rename_i text' new
    obtain rfl := Option.some.inj hsought
    refine ⟨found.map (replacement · new), hmatched, ?_, ?_⟩
    · rw [List.forall₂_map_right_iff, List.forall₂_same]
      intro node hnode
      exact h.spans_replacement hnests (hcontains node hnode) new
    · rw [run_perform, outcome, replace, run_onTarget, hfound]
  · rename_i asked wholeStatement
    obtain rfl := Option.some.inj hsought
    obtain ⟨targets, htargets⟩ := exists_forall₂ fun node hnode =>
      h.exists_spans_removal hnests (hcontains node hnode) wholeStatement
    refine ⟨targets.map (removal draft.source), hmatched, ?_, ?_⟩
    · rw [List.forall₂_map_right_iff]
      exact htargets.imp fun _ _ htarget => htarget.2
    · exact perform_remove_of_targets hfound (htargets.imp fun _ _ htarget => htarget.1)
  · cases hsought

/-- Nested matches are never merged. If a pattern describes two nodes one inside the other, and the
inner one has a byte, then removing or replacing all that match cannot be rendered: there is an
overlap, whatever goes instead of the two nodes. -/
theorem render_of_nested_matches (h : draft.Sound tree text edited)
    (hnests : tree.Nests draft.source.length) (hnew : draft.edits = [])
    (hjournal : journal.Reached) (hsought : operation.sought = some pattern)
    (houter : draft.Matched pattern outer) (hinner : draft.Matched pattern inner)
    (hnested : outer.AncestorOf inner) (hlong : inner.start < inner.stop) :
    ∃ after, ((draft.perform operation).run journal).1 = (after, none) ∧
      ∀ later, ∃ conflict, (after.render.run later).1 = .error conflict ∧
        conflict.isOverlap = true := by
  obtain ⟨found, edits, hmatched, hspans, hperform⟩ :=
    h.exists_spans hnests hjournal hsought
  refine ⟨draft.queue edits, hperform, fun later => ?_⟩
  rw [render_fst, queue, hnew, List.nil_append]
  have hfits : ∀ e ∈ edits, Edit.Fits draft.source e := by
    intro e he
    obtain ⟨node, -, hspan⟩ := exists_mem_of_forall₂ hspans he
    exact hspan.fits
  have hne : outer ≠ inner := by
    intro heq
    subst heq
    exact Nat.lt_irrefl _ hnested.length_above_lt
  have hinside := hnests.in_ancestor (h.contains.of_within houter.1) hnested
  exact Edit.render_of_inConflict h.validUtf8 hfits (inConflict_of_spans hspans
    ((hmatched outer).mpr houter) ((hmatched inner).mpr hinner) hne hinside hlong)

end Draft

namespace NestedDeclarations

open Mark (extent)

/-- A declaration inside the value of another, on a row of its own. -/
def source : String := "let a = () => \x7b\n  let b\n\x7d"

def innerDeclarator : Element := ⟨"variable_declarator", extent 22 23, []⟩

def innerDeclaration : Element :=
  ⟨"lexical_declaration", extent 18 23, [.node (some "variable_declarator") (extent 22 23) []]⟩

def outerDeclarator : Element :=
  ⟨"variable_declarator", extent 4 25,
    [.node (some "lexical_declaration") (extent 18 23) innerDeclaration.below]⟩

def outerDeclaration : Element :=
  ⟨"lexical_declaration", extent 0 25,
    [.node (some "variable_declarator") (extent 4 25) outerDeclarator.below]⟩

def program : Node :=
  ⟨⟨"program", extent 0 25,
    [.node (some "lexical_declaration") (extent 0 25) outerDeclaration.below]⟩, []⟩

def outer : Node := (program.child 0 outerDeclaration).child 0 outerDeclarator

def inner : Node := (outer.child 0 innerDeclaration).child 0 innerDeclarator

def draft : Draft :=
  { root := program, setting := ⟨encode source, true⟩, source := encode source }

theorem sound : draft.Sound program.tree source source where
  contains := ⟨program, Tree.root_eq_ok_iff.mpr ⟨rfl, rfl⟩, .refl⟩
  valid := Tree.fitsIn_iff.mp (by decide +kernel)
  validEdited := Tree.fitsIn_iff.mp (by decide +kernel)
  source_eq := rfl
  edited_eq := rfl

theorem ordered : program.tree.Ordered draft.source.length := by
  have hpreorder := (Node.walk_of_valid sound.valid).2
  have hlaid : program.LaidOut := hpreorder.laidOut_iff.mpr (by decide +kernel)
  exact .of_laidOut (Tree.root_eq_ok_iff.mpr ⟨rfl, rfl⟩) sound.valid hlaid (by decide +kernel)

theorem outer_within : outer.Within program :=
  .tail (.single ⟨0, _, _, rfl, rfl, rfl⟩) ⟨0, _, _, rfl, rfl, rfl⟩

theorem outer_ancestorOf_inner : outer.AncestorOf inner :=
  .tail (.single ⟨0, _, _, rfl, rfl, rfl⟩) ⟨0, _, _, rfl, rfl, rfl⟩

theorem matched_of_kind {node : Node} (hwithin : node.Within program)
    (hkind : node.kind = "variable_declarator") :
    draft.Matched "variable_declarator" node := by
  refine ⟨hwithin, ?_⟩
  rw [Selector.compile_of_parse (s := .kind "variable_declarator") (by rfl), Selector.Satisfies,
    hkind]
  decide

end NestedDeclarations

/-- Each of two nested declarators would go with its declaration and the lines of that; replacing
them would not work either. -/
theorem Draft.render_of_nested_matches_declarators :
    NestedDeclarations.draft.Sound NestedDeclarations.program.tree NestedDeclarations.source
        NestedDeclarations.source ∧
      NestedDeclarations.program.tree.Nests NestedDeclarations.draft.source.length ∧
      ({} : Journal).Reached ∧
      NestedDeclarations.draft.Matched "variable_declarator" NestedDeclarations.outer ∧
      NestedDeclarations.draft.Matched "variable_declarator" NestedDeclarations.inner ∧
      NestedDeclarations.outer.AncestorOf NestedDeclarations.inner ∧
      ∀ operation ∈ [Operation.remove (.pattern "variable_declarator") true,
          .replace (.pattern "variable_declarator") "c"],
        ∃ after, ((NestedDeclarations.draft.perform operation).run {}).1 = (after, none) ∧
          ∃ conflict, (after.render.run {}).1 = .error conflict ∧ conflict.isOverlap = true := by
  have hreached : ({} : Journal).Reached := ⟨[], rfl⟩
  have houter := NestedDeclarations.matched_of_kind NestedDeclarations.outer_within rfl
  have hinner := NestedDeclarations.matched_of_kind
    (NestedDeclarations.outer_within.trans
      NestedDeclarations.outer_ancestorOf_inner.to_reflTransGen) rfl
  refine ⟨NestedDeclarations.sound, NestedDeclarations.ordered.toNests, hreached, houter, hinner,
    NestedDeclarations.outer_ancestorOf_inner, fun operation hoperation => ?_⟩
  have hsought : operation.sought = some "variable_declarator" := by
    simp only [List.mem_cons, List.not_mem_nil, or_false] at hoperation
    rcases hoperation with rfl | rfl <;> decide +kernel
  obtain ⟨after, hperform, hrender⟩ := Draft.render_of_nested_matches NestedDeclarations.sound
    NestedDeclarations.ordered.toNests rfl hreached hsought houter hinner
    NestedDeclarations.outer_ancestorOf_inner (by decide)
  exact ⟨after, hperform, hrender {}⟩

end Arborist

import Arborist.Proofs.Revision.Atomicity
import Arborist.Proofs.Revision.Removal

/-!
# What a renaming changes

Whether a node is renamed is found out by looking at its kind, at its text and at the kinds of the
nodes above it. What becomes of the source is a matter of bytes. The two are brought together here
for trees whose extents are in order and whose names have nothing below them.

* `Draft.Renamed` are the nodes that are renamed, said through kinship alone, and
  `Draft.decides_renames` says that the test finds them out.
* No renamed node is above another, so their extents follow one another in the source
  (`Sound.pairwise_renamed`), and all of them are replaced in one go.
* Textual content without a member of the old name is apart from every renamed node
  (`Sound.apart_of_textual`), so its bytes stay together.

Both come to one statement in `Draft.perform_rename`.
-/

namespace Arborist

open Text

/-! ## Names in code -/

namespace Node

variable {tree : Tree} {node : Node}

/-- The node stands for a name in code: it is an identifier without textual content above it, or the
name of a member. -/
def NameInCode (node : Node) : Prop :=
  (node.kind ∈ Kind.identifiers ∧
      ∀ above : Node, above.AncestorOf node → above.kind ∉ Kind.textual) ∨
    node.kind ∈ Kind.memberNames

theorem insideText_eq_false_iff (h : tree.Contains node) :
    node.insideText = false ↔
      ∀ above : Node, above.AncestorOf node → above.kind ∉ Kind.textual := by
  simp only [insideText, List.any_eq_false, List.contains_iff_mem, mem_ancestors_iff h]

theorem NameInCode.kind_mem (h : node.NameInCode) :
    node.kind ∈ Kind.identifiers ++ Kind.memberNames :=
  List.mem_append.mpr (h.imp_left And.left)

/-- What is above a name in code is no textual content, unless the name is that of a member. -/
theorem NameInCode.memberName_of_textual {above : Node} (h : node.NameInCode)
    (habove : above.AncestorOf node) (htextual : above.kind ∈ Kind.textual) :
    node.kind ∈ Kind.memberNames := by
  rcases h with ⟨-, hcode⟩ | hmember
  · exact absurd htextual (hcode above habove)
  · exact hmember

end Node

/-- Nothing is below the names of a tree. -/
def Tree.NamesAreLeaves (tree : Tree) : Prop :=
  ∀ node : Node, tree.Contains node → node.kind ∈ Kind.identifiers ++ Kind.memberNames →
    node.below = []

namespace Draft

variable {draft : Draft} {tree : Tree} {text edited old : String} {node : Node}

/-- A node below the root of the draft that stands for the old name in code. -/
def Renamed (draft : Draft) (old : String) (node : Node) : Prop :=
  node.Within draft.root ∧ node.NameInCode ∧ node.Spells draft.setting.source old

/-- On a valid tree the test of a renaming tells which nodes stand for the old name in code. -/
theorem decides_renames (hvalid : tree.Valid text) (hnode : tree.Contains node) (old : String) :
    Decides (renames (encode text) old node)
      (node.NameInCode ∧ node.Spells (encode text) old) := by
  obtain ⟨actual, hactual, hspells⟩ := Node.exists_text (hnode.valid hvalid)
  have hoff := Node.insideText_eq_false_iff hnode
  unfold renames Node.NameInCode
  by_cases hidentifier : node.kind ∈ Kind.identifiers
  · -- No kind is that of an identifier and that of a member.
    have hnot : node.kind ∉ Kind.memberNames := by
      intro hmember
      simp only [Kind.identifiers, Kind.memberNames, List.mem_cons, List.not_mem_nil,
        or_false] at hidentifier hmember
      rcases hidentifier with heq | heq <;> simp [heq] at hmember
    rw [if_pos (List.contains_iff_mem.mpr hidentifier), hactual]
    refine ⟨_, rfl, ?_⟩
    simp [hspells, hoff, hidentifier, hnot, and_comm]
  · rw [if_neg (fun h => hidentifier (List.contains_iff_mem.mp h))]
    by_cases hmember : node.kind ∈ Kind.memberNames
    · rw [if_pos (List.contains_iff_mem.mpr hmember), hactual]
      refine ⟨_, rfl, ?_⟩
      simp [hspells, hmember]
    · rw [if_neg (fun h => hmember (List.contains_iff_mem.mp h))]
      refine ⟨_, rfl, ?_⟩
      simp [hidentifier, hmember]

/-- If the walk comes to its end and every test has an answer, the nodes that pass are replaced. -/
theorem replaceWhere_of_decides {walk : Walk} {test : Node → Except Fault Bool} {p : Node → Prop}
    [DecidablePred p] (hfault : walk.fault = none) (hcut : ∀ node, CutOnly (test node))
    (h : ∀ node ∈ walk.nodes, Decides (test node) (p node)) (new : String) :
    (replaceWhere walk test new).edits =
        (walk.nodes.filter fun node => decide (p node)).map (replacement · new) ∧
      (replaceWhere walk test new).failure = none := by
  have hpassing := Walk.allPassing_eq h
  rcases forEach_replaceAt hcut walk.nodes with ⟨herror, -⟩ | ⟨passing, hread, hnone, hedits⟩
  · cases hpassing.symm.trans herror
  · obtain rfl := Except.ok.inj (hpassing.symm.trans hread)
    rw [replaceWhere, Outcome.andThen, hnone, hfault]
    exact ⟨by simp [hedits], rfl⟩

/-! ## Where renamed nodes are -/

namespace Sound

/-- A renamed node is above no other node. -/
theorem not_ancestorOf_of_renamed (h : draft.Sound tree text edited) (hleaves : tree.NamesAreLeaves)
    (hnode : draft.Renamed old node) {other : Node} : ¬node.AncestorOf other :=
  Node.not_ancestorOf_of_below_eq_nil
    (hleaves node (h.contains.of_within hnode.1) hnode.2.1.kind_mem)

/-- Textual content without a member of the old name is apart from every renamed node. -/
theorem apart_of_textual (h : draft.Sound tree text edited)
    (horder : tree.Ordered draft.source.length) (hleaves : tree.NamesAreLeaves)
    {passage : Node} (hpassage : tree.Contains passage) (htextual : passage.kind ∈ Kind.textual)
    (hmembers : ∀ member : Node, passage.AncestorOf member → member.kind ∈ Kind.memberNames →
      ¬member.Spells draft.setting.source old)
    (hnode : draft.Renamed old node) :
    node.stop ≤ passage.start ∨ passage.stop ≤ node.start := by
  obtain ⟨root, hroot, hwithin⟩ := hpassage
  have hvalid : root.tree.Valid text := (Tree.root_eq_ok_iff.mp hroot).1 ▸ h.valid
  have hnode' : node.Within root := by
    obtain ⟨root', hroot', hnode'⟩ := h.contains.of_within hnode.1
    obtain rfl := Except.ok.inj (hroot.symm.trans hroot')
    exact hnode'
  have hne : node ≠ passage := by
    intro heq
    have hkind := hnode.2.1.kind_mem
    rw [heq] at hkind
    simp only [Kind.textual, List.mem_cons, List.not_mem_nil, or_false] at htextual
    rcases htextual with heq | heq | heq | heq <;>
      simp [heq, Kind.identifiers, Kind.memberNames] at hkind
  rcases (horder.laidOut ⟨root, hroot, .refl⟩).nested_or_apart hvalid hnode' hwithin hne with
    (hnested | hnested) | hapart
  · exact absurd hnested (h.not_ancestorOf_of_renamed hleaves hnode)
  · have hmember := hnode.2.1.memberName_of_textual hnested htextual
    exact absurd hnode.2.2 (hmembers node hnested hmember)
  · exact hapart

/-- The renamed nodes follow one another in the source. -/
theorem pairwise_renamed (h : draft.Sound tree text edited)
    (horder : tree.Ordered draft.source.length) (hleaves : tree.NamesAreLeaves)
    {renamed nodes : List Node} (hpreorder : draft.root.Preorder nodes)
    (hsublist : renamed.Sublist nodes) (hrenamed : ∀ node ∈ renamed, draft.Renamed old node) :
    renamed.Pairwise fun first second => first.stop ≤ second.start :=
  hpreorder.pairwise_le_of_sublist (h.node_valid .refl) (horder.laidOut h.contains) hsublist
    fun outer houter _ _ => h.not_ancestorOf_of_renamed hleaves (hrenamed outer houter)

open scoped Classical in
/-- A renaming replaces the renamed nodes, in pre-order. -/
theorem run_rename (h : draft.Sound tree text edited) (old new : String) (journal : Journal) :
    ((draft.perform (.rename old new)).run journal).1 =
      (draft.queue ((draft.root.walk.nodes.filter fun node =>
        decide (node.NameInCode ∧ node.Spells draft.setting.source old)).map
          (replacement · new)), none) := by
  obtain ⟨hfault, hpreorder⟩ := Node.walk_of_valid (h.node_valid .refl)
  have hdecides : ∀ node ∈ draft.root.walk.nodes,
      Decides (renames draft.setting.source old node)
        (node.NameInCode ∧ node.Spells draft.setting.source old) := by
    intro node hnode
    rw [h.source_eq]
    exact decides_renames h.valid (h.contains.of_within (hpreorder.mem_iff.mp hnode)) old
  obtain ⟨hedits, hfailure⟩ :=
    replaceWhere_of_decides hfault (fun _ => cutOnly_renames) hdecides new
  show (draft.queue (draft.rename old new).edits, (draft.rename old new).failure) = _
  rw [rename, Outcome.edits_reported, Outcome.failure_reported, hedits, hfailure]

end Sound

/-- Renaming replaces exactly the nodes that stand for the old name in code, and leaves textual
content alone. If names have nothing below them, the replacements can all be made: the result is the
source with the extents of these nodes, in their order, replaced by the new name. The bytes of a
string, a comment or a regular expression that holds no member of the old name stand in it as they
were, between what becomes of the source before them and behind them. -/
theorem perform_rename (h : draft.Sound tree text edited)
    (horder : tree.Ordered draft.source.length) (hleaves : tree.NamesAreLeaves)
    (hnew : draft.edits = []) (old new : String) (journal : Journal) :
    ∃ (renamed : List Node) (result : String),
      (∀ node, node ∈ renamed ↔ draft.Renamed old node) ∧
      renamed.Pairwise (fun first second => first.path < second.path) ∧
      renamed.Pairwise (fun first second => first.stop ≤ second.start) ∧
      ((draft.perform (.rename old new)).run journal).1 =
        (draft.queue (renamed.map (replacement · new)), none) ∧
      (∀ later,
        ((draft.queue (renamed.map (replacement · new))).render.run later).1 = .ok result) ∧
      encode result = Edit.splice draft.source (renamed.map (replacement · new)) ∧
      ∀ passage : Node, tree.Contains passage → passage.kind ∈ Kind.textual →
        (∀ member : Node, passage.AncestorOf member → member.kind ∈ Kind.memberNames →
          ¬member.Spells draft.setting.source old) →
        ∃ before behind : List Node, renamed = before ++ behind ∧
          encode result =
            Edit.splice (draft.source.take passage.start) (before.map (replacement · new)) ++
              slice draft.source passage.start passage.stop ++
              Edit.spliceFrom draft.source passage.stop (behind.map (replacement · new)) := by
  classical
  obtain ⟨-, hpreorder⟩ := Node.walk_of_valid (h.node_valid .refl)
  let renamed := draft.root.walk.nodes.filter fun node => decide
    (node.NameInCode ∧ node.Spells draft.setting.source old)
  have hsublist : renamed.Sublist draft.root.walk.nodes := List.filter_sublist
  have hrenamed : ∀ node, node ∈ renamed ↔ draft.Renamed old node := by
    intro node
    rw [List.mem_filter, hpreorder.mem_iff, decide_eq_true_iff, Renamed]
  have hrow := h.pairwise_renamed horder hleaves hpreorder hsublist fun node => (hrenamed node).mp
  have hfits : ∀ e ∈ renamed.map (replacement · new), Edit.Fits draft.source e := by
    intro e he
    obtain ⟨node, hnode, rfl⟩ := List.mem_map.mp he
    have hcontains := h.contains.of_within ((hrenamed node).mp hnode).1
    exact (h.spans_replacement horder.toNests hcontains new).fits
  have hapart : Edit.Apart (renamed.map (replacement · new)) :=
    List.pairwise_map.mpr (hrow.imp Int.ofNat_le.mpr)
  obtain ⟨result, hrender, hahead, hbytes⟩ := Edit.render_of_apart h.validUtf8 hfits hapart
  refine ⟨renamed, result, hrenamed, hpreorder.pairwise_path_lt.sublist hsublist, hrow,
    h.run_rename old new journal, fun later => ?_, hbytes, ?_⟩
  · rw [render_queue hnew, hrender]
  · intro passage hpassage htextual hmembers
    have hfree : ∀ e ∈ renamed.map (replacement · new),
        e.stop ≤ passage.start ∨ passage.stop ≤ e.start := by
      intro e he
      obtain ⟨node, hnode, rfl⟩ := List.mem_map.mp he
      exact (h.apart_of_textual horder hleaves hpassage htextual hmembers
        ((hrenamed node).mp hnode)).imp Int.ofNat_le.mpr Int.ofNat_le.mpr
    obtain ⟨before, behind, hsplit, hsplice⟩ := Edit.exists_spliceFrom_eq_around hahead
      (Nat.zero_le _) (horder.in_source passage hpassage).1 hfree
    obtain ⟨first, second, hlist, rfl, rfl⟩ := List.map_eq_append_iff.mp hsplit
    exact ⟨first, second, hlist, hbytes.trans hsplice⟩

end Draft

namespace NamedCall

open Mark (extent)

/-- A call of a name of two bytes, which a comment, a member and a string hold as well. -/
def source : String := "é(/*é*/o.é, 'é')"

def program : Node :=
  ⟨⟨"program", extent 0 20,
    [.node (some "call_expression") (extent 0 20)
      [.node (some "identifier") (extent 0 2) [],
        .node (some "arguments") (extent 2 20)
          [.node (some "comment") (extent 3 9) [.node (some "identifier") (extent 5 7) []],
            .node (some "member_expression") (extent 9 13)
              [.node (some "identifier") (extent 9 10) [],
                .node (some "property_identifier") (extent 11 13) []],
            .node (some "string") (extent 15 19)
              [.node (some "string_fragment") (extent 16 18) []]]]]⟩, []⟩

def draft : Draft :=
  { root := program, setting := ⟨encode source, true⟩, source := encode source }

theorem sound : draft.Sound program.tree source source where
  contains := ⟨program, Tree.root_eq_ok_iff.mpr ⟨rfl, rfl⟩, .refl⟩
  valid := Tree.fitsIn_iff.mp (by decide +kernel)
  validEdited := Tree.fitsIn_iff.mp (by decide +kernel)
  source_eq := rfl
  edited_eq := rfl

theorem preorder : program.Preorder program.walk.nodes :=
  (Node.walk_of_valid (sound.node_valid .refl)).2

theorem ordered : program.tree.Ordered draft.source.length :=
  .of_laidOut (Tree.root_eq_ok_iff.mpr ⟨rfl, rfl⟩) sound.valid
    (preorder.laidOut_iff.mpr (by decide +kernel)) (by decide +kernel)

theorem namesAreLeaves : program.tree.NamesAreLeaves := by
  have table : ∀ node ∈ program.walk.nodes,
      node.kind ∈ Kind.identifiers ++ Kind.memberNames → node.below = [] := by
    decide +kernel
  intro node hnode
  obtain ⟨root, hroot, hwithin⟩ := hnode
  obtain rfl : program = root := Except.ok.inj hroot
  exact table node (preorder.mem_iff.mpr hwithin)

end NamedCall

/-- The name and the member of that name are renamed. The comment stays, although an identifier was
made out in it, and so does the string. -/
theorem Draft.perform_rename_call :
    NamedCall.draft.Sound NamedCall.program.tree NamedCall.source NamedCall.source ∧
      NamedCall.program.tree.Ordered NamedCall.draft.source.length ∧
      NamedCall.program.tree.NamesAreLeaves ∧ NamedCall.draft.edits = [] ∧
      ((NamedCall.draft.perform (.rename "é" "load")).run {}).1 =
        (NamedCall.draft.queue [⟨0, 2, "load"⟩, ⟨11, 13, "load"⟩], none) ∧
      ((NamedCall.draft.queue [⟨0, 2, "load"⟩, ⟨11, 13, "load"⟩]).render.run {}).1 =
        .ok "load(/*é*/o.load, 'é')" := by
  obtain ⟨renamed, result, -, -, -, hperform, hrender, hbytes, -⟩ := Draft.perform_rename
    NamedCall.sound NamedCall.ordered NamedCall.namesAreLeaves rfl "é" "load" {}
  have hcomputed : ((NamedCall.draft.perform (.rename "é" "load")).run {}).1 =
      (NamedCall.draft.queue [⟨0, 2, "load"⟩, ⟨11, 13, "load"⟩], none) := rfl
  have hedits : renamed.map (Draft.replacement · "load") =
      [⟨0, 2, "load"⟩, ⟨11, 13, "load"⟩] :=
    congrArg (fun answer => answer.1.edits) (hperform.symm.trans hcomputed)
  rw [hedits] at hrender hbytes
  have hresult : encode result = encode "load(/*é*/o.load, 'é')" := by
    rw [hbytes]
    decide +kernel
  rw [encode_injective hresult] at hrender
  exact ⟨NamedCall.sound, NamedCall.ordered, NamedCall.namesAreLeaves, rfl, hcomputed, hrender {}⟩

end Arborist

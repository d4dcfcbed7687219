import Arborist.Proofs.Command.Steps
import Arborist.Proofs.Computation

/-!
# The first syntax error

A parser recovers from syntax errors and marks the nodes that hold one. The search for the first
error looks only into marked nodes; if the marks are right (`Tree.Candid`), nothing is missed by
that, and the search finds the first error in pre-order (`Tree.firstError_of_candid`). So a document
whose root is marked is opened with a report on exactly that node.
-/

namespace Arborist

/-- What a parser says of a node, without its children. -/
abbrev Label := Option String × Mark

/-- Whether a node is an error, or made up by the parser to recover from one. -/
def Label.isError (label : Label) : Bool := label.1 == some "ERROR" || label.2.missing

namespace Tree

mutual

/-- The nodes of a tree in pre-order: each before its children, and the children from the left. -/
def labels : Tree → List Label
  | .absent => []
  | .node kind mark below => (kind, mark) :: labelsAmong below

/-- The nodes of several trees, tree by tree. -/
def labelsAmong : List Tree → List Label
  | [] => []
  | tree :: rest => tree.labels ++ labelsAmong rest

end

/-- Every node is there, and a node is marked exactly if it or a node below it is an error. -/
inductive Candid : Tree → Prop
  | node {kind : Option String} {mark : Mark} {below : List Tree} :
      (mark.flawed = true ↔ ∃ label ∈ (Tree.node kind mark below).labels, label.isError = true) →
      (∀ tree ∈ below, Candid tree) → Candid (.node kind mark below)

variable {tree : Tree} {trees : List Tree}

/-- The first error among several trees is the first of the first tree that has one. -/
theorem firstErrorAmong_eq
    (h : ∀ tree ∈ trees, tree.firstError = .ok ((tree.labels.find? Label.isError).map Prod.snd)) :
    firstErrorAmong trees = .ok (((labelsAmong trees).find? Label.isError).map Prod.snd) := by
  induction trees with
  | nil => rfl
  | cons tree trees ih =>
      obtain ⟨htree, htrees⟩ := List.forall_mem_cons.mp h
      rw [firstErrorAmong, htree, ok_bind, labelsAmong, List.find?_append]
      cases tree.labels.find? Label.isError with
      | some label => rfl
      | none => exact ih htrees

/-- In a tree whose marks are right, the search finds the first error in pre-order. -/
theorem firstError_of_candid (h : tree.Candid) :
    tree.firstError = .ok ((tree.labels.find? Label.isError).map Prod.snd) := by
  induction h with
  | @node kind mark below hmark _ ih =>
      have hamong := firstErrorAmong_eq ih
      rw [labels] at hmark ⊢
      rw [firstError, List.find?_cons]
      cases herror : Label.isError (kind, mark) with
      | true => exact if_pos herror
      | false =>
          have hhere : ¬(kind == some "ERROR" || mark.missing) = true := by
            show ¬Label.isError (kind, mark) = true
            simp [herror]
          rw [if_neg hhere]
          by_cases hflawed : mark.flawed = true
          · rw [if_pos hflawed]
            exact hamong
          · -- Without the mark there is no error below, and leaving it out loses nothing.
            have hnone : (labelsAmong below).find? Label.isError = none := by
              rw [List.find?_eq_none]
              intro label hlabel hfound
              exact hflawed (hmark.mpr ⟨label, List.mem_cons_of_mem _ hlabel, hfound⟩)
            rw [if_neg hflawed, hnone]
            rfl

end Tree

namespace Document

open Text Command

variable {parser : Parser} {settings : Settings} {language : Option String} {text : String}
  {chosen : Language} {tree : Tree} {root : Node}

/-- How a document is opened whose root is marked and whose first error can be found. -/
theorem run_ofText_of_flawed (hlanguage : chosenLanguage settings language = .ok chosen)
    (htree : parser chosen (encode text) = .ok tree) (hroot : tree.root = .ok root)
    (hflawed : root.mark.flawed = true) {reports : List Record}
    (hreports : recoveryReports (encode text) tree = .ok reports) (journal : Journal) :
    (ofText parser settings language text).run journal =
      (.ok ⟨text, chosen, settings, root⟩,
        (journal.keep [chosen.loadReport]).keep reports) := by
  suffices hends : Ends (ofText parser settings language text : ExceptT OpenError Logged Document)
      journal ⟨text, chosen, settings, root⟩
      ((journal.keep [chosen.loadReport]).keep reports) from hends
  refine Ends.bind (ends_answer hlanguage journal) ?_
  refine Ends.bind (ends_lift _ journal) ?_
  refine Ends.bind (ends_answer (mapError_eq_ok_iff.mpr htree) _) ?_
  refine Ends.bind (ends_answer (mapError_eq_ok_iff.mpr hroot) _) ?_
  rw [if_pos hflawed]
  refine Ends.bind (ends_answer hreports _) ?_
  refine Ends.bind (ends_lift _ _) ?_
  exact ends_pure_iff.mpr ⟨rfl, rfl⟩

/-- **The error that is reported.** If the marks of a tree are right and its root is marked, the
document is opened, and the report is on the node that is the first error of the whole tree in
pre-order: it is one, and no node before it is. -/
theorem ofText_reports_first_error
    (hlanguage : chosenLanguage settings language = .ok chosen)
    (htree : parser chosen (encode text) = .ok tree) (hroot : tree.root = .ok root)
    (hcandid : tree.Candid) (hflawed : root.mark.flawed = true) (journal : Journal) :
    ∃ (before : List Label) (kind : Option String) (mark : Mark) (after : List Label),
      tree.labels = before ++ (kind, mark) :: after ∧
      Label.isError (kind, mark) = true ∧ (∀ label ∈ before, label.isError = false) ∧
      (ofText parser settings language text).run journal =
        (.ok ⟨text, chosen, settings, root⟩,
          (journal.keep [chosen.loadReport]).keep [⟨.debug, .document,
            "Recovered from a syntax error at "
              ++ (Place.ofOffset (encode text) mark.start).shown⟩]) := by
  -- The root is marked, so that some node is an error and the search does not end with nothing.
  have hsome : ∃ label ∈ tree.labels, label.isError = true := by
    cases hcandid with
    | @node kind mark below hmark _ =>
        cases kind with
        | none => cases hroot
        | some kind =>
            cases hroot
            exact hmark.mp hflawed
  obtain ⟨found, hfound⟩ := Option.isSome_iff_exists.mp (List.find?_isSome.mpr hsome)
  obtain ⟨herror, before, after, hlabels, hbefore⟩ := List.find?_eq_some_iff_append.mp hfound
  refine ⟨before, found.1, found.2, after, hlabels, herror, by simpa using hbefore, ?_⟩
  refine run_ofText_of_flawed hlanguage htree hroot hflawed ?_ journal
  rw [recoveryReports, Tree.firstError_of_candid hcandid, hfound]
  rfl

/-- A comment without errors, a statement whose end was made up, and an error behind it. -/
def unfinished : Tree :=
  .node (some "program") ⟨0, 5, true, false, true, none⟩ [
    .node (some "comment") ⟨0, 2, true, false, false, none⟩ [],
    .node (some "expression_statement") ⟨3, 4, true, false, true, none⟩ [
      .node (some "identifier") ⟨3, 4, true, false, false, none⟩ [],
      .node (some ";") ⟨4, 4, false, true, true, none⟩ []],
    .node (some "ERROR") ⟨4, 5, true, false, true, none⟩ []]

theorem candid_unfinished : unfinished.Candid := by
  have hleaf : ∀ (kind : Option String) (mark : Mark),
      mark.flawed = Label.isError (kind, mark) → (Tree.node kind mark []).Candid := by
    intro kind mark h
    refine .node ?_ (by simp)
    simp [Tree.labels, Tree.labelsAmong, h]
  refine .node (by simp [Tree.labels, Tree.labelsAmong, Label.isError]) ?_
  simp only [List.forall_mem_cons]
  refine ⟨hleaf _ _ (by simp [Label.isError]), ?_, hleaf _ _ (by simp [Label.isError]), by simp⟩
  refine .node (by simp [Tree.labels, Tree.labelsAmong, Label.isError]) ?_
  simp only [List.forall_mem_cons]
  exact ⟨hleaf _ _ (by simp [Label.isError]), hleaf _ _ (by simp [Label.isError]), by simp⟩

/-- A parser that has only this tree to give. -/
def unfinishedParser : Parser := fun _ _ => .ok unfinished

theorem ofText_reports_first_error_unfinished :
    chosenLanguage {} none = .ok .javascript ∧ unfinished.Candid ∧
    ∃ (before : List Label) (kind : Option String) (mark : Mark) (after : List Label),
      unfinished.labels = before ++ (kind, mark) :: after ∧
      Label.isError (kind, mark) = true ∧ (∀ label ∈ before, label.isError = false) ∧
      ((ofText unfinishedParser {} none "//\na)").run {}).2 =
        (Journal.keep {} [Language.javascript.loadReport]).keep [⟨.debug, .document,
          "Recovered from a syntax error at "
            ++ (Place.ofOffset (encode "//\na)") mark.start).shown⟩] := by
  have hlanguage : chosenLanguage {} none = .ok .javascript := rfl
  have htree : unfinishedParser .javascript (encode "//\na)") = .ok unfinished := rfl
  obtain ⟨before, kind, mark, after, hlabels, herror, hbefore, hrun⟩ :=
    ofText_reports_first_error hlanguage htree rfl candid_unfinished rfl {}
  exact ⟨hlanguage, candid_unfinished, before, kind, mark, after, hlabels, herror, hbefore,
    congrArg Prod.snd hrun⟩

end Document

end Arborist

import Arborist.Proofs.Search.Listing
import Arborist.Revision.Imports
import Arborist.Revision.Insert
import Arborist.Revision.ReplaceIn

/-!
# Operations on drafts

The operations are collected in one type, so that laws can be about all of them or about some.
`Draft.perform` carries one out. Most operations find the nodes of a target and then work through
these nodes (`Draft.run_onTarget`).

`Draft.Sound` are the drafts within valid trees. There a search below the root does not fail, and
finds the nodes that match (`Sound.run_resolve`, `Sound.exists_found`).
-/

namespace Arborist

open Text

/-- The operations on a draft. -/
inductive Operation where
  | rename (old new : String)
  | renameIdentifiers (old new : String)
  | replaceIn (pattern : String) (needle : Needle) (replacement : Replacement)
  | replace (target : Target) (text : String)
  | remove (target : Target) (wholeStatement : Bool)
  | removeUnusedImports
  | insertBefore (target : Target) (text : String)
  | insertAfter (target : Target) (text : String)

namespace Outcome

variable {outcome : Outcome}

@[simp] theorem edits_reported (wording : Nat → String) :
    (outcome.reported wording).edits = outcome.edits := by
  unfold reported
  split <;> rfl

@[simp] theorem failure_reported (wording : Nat → String) :
    (outcome.reported wording).failure = outcome.failure := by
  unfold reported
  split
  · rfl
  · rename_i h
    exact h ▸ rfl

end Outcome

namespace Draft

/-- What an operation queues, and how it ends. -/
def outcome (draft : Draft) : Operation → Logged Outcome
  | .rename old new => return draft.rename old new
  | .renameIdentifiers old new => return draft.renameIdentifiers old new
  | .replaceIn pattern needle replacement => draft.replaceIn pattern needle replacement
  | .replace target text => draft.replace target text
  | .remove target wholeStatement => draft.remove target wholeStatement
  | .removeUnusedImports => draft.removeUnusedImports
  | .insertBefore target text => draft.insertBefore target text
  | .insertAfter target text => draft.insertAfter target text

/-- Carry out an operation. The draft afterwards comes with the reason why the operation stopped, if
it did. -/
def perform (draft : Draft) (operation : Operation) : Logged (Draft × Option Failure) := do
  let outcome ← draft.outcome operation
  return (← draft.absorb outcome, outcome.failure)

section Runs

variable {draft : Draft} {journal : Journal} {target : Target}

theorem run_perform (operation : Operation) (journal : Journal) :
    ((draft.perform operation).run journal).1 =
      (draft.queue ((draft.outcome operation).run journal).1.edits,
        ((draft.outcome operation).run journal).1.failure) := rfl

theorem run_onTarget (operation : List Node → Outcome) :
    ((draft.onTarget target operation).run journal).1 =
      match ((draft.resolve target).run journal).1 with
      | .error fault => .stopped (.fault fault)
      | .ok nodes => operation nodes := by
  change ((match ((draft.resolve target).run journal).1 with
    | .error fault => (return .stopped (.fault fault) : Logged Outcome)
    | .ok nodes => return operation nodes).run ((draft.resolve target).run journal).2).1 = _
  split <;> rfl

end Runs

/-! ## Drafts within valid trees -/

/-- The draft works within a valid tree, and no extent cuts a character of either source: the one
that the tree was made from and the one that is edited. -/
structure Sound (draft : Draft) (tree : Tree) (text edited : String) : Prop where
  contains : tree.Contains draft.root
  valid : tree.Valid text
  validEdited : tree.Valid edited
  source_eq : draft.setting.source = encode text
  edited_eq : draft.source = encode edited

/-- A node below the root of the draft is one that a pattern describes. -/
def Matched (draft : Draft) (pattern : String) (node : Node) : Prop :=
  node.Within draft.root ∧
    (Selector.compile pattern draft.setting.suggest).1.Satisfies draft.setting.source node

namespace Sound

variable {draft : Draft} {tree : Tree} {text edited pattern : String} {node : Node}
  {journal : Journal} {s : Selector}

theorem node_valid (h : draft.Sound tree text edited) (hnode : node.Within draft.root) :
    node.tree.Valid text :=
  (h.contains.of_within hnode).valid h.valid

theorem exists_children (h : draft.Sound tree text edited) (hnode : node.Within draft.root) :
    ∃ children, node.children = .ok children ∧ ∀ child ∈ children, child.Within draft.root := by
  obtain ⟨children, hchildren⟩ := Node.exists_children (h.node_valid hnode)
  refine ⟨children, hchildren, fun child hchild => ?_⟩
  exact Relation.ReflTransGen.tail hnode ((Node.mem_children_iff hchildren).mp hchild)

theorem validUtf8 (h : draft.Sound tree text edited) : ValidUtf8 draft.source :=
  h.edited_eq ▸ ValidUtf8.encode edited

theorem not_insideCharacter (h : draft.Sound tree text edited) (hnode : tree.Contains node) :
    Edit.insideCharacter draft.source node.start = false ∧
      Edit.insideCharacter draft.source node.stop = false := by
  cases hnode.valid h.validEdited with
  | node hstart hstop _ =>
      rw [← insideCharacter_natCast_iff, ← h.edited_eq, Bool.not_eq_true] at hstart hstop
      exact ⟨hstart, hstop⟩

open scoped Classical in
/-- A search goes over the nodes within the root in pre-order. -/
theorem run_resolve (h : draft.Sound tree text edited) (hjournal : journal.Reached)
    (hs : (Selector.compile pattern draft.setting.suggest).1 = s) :
    ((draft.resolve (.pattern pattern)).run journal).1 =
      .ok (draft.root.walk.nodes.filter fun node =>
        decide (s.Satisfies draft.setting.source node)) := by
  have hsetting : draft.setting = ⟨encode text, draft.setting.suggest⟩ := by rw [← h.source_eq]
  have hfound := (Node.gives_findAll h.valid h.contains hs journal hjournal).1
  rw [← hsetting, ← h.source_eq] at hfound
  exact hfound

open scoped Classical in
/-- A search finds the nodes that match. -/
theorem exists_found (h : draft.Sound tree text edited) (hjournal : journal.Reached)
    (pattern : String) :
    ∃ found, ((draft.resolve (.pattern pattern)).run journal).1 = .ok found ∧
      ∀ node, node ∈ found ↔ draft.Matched pattern node := by
  refine ⟨_, h.run_resolve hjournal rfl, fun node => ?_⟩
  rw [List.mem_filter, Node.mem_walk_iff h.valid h.contains, decide_eq_true_iff, Matched]

end Sound

end Draft

end Arborist

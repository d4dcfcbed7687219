import Arborist.Proofs.Revision.Operations
import Arborist.Proofs.Tree.Visiting

/-!
# What a failed operation leaves behind

Operations queue edits node by node, and a bad place of the tree may be come upon only after some
are queued. Six of the eight operations find their nodes before they queue anything, and a search
for all nodes reads the whole tree. What they read later on is next to the nodes found, so it has
been read before and can be read again: if such an operation stops at a bad place, it has queued
nothing.

The two renamings queue while they walk. When the walk is cut short, the nodes renamed so far stay
in the queue (`Draft.perform_of_unreadable`, `Draft.rename_before_gap`).
-/

namespace Arborist

open Text

/-! ## What operations are given -/

/-- The nodes that a target names itself. -/
def Target.given : Target → List Node
  | .pattern _ => []
  | .node only => [only]
  | .nodes all => all

namespace Operation

/-- The nodes that an operation is given. -/
def given : Operation → List Node
  | .replace target _ | .remove target _ | .insertBefore target _ | .insertAfter target _ =>
    target.given
  | _ => []

/-- Which nodes a renaming changes, and to what. -/
def renamer (source : Bytes) : Operation → Option ((Node → Except Fault Bool) × String)
  | .rename old new => some (Draft.renames source old, new)
  | .renameIdentifiers old new => some (Draft.renamesIdentifier source old, new)
  | _ => none

end Operation

/-- Whether an operation stopped at a bad place of the tree: a node that is absent or has no
kind. -/
def Failure.unreadable : Failure → Bool
  | .fault .absent | .fault .untyped => true
  | _ => false

/-! ## Readings that only the source can fail -/

section CutOnly

variable {α β : Type} {source : Bytes} {node : Node}

/-- The reading fails only where the extent of a node cuts a character. -/
def CutOnly (reading : Except Fault α) : Prop := ∀ fault, reading = .error fault → fault = .cut

theorem CutOnly.ok (a : α) : CutOnly (.ok a) := by
  rintro fault ⟨⟩

theorem CutOnly.bind {x : Except Fault α} {f : α → Except Fault β} (hx : CutOnly x)
    (hf : ∀ a, x = .ok a → CutOnly (f a)) : CutOnly (x >>= f) := by
  cases x with
  | error fault =>
      rintro _ ⟨⟩
      exact hx fault rfl
  | ok a => exact hf a rfl

theorem CutOnly.ite {c : Prop} [Decidable c] {x y : Except Fault α} (hx : CutOnly x)
    (hy : CutOnly y) : CutOnly (if c then x else y) := by
  split
  · exact hx
  · exact hy

theorem CutOnly.mapM {f : α → Except Fault β} {xs : List α} (h : ∀ x ∈ xs, CutOnly (f x)) :
    CutOnly (xs.mapM f) := by
  induction xs with
  | nil => exact .ok []
  | cons x xs ih =>
      obtain ⟨hx, hxs⟩ := List.forall_mem_cons.mp h
      rw [List.mapM_cons]
      exact hx.bind fun _ _ => (ih hxs).bind fun _ _ => .ok _

theorem CutOnly.allPassing {test : Node → Except Fault Bool} {nodes : List Node}
    (h : ∀ node ∈ nodes, CutOnly (test node)) : CutOnly (Walk.allPassing test nodes) := by
  induction nodes with
  | nil => exact .ok []
  | cons node nodes ih =>
      obtain ⟨hnode, hnodes⟩ := List.forall_mem_cons.mp h
      exact hnode.bind fun _ _ => (ih hnodes).bind fun _ _ => .ok _

theorem CutOnly.text : CutOnly (node.text source) := by
  unfold Node.text
  split
  · exact .ok _
  · rintro fault ⟨⟩
    rfl

theorem CutOnly.sliceText {draft : Draft} {start stop : Nat} :
    CutOnly (draft.sliceText start stop) := by
  unfold Draft.sliceText
  split
  · exact .ok _
  · rintro fault ⟨⟩
    rfl

theorem CutOnly.children (h : node.Whole) : CutOnly node.children := by
  obtain ⟨children, hchildren, -⟩ := h.exists_children
  rw [hchildren]
  exact .ok children

theorem CutOnly.fieldText (h : node.Whole) {name : String} :
    CutOnly (node.fieldText source name) := by
  have hfield : CutOnly (node.field name) := by
    unfold Node.field
    split
    · exact .ok _
    · exact (CutOnly.children h).bind fun _ _ => .ok _
  refine hfield.bind fun child _ => ?_
  cases child with
  | none => exact .ok _
  | some child => exact CutOnly.text.bind fun _ _ => .ok _

end CutOnly

namespace Draft

variable {draft : Draft} {source : Bytes} {used : List String} {old : String} {node : Node}

theorem cutOnly_renames : CutOnly (renames source old node) := by
  refine .ite ?_ (.ite ?_ (.ok false))
  · exact CutOnly.text.bind fun text _ => .ok _
  · exact CutOnly.text.bind fun text _ => .ok _

theorem cutOnly_renamesIdentifier : CutOnly (renamesIdentifier source old node) := by
  refine .ite ?_ (.ok false)
  exact CutOnly.text.bind fun text _ => .ok _

theorem cutOnly_specifierUsed (h : node.Whole) : CutOnly (specifierUsed source used node) := by
  refine (CutOnly.fieldText h).bind fun name _ => ?_
  -- A name that is there and not used leaves the same to be looked at as no name.
  cases name
  case' some name => refine .ite (.ok true) ?_
  all_goals
    refine (CutOnly.fieldText h).bind fun given _ => ?_
    cases given with
    | none => exact .ok false
    | some given => exact .ite (.ok true) (.ok false)

theorem cutOnly_rebuildBlock {kept specifiers : List Node} (h : node.Whole) :
    CutOnly (draft.rebuildBlock node specifiers kept) := by
  refine .ite .text ((CutOnly.children h).bind fun parts _ => ?_)
  split
  · refine CutOnly.sliceText.bind fun lead _ => CutOnly.sliceText.bind fun trail _ => ?_
    dsimp only
    split
    · refine CutOnly.sliceText.bind fun separator _ => ?_
      exact (CutOnly.mapM fun _ _ => .text).bind fun texts _ => .ok _
    · exact (CutOnly.mapM fun _ _ => .text).bind fun texts _ => .ok _
  · exact .ok ""

theorem cutOnly_bindingOf (h : node.Whole) : CutOnly (draft.bindingOf used node) := by
  refine .ite (CutOnly.text.bind fun text _ => .ok _) (.ite ?_ (.ite ?_ (.ok _)))
  · refine (CutOnly.children h).bind fun children _ => ?_
    split
    · exact .ok _
    · refine CutOnly.text.bind fun localName _ => .ite ?_ (.ok _)
      exact CutOnly.text.bind fun text _ => .ok _
  · refine (CutOnly.children h).bind fun children hchildren => ?_
    have hwhole : ∀ specifier ∈ children.filter (·.kind == "import_specifier"),
        CutOnly (specifierUsed draft.setting.source used specifier) := by
      intro specifier hspecifier
      exact cutOnly_specifierUsed (h.of_mem_children hchildren (List.mem_filter.mp hspecifier).1)
    refine (CutOnly.allPassing hwhole).bind fun kept _ => .ite (.ok _) ?_
    exact (cutOnly_rebuildBlock h).bind fun text _ => .ok _

theorem cutOnly_tidyImport (h : node.Whole) : CutOnly (draft.tidyImport used node) := by
  refine (CutOnly.children h).bind fun children hchildren => ?_
  split
  · exact .ok none
  · rename_i clause hfound
    have hclause : clause.Whole := h.of_mem_children hchildren (List.mem_of_find?_eq_some hfound)
    refine (CutOnly.children hclause).bind fun parts hparts => ?_
    have hbindings : CutOnly (parts.mapM (draft.bindingOf used)) :=
      CutOnly.mapM fun part hpart => cutOnly_bindingOf (hclause.of_mem_children hparts hpart)
    refine hbindings.bind fun bindings _ => .ite (.ok _) (.ite (.ok _) ?_)
    exact CutOnly.text.bind fun text _ => .ite (.ok _) (.ok _)

end Draft

/-! ## Outcomes -/

namespace Outcome

variable {outcome : Outcome} {failure : Failure}

/-- If the operation stopped at a bad place of the tree, it had queued nothing. -/
def Atomic (outcome : Outcome) : Prop :=
  ∀ failure, outcome.failure = some failure → failure.unreadable = true → outcome.edits = []

/-- The operation never stops at a bad place of the tree. -/
def Sure (outcome : Outcome) : Prop :=
  ∀ failure, outcome.failure = some failure → failure.unreadable = false

theorem Sure.atomic (h : outcome.Sure) : outcome.Atomic := by
  intro failure hfailure hunread
  rw [h failure hfailure] at hunread
  cases hunread

theorem atomic_stopped : (stopped failure).Atomic := fun _ _ _ => rfl

theorem sure_of_failure_eq_none (h : outcome.failure = none) : outcome.Sure := by
  intro failure hfailure
  cases h.symm.trans hfailure

theorem sure_stopped (h : failure.unreadable = false) : (stopped failure).Sure := by
  intro other hother
  cases hother
  exact h

theorem Sure.reported {wording : Nat → String} (h : outcome.Sure) :
    (outcome.reported wording).Sure := by
  intro failure hfailure
  exact h failure (failure_reported wording ▸ hfailure)

theorem Sure.forEach {α : Type} {step : α → Outcome} {xs : List α} (h : ∀ x ∈ xs, (step x).Sure) :
    (forEach step xs).Sure := by
  induction xs with
  | nil => exact sure_of_failure_eq_none rfl
  | cons x xs ih =>
      obtain ⟨hx, hxs⟩ := List.forall_mem_cons.mp h
      intro failure hfailure
      unfold Outcome.forEach andThen at hfailure
      cases hstep : (step x).failure with
      | some found =>
          rw [hstep] at hfailure
          cases hfailure
          exact hx failure hstep
      | none =>
          rw [hstep] at hfailure
          exact ih hxs failure hfailure

end Outcome

/-! ## Operations that find their nodes first -/

namespace Draft

variable {draft : Draft} {journal : Journal} {target : Target} {nodes : List Node} {text : String}

theorem atomic_onTarget {operation : List Node → Outcome}
    (h : ∀ nodes, ((draft.resolve target).run journal).1 = .ok nodes → (operation nodes).Atomic) :
    ((draft.onTarget target operation).run journal).1.Atomic := by
  rw [run_onTarget]
  split
  · exact Outcome.atomic_stopped
  · rename_i nodes hnodes
    exact h nodes hnodes

/-- The nodes that a pattern describes are found by a walk to the end. -/
theorem resolve_pattern (h : ((draft.resolve (.pattern text)).run journal).1 = .ok nodes) :
    draft.root.walk.fault = none ∧ ∀ node ∈ nodes, node ∈ draft.root.walk.nodes := by
  obtain ⟨hfault, hfound⟩ := Walk.findAll_eq_ok_iff.mp h
  exact ⟨hfault, fun node hnode => (Walk.sublist_of_allPassing hfound).subset hnode⟩

theorem whole_of_resolve (h : ((draft.resolve (.pattern text)).run journal).1 = .ok nodes) :
    ∀ node ∈ nodes, node.Whole := by
  obtain ⟨hfault, hmet⟩ := resolve_pattern h
  exact fun node hnode => Node.whole_of_mem_walk hfault (hmet node hnode)

theorem reached_of_resolve (hroot : draft.root.Reached)
    (hgiven : ∀ node ∈ target.given, node.Reached)
    (h : ((draft.resolve target).run journal).1 = .ok nodes) : ∀ node ∈ nodes, node.Reached := by
  cases target with
  | pattern text => exact fun node hnode => hroot.of_mem_walk ((resolve_pattern h).2 node hnode)
  | node only =>
      cases h
      exact hgiven
  | nodes all =>
      cases h
      exact hgiven

theorem atomic_replace : ((draft.replace target text).run journal).1.Atomic :=
  atomic_onTarget fun _ _ => (Outcome.sure_of_failure_eq_none rfl).atomic

theorem atomic_insertAt (place : Node → Nat) (format : Node → String) :
    ((draft.insertAt target place format).run journal).1.Atomic :=
  atomic_onTarget fun _ _ => (Outcome.sure_of_failure_eq_none rfl).atomic

theorem atomic_insertBefore : ((draft.insertBefore target text).run journal).1.Atomic :=
  atomic_insertAt _ _

theorem atomic_insertAfter : ((draft.insertAfter target text).run journal).1.Atomic :=
  atomic_insertAt _ _

theorem sure_replacementIn {source : Bytes} {needle : Needle} {new : Replacement} {node : Node} :
    (Outcome.ofEdits (replacementIn source needle new node)).Sure := by
  have htext : CutOnly (node.text source) := .text
  unfold replacementIn
  cases hread : node.text source with
  | error fault =>
      obtain rfl := htext fault hread
      exact Outcome.sure_stopped rfl
  | ok old =>
      change (Outcome.ofEdits (do
        let text ← (needle.replaceIn new old).mapError .refused
        return if text == old then [] else [Draft.replacement node text])).Sure
      cases needle.replaceIn new old with
      | error complaint => exact Outcome.sure_stopped rfl
      | ok text => exact Outcome.sure_of_failure_eq_none rfl

theorem atomic_replaceIn {needle : Needle} {new : Replacement} :
    ((draft.replaceIn text needle new).run journal).1.Atomic :=
  atomic_onTarget fun _ _ => (Outcome.Sure.forEach fun _ _ => sure_replacementIn).reported.atomic

/-- The parent of a node to be removed is read again, and was read when the node was reached. -/
theorem cutOnly_removalTarget {node : Node} (h : node.Reached) (wholeStatement : Bool) :
    CutOnly (removalTarget wholeStatement node) := by
  unfold removalTarget
  cases hparent : node.parent with
  | none => exact .ok node
  | some parent =>
      obtain ⟨children, hchildren⟩ := h.exists_children_of_parent hparent
      have hread : CutOnly parent.children := hchildren ▸ .ok children
      refine .ite (hread.bind fun _ _ => .ite (.ok parent) ?_) ?_
      all_goals
        refine .ite ((hread.bind fun _ _ => .ok _).bind fun named _ => ?_) (.ok node)
        split
        · exact .ite (.ok parent) (.ok node)
        · exact .ok node

theorem sure_removeNodes (h : ∀ node ∈ nodes, node.Reached) (wholeStatement : Bool) :
    (draft.removeNodes wholeStatement nodes).Sure := by
  refine Outcome.Sure.forEach fun node hnode => ?_
  have hread := cutOnly_removalTarget (h node hnode) wholeStatement
  cases htarget : removalTarget wholeStatement node with
  | error fault =>
      obtain rfl := hread fault htarget
      exact Outcome.sure_stopped rfl
  | ok removed => exact Outcome.sure_of_failure_eq_none rfl

theorem atomic_removeNodes (hroot : draft.root.Reached)
    (hgiven : ∀ node ∈ target.given, node.Reached) (wholeStatement : Bool)
    (wording : Nat → String) :
    ((draft.onTarget target fun nodes =>
      (draft.removeNodes wholeStatement nodes).reported wording).run journal).1.Atomic := by
  refine atomic_onTarget fun nodes hnodes => ?_
  exact (sure_removeNodes (reached_of_resolve hroot hgiven hnodes) wholeStatement).reported.atomic

theorem atomic_remove (hroot : draft.root.Reached) (hgiven : ∀ node ∈ target.given, node.Reached)
    (wholeStatement : Bool) : ((draft.remove target wholeStatement).run journal).1.Atomic := by
  cases target with
  | pattern text =>
      -- The pattern may be that of the calls which the text stands for.
      have hnone : ∀ node ∈ (Target.pattern (removalPattern text)).given, node.Reached :=
        fun node hnode => absurd hnode List.not_mem_nil
      exact atomic_removeNodes hroot hnone wholeStatement _
  | node only => exact atomic_removeNodes hroot hgiven wholeStatement _
  | nodes all => exact atomic_removeNodes hroot hgiven wholeStatement _

theorem sure_tidyImports {used : List String} (h : ∀ node ∈ nodes, node.Whole) :
    (draft.tidyImports used nodes).Sure := by
  refine Outcome.Sure.forEach fun statement hstatement => ?_
  have hread : CutOnly (draft.tidyImport used statement) :=
    cutOnly_tidyImport (h statement hstatement)
  split
  · rename_i fault hfault
    obtain rfl := hread fault hfault
    exact Outcome.sure_stopped rfl
  · exact Outcome.sure_of_failure_eq_none rfl
  · exact Outcome.sure_of_failure_eq_none rfl

theorem atomic_removeUnusedImports : (draft.removeUnusedImports.run journal).1.Atomic := by
  unfold removeUnusedImports
  cases draft.usedNames with
  | error fault => exact Outcome.atomic_stopped
  | ok used =>
      exact atomic_onTarget fun nodes hnodes => (sure_tidyImports (whole_of_resolve hnodes)).atomic

end Draft

/-! ## Renaming -/

namespace Draft

variable {walk : Walk} {test : Node → Except Fault Bool} {new : String} {failure : Failure}

/-- As long as the tests succeed, the nodes that pass are replaced. -/
theorem forEach_replaceAt (htest : ∀ node, CutOnly (test node)) (nodes : List Node) :
    (Walk.allPassing test nodes = .error .cut ∧
        (Outcome.forEach (replaceAt test new) nodes).failure = some (.fault .cut)) ∨
      ∃ passing, Walk.allPassing test nodes = .ok passing ∧
        (Outcome.forEach (replaceAt test new) nodes).failure = none ∧
        (Outcome.forEach (replaceAt test new) nodes).edits = passing.map (replacement · new) := by
  induction nodes with
  | nil => exact .inr ⟨[], rfl, rfl, rfl⟩
  | cons node nodes ih =>
      rw [Outcome.forEach, Walk.allPassing]
      cases hnode : test node with
      | error fault =>
          obtain rfl := htest node fault hnode
          refine .inl ⟨rfl, ?_⟩
          rw [replaceAt, hnode]
          rfl
      | ok passes =>
          have hstep : (replaceAt test new node).failure = none ∧
              (replaceAt test new node).edits = if passes then [replacement node new] else [] := by
            rw [replaceAt, hnode]
            cases passes <;> exact ⟨rfl, rfl⟩
          rw [Outcome.andThen, hstep.1, hstep.2, ok_bind]
          rcases ih with ⟨hcut, hfailure⟩ | ⟨passing, hpassing, hfailure, hedits⟩
          · refine .inl ⟨?_, hfailure⟩
            rw [hcut]
            rfl
          · refine .inr ⟨if passes then node :: passing else passing, ?_, hfailure, ?_⟩
            · rw [hpassing]
              rfl
            · dsimp only
              rw [hedits]
              cases passes <;> rfl

/-- If the walk is what stops a renaming, the nodes met that pass the test are in the queue. -/
theorem replaceWhere_of_unreadable (htest : ∀ node, CutOnly (test node))
    (h : (replaceWhere walk test new).failure = some failure)
    (hunread : failure.unreadable = true) :
    walk.fault.map .fault = some failure ∧
      ∃ passing, Walk.allPassing test walk.nodes = .ok passing ∧
        (replaceWhere walk test new).edits = passing.map (replacement · new) := by
  rw [replaceWhere, Outcome.andThen] at h ⊢
  rcases forEach_replaceAt htest walk.nodes with
    ⟨-, hcut⟩ | ⟨passing, hpassing, hnone, hedits⟩
  · rw [hcut] at h
    cases h
    cases hunread
  · rw [hnone] at h ⊢
    refine ⟨h, passing, hpassing, ?_⟩
    dsimp only
    rw [hedits, List.append_nil]

/-! ## All operations -/

variable {draft after : Draft} {operation : Operation} {journal : Journal}

/-- What an operation that finds its nodes first has queued when it stops at a bad place. -/
theorem atomic_outcome (hroot : draft.root.Reached)
    (hgiven : ∀ node ∈ operation.given, node.Reached)
    (h : operation.renamer draft.setting.source = none) :
    ((draft.outcome operation).run journal).1.Atomic := by
  cases operation with
  | rename => cases h
  | renameIdentifiers => cases h
  | replaceIn => exact atomic_replaceIn
  | replace => exact atomic_replace
  | remove target wholeStatement => exact atomic_remove hroot hgiven wholeStatement
  | removeUnusedImports => exact atomic_removeUnusedImports
  | insertBefore => exact atomic_insertBefore
  | insertAfter => exact atomic_insertAfter

/-- What a renaming has queued when it stops at a bad place. -/
theorem outcome_of_renamer (hrenamer : operation.renamer draft.setting.source = some (test, new))
    (h : ((draft.outcome operation).run journal).1.failure = some failure)
    (hunread : failure.unreadable = true) :
    draft.root.walk.fault.map .fault = some failure ∧
      ∃ passing, Walk.allPassing test draft.root.walk.nodes = .ok passing ∧
        ((draft.outcome operation).run journal).1.edits = passing.map (replacement · new) := by
  cases operation with
  | rename old _ =>
      cases hrenamer
      have hrename : ((draft.outcome (.rename old new)).run journal).1 = draft.rename old new := rfl
      rw [hrename, rename, Outcome.failure_reported] at h
      rw [hrename, rename, Outcome.edits_reported]
      exact replaceWhere_of_unreadable (fun _ => cutOnly_renames) h hunread
  | renameIdentifiers old _ =>
      cases hrenamer
      have hrename : ((draft.outcome (.renameIdentifiers old new)).run journal).1 =
          draft.renameIdentifiers old new := rfl
      rw [hrename, renameIdentifiers, Outcome.failure_reported] at h
      rw [hrename, renameIdentifiers, Outcome.edits_reported]
      exact replaceWhere_of_unreadable (fun _ => cutOnly_renamesIdentifier) h hunread
  | _ => cases hrenamer

/-- An operation that stops at a bad place of the tree leaves the draft as it was, unless it is a
renaming. A renaming has queued the nodes to be renamed among those met before the bad place. -/
theorem perform_of_unreadable (hroot : draft.root.Reached)
    (hgiven : ∀ node ∈ operation.given, node.Reached)
    (h : ((draft.perform operation).run journal).1 = (after, some failure))
    (hunread : failure.unreadable = true) :
    match operation.renamer draft.setting.source with
    | none => after = draft
    | some (test, new) => draft.root.walk.fault.map .fault = some failure ∧
        ∃ passing, Walk.allPassing test draft.root.walk.nodes = .ok passing ∧
          after = draft.queue (passing.map (replacement · new)) := by
  have hperform : ((draft.perform operation).run journal).1 =
      (draft.queue ((draft.outcome operation).run journal).1.edits,
        ((draft.outcome operation).run journal).1.failure) := rfl
  rw [hperform] at h
  obtain ⟨rfl, hfailure⟩ := Prod.mk.inj h
  cases hrenamer : operation.renamer draft.setting.source with
  | none =>
      dsimp only
      rw [atomic_outcome hroot hgiven hrenamer failure hfailure hunread, queue, List.append_nil]
  | some renamer =>
      obtain ⟨hfault, passing, hpassing, hedits⟩ := outcome_of_renamer hrenamer hfailure hunread
      exact ⟨hfault, passing, hpassing, by rw [hedits]⟩

/-- A draft of `a;` with a gap after the name. -/
def gapped : Draft :=
  { root := Gapped.program, setting := ⟨encode "a;", true⟩, source := encode "a;" }

theorem reached_gapped : gapped.root.Reached := .root (Tree.root_eq_ok_iff.mpr ⟨rfl, rfl⟩)

/-- Removing the name before the gap queues nothing, renaming it does. -/
theorem perform_of_unreadable_gap :
    ((gapped.perform (.remove (.pattern "identifier") true)).run {}).1 =
        (gapped, some (.fault .absent)) ∧
      ∃ passing, Walk.allPassing (renames (encode "a;") "a") gapped.root.walk.nodes = .ok passing ∧
        ((gapped.perform (.rename "a" "b")).run {}).1.1 =
          gapped.queue (passing.map (replacement · "b")) := by
  constructor
  · obtain ⟨after, hafter⟩ : ∃ after,
        ((gapped.perform (.remove (.pattern "identifier") true)).run {}).1 =
          (after, some (.fault .absent)) := ⟨_, rfl⟩
    have hsame : after = gapped := perform_of_unreadable reached_gapped
      (fun node hnode => absurd hnode List.not_mem_nil) hafter rfl
    rw [hafter, hsame]
  · obtain ⟨after, hafter⟩ : ∃ after, ((gapped.perform (.rename "a" "b")).run {}).1 =
        (after, some (.fault .absent)) := ⟨_, rfl⟩
    rw [hafter]
    exact (perform_of_unreadable reached_gapped (fun node hnode => absurd hnode List.not_mem_nil)
      hafter rfl).2

/-- A renaming that stops at a gap leaves behind what it has queued before. -/
theorem rename_before_gap :
    Gapped.program.tree.root = .ok gapped.root ∧
      ((gapped.perform (.rename "a" "b")).run {}).1 =
        (gapped.queue [⟨0, 1, "b"⟩], some (.fault .absent)) ∧
      (gapped.queue [⟨0, 1, "b"⟩]).edits ≠ gapped.edits :=
  ⟨rfl, rfl, by rintro ⟨⟩⟩

end Draft

end Arborist

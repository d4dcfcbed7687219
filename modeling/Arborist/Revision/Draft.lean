import Arborist.Document
import Arborist.Edit.Render

/-!
# Drafts

A draft is a source under revision: a node to work below, the source that is edited and the queue
of edits so far. Operations only queue edits, against the source as it was; nothing is changed
before `Draft.render`.

The edited source is usually the one the tree was made from, but need not be. Texts of nodes are
cut from the source of their tree, lines and indentation are read from the edited source.

An operation works through nodes one by one. If it fails on the way, the edits it has queued by
then stay; the `Outcome` of an operation says both.
-/

namespace Arborist

open Text

/-- A source under revision. -/
structure Draft where
  /-- The node that operations work below. -/
  root : Node
  /-- How the tree is searched, with the source it was made from. -/
  setting : Setting
  /-- The bytes that are edited. -/
  source : Bytes
  settings : Settings := {}
  edits : List Edit := []

/-- Why an operation stopped. -/
inductive Failure where
  | fault (cause : Fault)
  /-- A replacement function refused the text of a match, with a complaint. -/
  | refused (complaint : String)
  deriving DecidableEq, Repr

namespace Failure

/-- The wording of a failure. -/
def message : Failure → String
  | .fault cause => cause.message
  | .refused complaint => complaint

end Failure

/-- What an operation did: the edits it queued, the records it made, and why it stopped early, if
it did. -/
structure Outcome where
  edits : List Edit := []
  records : List Record := []
  failure : Option Failure := none
  deriving DecidableEq, Repr

namespace Outcome

/-- An operation that stopped before it queued anything. -/
def stopped (failure : Failure) : Outcome := { failure := some failure }

/-- Go on after an outcome, unless it stopped. -/
def andThen (first second : Outcome) : Outcome :=
  match first.failure with
  | some failure => { first with failure := some failure }
  | none => ⟨first.edits ++ second.edits, first.records ++ second.records, second.failure⟩

/-- Work through a list until a step stops. -/
def forEach {α : Type} (step : α → Outcome) : List α → Outcome
  | [] => {}
  | x :: rest => (step x).andThen (forEach step rest)

/-- The outcome of a step that may fail. -/
def ofEdits : Except Failure (List Edit) → Outcome
  | .ok edits => { edits := edits }
  | .error failure => stopped failure

/-- Report how many edits were queued, if the operation came to its end. -/
def reported (outcome : Outcome) (wording : Nat → String) : Outcome :=
  match outcome.failure with
  | some _ => outcome
  | none =>
    { outcome with
      records := outcome.records ++ [⟨.debug, .edits, wording outcome.edits.length⟩] }

end Outcome

/-- The nodes an operation is about. -/
inductive Target where
  /-- Every node below the root of the draft that a pattern describes. -/
  | pattern (text : String)
  | node (node : Node)
  | nodes (nodes : List Node)

namespace Draft

/-- Start revising a document. -/
def ofDocument (document : Document) : Draft :=
  { root := document.root, setting := document.setting, source := document.source,
    settings := document.settings }

/-- Start revising below a node, possibly over another text than that of the tree. -/
def ofNode (setting : Setting) (node : Node) (text : Option String) (settings : Settings) : Draft :=
  { root := node, setting := setting, source := (text.map encode).getD setting.source,
    settings := settings }

/-- Put edits at the end of the queue. -/
def queue (draft : Draft) (edits : List Edit) : Draft :=
  { draft with edits := draft.edits ++ edits }

/-- Replace the text of a node. -/
def replacement (node : Node) (text : String) : Edit := ⟨node.start, node.stop, text⟩

/-- The nodes of a target. -/
def resolve (draft : Draft) : Target → Logged (Except Fault (List Node))
  | .pattern text => draft.root.findAll draft.setting text
  | .node node => return .ok [node]
  | .nodes nodes => return .ok nodes

/-- Carry out an operation on the nodes of a target. -/
def onTarget (draft : Draft) (target : Target) (operation : List Node → Outcome) :
    Logged Outcome := do
  match ← draft.resolve target with
  | .error fault => return .stopped (.fault fault)
  | .ok nodes => return operation nodes

/-- The source with all edits made. -/
def render (draft : Draft) : Logged (Except Conflict String) := do
  match Edit.render draft.source draft.edits with
  | .error conflict => return .error conflict
  | .ok text =>
    Logged.emit [⟨.debug, .edits, "Applied " ++ toString draft.edits.length ++ " edit(s)"⟩]
    return .ok text

/-- Put the edits and the records of an outcome where they belong. -/
def absorb (draft : Draft) (outcome : Outcome) : Logged Draft := do
  Logged.emit outcome.records
  return draft.queue outcome.edits

/-- Replace the text of every node of a target. -/
def replace (draft : Draft) (target : Target) (text : String) : Logged Outcome :=
  draft.onTarget target fun nodes => { edits := nodes.map (replacement · text) }

end Draft

end Arborist

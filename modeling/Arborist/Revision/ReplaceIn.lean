import Arborist.Replace.Substitution
import Arborist.Revision.Draft

/-!
# Replacing inside nodes

`replaceIn` finds and replaces inside the text of every node that a pattern describes. Nodes whose
text does not change get no edit.
-/

namespace Arborist

open Text

namespace Draft

/-- The edit for one node, if its text changes. -/
def replacementIn (source : Bytes) (needle : Needle) (replacement : Replacement) (node : Node) :
    Except Failure (List Edit) := do
  let text ← (node.text source).mapError .fault
  let new ← (needle.replaceIn replacement text).mapError .refused
  return if new == text then [] else [Draft.replacement node new]

/-- Find and replace inside the text of every node that a pattern describes. -/
def replaceIn (draft : Draft) (pattern : String) (needle : Needle) (replacement : Replacement) :
    Logged Outcome :=
  draft.onTarget (.pattern pattern) fun nodes =>
    (Outcome.forEach (fun node =>
      .ofEdits (replacementIn draft.setting.source needle replacement node)) nodes).reported
        fun count => "replace_in " ++ quoted pattern ++ ": " ++ toString count ++ " edit(s)"

end Draft

end Arborist

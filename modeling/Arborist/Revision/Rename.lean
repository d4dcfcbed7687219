import Arborist.Revision.Draft

/-!
# Renaming

`rename` renames a name wherever code uses it: identifiers outside textual content, and the names
of members. `renameIdentifiers` renames identifiers alone and looks at nothing around them.
-/

namespace Arborist

open Text

namespace Kind

/-- Identifiers. -/
def identifiers : List String := ["identifier", "type_identifier"]

/-- Kinds whose content is text and not code. -/
def textual : List String := ["string", "comment", "string_fragment", "regex"]

/-- Names of members and of bindings taken out of an object by their own name. -/
def memberNames : List String := ["property_identifier", "shorthand_property_identifier_pattern"]

end Kind

/-- Whether a node lies inside textual content. -/
def Node.insideText (node : Node) : Bool :=
  node.ancestors.any fun ancestor => Kind.textual.contains ancestor.kind

namespace Draft

/-- Whether renaming a name changes a node. -/
def renames (source : Bytes) (old : String) (node : Node) : Except Fault Bool := do
  if Kind.identifiers.contains node.kind then
    return (← node.text source) == old && !node.insideText
  else if Kind.memberNames.contains node.kind then return (← node.text source) == old
  else return false

/-- Whether renaming an identifier changes a node. -/
def renamesIdentifier (source : Bytes) (old : String) (node : Node) : Except Fault Bool := do
  if Kind.identifiers.contains node.kind then return (← node.text source) == old
  else return false

/-- Replace a node if it passes a test. -/
def replaceAt (test : Node → Except Fault Bool) (text : String) (node : Node) : Outcome :=
  match test node with
  | .error fault => .stopped (.fault fault)
  | .ok true => { edits := [replacement node text] }
  | .ok false => {}

/-- Replace every node of a walk that passes a test, in the order met, up to a failure. -/
def replaceWhere (walk : Walk) (test : Node → Except Fault Bool) (text : String) : Outcome :=
  (Outcome.forEach (replaceAt test text) walk.nodes).andThen { failure := walk.fault.map .fault }

/-- How a renaming is reported. -/
def renameWording (operation old new : String) (count : Nat) : String :=
  operation ++ " " ++ quoted old ++ " -> " ++ quoted new ++ ": " ++ toString count ++ " edit(s)"

/-- Rename a name in code, leaving strings, comments and regular expressions alone. -/
def rename (draft : Draft) (old new : String) : Outcome :=
  (replaceWhere draft.root.walk (renames draft.setting.source old) new).reported
    (renameWording "rename" old new)

/-- Rename every identifier of a name, whatever is around it. -/
def renameIdentifiers (draft : Draft) (old new : String) : Outcome :=
  (replaceWhere draft.root.walk (renamesIdentifier draft.setting.source old) new).reported
    (renameWording "rename_identifier" old new)

end Draft

end Arborist

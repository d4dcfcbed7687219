import Arborist.Revision.Draft

/-!
# Removing

Removal deletes nodes. A statement goes with the lines it stands on, so that no blank line is
left; a declarator that is alone in its declaration takes the declaration along, and on request an
expression that makes up a statement takes the statement along.

Calls can be named for short: `console.log` and `debug()` stand for the calls whose text contains
them.
-/

namespace Arborist

open Text

namespace Kind

/-- Statements, which take up lines of their own. -/
def statements : List String := [
  "expression_statement", "variable_declaration", "lexical_declaration", "import_statement",
  "export_statement", "return_statement", "if_statement", "for_statement", "while_statement",
  "function_declaration", "class_declaration"]

/-- Statements that hold declarators. -/
def declaratorHolders : List String := ["lexical_declaration", "variable_declaration"]

end Kind

namespace Draft

/-- Put a backslash before every double quote. -/
def escapeQuotes (cs : List Char) : List Char :=
  cs.flatMap fun c => if c == '"' then ['\\', '"'] else [c]

/-- The pattern of calls whose text contains a text. -/
def callPattern (cs : List Char) : String :=
  "call_expression[text*=\"" ++ String.ofList (escapeQuotes cs) ++ "\"]"

/-- The pattern that a text stands for in a removal. A text with a dot, without a bracket and
without blanks names calls, and so does a text that ends in `()`. -/
def removalPattern (text : String) : String :=
  let cs := text.toList
  if cs.contains '.' && !cs.contains '[' && !cs.any isBlank then callPattern cs
  else if ['(', ')'].isSuffixOf cs then callPattern (cs.take (cs.length - 1))
  else text

/-- The node that goes when a node is to be removed. -/
def removalTarget (wholeStatement : Bool) (node : Node) : Except Fault Node := do
  match node.parent with
  | none => return node
  | some parent =>
    if node.kind == "variable_declarator" && Kind.declaratorHolders.contains parent.kind then
      let declarators := (← parent.children).filter (·.kind == "variable_declarator")
      if declarators.length == 1 then return parent
    if wholeStatement && parent.kind == "expression_statement" then
      if let [only] ← parent.namedChildren then
        if only.same node then return parent
    return node

/-- The lines that a range stands on, the line feed after them included. -/
def lineSpan (source : Bytes) (start stop : Nat) : Nat × Nat :=
  (lineStart source start, nextLineStart source stop)

/-- The edit that removes a node. -/
def removal (source : Bytes) (node : Node) : Edit :=
  if Kind.statements.contains node.kind then
    let (start, stop) := lineSpan source node.start node.stop
    ⟨start, stop, ""⟩
  else ⟨node.start, node.stop, ""⟩

/-- Remove nodes one by one. -/
def removeNodes (draft : Draft) (wholeStatement : Bool) (nodes : List Node) : Outcome :=
  Outcome.forEach (fun node =>
    match removalTarget wholeStatement node with
    | .error fault => .stopped (.fault fault)
    | .ok target => { edits := [removal draft.source target] }) nodes

/-- How reports show what is removed. -/
def shownTarget (source : Bytes) : Target → String
  | .pattern text => quoted text
  | .node node => node.describe source
  | .nodes nodes => "[" ++ ", ".intercalate (nodes.map (Node.describe source)) ++ "]"

/-- Remove the nodes of a target; a pattern may name calls for short. -/
def remove (draft : Draft) (target : Target) (wholeStatement : Bool) : Logged Outcome := do
  let target := match target with
    | .pattern text => .pattern (removalPattern text)
    | other => other
  draft.onTarget target fun nodes =>
    (draft.removeNodes wholeStatement nodes).reported fun count =>
      "remove " ++ shownTarget draft.setting.source target ++ ": " ++ toString count ++ " match(es)"

end Draft

end Arborist

import Arborist.Journal
import Arborist.Selector.Matching
import Arborist.Tree.Place
import Arborist.Tree.Visitor

/-!
# Searching by pattern

Search over a node and everything below it, by pattern or by a question people often have about
JavaScript sources: functions, classes, imports, hooks, properties of JSX tags, parameters.

A search may extend the journal (the pattern is remembered, or reported as malformed) and may fail
on a tree that cannot be read; what it adds to the journal stays in either case.
-/

namespace Arborist

open Text

/-- A tree opened for searching: its source, and whether malformed patterns bring suggestions. -/
structure Setting where
  source : Bytes
  suggest : Bool := true

namespace Node

variable (setting : Setting) (node : Node)

/-- Every node from here down that a pattern describes. -/
def findAll (pattern : String) : Logged (Except Fault (List Node)) := do
  let selector ← Logged.selectorOf pattern setting.suggest
  return node.walk.findAll (selector.holds setting.source)

/-- The first node from here down that a pattern describes. -/
def find (pattern : String) : Logged (Except Fault (Option Node)) := do
  let selector ← Logged.selectorOf pattern setting.suggest
  return node.walk.findFirst (selector.holds setting.source)

/-- Every node below this one, or those that a pattern describes. -/
def descendants (pattern : Option String) : Logged (Except Fault (List Node)) := do
  match pattern with
  | none => return node.walk.below.unlessCut node.walk.below.nodes
  | some pattern =>
    let selector ← Logged.selectorOf pattern setting.suggest
    return node.walk.below.findAll (selector.holds setting.source)

/-- Whether a pattern describes this very node. -/
def matchesPattern (pattern : String) : Logged (Except Fault Bool) := do
  let selector ← Logged.selectorOf pattern setting.suggest
  return selector.holds setting.source node

/-! ### Everyday questions -/

/-- Functions of every form. -/
def functions : Logged (Except Fault (List Node)) := node.findAll setting "function"

/-- Classes. -/
def classes : Logged (Except Fault (List Node)) := node.findAll setting "class"

/-- Import statements. -/
def imports : Logged (Except Fault (List Node)) := node.findAll setting "import_statement"

/-- Declared variables. -/
def declaredVariables : Logged (Except Fault (List Node)) :=
  node.findAll setting "variable_declarator"

/-- Comments. -/
def comments : Logged (Except Fault (List Node)) := node.findAll setting "comment"

/-- Export statements, then the names exported in lists. -/
def exports : Logged (Except Fault (List Node)) := ExceptT.run do
  let statements ← ExceptT.mk (node.findAll setting "export_statement")
  let specifiers ← ExceptT.mk (node.findAll setting "export_specifier")
  return statements ++ specifiers

/-- JSX elements, with a closing tag or without. -/
def jsxElements : Logged (Except Fault (List Node)) := node.findAll setting "jsx-element"

/-- The tag of a JSX element that holds its properties. -/
def jsxTag (element : Node) : Except Fault (Option Node) := do
  if element.kind == "jsx_self_closing_element" then return some element
  return (← element.children).find? (·.kind == "jsx_opening_element")

/-- The properties written on the tag of a JSX element, if the tag has the name asked for. -/
def propertiesOf (source : Bytes) (tagName : Option String) (element : Node) :
    Except Fault (List Node) := do
  match ← jsxTag element with
  | none => return []
  | some tag =>
    if let some wanted := tagName then
      if (← tag.fieldText source "name") != some wanted then return []
    return (← tag.children).filter (·.kind == "jsx_attribute")

/-- The properties written on JSX tags, or only on tags of a name. -/
def jsxProperties (tagName : Option String) : Logged (Except Fault (List Node)) := do
  match ← node.jsxElements setting with
  | .error fault => return .error fault
  | .ok elements => return List.flatten <$> elements.mapM (propertiesOf setting.source tagName)

/-- Whether a text starts as the name of a hook does: `use` and an ASCII capital. -/
def startsHookName (text : String) : Bool :=
  match text.toList with
  | 'u' :: 's' :: 'e' :: c :: _ => c.isUpper
  | _ => false

/-- Whether a call is the call of a hook. -/
def isHookCall (source : Bytes) (call : Node) : Except Fault Bool := do
  return ((← call.fieldText source "function").map startsHookName).getD false

/-- Calls of hooks. -/
def hooks : Logged (Except Fault (List Node)) := do
  match ← node.findAll setting "call_expression" with
  | .error fault => return .error fault
  | .ok calls => return Walk.allPassing (isHookCall setting.source) calls

end Node

/-! ### Functions from the inside -/

namespace Node

/-- The kinds of functions. -/
def functionKinds : List String :=
  ["function_declaration", "function_expression", "arrow_function", "method_definition"]

/-- The kinds of parameters. -/
def parameterKinds : List String :=
  ["identifier", "rest_pattern", "assignment_pattern", "object_pattern", "array_pattern"]

/-- The kinds that wrap a parameter together with its type. -/
def typedParameterKinds : List String := ["required_parameter", "optional_parameter"]

/-- The text of a parameter, if a node in the list of parameters is one. A parameter with a type is
shown without it. -/
def parameterText (source : Bytes) (node : Node) : Except Fault (Option String) := do
  if typedParameterKinds.contains node.kind then
    match ← node.field "pattern" with
    | some pattern => return some (← pattern.text source)
    | none => return some (← node.text source)
  else if parameterKinds.contains node.kind then return some (← node.text source)
  else return none

/-- The texts of the parameters of a function. -/
def parameters (source : Bytes) (node : Node) : Except Fault (List String) := do
  if !functionKinds.contains node.kind then return []
  match ← node.field "parameter" with
  | some only => return [← only.text source]
  | none =>
    match ← node.field "parameters" with
    | none => return []
    | some list => return (← (← list.children).mapM (parameterText source)).filterMap id

/-- Whether a node is a function marked `async`. -/
def isAsync (node : Node) : Except Fault Bool := do
  if !functionKinds.contains node.kind then return false
  return (← node.children).any (·.kind == "async")

/-- The first and the last line of a body. -/
def bodyLines (source : Bytes) (node : Node) : Except Fault (Option (Int × Int)) := do
  return (← node.field "body").map fun body => (body.line source, body.endLine source)

end Node

end Arborist

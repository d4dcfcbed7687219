import Arborist.Kind
import Arborist.Selector.Parser
import Arborist.Tree.Walk

/-!
# Which nodes a selector describes

`Selector.holds` tests one node. The test reads as little as it needs and in a fixed order, since
reading can fail: the right side of a chain before what is above, the parts of a compound from the
left until one does not hold, the nodes below in pre-order until one is found.

The attributes `name`, `text` and `async` are derived from a node; any other attribute is the text
of the child that fills the place of that name.
-/

namespace Arborist

open Text

namespace Operator

/-- Whether an attribute compares with a value. -/
def compares (operator : Operator) (actual wanted : String) : Bool :=
  match operator with
  | .equals => actual == wanted
  | .hasWord => (words actual.toList).contains wanted.toList
  | .startsWith => wanted.toList.isPrefixOf actual.toList
  | .endsWith => wanted.toList.isSuffixOf actual.toList
  | .contains => occursIn wanted.toList actual.toList
  | .unknown _ => false

/-- Whether an attribute, which a node may not have, passes a test. Without a value to compare
with, it has to be there and not empty. -/
def accepts (operator : Operator) (wanted actual : Option String) : Bool :=
  match wanted, actual with
  | none, actual => (actual.map (!·.isEmpty)).getD false
  | some _, none => false
  | some wanted, some actual => operator.compares actual wanted

end Operator

namespace Node

/-- The name that a node declares. A JSX attribute has no place for its name: it is the text of
its leading property identifier. -/
def nameAttribute (source : Bytes) (node : Node) : Except Fault (Option String) := do
  match ← node.name source with
  | some name => return some name
  | none =>
    if node.kind != "jsx_attribute" then return none
    match (← node.children).head? with
    | some first =>
      if first.kind == "property_identifier" then return some (← first.text source)
      else return none
    | none => return none

/-- `async` if the keyword is among the children. -/
def asyncAttribute (node : Node) : Except Fault (Option String) := do
  return if (← node.children).any (·.kind == "async") then some "async" else none

/-- The attribute of a node under a name. -/
def attributeText (source : Bytes) (name : String) (node : Node) : Except Fault (Option String) :=
  if name == "name" then node.nameAttribute source
  else if name == "text" then some <$> node.text source
  else if name == "async" then node.asyncAttribute
  else node.fieldText source name

end Node

namespace Selector

mutual

/-- Whether a selector describes a node. -/
def holds (source : Bytes) : Selector → Node → Except Fault Bool
  | .kind name, node => .ok ((Kind.resolve name).contains node.kind)
  | .attr name operator value, node => do
    return operator.accepts value (← node.attributeText source name)
  | .pseudo _ _ none, _ => .ok false
  | .pseudo name _ (some inner), node =>
    if name == "not" then do return !(← inner.holds source node)
    else if name == "has" then do
      return (← node.walk.below.findFirst fun below => inner.holds source below).isSome
    else .ok false
  | .child left right, node => do
    if !(← right.holds source node) then return false
    match node.parent with
    | none => return false
    | some parent => left.holds source parent
  | .descendant left right, node => do
    if !(← right.holds source node) then return false
    return (← Walk.firstPassing (fun ancestor => left.holds source ancestor) node.ancestors).isSome
  | .all parts, node => allHold source parts node
  | .never, _ => .ok false

/-- Whether all selectors of a list describe a node. -/
def allHold (source : Bytes) : List Selector → Node → Except Fault Bool
  | [], _ => .ok true
  | part :: rest, node => do
    if ← part.holds source node then allHold source rest node else return false

end

end Selector

end Arborist

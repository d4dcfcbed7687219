/-!
# Selectors

A selector describes nodes of a syntax tree in the manner of style sheets: by kind, by attribute,
by what is below, and by what is above.
-/

namespace Arborist

/-- How an attribute is compared with a value. -/
inductive Operator where
  /-- The attribute is the value. -/
  | equals
  /-- The value is one of the words of the attribute. -/
  | hasWord
  /-- The attribute starts with the value. -/
  | startsWith
  /-- The attribute ends with the value. -/
  | endsWith
  /-- The value occurs in the attribute. -/
  | contains
  /-- A comparison that is not known and holds of nothing. -/
  | unknown (symbol : String)
  deriving DecidableEq, Repr

/-- How an operator is written. -/
def Operator.symbol : Operator → String
  | .equals => "="
  | .hasWord => "~="
  | .startsWith => "^="
  | .endsWith => "$="
  | .contains => "*="
  | .unknown symbol => symbol

/-- The operators of patterns, in the order in which they are looked for: the longer ones before
the one that their last character is. -/
def Operator.all : List Operator := [.hasWord, .startsWith, .endsWith, .contains, .equals]

/-- A description of nodes. -/
inductive Selector where
  /-- Nodes of a kind, or of the kinds of an everyday name. -/
  | kind (name : String)
  /-- Nodes with an attribute. Without a value the attribute only has to be there and not empty;
  the operator then is `equals` in patterns, and does not matter. -/
  | attr (name : String) (operator : Operator) (value : Option String)
  /-- `:has(…)`, `:not(…)` and other names after a colon. The argument is kept as written; the
  selector in it is there for `has` and `not`. -/
  | pseudo (name : String) (argument : Option String) (inner : Option Selector)
  /-- Nodes of the right whose parent is of the left. -/
  | child (left right : Selector)
  /-- Nodes of the right with some ancestor of the left. -/
  | descendant (left right : Selector)
  /-- Nodes that all the parts describe. -/
  | all (parts : List Selector)
  /-- No nodes. -/
  | never
  deriving Repr

end Arborist

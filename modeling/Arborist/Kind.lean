import Arborist.Text.Blank
import Arborist.Text.Case

/-!
# Node kinds and their everyday names

A grammar names its kinds precisely (`arrow_function`, `method_definition`); people say
`function`. An everyday name stands for several kinds, any other name for the kind of that name.
The table fits the JavaScript, TypeScript and TSX grammars, which share their kinds.

`suggestions` proposes everyday names that resemble a text that is no pattern: one occurs in the
other. The test for this, `occursIn`, is also the `*=` comparison of patterns.
-/

namespace Arborist

namespace Text

/-- Whether one list occurs in another as a contiguous part. -/
def occursIn {α : Type} [BEq α] (part : List α) : List α → Bool
  | [] => part.isEmpty
  | x :: rest => part.isPrefixOf (x :: rest) || occursIn part rest

/-- To occur in a list is to be a contiguous part of it. -/
theorem occursIn_iff {α : Type} [BEq α] [LawfulBEq α] {part whole : List α} :
    occursIn part whole = true ↔ part <:+: whole := by
  induction whole with
  | nil => simp [occursIn]
  | cons x rest ih =>
    simp only [occursIn, Bool.or_eq_true, List.isPrefixOf_iff_prefix, ih]
    exact List.infix_cons_iff.symm

end Text

namespace Kind

open Text

/-- Everyday names and the kinds each stands for, kinds in alphabetical order. -/
def everydayNames : List (String × List String) := [
  ("function", ["arrow_function", "function_declaration", "function_expression",
    "method_definition"]),
  ("arrow", ["arrow_function"]),
  ("method", ["method_definition"]),
  ("class", ["class_declaration", "class_expression"]),
  ("interface", ["interface_declaration"]),
  ("variable", ["variable_declarator"]),
  ("const", ["lexical_declaration"]),
  ("let", ["lexical_declaration"]),
  ("var", ["variable_declaration"]),
  ("string", ["string", "template_string"]),
  ("template", ["template_string"]),
  ("loop", ["do_statement", "for_in_statement", "for_of_statement", "for_statement",
    "while_statement"]),
  ("for", ["for_in_statement", "for_of_statement", "for_statement"]),
  ("while", ["do_statement", "while_statement"]),
  ("condition", ["if_statement", "switch_statement", "ternary_expression"]),
  ("if", ["if_statement"]),
  ("switch", ["switch_statement"]),
  ("ternary", ["ternary_expression"]),
  ("import", ["import_statement"]),
  ("export", ["export_statement"]),
  ("jsx", ["jsx_element", "jsx_fragment", "jsx_self_closing_element"]),
  ("jsx-element", ["jsx_element", "jsx_self_closing_element"]),
  ("jsx-attribute", ["jsx_attribute"]),
  ("comment", ["comment"]),
  ("call", ["call_expression"]),
  ("new", ["new_expression"]),
  ("return", ["return_statement"]),
  ("throw", ["throw_statement"]),
  ("statement", ["block_statement", "empty_statement", "expression_statement"]),
  ("block", ["block_statement", "statement_block"])]

/-- Frequent slips and the patterns meant by them. -/
def frequentSlips : List (String × List String) := [
  ("async-function", ["function[async]", "arrow[async]"]),
  ("async_function", ["function[async]", "arrow[async]"]),
  ("func", ["function"]),
  ("fn", ["function"]),
  ("str", ["string"]),
  ("tpl", ["template"]),
  ("cls", ["class"])]

/-- The kinds that a name stands for. -/
def resolve (name : String) : List String := (everydayNames.lookup name).getD [name]

/-- Whether a name is an everyday name. -/
def isEveryday (name : String) : Bool := (everydayNames.lookup name).isSome

/-- The first elements of a list up to a limit; a negative limit leaves out that many at the end. -/
def takeUpTo {α : Type} (limit : Int) (xs : List α) : List α :=
  if limit < 0 then xs.take (xs.length - limit.natAbs) else xs.take limit.toNat

/-- Everyday names that resemble a text: names that occur in it or that it occurs in, in the order
of the table, then what is meant by a frequent slip. -/
def suggestions (text : String) (limit : Int := 3) : List String :=
  let lowered := lowerCase (stripped text)
  if lowered.isEmpty then []
  else
    let similar := (everydayNames.map Prod.fst).filter fun name =>
      occursIn name.toList lowered.toList || occursIn lowered.toList name.toList
    let meant := (frequentSlips.lookup lowered).getD []
    takeUpTo limit (similar ++ meant.filter fun pattern => !similar.contains pattern)

end Kind

end Arborist

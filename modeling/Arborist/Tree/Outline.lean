import Arborist.Numeral.Integer
import Arborist.Text.Lines
import Arborist.Tree.Basic

/-!
# Trees as outlines

A syntax tree can be kept in a file as an outline: one line for each node, parents before their
children, every level indented by one space more. A line has the kind, the two offsets, the flags
and, if the node fills a named place in its parent, the name of the place:

    program 0 7 n
     expression_statement 0 7 n
      identifier 0 6 n expression
      ; 6 7 -

The flags are letters: `n` for named, `m` for missing, `e` for a syntax error inside, and `-` if
there is none of them.

Lines are put together from the last one up: a line takes the finished trees right after it that
are deeper than itself as its children.
-/

namespace Arborist

open Text

namespace Tree

/-- One line of an outline. -/
structure OutlineLine where
  depth : Nat
  kind : String
  mark : Mark
  deriving DecidableEq, Repr

/-- Read one line of an outline. -/
def OutlineLine.ofChars? (line : List Char) : Option OutlineLine := do
  let depth := (line.takeWhile (· == ' ')).length
  let build (kind start stop flags : List Char) (field : Option String) : Option OutlineLine := do
    let start ← Numeral.readInteger? (String.ofList start)
    let stop ← Numeral.readInteger? (String.ofList stop)
    return {
      depth := depth
      kind := String.ofList kind
      mark := {
        start := start.toNat
        stop := stop.toNat
        named := flags.contains 'n'
        missing := flags.contains 'm'
        flawed := flags.contains 'e'
        field := field } }
  match words line with
  | [kind, start, stop, flags] => build kind start stop flags none
  | [kind, start, stop, flags, field] => build kind start stop flags (some (String.ofList field))
  | _ => none

/-- Put a line on top of the trees that finish below it, each with its depth. -/
def OutlineLine.above (line : OutlineLine) (finished : List (Nat × Tree)) : List (Nat × Tree) :=
  let deeper := fun (tree : Nat × Tree) => line.depth < tree.1
  let children := (finished.takeWhile deeper).map Prod.snd
  (line.depth, .node (some line.kind) line.mark children) :: finished.dropWhile deeper

/-- The tree of an outline; none if a line is malformed or there is not exactly one root. -/
def ofOutline? (text : String) : Option Tree := do
  let lines := (pieces '\n' text.toList).filter fun line => !line.all isBlank
  let lines ← lines.mapM OutlineLine.ofChars?
  match lines.foldr OutlineLine.above [] with
  | [(_, tree)] => return tree
  | _ => none

end Tree

end Arborist

import Arborist.Command.Basic
import Arborist.Text.Lines

/-!
# The command that finds nodes

`find` prints the nodes of a file that a pattern describes: how many they are, all about them, or a
table with their kind, their place and the start of their text.
-/

namespace Arborist.Command

open Text

/-- How matches are printed. -/
inductive FindStyle where
  | count
  | data
  | table
  deriving DecidableEq, Repr

/-- What is asked of the command. -/
structure FindOptions where
  file : String
  pattern : String
  language : Option String := none
  specs : List String := []
  style : FindStyle := .table

/-- How wide a preview is. -/
def previewWidth : Nat := 60

/-- The first line of a text, cut short with dots if it is too long. -/
def preview (text : String) : String :=
  let first := firstLine (strip text.toList)
  if first.length ≤ previewWidth then String.ofList first
  else String.ofList (first.take (previewWidth - 3) ++ ['.', '.', '.'])

/-- A match as data. -/
def rowOf (source : Bytes) (node : Node) : Except Fault Row := do
  return {
    kind := node.kind
    name := ← node.name source
    line := node.line source
    column := node.column source
    endLine := node.endLine source
    endColumn := node.endColumn source
    text := ← node.text source }

/-- A match as a line of the table. -/
def tableRow (source : Bytes) (node : Node) : Except Fault (List String) := do
  return [node.kind, (node.startPlace source).shown, preview (← node.text source)]

/-- What is printed for matches. -/
def printedMatches (options : FindOptions) (source : Bytes) (nodes : List Node) :
    Except Fault Printed := do
  match options.style with
  | .count => return .number nodes.length
  | .data => return .rows (← nodes.mapM (rowOf source))
  | .table =>
    let title := toString nodes.length ++ " match(es) for " ++ quoted options.pattern
    return .table title (← nodes.mapM (tableRow source))

/-- Print the nodes of a file that a pattern describes. -/
def find (parser : Parser) (folder : Folder) (options : FindOptions) : Logged Report := run do
  let path := PathName.ofString options.file
  let document ← openFile parser folder path options.language options.specs
  let nodes ← orStop (fun fault => crashWith (.failure (.fault fault)))
    (document.root.findAll document.setting options.pattern)
  match printedMatches options document.source nodes with
  | .error fault => crashWith (.failure (.fault fault))
  | .ok printed => return { console := [printed] }

end Arborist.Command

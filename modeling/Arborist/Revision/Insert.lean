import Arborist.Revision.Remove

/-!
# Inserting

A text inserted next to a statement or a declaration gets lines of its own, indented like what is
around it; next to any other node it is inserted as it is.

A node that starts its line lends its indentation. One that does not, but stands in a body of
several lines, gets the indentation of the line that opens the body and one unit more. Otherwise
the text stays on the line.
-/

namespace Arborist

open Text

namespace Kind

/-- Declarations. -/
def declarations : List String := ["function_declaration", "method_definition", "class_declaration"]

/-- Keywords that stand for the statement they start. -/
def keywords : List String := ["const", "let", "var", "return", "if", "for", "while"]

/-- Bodies of classes and functions. -/
def bodies : List String := ["class_body", "statement_block"]

end Kind

/-- A space or a tab. -/
def isIndentByte (byte : UInt8) : Bool := byte == 32 || byte == 9

/-- ASCII white space. -/
def isBlankByte (byte : UInt8) : Bool := byte == 32 || (9 ≤ byte && byte ≤ 13)

/-- Bytes of the ASCII range as text. -/
def asciiText (bytes : Bytes) : String :=
  String.ofList (bytes.map fun byte => Char.ofNat byte.toNat)

/-- The indentation of the line that an offset is on. -/
def lineIndent (source : Bytes) (offset : Nat) : String :=
  asciiText ((source.drop (lineStart source offset)).takeWhile isIndentByte)

/-- Whether only spaces and tabs stand before an offset on its line. -/
def startsLine (source : Bytes) (offset : Nat) : Bool :=
  (slice source (lineStart source offset) offset).all isIndentByte

/-- The step of indentation of a source: a tab if more lines start with one than are indented by
spaces, else the smallest indentation by spaces, or two spaces if there is none. -/
def indentUnit (source : Bytes) : String :=
  let lines := pieces lineFeed source
  let tabbed := lines.countP fun line => line.head? == some 9
  let spaced := lines.filter fun line => line.head? == some 32 && !line.all isBlankByte
  let widths := spaced.map fun line => (line.takeWhile (· == 32)).length
  if tabbed > widths.length then "\t"
  else String.ofList (List.replicate (widths.min?.getD 2) ' ')

/-- Put an indentation before every line but the first, blank lines excepted. -/
def indentTail (text indent : List Char) : List Char :=
  match pieces '\n' text with
  | [] => []
  | first :: rest =>
    joinPieces ['\n'] (first :: rest.map fun line =>
      if line.all isBlank then line else indent ++ line)

/-- The node that an insertion is next to: for a keyword, the statement around it. -/
def insertionTarget (node : Node) : Node :=
  if Kind.keywords.contains node.kind then (node.ancestorOfKind Kind.statements).getD node
  else node

namespace Draft

/-- Whether an inserted text gets lines of its own next to a node. -/
def isBlockLevel (node : Node) : Bool :=
  Kind.statements.contains node.kind || Kind.declarations.contains node.kind

/-- The indentation of a line inserted next to a node, or none to stay on its line. -/
def contextualIndent (draft : Draft) (node : Node) : Option String :=
  if startsLine draft.source node.start then some (lineIndent draft.source node.start)
  else match node.parent with
    | none => none
    | some parent =>
      let lines := parent.line draft.setting.source != parent.endLine draft.setting.source
      if Kind.bodies.contains parent.kind && lines then
        some (lineIndent draft.source parent.start ++ indentUnit draft.source)
      else none

/-- A text as it is inserted before a node. -/
def formatBefore (draft : Draft) (node : Node) (text : String) : String :=
  if !isBlockLevel node then text
  else
    let body := strip text.toList
    match draft.contextualIndent node with
    | none => String.ofList (body ++ [' '])
    | some indent =>
      let lines := indentTail body indent.toList ++ '\n' :: indent.toList
      if startsLine draft.source node.start then String.ofList lines
      else String.ofList ('\n' :: indent.toList ++ lines)

/-- How many blank lines set a text apart that gets lines of its own after a node: those between the
methods of a class. -/
def blankLinesAfter (draft : Draft) (node : Node) : Nat :=
  let isMethod := node.kind == "method_definition"
    && (node.parent.map (·.kind == "class_body")).getD false
  if isMethod && isBlockLevel node && (draft.contextualIndent node).isSome then
    draft.settings.methodSpacing
  else 0

/-- A text as it is inserted after a node. Methods of a class are set apart by blank lines. -/
def formatAfter (draft : Draft) (node : Node) (text : String) : String :=
  if !isBlockLevel node then text
  else
    let body := strip text.toList
    match draft.contextualIndent node with
    | none => String.ofList (' ' :: body)
    | some indent =>
      let spacing := List.replicate (draft.blankLinesAfter node) '\n'
      String.ofList ('\n' :: spacing ++ indent.toList ++ indentTail body indent.toList)

/-- Insert a text at a place of every node of a target, formatted for the node. -/
def insertAt (draft : Draft) (target : Target) (place : Node → Nat) (format : Node → String) :
    Logged Outcome :=
  draft.onTarget target fun nodes =>
    { edits := nodes.map fun node =>
        let node := insertionTarget node
        ⟨place node, place node, format node⟩ }

/-- Insert a text before every node of a target. -/
def insertBefore (draft : Draft) (target : Target) (text : String) : Logged Outcome :=
  draft.insertAt target Node.start (draft.formatBefore · text)

/-- Insert a text after every node of a target. -/
def insertAfter (draft : Draft) (target : Target) (text : String) : Logged Outcome :=
  draft.insertAt target Node.stop (draft.formatAfter · text)

end Draft

end Arborist

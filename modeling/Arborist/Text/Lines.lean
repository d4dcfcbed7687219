/-!
# Lines

Three notions of a line are in use, each for its own job.

* `pieces` cuts at one separator and keeps empty pieces: indentation counts lines by LF alone.
* `linesWithEnds` cuts after every line boundary of Unicode and of the ASCII controls and keeps
  the boundary with the line: previews and differences are made of these lines.
* `unifyNewlines` is applied to a file when it is read: CR LF and a lone CR become LF.
-/

namespace Arborist.Text

/-- Cut a list at every occurrence of a separator. There is always at least one piece. -/
def pieces {α : Type} [BEq α] (separator : α) : List α → List (List α)
  | [] => [[]]
  | x :: xs =>
    if x == separator then [] :: pieces separator xs
    else match pieces separator xs with
      | [] => [[x]]
      | piece :: rest => (x :: piece) :: rest

/-- Join pieces with a separator between them. -/
def joinPieces {α : Type} (separator : List α) : List (List α) → List α
  | [] => []
  | [piece] => piece
  | piece :: rest => piece ++ separator ++ joinPieces separator rest

/-- A character that ends a line by itself. CR followed by LF ends one line, not two. -/
def isLineEnd (c : Char) : Bool :=
  let n := c.toNat
  (0x0A ≤ n && n ≤ 0x0D) || (0x1C ≤ n && n ≤ 0x1E) || n == 0x85 || n == 0x2028 || n == 0x2029

/-- The lines of a text with their ends; `line` is the line being read, last character first. -/
def linesFrom (line : List Char) : List Char → List (List Char)
  | [] => if line.isEmpty then [] else [line.reverse]
  | '\r' :: '\n' :: cs => ('\n' :: '\r' :: line).reverse :: linesFrom [] cs
  | c :: cs =>
    if isLineEnd c then (c :: line).reverse :: linesFrom [] cs else linesFrom (c :: line) cs

/-- The lines of a text, each with its end. Only the last one may have none. -/
def linesWithEnds (cs : List Char) : List (List Char) := linesFrom [] cs

/-- The first line of a text, without its end. -/
def firstLine (cs : List Char) : List Char := cs.takeWhile (!isLineEnd ·)

/-- CR LF and a lone CR become LF. -/
def unifyNewlines : List Char → List Char
  | [] => []
  | '\r' :: '\n' :: cs => '\n' :: unifyNewlines cs
  | c :: cs => (if c == '\r' then '\n' else c) :: unifyNewlines cs

end Arborist.Text

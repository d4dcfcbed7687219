/-!
# Places in a YAML text

Indentation is meaning in YAML, so a reader has to know its line and column at every place. A
`Point` is what is left of the text together with how far the reader has come.

The characters of a line break are LF, CR, CR LF, NEL and the two Unicode separators; the first
four count as LF in the text of a scalar.
-/

namespace Arborist.Yaml

/-- What is left of a text, and where that is. -/
structure Point where
  rest : List Char
  /-- How many characters the text has. -/
  size : Nat
  /-- How many characters have been passed. -/
  index : Nat := 0
  line : Nat := 0
  column : Nat := 0

/-- A character of a line break. -/
def isBreak (c : Char) : Bool :=
  c == '\n' || c == '\r' || c.toNat == 0x85 || c.toNat == 0x2028 || c.toNat == 0x2029

/-- A space, a tab or a character of a line break. -/
def isSpacing (c : Char) : Bool := c == ' ' || c == '\t' || isBreak c

/-- Whether a character that may be there is spacing, or the text has ended. -/
def spacingOrEnd (c? : Option Char) : Bool := (c?.map isSpacing).getD true

/-- Whether a character that may be there breaks the line, or the text has ended. -/
def breakOrEnd (c? : Option Char) : Bool := (c?.map isBreak).getD true

namespace Point

/-- The start of a text. -/
def ofText (text : String) : Point := { rest := text.toList, size := text.length }

/-- How many characters are left. -/
def left (point : Point) : Nat := point.size - point.index

/-- The character a number of places ahead. -/
def peek (point : Point) (ahead : Nat := 0) : Option Char := point.rest[ahead]?

/-- Whether the character here is a given one. -/
def sees (point : Point) (c : Char) : Bool := point.peek == some c

/-- Go on by one character. A CR before LF does not end the line yet, and a byte order mark takes
no column. -/
def next (point : Point) : Point :=
  match point.rest with
  | [] => point
  | c :: rest =>
    let point := { point with rest := rest, index := point.index + 1 }
    if (isBreak c && c != '\r') || (c == '\r' && rest.head? != some '\n') then
      { point with line := point.line + 1, column := 0 }
    else if c.toNat == 0xFEFF then point
    else { point with column := point.column + 1 }

/-- Go on by a number of characters. -/
def skip (point : Point) : Nat → Point
  | 0 => point
  | count + 1 => point.next.skip count

/-- Pass over characters that satisfy a predicate. -/
def skipWhile (point : Point) (p : Char → Bool) : Point :=
  point.skip (point.rest.takeWhile p).length

/-- The characters that satisfy a predicate, and the point after them. -/
def takeWhile (point : Point) (p : Char → Bool) : List Char × Point :=
  (point.rest.takeWhile p, point.skipWhile p)

/-- Pass over a line break, if there is one, and say what it counts as. -/
def lineBreak (point : Point) : List Char × Point :=
  match point.rest with
  | '\r' :: '\n' :: _ => (['\n'], point.skip 2)
  | c :: _ =>
    if c == '\r' || c == '\n' || c.toNat == 0x85 then (['\n'], point.next)
    else if isBreak c then ([c], point.next)
    else ([], point)
  | [] => ([], point)

/-- Whether `---` or `...` stands here and spacing follows. -/
def seesDocumentMark (point : Point) : Bool :=
  match point.rest with
  | a :: b :: c :: rest =>
    a == b && b == c && (a == '-' || a == '.') && spacingOrEnd rest.head?
  | _ => false

end Point

end Arborist.Yaml

import Arborist.Yaml.LoadFault
import Arborist.Yaml.Point

/-!
# The text of scalars

How the text of a scalar is read in each of its styles: plain, quoted, and as a block. In all of
them a single line break counts as a space and further ones are kept, blocks marked `|` excepted.

A reader gives the text and the point after it; it fails on a text that is not closed or not well
formed. Loops carry a number of steps that bounds them, the length of what is left.
-/

namespace Arborist.Yaml

/-! ### Plain scalars -/

/-- Characters that end a plain scalar inside brackets and braces. -/
def flowStops : List Char := [',', '?', '[', ']', '\x7b', '\x7d']

/-- How many characters of a plain scalar stand here without spacing. A colon ends it before
spacing, and inside brackets and braces also before one of those. -/
def plainLength (inFlow : Bool) : List Char → Nat
  | [] => 0
  | c :: rest =>
    let colonEnds := spacingOrEnd rest.head?
      || (inFlow && (rest.head?.map fun d => d != '?' && flowStops.contains d).getD false)
    if isSpacing c || (c == ':' && colonEnds) || (inFlow && flowStops.contains c) then 0
    else plainLength inFlow rest + 1

/-- Line breaks and spaces after the first line break; the breaks as text. The flag says that the
end of the document follows. -/
def plainBreaks : Nat → Point → List (List Char) × Point × Bool
  | 0, point => ([], point, false)
  | steps + 1, point =>
    match point.peek with
    | some ' ' => plainBreaks steps point.next
    | some c =>
      if isBreak c then
        let (text, point) := point.lineBreak
        if point.seesDocumentMark then ([], point, true)
        else
          let (others, point, ended) := plainBreaks steps point
          (text :: others, point, ended)
      else ([], point, false)
    | none => ([], point, false)

/-- What a line break and the further breaks after it count as inside a scalar. -/
def folded (first : List Char) (others : List (List Char)) : List Char :=
  (if first != ['\n'] then first else if others.isEmpty then [' '] else []) ++ others.flatten

/-- The spacing between two parts of a plain scalar, the point after it, and whether it had a line
break. No spacing means that the scalar ends here. -/
def plainSpacing (point : Point) : List Char × Point × Bool :=
  let (spaces, point) := point.takeWhile (· == ' ')
  if (point.peek.map isBreak).getD false then
    let (first, point) := point.lineBreak
    if point.seesDocumentMark then ([], point, true)
    else
      let (others, point, ended) := plainBreaks point.left point
      if ended then ([], point, true) else (folded first others, point, true)
  else (spaces, point, false)

/-- A plain scalar. -/
structure PlainScalar where
  text : List Char
  after : Point
  /-- Whether a line break was passed at its end. -/
  endsLine : Bool

/-- The rest of a plain scalar, after spacing that belongs to it only if more follows. Outside
brackets and braces a line that is not indented enough ends it. -/
def plainFrom (inFlow : Bool) (indent : Int) (spacing : List Char) (endsLine : Bool) :
    Nat → Point → PlainScalar
  | 0, point => ⟨[], point, endsLine⟩
  | steps + 1, point =>
    let length := plainLength inFlow point.rest
    if point.sees '#' || length == 0 then ⟨[], point, endsLine⟩
    else
      let part := point.rest.take length
      let (between, after, hasBreak) := plainSpacing (point.skip length)
      if between.isEmpty || after.sees '#' || (!inFlow && after.column < indent) then
        ⟨spacing ++ part, after, hasBreak⟩
      else
        let others := plainFrom inFlow indent between hasBreak steps after
        { others with text := spacing ++ part ++ others.text }

/-- A plain scalar. Outside brackets and braces its lines are indented deeper than the collection
around it. -/
def plainScalar (inFlow : Bool) (indent : Int) (point : Point) : PlainScalar :=
  plainFrom inFlow (indent + 1) [] false (point.left + 1) point

/-! ### Quoted scalars -/

/-- What a character after a backslash stands for. -/
def simpleEscapes : List (Char × Nat) := [
  ('0', 0x00), ('a', 0x07), ('b', 0x08), ('t', 0x09), ('\t', 0x09), ('n', 0x0A), ('v', 0x0B),
  ('f', 0x0C), ('r', 0x0D), ('e', 0x1B), (' ', 0x20), ('"', 0x22), ('\\', 0x5C), ('/', 0x2F),
  ('N', 0x85), ('_', 0xA0), ('L', 0x2028), ('P', 0x2029)]

/-- How many hexadecimal digits follow a character after a backslash. -/
def hexEscapes : List (Char × Nat) := [('x', 2), ('u', 4), ('U', 8)]

/-- Line breaks inside quotes, with the spacing before and after them. -/
def quotedBreaks : Nat → Point → Option (List (List Char) × Point)
  | 0, point => some ([], point)
  | steps + 1, point =>
    if point.seesDocumentMark then none
    else
      let point := point.skipWhile fun c => c == ' ' || c == '\t'
      if (point.peek.map isBreak).getD false then do
        let (text, point) := point.lineBreak
        let (others, point) ← quotedBreaks steps point
        return (text :: others, point)
      else some ([], point)

/-- The character of an escape, after its backslash. -/
def readEscape (point : Point) : Except LoadFault (List Char × Point) := do
  let c ← orMalformed point.peek
  match simpleEscapes.lookup c, hexEscapes.lookup c with
  | some codePoint, _ => return ([Char.ofNat codePoint], point.next)
  | none, some count =>
    let digits ← orMalformed ((point.next.rest.take count).mapM (Numeral.asciiDigit? 16))
    if digits.length != count then throw .malformed
    let codePoint := Numeral.ofDigits 16 digits
    if codePoint > 0x10FFFF then throw (.noSuchCharacter codePoint)
    if 0xD800 ≤ codePoint ∧ codePoint < 0xE000 then throw (.surrogate codePoint)
    return ([Char.ofNat codePoint], point.skip (count + 1))
  | none, none =>
    if !isBreak c then throw .malformed
    let (others, point) ← orMalformed (quotedBreaks point.left point.lineBreak.2)
    return (others.flatten, point)

/-- Spacing inside quotes: a line break is folded, other spacing is kept. -/
def quotedSpacing (point : Point) : Option (List Char × Point) :=
  let (spaces, point) := point.takeWhile fun c => c == ' ' || c == '\t'
  match point.peek with
  | none => none
  | some c =>
    if isBreak c then do
      let (first, point) := point.lineBreak
      let (others, point) ← quotedBreaks point.left point
      return (folded first others, point)
    else some (spaces, point)

/-- The text of a quoted scalar up to its closing quote, and the point after the quote. In single
quotes a quote is written twice; in double quotes a backslash starts an escape. -/
def quotedFrom (quote : Char) : Nat → Point → Except LoadFault (List Char × Point)
  | 0, _ => .error .malformed
  | steps + 1, point => do
    let c ← orMalformed point.peek
    if quote == '\'' && c == '\'' && point.peek 1 == some '\'' then
      let (others, after) ← quotedFrom quote steps (point.skip 2)
      return ('\'' :: others, after)
    else if c == quote then return ([], point.next)
    else if quote == '"' && c == '\\' then
      let (text, point) ← readEscape point.next
      let (others, after) ← quotedFrom quote steps point
      return (text ++ others, after)
    else if isSpacing c then
      let (text, point) ← orMalformed (quotedSpacing point)
      let (others, after) ← quotedFrom quote steps point
      return (text ++ others, after)
    else
      let (others, after) ← quotedFrom quote steps point.next
      return (c :: others, after)

/-- A quoted scalar, from its opening quote. -/
def quotedScalar (quote : Char) (point : Point) : Except LoadFault (List Char × Point) :=
  quotedFrom quote (point.left + 1) point.next

/-! ### Block scalars -/

/-- What becomes of the line breaks at the end of a block. -/
inductive Chomping where
  | clip
  | strip
  | keep
  deriving DecidableEq

/-- The marks after `|` or `>`: what becomes of the end, and an indentation. -/
def blockMarks (point : Point) : Option (Chomping × Option Nat × Point) :=
  let chomping? (point : Point) : Option Chomping :=
    if point.sees '+' then some .keep else if point.sees '-' then some .strip else none
  let digit? (point : Point) : Option Nat := point.peek.bind (Numeral.asciiDigit? 10)
  let (chomping, indent, point) :=
    match chomping? point, digit? point with
    | some chomping, _ =>
      match digit? point.next with
      | some digit => (chomping, some digit, point.skip 2)
      | none => (chomping, none, point.next)
    | none, some digit =>
      match chomping? point.next with
      | some chomping => (chomping, some digit, point.skip 2)
      | none => (.clip, some digit, point.next)
    | none, none => (.clip, none, point)
  if indent == some 0 || !(point.sees ' ' || breakOrEnd point.peek) then none
  else some (chomping, indent, point)

/-- The rest of a line that may only hold spaces and a comment, with its break. -/
def ignoredLine (point : Point) : Option Point :=
  let point := point.skipWhile (· == ' ')
  let point := if point.sees '#' then point.skipWhile (!isBreak ·) else point
  if breakOrEnd point.peek then some point.lineBreak.2 else none

/-- Spaces up to a column. -/
def spacesUpTo (indent : Nat) (point : Point) : Point :=
  point.skip ((point.rest.take (indent - point.column)).takeWhile (· == ' ')).length

/-- Empty lines before a block whose indentation is given. -/
def blockBreaks (indent : Nat) : Nat → Point → List (List Char) × Point
  | 0, point => ([], point)
  | steps + 1, point =>
    let point := spacesUpTo indent point
    if (point.peek.map isBreak).getD false then
      let (text, point) := point.lineBreak
      let (others, point) := blockBreaks indent steps point
      (text :: others, point)
    else ([], point)

/-- Empty lines before a block whose indentation is not given, and the deepest column reached. -/
def blockLead (deepest : Nat) : Nat → Point → List (List Char) × Nat × Point
  | 0, point => ([], deepest, point)
  | steps + 1, point =>
    match point.peek with
    | some c =>
      if c == ' ' then blockLead (max deepest point.next.column) steps point.next
      else if isBreak c then
        let (text, point) := point.lineBreak
        let (others, deepest, point) := blockLead deepest steps point
        (text :: others, deepest, point)
      else ([], deepest, point)
    | none => ([], deepest, point)

/-- The lines of a block from the empty lines before one of them on. -/
def blockLines (fold : Bool) (chomping : Chomping) (indent : Nat) :
    Nat → List (List Char) → List Char → Point → List Char × Point
  | 0, _, _, point => ([], point)
  | steps + 1, breaks, lastBreak, point =>
    if point.column == indent && point.peek.isSome then
      let startsPlain := !(point.sees ' ' || point.sees '\t')
      let (line, point) := point.takeWhile (!isBreak ·)
      let (lineEnd, point) := point.lineBreak
      let (nextBreaks, point) := blockBreaks indent (point.left + 1) point
      let goesOn := point.column == indent && point.peek.isSome
      let nextPlain := !(point.sees ' ' || point.sees '\t')
      let joint :=
        if !goesOn then []
        else if fold && lineEnd == ['\n'] && startsPlain && nextPlain then
          if nextBreaks.isEmpty then [' '] else []
        else lineEnd
      let (others, after) := blockLines fold chomping indent steps nextBreaks lineEnd point
      (breaks.flatten ++ line ++ joint ++ others, after)
    else
      let tail := match chomping with
        | .strip => []
        | .clip => lastBreak
        | .keep => lastBreak ++ breaks.flatten
      (tail, point)

/-- A block scalar, from its `|` or `>`. -/
def blockScalar (fold : Bool) (indent : Int) (point : Point) : Option (List Char × Point) := do
  let (chomping, given, point) ← blockMarks point.next
  let point ← ignoredLine point
  let least := (max (indent + 1) 1).toNat
  let (breaks, column, point) := match given with
    | some increment =>
      let column := least + increment - 1
      let (breaks, point) := blockBreaks column (point.left + 1) point
      (breaks, column, point)
    | none =>
      let (breaks, deepest, point) := blockLead 0 (point.left + 1) point
      (breaks, max least deepest, point)
  return blockLines fold chomping column (point.left + 1) breaks [] point

end Arborist.Yaml

import Arborist.Yaml.ScalarText
import Arborist.Yaml.Tag

/-!
# Tokens of a YAML text

A `Scan` cuts a text into tokens, no further than it is asked to. Two things are found out on the
way that the characters alone do not show.

Where a block collection starts and ends follows from the columns: a deeper column opens one, a
column further left closes those to its right.

That a scalar or a collection was a key shows only when its colon comes. Until then it is kept as
a possible key: it has to end on its line and within 1024 characters. When the colon comes, the
mark of a key is put in before it afterwards, so a token that may be a key is not given out before
that is settled. A scalar at the column of the mapping around it has to turn out a key.
-/

namespace Arborist.Yaml

/-- A line that says something about the document after it. -/
inductive Directive where
  | version (major : Nat)
  /-- A handle of tags and what it stands for. -/
  | handle (handle lead : String)
  | other
  deriving DecidableEq, Repr

/-- A token. -/
inductive Token where
  | blockSequenceStart
  | blockMappingStart
  | blockEnd
  | flowSequenceStart
  | flowSequenceEnd
  | flowMappingStart
  | flowMappingEnd
  | blockEntry
  | flowEntry
  | key
  | value
  | aliasOf (name : String)
  | anchor (name : String)
  | tag (tag : WrittenTag)
  | scalar (plain : Bool) (text : String)
  | documentStart
  | documentEnd
  | directive (directive : Directive)
  deriving DecidableEq, Repr

/-- A token that may turn out a key. -/
structure PossibleKey where
  /-- How many tokens come before it. -/
  tokenCount : Nat
  /-- Whether it has to turn out a key. -/
  required : Bool
  index : Nat
  line : Nat
  column : Nat

/-- How far scanning has come. -/
structure Scan where
  point : Point
  /-- The tokens that have been found and not yet been taken. -/
  pending : List Token := []
  /-- How many tokens have been taken. -/
  taken : Nat := 0
  /-- Whether the end of the text has been reached. -/
  ended : Bool := false
  /-- How many brackets and braces are open. -/
  flowLevel : Nat := 0
  /-- The column of the innermost block collection, and those of the ones around it. -/
  indent : Int := -1
  indents : List Int := []
  /-- Whether a key may start here. -/
  keyAllowed : Bool := true
  /-- The possible keys, by how many brackets and braces are open around them. -/
  possibleKeys : List (Nat × PossibleKey) := []

/-- The result of a step of scanning. -/
abbrev Scanned := Except LoadFault Scan

namespace Scan

/-- Whether brackets or braces are open. -/
def inFlow (scan : Scan) : Bool := scan.flowLevel > 0

/-- Put a token at the end. -/
def push (scan : Scan) (token : Token) : Scan := { scan with pending := scan.pending ++ [token] }

/-- Put a token behind a number of tokens, those taken included. -/
def insertAt (scan : Scan) (count : Nat) (token : Token) : Scan :=
  let place := count - scan.taken
  { scan with pending := scan.pending.take place ++ token :: scan.pending.drop place }

/-- Go on to another point. -/
def moveTo (scan : Scan) (point : Point) : Scan := { scan with point := point }

/-- Give up the possible keys that can no longer be keys. -/
def dropStaleKeys (scan : Scan) : Scanned :=
  let stale (key : PossibleKey) : Bool :=
    key.line != scan.point.line || scan.point.index - key.index > 1024
  if scan.possibleKeys.any fun (_, key) => stale key && key.required then .error .malformed
  else .ok { scan with possibleKeys := scan.possibleKeys.filter fun (_, key) => !stale key }

/-- Give up the possible key of the present level. -/
def dropKey (scan : Scan) : Scanned :=
  match scan.possibleKeys.lookup scan.flowLevel with
  | none => .ok scan
  | some key =>
    if key.required then .error .malformed
    else .ok { scan with possibleKeys := scan.possibleKeys.filter (·.1 != scan.flowLevel) }

/-- Remember that the next token may be a key. -/
def noteKey (scan : Scan) : Scanned :=
  if scan.keyAllowed then do
    let required := !scan.inFlow && scan.indent == scan.point.column
    let scan ← scan.dropKey
    let key : PossibleKey :=
      ⟨scan.taken + scan.pending.length, required, scan.point.index, scan.point.line,
        scan.point.column⟩
    return { scan with possibleKeys := (scan.flowLevel, key) :: scan.possibleKeys }
  else .ok scan

/-- Close the columns to the right of a column. -/
def closeColumns (column : Int) : List Int → Int → List Token × List Int × Int
  | [], indent => if indent > column then ([.blockEnd], [], -1) else ([], [], indent)
  | outer :: indents, indent =>
    if indent > column then
      let (ends, indents, indent) := closeColumns column indents outer
      (.blockEnd :: ends, indents, indent)
    else ([], outer :: indents, indent)

/-- Close the block collections to the right of a column. -/
def unwind (scan : Scan) (column : Int) : Scan :=
  if scan.inFlow then scan
  else
    let (ends, indents, indent) := closeColumns column scan.indents scan.indent
    { scan with pending := scan.pending ++ ends, indents := indents, indent := indent }

/-- Open a block collection at a column, unless one is open there. The flag says whether it was
opened. -/
def openColumn (scan : Scan) (column : Int) : Scan × Bool :=
  if scan.indent < column then
    ({ scan with indents := scan.indent :: scan.indents, indent := column }, true)
  else (scan, false)

/-- Open a block collection here, and put its token at the end. -/
def openHere (scan : Scan) (token : Token) : Scan :=
  match scan.openColumn scan.point.column with
  | (scan, true) => scan.push token
  | (scan, false) => scan

/-- Pass over spaces, comments and line breaks. Outside brackets and braces a key may start on a
new line. -/
def skipToToken (inFlow : Bool) : Nat → Point → Bool → Point × Bool
  | 0, point, keyAllowed => (point, keyAllowed)
  | steps + 1, point, keyAllowed =>
    let point := point.skipWhile (· == ' ')
    let point := if point.sees '#' then point.skipWhile (!isBreak ·) else point
    match point.lineBreak with
    | ([], point) => (point, keyAllowed)
    | (_, point) => skipToToken inFlow steps point (keyAllowed || !inFlow)

/-! ### One token -/

/-- Close everything up to the left margin. No key may start here. -/
def closeAll (scan : Scan) : Scanned := do
  let scan ← (scan.unwind (-1)).dropKey
  return { scan with keyAllowed := false }

/-- A mark at the start or the end of a document. -/
def documentMark (scan : Scan) (token : Token) : Scanned := do
  let scan ← scan.closeAll
  return (scan.moveTo (scan.point.skip 3)).push token

/-- An opening bracket or brace. -/
def openFlow (scan : Scan) (token : Token) : Scanned := do
  let scan ← scan.noteKey
  let scan := { scan with flowLevel := scan.flowLevel + 1, keyAllowed := true }
  return (scan.moveTo scan.point.next).push token

/-- A closing bracket or brace. Without an open one it is refused. -/
def closeFlow (scan : Scan) (token : Token) : Scanned := do
  if !scan.inFlow then throw .malformed
  let scan ← scan.dropKey
  let scan := { scan with flowLevel := scan.flowLevel - 1, keyAllowed := false }
  return (scan.moveTo scan.point.next).push token

/-- A comma. -/
def flowEntry (scan : Scan) : Scanned := do
  let scan ← { scan with keyAllowed := true }.dropKey
  return (scan.moveTo scan.point.next).push .flowEntry

/-- A dash before an entry. -/
def blockEntry (scan : Scan) : Scanned := do
  if !scan.inFlow && !scan.keyAllowed then throw .malformed
  let scan := if scan.inFlow then scan else scan.openHere .blockSequenceStart
  let scan ← { scan with keyAllowed := true }.dropKey
  return (scan.moveTo scan.point.next).push .blockEntry

/-- A question mark before a key. -/
def explicitKey (scan : Scan) : Scanned := do
  if !scan.inFlow && !scan.keyAllowed then throw .malformed
  let scan := if scan.inFlow then scan else scan.openHere .blockMappingStart
  let scan ← { scan with keyAllowed := !scan.inFlow }.dropKey
  return (scan.moveTo scan.point.next).push .key

/-- A colon before a value: what was a possible key is one. -/
def value (scan : Scan) : Scanned :=
  match scan.possibleKeys.lookup scan.flowLevel with
  | some key =>
    let scan :=
      { scan with possibleKeys := scan.possibleKeys.filter (·.1 != scan.flowLevel) }
    let scan := scan.insertAt key.tokenCount .key
    let scan :=
      if scan.inFlow then scan
      else match scan.openColumn key.column with
        | (scan, true) => scan.insertAt key.tokenCount .blockMappingStart
        | (scan, false) => scan
    let scan := { scan with keyAllowed := false }
    .ok ((scan.moveTo scan.point.next).push .value)
  | none => do
    if !scan.inFlow && !scan.keyAllowed then throw .malformed
    let scan := if scan.inFlow then scan else scan.openHere .blockMappingStart
    let scan ← { scan with keyAllowed := !scan.inFlow }.dropKey
    return (scan.moveTo scan.point.next).push .value

/-- The name of an anchor, after its mark. -/
def anchorName (point : Point) : Option (String × Point) :=
  let (name, after) := point.takeWhile isNameChar
  let ends := (after.peek.map fun c =>
    isSpacing c || ['?', ':', ',', ']', '\x7d', '%', '@', '\x60'].contains c).getD true
  if name.isEmpty || !ends then none else some (String.ofList name, after)

/-- A token that names a node. -/
def nameToken (scan : Scan) (make : String → Token) : Scanned := do
  let scan ← scan.noteKey
  let (name, point) ← orMalformed (anchorName scan.point.next)
  return ({ scan with keyAllowed := false }.moveTo point).push (make name)

/-- A tag. -/
def tagToken (scan : Scan) : Scanned := do
  let scan ← scan.noteKey
  let (tag, point) ← orMalformed (tagAt scan.point)
  return ({ scan with keyAllowed := false }.moveTo point).push (.tag tag)

/-- A number of a version. -/
def versionNumber (point : Point) : Except LoadFault (Nat × Point) := do
  let (digits, after) := point.takeWhile Char.isDigit
  if digits.isEmpty then throw .malformed
  let number ← (Numeral.readInteger 10 (String.ofList digits)).mapError .integer
  return (number.toNat, after)

/-- A version: two numbers, of which the first is kept. -/
def versionAt (point : Point) : Except LoadFault (Nat × Point) := do
  let (major, point) ← versionNumber (point.skipWhile (· == ' '))
  if !point.sees '.' then throw .malformed
  let (_, point) ← versionNumber point.next
  if !endsWritten point then throw .malformed
  return (major, point)

/-- A directive, from its percent sign up to the end of its line. -/
def directiveAt (point : Point) : Except LoadFault (Directive × Point) := do
  let (name, point) := point.next.takeWhile isNameChar
  if name.isEmpty || !endsWritten point then throw .malformed
  let (directive, point) ← match String.ofList name with
    | "YAML" => do
      let (major, point) ← versionAt point
      pure (Directive.version major, point)
    | "TAG" => do
      let (handle, lead, point) ← orMalformed (tagDirectiveAt point)
      pure (Directive.handle handle lead, point)
    | _ => pure (Directive.other, point.skipWhile (!isBreak ·))
  return (directive, ← orMalformed (ignoredLine point))

/-- A directive, on a line of its own. -/
def directiveToken (scan : Scan) : Scanned := do
  let scan ← scan.closeAll
  let (directive, point) ← directiveAt scan.point
  return (scan.moveTo point).push (.directive directive)

/-- A block scalar. -/
def blockScalarToken (scan : Scan) (fold : Bool) : Scanned := do
  let scan ← { scan with keyAllowed := true }.dropKey
  let (text, point) ← orMalformed (blockScalar fold scan.indent scan.point)
  return (scan.moveTo point).push (.scalar false (String.ofList text))

/-- A quoted scalar. -/
def quotedToken (scan : Scan) (quote : Char) : Scanned := do
  let scan ← scan.noteKey
  let (text, point) ← quotedScalar quote scan.point
  return ({ scan with keyAllowed := false }.moveTo point).push (.scalar false (String.ofList text))

/-- A plain scalar. -/
def plainToken (scan : Scan) : Scanned := do
  let scan ← scan.noteKey
  let found := plainScalar scan.inFlow scan.indent scan.point
  return ({ scan with keyAllowed := found.endsLine }.moveTo found.after).push
    (.scalar true (String.ofList found.text))

/-- Characters that do not start a plain scalar. -/
def indicators : List Char :=
  ['-', '?', ':', ',', '[', ']', '\x7b', '\x7d', '#', '&', '*', '!', '|', '>', '\'', '"', '%', '@',
    '\x60']

/-- Whether a plain scalar starts with a character. A dash does before anything but spacing, and
outside brackets and braces a question mark and a colon do too. -/
def startsPlain (scan : Scan) (c : Char) : Bool :=
  !(isSpacing c || indicators.contains c)
    || (!spacingOrEnd (scan.point.peek 1) && (c == '-' || (!scan.inFlow && (c == '?' || c == ':'))))

/-- The token that starts with a character. -/
def oneToken (scan : Scan) (c : Char) : Scanned :=
  let spacingNext := spacingOrEnd (scan.point.peek 1)
  let atMargin := scan.point.column == 0
  if c == '%' && atMargin then scan.directiveToken
  else if c == '-' && atMargin && scan.point.seesDocumentMark then scan.documentMark .documentStart
  else if c == '.' && atMargin && scan.point.seesDocumentMark then scan.documentMark .documentEnd
  else if c == '[' then scan.openFlow .flowSequenceStart
  else if c == '\x7b' then scan.openFlow .flowMappingStart
  else if c == ']' then scan.closeFlow .flowSequenceEnd
  else if c == '\x7d' then scan.closeFlow .flowMappingEnd
  else if c == ',' then scan.flowEntry
  else if c == '-' && spacingNext then scan.blockEntry
  else if c == '?' && (scan.inFlow || spacingNext) then scan.explicitKey
  else if c == ':' && (scan.inFlow || spacingNext) then scan.value
  else if c == '*' then scan.nameToken .aliasOf
  else if c == '&' then scan.nameToken .anchor
  else if c == '!' then scan.tagToken
  else if c == '|' && !scan.inFlow then scan.blockScalarToken false
  else if c == '>' && !scan.inFlow then scan.blockScalarToken true
  else if c == '\'' then scan.quotedToken '\''
  else if c == '"' then scan.quotedToken '"'
  else if scan.startsPlain c then scan.plainToken
  else .error .malformed

/-! ### Tokens on demand -/

/-- Find another token, or the end of the text. -/
def goOn (scan : Scan) : Scanned := do
  let (point, keyAllowed) :=
    skipToToken scan.inFlow (scan.point.left + 1) scan.point scan.keyAllowed
  let scan ← ({ scan with keyAllowed := keyAllowed }.moveTo point).dropStaleKeys
  let scan := scan.unwind scan.point.column
  match scan.point.peek with
  | none => return { ← scan.closeAll with ended := true, possibleKeys := [] }
  | some c => scan.oneToken c

/-- Whether the next token is still open: there is none yet, or it may turn out a key. -/
def isOpen (scan : Scan) : Bool :=
  !scan.ended && (scan.pending.isEmpty
    || (scan.possibleKeys.map (·.2.tokenCount)).min? == some scan.taken)

/-- Scan until the next token is settled. Each step passes over a character or reaches the end. -/
def settle : Nat → Scan → Scanned
  | 0, _ => .error .malformed
  | steps + 1, scan => do
    let scan ← if scan.ended || scan.pending.isEmpty then pure scan else scan.dropStaleKeys
    if scan.isOpen then settle steps (← scan.goOn) else return scan

/-- Take the next token. -/
def take (scan : Scan) : Scan :=
  { scan with pending := scan.pending.tail, taken := scan.taken + 1 }

end Scan

/-- A character that may stand in a YAML text. -/
def isYamlChar (c : Char) : Bool :=
  let n := c.toNat
  n == 0x09 || n == 0x0A || n == 0x0D || (0x20 ≤ n && n ≤ 0x7E) || n == 0x85
    || (0xA0 ≤ n && n ≤ 0xFFFD) || 0x10000 ≤ n

/-- The start of a text, all of whose characters have to be allowed. A byte order mark at its start
is passed over. -/
def Scan.ofText (text : String) : Scanned :=
  let point := Point.ofText text
  let point := if (point.peek.map (·.toNat == 0xFEFF)).getD false then point.next else point
  if text.toList.all isYamlChar then .ok { point := point } else .error .malformed

end Arborist.Yaml

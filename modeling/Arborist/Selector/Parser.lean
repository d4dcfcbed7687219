import Arborist.Selector.Basic
import Arborist.Selector.Flaw
import Arborist.Text.Blank
import Arborist.Text.Letter

/-!
# Reading selectors

`Selector.parse` reads a pattern such as

    class_declaration > class_body method_definition:not(:has(async))

A pattern is a chain of compounds, joined by `>` (parent) or by blanks (ancestor), to the left. A
compound is an optional kind followed by attributes in brackets and pseudo-selectors after colons.
The argument of a pseudo-selector reaches to the closing parenthesis that balances it, quotes
taken into account; the arguments of `has` and `not` are patterns again.

The reader works on what is left of the pattern and the number of characters before it. Loops
carry a number of steps that bounds them; each step uses up a character, so the length of what is
left is enough.
-/

namespace Arborist

open Text

/-- What is left of a pattern, and how many characters stand before it. -/
structure Cursor where
  rest : List Char
  position : Nat
  deriving DecidableEq, Repr

namespace Cursor

/-- Pass over a number of characters. -/
def advance (cursor : Cursor) (count : Nat) : Cursor :=
  ⟨cursor.rest.drop count, cursor.position + count⟩

/-- Pass over the characters that satisfy a predicate, up to the first that does not. -/
def passWhile (cursor : Cursor) (p : Char → Bool) : Cursor :=
  ⟨cursor.rest.dropWhile p, cursor.position + (cursor.rest.takeWhile p).length⟩

/-- Pass over blanks. -/
def skipBlanks (cursor : Cursor) : Cursor := cursor.passWhile isBlank

end Cursor

namespace Selector

/-- A character that a kind may start with. -/
def isNameStart (c : Char) : Bool := isLetter c || c == '_'

/-- A character of a name. -/
def isNameChar (c : Char) : Bool := isAlphanumeric c || c == '_' || c == '-'

/-- The pseudo-selectors whose argument is a pattern. -/
def takesPattern (name : String) : Bool := name == "has" || name == "not"

/-- The body of a quoted value up to its closing quote, and what is left from there. A backslash
before the quote stands for the quote; before any other character both are kept. -/
def quotedBody (quote : Char) : List Char → List Char × List Char
  | [] => ([], [])
  | '\\' :: c :: cs =>
    let (body, rest) := quotedBody quote cs
    (if c == quote then c :: body else '\\' :: c :: body, rest)
  | c :: cs =>
    if c == quote then ([], c :: cs)
    else
      let (body, rest) := quotedBody quote cs
      (c :: body, rest)

/-- An argument up to the parenthesis that closes it. -/
structure Argument where
  text : List Char
  rest : List Char
  /-- One more than the text if the pattern ends in a backslash inside quotes: the backslash
  counts as a pair. -/
  width : Nat
  deriving DecidableEq, Repr

/-- Put a character before an argument. -/
def Argument.cons (c : Char) (argument : Argument) : Argument :=
  ⟨c :: argument.text, argument.rest, argument.width + 1⟩

/-- The argument up to the parenthesis that closes it, given how many parentheses are open and
the quote that is open. Inside quotes parentheses do not count and a backslash goes with the
character after it. -/
def argument (depth : Nat) : Option Char → List Char → Argument
  | _, [] => ⟨[], [], 0⟩
  | some quote, c :: cs =>
    if c == '\\' then
      match cs with
      | [] => ⟨['\\'], [], 2⟩
      | d :: ds => (argument depth (some quote) ds).cons d |>.cons c
    else (argument depth (if c == quote then none else some quote) cs).cons c
  | none, c :: cs =>
    if c == '"' || c == '\'' then (argument depth (some c) cs).cons c
    else if c == '(' then (argument (depth + 1) none cs).cons c
    else if c == ')' then
      match depth with
      | 0 => ⟨[], c :: cs, 0⟩
      | depth + 1 => (argument depth none cs).cons c
    else (argument depth none cs).cons c

section Reader

-- The whole pattern, for flaws, and how the arguments of `has` and `not` are read.
variable (pattern : String) (readInner : String → Except Flaw Selector)

/-- A flaw at a cursor. -/
def flawAt (cursor : Cursor) (cause : Flaw.Cause) : Flaw := ⟨cause, pattern, cursor.position⟩

/-- Pass over a required character. -/
def expect (wanted : Char) (cursor : Cursor) : Except Flaw Cursor :=
  if cursor.rest.head? == some wanted then .ok (cursor.advance 1)
  else .error (flawAt pattern cursor (.expected wanted cursor.rest.head?))

/-- A name, which may turn out empty. -/
def readName (cursor : Cursor) : String × Cursor :=
  (String.ofList (cursor.rest.takeWhile isNameChar), cursor.passWhile isNameChar)

/-- The value of an attribute: between quotes, or a name. -/
def readValue (cursor : Cursor) : Except Flaw (String × Cursor) := do
  let cursor := cursor.skipBlanks
  match cursor.rest with
  | c :: cs =>
    if c == '"' || c == '\'' then
      let (body, rest) := quotedBody c cs
      let closing ← expect pattern c ⟨rest, cursor.position + 1 + (cs.length - rest.length)⟩
      return (String.ofList body, closing)
    else named cursor
  | [] => named cursor
where
  /-- A value without quotes. -/
  named (cursor : Cursor) : Except Flaw (String × Cursor) :=
    let (name, after) := readName cursor
    if name.isEmpty then .error (flawAt pattern after .expectedAttributeValue)
    else .ok (name, after)

/-- The operator at a cursor, if there is one. -/
def readOperator (cursor : Cursor) : Option (Operator × Cursor) :=
  (Operator.all.find? fun operator => operator.symbol.toList.isPrefixOf cursor.rest).map
    fun operator => (operator, cursor.advance operator.symbol.length)

/-- An attribute in brackets. -/
def readAttribute (cursor : Cursor) : Except Flaw (Selector × Cursor) := do
  let cursor ← expect pattern '[' cursor
  let (name, cursor) := readName cursor.skipBlanks
  if name.isEmpty then throw (flawAt pattern cursor .expectedAttributeName)
  let cursor := cursor.skipBlanks
  match readOperator cursor with
  | none =>
    let cursor ← expect pattern ']' cursor.skipBlanks
    return (.attr name .equals none, cursor)
  | some (operator, cursor) =>
    let (value, cursor) ← readValue pattern cursor
    let cursor ← expect pattern ']' cursor.skipBlanks
    return (.attr name operator (some value), cursor)

/-- A pseudo-selector after its colon, with its argument if a parenthesis follows the name. -/
def readPseudo (cursor : Cursor) : Except Flaw (Selector × Cursor) := do
  let cursor ← expect pattern ':' cursor
  let (name, cursor) := readName cursor
  if name.isEmpty then throw (flawAt pattern cursor .expectedPseudoName)
  if cursor.rest.head? != some '(' then return (.pseudo name none none, cursor)
  let cursor := cursor.advance 1
  let found := argument 0 none cursor.rest
  let text := String.ofList found.text
  let cursor ← expect pattern ')' ⟨found.rest, cursor.position + found.width⟩
  if !takesPattern name then return (.pseudo name (some text) none, cursor)
  if allBlank text then throw (flawAt pattern cursor (.emptyArgument name))
  return (.pseudo name (some text) (some (← readInner text)), cursor)

/-- The attributes and pseudo-selectors that follow one another at a cursor. -/
def readParts : Nat → Cursor → Except Flaw (List Selector × Cursor)
  | 0, cursor => .ok ([], cursor)
  | steps + 1, cursor => do
    match cursor.rest.head? with
    | some '[' =>
      let (part, cursor) ← readAttribute pattern cursor
      let (parts, cursor) ← readParts steps cursor
      return (part :: parts, cursor)
    | some ':' =>
      let (part, cursor) ← readPseudo pattern readInner cursor
      let (parts, cursor) ← readParts steps cursor
      return (part :: parts, cursor)
    | _ => return ([], cursor)

/-- Several parts together; one part stands for itself. -/
def together : List Selector → Selector
  | [part] => part
  | parts => .all parts

/-- A compound: an optional kind, then attributes and pseudo-selectors, at least one in all. -/
def readCompound (cursor : Cursor) : Except Flaw (Selector × Cursor) := do
  let startsKind := (cursor.rest.head?.map isNameStart).getD false
  let (name, afterName) := readName cursor
  let (kinds, cursor) : List Selector × Cursor :=
    if startsKind then ([.kind name], afterName) else ([], cursor)
  let (parts, cursor) ← readParts pattern readInner cursor.rest.length cursor
  if (kinds ++ parts).isEmpty then
    throw (flawAt pattern cursor (.expectedSelector cursor.rest.head?))
  return (together (kinds ++ parts), cursor)

/-- The rest of a chain, whose compounds so far are on the left. -/
def readChain (left : Selector) : Nat → Cursor → Except Flaw Selector
  | 0, _ => .ok left
  | steps + 1, cursor => do
    let next := cursor.skipBlanks
    match next.rest with
    | [] => return left
    | c :: _ =>
      if c == '>' then
        let (right, cursor) ← readCompound pattern readInner (next.advance 1).skipBlanks
        readChain (.child left right) steps cursor
      else if cursor.position < next.position then
        let (right, cursor) ← readCompound pattern readInner next
        readChain (.descendant left right) steps cursor
      else throw (flawAt pattern next (.unexpected c))

/-- A whole pattern. -/
def readPattern : Except Flaw Selector := do
  let input := strip pattern.toList
  if input.isEmpty then throw ⟨.emptyPattern, pattern, 0⟩
  let (left, cursor) ← readCompound pattern readInner ⟨input, 0⟩
  readChain pattern readInner left (cursor.rest.length + 1) cursor

end Reader

/-- Read a pattern whose arguments are nested less deep than a bound. -/
def parseWithin : Nat → String → Except Flaw Selector
  | 0, pattern => .error ⟨.emptyPattern, pattern, 0⟩
  | depth + 1, pattern => readPattern pattern (parseWithin depth)

/-- Read a pattern. An argument is shorter than the pattern it stands in, so the length of the
pattern bounds the nesting. -/
def parse (pattern : String) : Except Flaw Selector := parseWithin (pattern.length + 1) pattern

end Selector

end Arborist

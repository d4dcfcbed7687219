import Arborist.Text.Bytes
import Arborist.Yaml.LoadFault
import Arborist.Yaml.Point

/-!
# Tags

A tag says what a node stands for. In a text it is written in full between angle brackets, or as a
handle and a suffix; the handle stands for the start of the full tag. Two handles are defined
without a directive. Characters may be written as percent signs with the hexadecimal digits of
their UTF-8 bytes.

* `Tag` is what a full tag means.
* `tagAt` reads a tag as it is written, `tagDirectiveAt` a directive that defines a handle.
-/

namespace Arborist.Yaml

open Text

/-- What a tag says about a node. -/
inductive Tag where
  | null
  | truth
  | integer
  | fraction
  | bytes
  | moment
  | text
  | sequence
  | mapping
  /-- A list of keys with their values, in order. -/
  | orderedMapping
  | pairs
  | set
  /-- A key whose value is merged into the mapping. -/
  | mergeMark
  /-- A key whose value stands for the mapping where a scalar is asked for. -/
  | equalsMark
  | unknown
  deriving DecidableEq, Repr

/-- What the tags of plain data start with. -/
def coreLead : String := "tag:yaml.org,2002:"

/-- The tags of plain data by what follows the common start. -/
def coreTags : List (String × Tag) := [
  ("null", .null), ("bool", .truth), ("int", .integer), ("float", .fraction), ("binary", .bytes),
  ("timestamp", .moment), ("str", .text), ("seq", .sequence), ("map", .mapping),
  ("omap", .orderedMapping), ("pairs", .pairs), ("set", .set), ("merge", .mergeMark),
  ("value", .equalsMark)]

/-- What a full tag means. -/
def Tag.ofName (name : String) : Tag :=
  ((coreTags.find? fun entry => coreLead ++ entry.1 == name).map Prod.snd).getD .unknown

/-- What the handles stand for that need no directive. -/
def defaultHandles : List (String × String) := [("!", "!"), ("!!", coreLead)]

/-- A character of a handle, of a name of an anchor, or of a name of a directive. -/
def isNameChar (c : Char) : Bool := c.isAlphanum || c == '-' || c == '_'

/-- A character of a tag. -/
def isTagChar (c : Char) : Bool :=
  c.isAlphanum || "-;/?:@&=+$,_.!~*'()[]%".toList.contains c

/-- Bytes written as percent signs with two digits each, as far as they go. -/
def percentBytes : Nat → Point → Option (Bytes × Point)
  | 0, point => some ([], point)
  | steps + 1, point =>
    if !point.sees '%' then some ([], point)
    else do
      let high ← (point.peek 1).bind (Numeral.asciiDigit? 16)
      let low ← (point.peek 2).bind (Numeral.asciiDigit? 16)
      let (others, after) ← percentBytes steps (point.skip 3)
      return (UInt8.ofNat (high * 16 + low) :: others, after)

/-- The characters of a tag, as far as they go. -/
def tagCharsFrom : Nat → Point → Option (List Char × Point)
  | 0, point => some ([], point)
  | steps + 1, point =>
    match point.peek with
    | none => some ([], point)
    | some c =>
      if !isTagChar c then some ([], point)
      else if c == '%' then do
        let (bytes, after) ← percentBytes point.left point
        let text ← decode? bytes
        let (others, after) ← tagCharsFrom steps after
        return (text.toList ++ others, after)
      else do
        let (others, after) ← tagCharsFrom steps point.next
        return (c :: others, after)

/-- The characters of a tag, of which there has to be one as written. -/
def tagChars (point : Point) : Option (String × Point) := do
  if !(point.peek.map isTagChar).getD false then none
  let (cs, after) ← tagCharsFrom point.left point
  return (String.ofList cs, after)

/-- A handle: an exclamation mark, or a name between two. -/
def tagHandle (point : Point) : Option (String × Point) :=
  if !point.sees '!' then none
  else if point.peek 1 == some ' ' then some ("!", point.next)
  else
    let (name, after) := point.next.takeWhile isNameChar
    if after.sees '!' then some ("!" ++ String.ofList name ++ "!", after.next) else none

/-- Whether a tag or a directive may end here: before a space, a line break or the end. -/
def endsWritten (point : Point) : Bool := point.sees ' ' || breakOrEnd point.peek

/-- A tag as it is written: a handle, if it has one, and the rest. -/
structure WrittenTag where
  handle : Option String
  suffix : String
  deriving DecidableEq, Repr

/-- The full form of a tag, if its handle is defined. -/
def WrittenTag.full? (tag : WrittenTag) (handles : List (String × String)) : Option String :=
  match tag.handle with
  | none => some tag.suffix
  | some handle => (handles.lookup handle).map (· ++ tag.suffix)

/-- The handle of a tag and the point after it. It is a name between exclamation marks if there is
a second one before the next space. -/
def handleAt (point : Point) : Option (String × Point) :=
  let ahead := point.next.rest.takeWhile fun c => c != ' ' && !isBreak c
  if ahead.contains '!' then tagHandle point else some ("!", point.next)

/-- A tag, from its exclamation mark. An exclamation mark alone has no handle. -/
def tagAt (point : Point) : Option (WrittenTag × Point) := do
  let (tag, after) ←
    if point.peek 1 == some '<' then do
      let (suffix, after) ← tagChars (point.skip 2)
      if !after.sees '>' then none
      pure (WrittenTag.mk none suffix, after.next)
    else if spacingOrEnd (point.peek 1) then pure (WrittenTag.mk none "!", point.next)
    else do
      let (handle, after) ← handleAt point
      let (suffix, after) ← tagChars after
      pure (WrittenTag.mk (some handle) suffix, after)
  if endsWritten after then some (tag, after) else none

/-- What a directive for a handle says: the handle and what it stands for. -/
def tagDirectiveAt (point : Point) : Option (String × String × Point) := do
  let (handle, point) ← tagHandle (point.skipWhile (· == ' '))
  if !point.sees ' ' then none
  let (lead, point) ← tagChars (point.skipWhile (· == ' '))
  if endsWritten point then some (handle, lead, point) else none

end Arborist.Yaml

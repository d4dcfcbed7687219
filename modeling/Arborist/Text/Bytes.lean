/-!
# Source bytes

Positions in a source are offsets into its UTF-8 bytes. A source is a list of bytes; a slice is
cut by two offsets and clipped to what exists; text is read from a slice only if the slice is
valid UTF-8.

* `encode` and `decode?` between texts and bytes.
* `slice`, `rowOf`, `lineStart`, `nextLineStart`: places in a source, all defined for offsets past
  its end.
* `DecodeFault`: where and why bytes are not UTF-8, for messages.
-/

namespace Arborist.Text

/-- The bytes of a source. -/
abbrev Bytes := List UInt8

/-- The line feed, which alone separates the rows of a source. -/
def lineFeed : UInt8 := 10

/-- The UTF-8 bytes of a text. -/
def encode (text : String) : Bytes := text.toByteArray.data.toList

/-- The text that bytes stand for, if they are valid UTF-8. -/
def decode? (bytes : Bytes) : Option String := String.fromUTF8? bytes.toByteArray

/-- The bytes from one offset up to another, clipped to the bytes that exist. -/
def slice (bytes : Bytes) (start stop : Nat) : Bytes := (bytes.take stop).drop start

/-- A byte that continues a character: its two high bits are `10`. -/
def isContinuation (byte : UInt8) : Bool := byte &&& 0xC0 == 0x80

/-- The row of an offset: the number of line feeds before it. -/
def rowOf (bytes : Bytes) (offset : Nat) : Nat := (bytes.take offset).count lineFeed

/-- Where the row of an offset starts: just after the last line feed before the offset. -/
def lineStart (bytes : Bytes) (offset : Nat) : Nat :=
  let before := bytes.take offset
  before.length - (before.reverse.takeWhile (· != lineFeed)).length

/-- Where the row after an offset starts: just after the first line feed at or after the offset,
or at the end of the source. -/
def nextLineStart (bytes : Bytes) (offset : Nat) : Nat :=
  let after := bytes.drop offset
  let line := after.takeWhile (· != lineFeed)
  if line.length < after.length then offset + line.length + 1 else bytes.length

/-- Why bytes are not UTF-8. -/
inductive DecodeReason where
  | badStart
  | badContinuation
  | cutShort
  deriving DecidableEq, Repr

/-- The first place where bytes stop being UTF-8: the bytes from `start` up to `stop`, the first
of which is `byte`. -/
structure DecodeFault where
  byte : UInt8
  start : Nat
  stop : Nat
  reason : DecodeReason
  deriving DecidableEq, Repr

/-- What is wrong with the character that a lead byte opens, given the bytes after it: how many
bytes of the character can be told apart as wrong, and why. `none` if the character is sound, with
its length found by `characterLength`. -/
def characterFault (lead : UInt8) (rest : Bytes) : Option (Nat × DecodeReason) :=
  let needed := if lead < 0x80 then 0 else if lead < 0xE0 then 1 else if lead < 0xF0 then 2 else 3
  let secondOk (b : UInt8) : Bool :=
    isContinuation b
      && !(lead == 0xE0 && b < 0xA0) && !(lead == 0xED && b ≥ 0xA0)
      && !(lead == 0xF0 && b < 0x90) && !(lead == 0xF4 && b ≥ 0x90)
  if lead < 0x80 then none
  else if lead < 0xC2 || lead ≥ 0xF5 then some (1, .badStart)
  else match rest.take needed with
    | [] => some (1, .cutShort)
    | second :: others =>
      if !secondOk second then some (1, .badContinuation)
      else
        let sound := (others.takeWhile isContinuation).length
        if sound < others.length then some (2 + sound, .badContinuation)
        else if others.length + 1 < needed then some (rest.length + 1, .cutShort)
        else none

/-- How many bytes the character of a lead byte has. -/
def characterLength (lead : UInt8) : Nat :=
  if lead < 0x80 then 1 else if lead < 0xE0 then 2 else if lead < 0xF0 then 3 else 4

/-- The first fault at or after an offset; `skip` bytes belong to a character already read. -/
def faultFrom (offset skip : Nat) : Bytes → Option DecodeFault
  | [] => none
  | byte :: rest =>
    match skip with
    | skip + 1 => faultFrom (offset + 1) skip rest
    | 0 =>
      match characterFault byte rest with
      | some (width, reason) => some ⟨byte, offset, offset + width, reason⟩
      | none => faultFrom (offset + 1) (characterLength byte - 1) rest

/-- The first place where bytes stop being UTF-8. -/
def decodeFault? (bytes : Bytes) : Option DecodeFault := faultFrom 0 0 bytes

end Arborist.Text

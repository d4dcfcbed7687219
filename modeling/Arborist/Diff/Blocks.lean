/-!
# What two texts have in common

Two lists of lines are compared by their longest common stretch, then again on both sides of it.
Of several longest stretches the first in the old text counts, and of those the first in the new
text.

A stretch is not started by a line that is too frequent in the new text: in a text of two hundred
lines or more, one that makes up more than a hundredth of it, rounded down, plus one. Such lines
may still extend a stretch, on either side.
-/

namespace Arborist.Diff

/-- Lines that two texts share: where they start in each, and how many they are. -/
structure Block where
  old : Nat
  new : Nat
  size : Nat
  deriving DecidableEq, Repr

/-- Whether a line is too frequent in a text to start a common stretch. -/
def isFrequent (text : List String) (line : String) : Bool :=
  text.length ≥ 200 && text.count line > text.length / 100 + 1

/-- For each line of the new text, how long the common stretch is that ends with it and with a line
of the old text, given the lengths for the line before in the old text. -/
def stretchLengths (startable : String → Bool) (line : String) (new : List String)
    (lengths : List Nat) : List Nat :=
  if startable line then
    List.zipWith (fun candidate before => if candidate == line then before + 1 else 0) new
      (0 :: lengths)
  else new.map fun _ => 0

/-- The better of a block and the stretches that end with a line of the old text. -/
def betterBlock (oldIndex : Nat) (best : Block) : Nat → List Nat → Block
  | _, [] => best
  | newIndex, length :: rest =>
    let best :=
      if length > best.size then ⟨oldIndex + 1 - length, newIndex + 1 - length, length⟩ else best
    betterBlock oldIndex best (newIndex + 1) rest

/-- The longest common stretch of startable lines, from a line of the old text on. -/
def longestFrom (startable : String → Bool) (new : List String) (oldIndex : Nat)
    (lengths : List Nat) (best : Block) : List String → Block
  | [] => best
  | line :: rest =>
    let lengths := stretchLengths startable line new lengths
    longestFrom startable new (oldIndex + 1) lengths (betterBlock oldIndex best 0 lengths) rest

/-- How many elements two lists have in common at their start. -/
def commonStart : List String → List String → Nat
  | x :: xs, y :: ys => if x == y then commonStart xs ys + 1 else 0
  | _, _ => 0

/-- A block together with the equal lines next to it on both sides. -/
def extend (old new : List String) (block : Block) : Block :=
  let before := commonStart (old.take block.old).reverse (new.take block.new).reverse
  let after := commonStart (old.drop (block.old + block.size)) (new.drop (block.new + block.size))
  ⟨block.old - before, block.new - before, before + block.size + after⟩

/-- The longest common stretch, extended. -/
def longest (startable : String → Bool) (old new : List String) : Block :=
  extend old new (longestFrom startable new 0 (new.map fun _ => 0) ⟨0, 0, 0⟩ old)

/-- Move a block. -/
def Block.shift (block : Block) (old new : Nat) : Block :=
  ⟨block.old + old, block.new + new, block.size⟩

/-- The common stretches of two texts in order. Each level leaves out a line of the old text at
least, so its length bounds the depth. -/
def stretches (startable : String → Bool) : Nat → List String → List String → List Block
  | 0, _, _ => []
  | depth + 1, old, new =>
    let block := longest startable old new
    if block.size == 0 then []
    else
      let left := stretches startable depth (old.take block.old) (new.take block.new)
      let oldEnd := block.old + block.size
      let newEnd := block.new + block.size
      let right := stretches startable depth (old.drop oldEnd) (new.drop newEnd)
      left ++ block :: right.map (·.shift oldEnd newEnd)

/-- Join blocks that touch in both texts. -/
def joined : List Block → List Block
  | first :: second :: rest =>
    if first.old + first.size == second.old && first.new + first.size == second.new then
      joined (⟨first.old, first.new, first.size + second.size⟩ :: rest)
    else first :: joined (second :: rest)
  | blocks => blocks
termination_by blocks => blocks.length

/-- The common blocks of two texts in order. -/
def commonBlocks (old new : List String) : List Block :=
  joined (stretches (!isFrequent new ·) (old.length + 1) old new)

end Arborist.Diff

/-!
# Blank characters

What counts as blank between the parts of a pattern, around a text and between the words of an
attribute: the white space of Unicode together with the four information separators
U+001C to U+001F. Zero-width characters such as U+200B and U+FEFF are not blank.

* `isBlank`, and `isWhiteSpace` for the Unicode property alone.
* `strip` drops blanks at both ends, `words` cuts a text at its runs of blanks.
-/

namespace Arborist.Text

/-- White space in the sense of Unicode. -/
def isWhiteSpace (c : Char) : Bool :=
  let n := c.toNat
  (0x09 ≤ n && n ≤ 0x0D) || n == 0x20 || n == 0x85 || n == 0xA0 || n == 0x1680
    || (0x2000 ≤ n && n ≤ 0x200A) || n == 0x2028 || n == 0x2029 || n == 0x202F || n == 0x205F
    || n == 0x3000

/-- White space, or one of the information separators U+001C to U+001F. -/
def isBlank (c : Char) : Bool :=
  isWhiteSpace c || (0x1C ≤ c.toNat && c.toNat ≤ 0x1F)

/-- Drop the elements at both ends that satisfy a predicate. -/
def trimBoth {α : Type} (p : α → Bool) (xs : List α) : List α :=
  ((xs.dropWhile p).reverse.dropWhile p).reverse

/-- Drop the blanks at both ends. -/
def strip (cs : List Char) : List Char := trimBoth isBlank cs

/-- Drop the blanks at both ends of a text. -/
def stripped (text : String) : String := String.ofList (strip text.toList)

/-- Whether a text has no character but blanks. -/
def allBlank (text : String) : Bool := text.toList.all isBlank

/-- The maximal runs of characters that are not blank; `word` is the run being read, last
character first. -/
def wordsFrom (word : List Char) : List Char → List (List Char)
  | [] => if word.isEmpty then [] else [word.reverse]
  | c :: cs =>
    if isBlank c then
      if word.isEmpty then wordsFrom [] cs else word.reverse :: wordsFrom [] cs
    else wordsFrom (c :: word) cs

/-- The words of a text: its maximal runs of characters that are not blank. -/
def words (cs : List Char) : List (List Char) := wordsFrom [] cs

end Arborist.Text

import Arborist.Text.Blank
import Arborist.Text.Letter

/-!
# Regular expressions

The part of the usual notation that replacements in source text need: characters and classes,
alternatives, groups, greedy repetition, the ends of the text and the edges of words.

A match is found by priority: the first alternative before the second, more repetitions before
fewer. `Regex.ends` lists every way to match at a spot, best first, so the match is its head. Each
iteration of a repetition uses up a character, so the text left bounds their number.

All other forms are refused when an expression is read: counted, lazy and possessive repetition,
groups with a question mark, back references and the escapes not listed in `Regex.escaped`. So are
forms that would need more than is said here, such as the repetition of something that may match
nothing, and a class with a closing bracket as its first entry or an escape at an end of a range.
-/

namespace Arborist

open Text

/-- One entry of a character class. -/
inductive ClassItem where
  | range (first last : Char)
  | word
  | digit
  | blank
  | notWord
  | notDigit
  | notBlank
  deriving DecidableEq, Repr

/-- Whether a character is in an entry of a class. -/
def ClassItem.has : ClassItem → Char → Bool
  | .range first last, c => first ≤ c && c ≤ last
  | .word, c => isWordChar c
  | .digit, c => (decimalValue? c).isSome
  | .blank, c => isBlank c
  | .notWord, c => !isWordChar c
  | .notDigit, c => (decimalValue? c).isNone
  | .notBlank, c => !isBlank c

/-- A regular expression. -/
inductive Regex where
  /-- Nothing. -/
  | empty
  /-- One character in a class, or outside it. -/
  | oneOf (negated : Bool) (items : List ClassItem)
  /-- The start of the text. -/
  | atStart
  /-- The end of the text, or before a line feed that ends it. -/
  | atEnd
  /-- Between a word character and something else. -/
  | wordEdge
  | seq (first second : Regex)
  | alt (first second : Regex)
  | many (body : Regex)
  /-- A group, whose match is kept under its number. -/
  | group (number : Nat) (body : Regex)
  deriving Repr

/-- A place in a text: what is behind, nearest first, what is ahead, and the groups matched. -/
structure Spot where
  behind : List Char
  ahead : List Char
  groups : List (Nat × List Char) := []
  deriving Repr

namespace Regex

/-- One given character. -/
def char (c : Char) : Regex := .oneOf false [.range c c]

/-- Every way to repeat a step, more repetitions first. -/
def repeats (step : Spot → List Spot) : Nat → Spot → List Spot
  | 0, spot => [spot]
  | bound + 1, spot =>
    let further := (step spot).filter fun next => next.ahead.length < spot.ahead.length
    further.flatMap (repeats step bound) ++ [spot]

/-- Whether a spot is between a word character and something else. -/
def atWordEdge (spot : Spot) : Bool :=
  let word (c? : Option Char) : Bool := (c?.map isWordChar).getD false
  word spot.behind.head? != word spot.ahead.head?

/-- Every way to match at a spot, best first. -/
def ends : Regex → Spot → List Spot
  | .empty, spot => [spot]
  | .oneOf negated items, spot =>
    match spot.ahead with
    | [] => []
    | c :: rest =>
      if (items.any fun item => item.has c) != negated then
        [{ spot with behind := c :: spot.behind, ahead := rest }]
      else []
  | .atStart, spot => if spot.behind.isEmpty then [spot] else []
  | .atEnd, spot => if spot.ahead.isEmpty || spot.ahead == ['\n'] then [spot] else []
  | .wordEdge, spot => if atWordEdge spot then [spot] else []
  | .seq first second, spot => (first.ends spot).flatMap fun next => second.ends next
  | .alt first second, spot => first.ends spot ++ second.ends spot
  | .many body, spot => repeats (fun next => body.ends next) spot.ahead.length spot
  | .group number body, spot =>
    (body.ends spot).map fun next =>
      let matched := spot.ahead.take (spot.ahead.length - next.ahead.length)
      { next with groups := (number, matched) :: next.groups }

/-! ### Reading the notation -/

/-- What an escaped character stands for; none for the letters and digits that have a meaning not
supported here. -/
def escaped (c : Char) : Option Regex :=
  match c with
  | 'w' => some (.oneOf false [.word])
  | 'W' => some (.oneOf false [.notWord])
  | 'd' => some (.oneOf false [.digit])
  | 'D' => some (.oneOf false [.notDigit])
  | 's' => some (.oneOf false [.blank])
  | 'S' => some (.oneOf false [.notBlank])
  | 'b' => some .wordEdge
  | 'n' => some (char '\n')
  | 'r' => some (char '\r')
  | 't' => some (char '\t')
  | other => if other.isAlphanum then none else some (char other)

/-- Whether a class goes on with a range that starts with the entry before. -/
def opensRange : List Char → Bool
  | '-' :: last :: _ => last != ']'
  | _ => false

/-- The entries of a class up to its closing bracket, and what is left after it. -/
def classItems : List Char → Option (List ClassItem × List Char)
  | [] => none
  | ']' :: rest => some ([], rest)
  | '\\' :: c :: rest =>
    if opensRange rest then none
    else
      match escaped c, classItems rest with
      | some (.oneOf _ items), some (others, rest) => some (items ++ others, rest)
      | _, _ => none
  | first :: '-' :: last :: rest =>
    if last == ']' then some ([.range first first, .range '-' '-'], rest)
    else if last == '\\' || last < first then none
    else (classItems rest).map fun (others, rest) => (.range first last :: others, rest)
  | c :: rest => (classItems rest).map fun (others, rest) => (.range c c :: others, rest)

/-- A class, which has an entry. -/
def readClass (negated : Bool) (text : List Char) : Option (Regex × List Char) :=
  match classItems text with
  | some ([], _) => none
  | some (items, rest) => some (.oneOf negated items, rest)
  | none => none

/-- Whether an expression may match without using up a character. -/
def mayBeEmpty : Regex → Bool
  | .oneOf _ _ => false
  | .seq first second => first.mayBeEmpty && second.mayBeEmpty
  | .alt first second => first.mayBeEmpty || second.mayBeEmpty
  | .group _ body => body.mayBeEmpty
  | _ => true

/-- Whether a character marks a repetition. -/
def isMark (c : Char) : Bool := c == '*' || c == '+' || c == '?' || c == '{'

/-- The expression with the repetition mark after it, which is the only one. -/
def quantified (body : Regex) : List Char → Option (Regex × List Char)
  | [] => some (body, [])
  | c :: rest =>
    if !isMark c then some (body, c :: rest)
    else if body.mayBeEmpty || rest.head?.any isMark then none
    else
      match c with
      | '*' => some (.many body, rest)
      | '+' => some (.seq body (.many body), rest)
      | '?' => some (.alt body .empty, rest)
      | _ => none

mutual

/-- Alternatives up to a closing parenthesis or the end. The number counts the groups so far. -/
def readAlternatives : Nat → Nat → List Char → Option (Regex × Nat × List Char)
  | 0, _, _ => none
  | steps + 1, groups, text => do
    let (first, groups, rest) ← readSequence steps groups text
    match rest with
    | '|' :: rest =>
      let (second, groups, rest) ← readAlternatives steps groups rest
      return (.alt first second, groups, rest)
    | _ => return (first, groups, rest)

/-- Expressions one after the other. -/
def readSequence : Nat → Nat → List Char → Option (Regex × Nat × List Char)
  | 0, _, _ => none
  | steps + 1, groups, text => do
    match text with
    | [] => return (.empty, groups, [])
    | '|' :: _ => return (.empty, groups, text)
    | ')' :: _ => return (.empty, groups, text)
    | _ =>
      let (item, groups, rest) ← readItem steps groups text
      let (item, rest) ← quantified item rest
      let (others, groups, rest) ← readSequence steps groups rest
      return (.seq item others, groups, rest)

/-- One expression without its repetition mark. -/
def readItem : Nat → Nat → List Char → Option (Regex × Nat × List Char)
  | 0, _, _ => none
  | steps + 1, groups, text =>
    match text with
    | [] => none
    | '(' :: '?' :: _ => none
    | '(' :: rest => do
      let (body, inner, rest) ← readAlternatives steps (groups + 1) rest
      match rest with
      | ')' :: rest => return (.group (groups + 1) body, inner, rest)
      | _ => none
    | '[' :: '^' :: rest => (readClass true rest).map fun (item, rest) => (item, groups, rest)
    | '[' :: rest => (readClass false rest).map fun (item, rest) => (item, groups, rest)
    | '.' :: rest => some (.oneOf true [.range '\n' '\n'], groups, rest)
    | '^' :: rest => some (.atStart, groups, rest)
    | '$' :: rest => some (.atEnd, groups, rest)
    | '\\' :: c :: rest => (escaped c).map fun item => (item, groups, rest)
    | c :: rest => if c == '\\' || isMark c then none else some (char c, groups, rest)

end

/-- Read a regular expression; none if it is not one or has a form that is not supported. -/
def parse? (text : String) : Option Regex :=
  match readAlternatives (3 * text.length + 3) 0 text.toList with
  | some (regex, _, []) => some regex
  | _ => none

end Regex

end Arborist

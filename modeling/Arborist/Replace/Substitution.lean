import Arborist.Replace.Regex

/-!
# Replacing matches in a text

What is looked for is a `Needle`: a text taken literally, or a regular expression. Matches are
replaced from the left and do not overlap. An empty match is replaced as well, also directly after
a match that is not empty, but only once at a place; after it a match that is not empty is looked
for at the same place.
-/

namespace Arborist

open Text

/-- What is looked for. -/
inductive Needle where
  | literal (text : String)
  | regex (expression : Regex)

/-- What is found: the text matched and the texts of the groups. -/
structure Found where
  text : List Char
  groups : List (Nat × List Char) := []

namespace Needle

/-- Every way to match at a place, best first. -/
def found (needle : Needle) (behind ahead : List Char) : List Found :=
  match needle with
  | .literal text => if text.toList.isPrefixOf ahead then [{ text := text.toList }] else []
  | .regex expression =>
    (expression.ends ⟨behind, ahead, []⟩).map fun spot =>
      { text := ahead.take (ahead.length - spot.ahead.length), groups := spot.groups }

/-- Replace every match from a place on; `skip` characters ahead belong to a match already
replaced. -/
def substituteFrom {ε : Type} (needle : Needle) (replace : Found → Except ε (List Char))
    (skip : Nat) (behind : List Char) : List Char → Except ε (List Char)
  | [] =>
    match skip, (needle.found behind []).head? with
    | 0, some hit => replace hit
    | _, _ => .ok []
  | c :: rest =>
    match skip with
    | skip + 1 => substituteFrom needle replace skip (c :: behind) rest
    | 0 => do
      let candidates := needle.found behind (c :: rest)
      let empty := candidates.head?.filter (·.text.isEmpty)
      let before ← match empty with
        | some hit => replace hit
        | none => pure []
      let longer := if empty.isSome then candidates.find? (!·.text.isEmpty) else candidates.head?
      match longer with
      | none =>
        return before ++ c :: (← substituteFrom needle replace 0 (c :: behind) rest)
      | some hit =>
        let text ← replace hit
        let others ← substituteFrom needle replace (hit.text.length - 1) (c :: behind) rest
        return before ++ text ++ others

/-- Replace every match in a text. -/
def substitute {ε : Type} (needle : Needle) (replace : Found → Except ε (List Char))
    (text : String) : Except ε String := do
  return String.ofList (← substituteFrom needle replace 0 [] text.toList)

end Needle

/-- The text of a group of a match; the whole match has number zero. -/
def Found.group (found : Found) (number : Nat) : List Char :=
  if number == 0 then found.text else (found.groups.lookup number).getD []

/-- Fill the group numbers, of one digit, after backslashes in a template. A group that is not there
is empty, and an escape that has no meaning here stays as it is. -/
def fillTemplate (found : Found) : List Char → List Char
  | [] => []
  | '\\' :: c :: rest =>
    if c.isDigit then found.group (c.toNat - '0'.toNat) ++ fillTemplate found rest
    else if c == 'n' then '\n' :: fillTemplate found rest
    else if c == 't' then '\t' :: fillTemplate found rest
    else if c == 'r' then '\r' :: fillTemplate found rest
    else if c == '\\' then '\\' :: fillTemplate found rest
    else '\\' :: c :: fillTemplate found rest
  | c :: rest => c :: fillTemplate found rest

/-- What a match is replaced by. -/
inductive Replacement where
  /-- A text; for a regular expression, a template with group numbers. -/
  | text (text : String)
  /-- A function of the text matched, which may refuse it with a complaint. -/
  | function (apply : String → Except String String)

/-- Replace every match in a text; the error is the complaint about a match that was refused. -/
def Needle.replaceIn (needle : Needle) (replacement : Replacement) (text : String) :
    Except String String :=
  match needle, replacement with
  | .literal _, .text new => needle.substitute (fun _ => .ok new.toList) text
  | .regex _, .text template =>
    needle.substitute (fun found => .ok (fillTemplate found template.toList)) text
  | _, .function apply =>
    needle.substitute (fun found => (apply (String.ofList found.text)).map String.toList) text

end Arborist

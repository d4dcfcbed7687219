import Arborist.Kind
import Arborist.Log
import Arborist.Selector.Parser

/-!
# Patterns as they are used

A search never fails because of its pattern: a malformed pattern describes nothing. It is reported
instead, at debug level with its flaw, and before that as a warning with similar names if there
are any and suggestions are asked for. A pseudo-selector that is not known describes nothing and is
reported too.

Reports are made when a pattern is read, and a pattern is not read again while it is remembered.
The `Memory` holds the patterns used last, up to a capacity; using one makes it the most recent,
and the least recent one is forgotten for a new one. Blank patterns are never looked up.
-/

namespace Arborist

open Text

namespace Selector

mutual

/-- The names of the pseudo-selectors that describe nothing because they are not known, or because
they lack the pattern they need. Inside the argument of another pseudo-selector they count only if
that argument is used. -/
def unknownPseudos : Selector → List String
  | .kind _ => []
  | .attr _ _ _ => []
  | .pseudo name _ none => [name]
  | .pseudo name _ (some inner) => if takesPattern name then inner.unknownPseudos else [name]
  | .child left right => left.unknownPseudos ++ right.unknownPseudos
  | .descendant left right => left.unknownPseudos ++ right.unknownPseudos
  | .all parts => unknownPseudosOf parts
  | .never => []

/-- The unknown pseudo-selectors of a list of selectors. -/
def unknownPseudosOf : List Selector → List String
  | [] => []
  | part :: rest => part.unknownPseudos ++ unknownPseudosOf rest

end

/-- The records made when a selector is put to use. -/
def reports (selector : Selector) : List Record :=
  selector.unknownPseudos.map fun name =>
    ⟨.debug, .selector, "Unknown pseudo-selector :" ++ name ++ " matches nothing"⟩

/-- The records made for a malformed pattern. -/
def flawReports (pattern : String) (suggest : Bool) (flaw : Flaw) : List Record :=
  let similar := if suggest then Kind.suggestions pattern else []
  let warning : Record := ⟨.warning, .selector,
    "Unknown pattern " ++ quoted pattern ++ ". Did you mean: " ++ ", ".intercalate similar ++ "?"⟩
  let note : Record := ⟨.debug, .selector,
    "Pattern " ++ quoted pattern ++ " matches nothing: " ++ flaw.message⟩
  (if similar.isEmpty then [] else [warning]) ++ [note]

/-- What a pattern describes, and the records made while finding out. -/
def compile (pattern : String) (suggest : Bool) : Selector × List Record :=
  match parse pattern with
  | .ok selector => (selector, selector.reports)
  | .error flaw => (.never, flawReports pattern suggest flaw)

end Selector

/-- The patterns used last, most recent first, each with whether suggestions were asked for and
with what it describes. -/
structure Memory where
  entries : List ((String × Bool) × Selector) := []

namespace Memory

/-- How many patterns are remembered. -/
def capacity : Nat := 256

/-- Make an entry the most recent one. -/
def touch (memory : Memory) (key : String × Bool) (selector : Selector) : Memory :=
  ⟨((key, selector) :: memory.entries.filter (·.1 != key)).take capacity⟩

/-- Look a pattern up, or read it and remember it. The records are those of reading it. -/
def fetch (memory : Memory) (pattern : String) (suggest : Bool) :
    Memory × Selector × List Record :=
  if allBlank pattern then (memory, .never, [])
  else
    let key := (pattern, suggest)
    match memory.entries.lookup key with
    | some selector => (memory.touch key selector, selector, [])
    | none =>
      let (selector, records) := Selector.compile pattern suggest
      (memory.touch key selector, selector, records)

end Memory

end Arborist

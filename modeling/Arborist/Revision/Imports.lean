import Arborist.Revision.Rename

/-!
# Unused imports

An import binds names: a default name, a namespace, or specifiers in braces. A binding is used if
its name stands somewhere outside import statements. Unused bindings are dropped; a statement none
of whose bindings is used goes as a whole, together with its line end. Imports that bind nothing
are kept.
-/

namespace Arborist

open Text

namespace Kind

/-- Kinds whose text uses a binding. -/
def uses : List String := identifiers ++ ["shorthand_property_identifier"]

end Kind

namespace Tree

mutual

/-- The names used in a tree outside import statements, read from the right: a node before its
children, later children before earlier ones. -/
def usedNames (source : Bytes) : Tree → Except Fault (List String)
  | .absent => .error .absent
  | .node none _ _ => .error .untyped
  | .node (some kind) mark below => do
    if kind == "import_statement" then return []
    let here : Node := ⟨⟨kind, mark, below⟩, []⟩
    let own ← if Kind.uses.contains kind then (fun text => [text]) <$> here.text source else pure []
    match Tree.firstFault below with
    | some fault => throw fault
    | none => return own ++ (← usedNamesAmong source below)

/-- The names used in the children of a node, read from the right. -/
def usedNamesAmong (source : Bytes) : List Tree → Except Fault (List String)
  | [] => .ok []
  | tree :: rest => do
    let later ← usedNamesAmong source rest
    return later ++ (← tree.usedNames source)

end

end Tree

namespace Draft

/-- The names used below the root of a draft, outside import statements. -/
def usedNames (draft : Draft) : Except Fault (List String) :=
  let root := draft.root
  Tree.usedNames draft.setting.source (.node (some root.kind) root.mark root.below)

/-- Whether an import specifier is used, by its name or by the name it is given. -/
def specifierUsed (source : Bytes) (used : List String) (specifier : Node) :
    Except Fault Bool := do
  if let some name ← specifier.fieldText source "name" then
    if used.contains name then return true
  if let some given ← specifier.fieldText source "alias" then
    if used.contains given then return true
  return false

/-- A part of the edited source as text. -/
def sliceText (draft : Draft) (start stop : Nat) : Except Fault String :=
  match decode? (slice draft.source start stop) with
  | some text => .ok text
  | none => .error .cut

/-- A list of specifiers in braces with some of them dropped. What stands before the first
specifier, after the last one and between the first two is kept as it was. -/
def rebuildBlock (draft : Draft) (block : Node) (specifiers kept : List Node) :
    Except Fault String := do
  if kept.length == specifiers.length then return ← block.text draft.setting.source
  let parts ← block.children
  match parts.head?, parts.getLast?, specifiers.head?, specifiers.getLast? with
  | some opening, some closing, some first, some last =>
    let lead ← draft.sliceText opening.stop first.start
    let trail ← draft.sliceText last.stop closing.start
    let separator ← match specifiers with
      | one :: two :: _ => draft.sliceText one.stop two.start
      | _ => pure ", "
    let texts ← kept.mapM (Node.text draft.setting.source)
    return "\x7b" ++ lead ++ separator.intercalate texts ++ trail ++ "\x7d"
  | _, _, _, _ => return ""

/-- What one part of an import clause binds: how many names, and the text to keep, if any is
used. -/
structure Binding where
  count : Nat
  kept : Option String

/-- The bindings of one part of an import clause. -/
def bindingOf (draft : Draft) (used : List String) (part : Node) : Except Fault Binding := do
  let source := draft.setting.source
  if part.kind == "identifier" then
    let text ← part.text source
    return ⟨1, if used.contains text then some text else none⟩
  else if part.kind == "namespace_import" then
    match (← part.children).find? (·.kind == "identifier") with
    | none => return ⟨1, none⟩
    | some localName =>
      if used.contains (← localName.text source) then return ⟨1, some (← part.text source)⟩
      else return ⟨1, none⟩
  else if part.kind == "named_imports" then
    let specifiers := (← part.children).filter (·.kind == "import_specifier")
    let kept ← Walk.allPassing (specifierUsed source used) specifiers
    if kept.isEmpty then return ⟨specifiers.length, none⟩
    else return ⟨specifiers.length, some (← draft.rebuildBlock part specifiers kept)⟩
  else return ⟨0, none⟩

/-- Where the removal of a statement ends: after the line end that follows it directly. -/
def afterLineEnd (source : Bytes) (stop : Nat) : Nat :=
  if slice source stop (stop + 2) == [13, 10] then stop + 2
  else if slice source stop (stop + 1) == [10] then stop + 1
  else stop

/-- What becomes of an import statement: the edit, if it changes, and how it is reported. -/
def tidyImport (draft : Draft) (used : List String) (statement : Node) :
    Except Fault (Option (Edit × String)) := do
  let source := draft.setting.source
  match (← statement.children).find? (·.kind == "import_clause") with
  | none => return none
  | some clause =>
    let bindings ← (← clause.children).mapM (draft.bindingOf used)
    if bindings.all (·.count == 0) then return none
    let parts := bindings.filterMap Binding.kept
    if parts.isEmpty then
      let edit : Edit := ⟨statement.start, afterLineEnd draft.source statement.stop, ""⟩
      return some (edit, "Removing unused import at line ")
    let text := ", ".intercalate parts
    if text == (← clause.text source) then return none
    return some (replacement clause text, "Pruning unused bindings from import at line ")

/-- Drop the unused bindings of import statements, one statement after the other. -/
def tidyImports (draft : Draft) (used : List String) (statements : List Node) : Outcome :=
  Outcome.forEach (fun statement =>
    match draft.tidyImport used statement with
    | .error fault => .stopped (.fault fault)
    | .ok none => {}
    | .ok (some (edit, wording)) =>
      let line := toString (statement.line draft.setting.source)
      { edits := [edit], records := [⟨.debug, .edits, wording ++ line⟩] }) statements

/-- Drop import bindings that nothing outside import statements uses. -/
def removeUnusedImports (draft : Draft) : Logged Outcome := do
  match draft.usedNames with
  | .error fault => return .stopped (.fault fault)
  | .ok used => draft.onTarget (.pattern "import_statement") (draft.tidyImports used)

end Draft

end Arborist

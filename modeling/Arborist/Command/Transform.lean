import Arborist.Command.Basic
import Arborist.Diff.Unified
import Arborist.Revision.Imports
import Arborist.Revision.Remove
import Arborist.Text.Lines

/-!
# The command that revises a file

`transform` carries out renamings, removals and import cleanup on a file, in this order, and writes
the result back, or prints it, or prints its difference to the file as it was.
-/

namespace Arborist.Command

open Text

/-- What is asked of the command. -/
structure TransformOptions where
  file : String
  renames : List String := []
  identifierRenames : List String := []
  removals : List String := []
  wholeStatement : Bool := false
  removeUnusedImports : Bool := false
  language : Option String := none
  specs : List String := []
  write : Bool := false
  showDiff : Bool := false

/-- The two sides of `OLD=NEW`, cut at the first equals sign. Neither may be empty. -/
def splitPair (option value : String) : CommandM (String × String) :=
  let misuse : CommandM (String × String) :=
    throw { ending := .misuse option ("expected OLD=NEW, got " ++ quoted value) }
  match value.toList.span (· != '=') with
  | (old, '=' :: new) =>
    if old.isEmpty || new.isEmpty then misuse
    else return (String.ofList old, String.ofList new)
  | _ => misuse

/-- Queue what an operation did, or stop if it failed. -/
def absorb (draft : Draft) (outcome : Outcome) : CommandM Draft := do
  let draft ← (draft.absorb outcome : Logged Draft)
  match outcome.failure with
  | some failure => crashWith (.failure failure)
  | none => return draft

/-- Carry out the operations asked for. -/
def applyOperations (options : TransformOptions) (draft : Draft) : CommandM Draft := do
  let mut draft := draft
  for value in options.renames do
    let (old, new) ← splitPair "--rename" value
    draft ← absorb draft (draft.rename old new)
  for value in options.identifierRenames do
    let (old, new) ← splitPair "--rename-identifier" value
    draft ← absorb draft (draft.renameIdentifiers old new)
  for pattern in options.removals do
    let outcome ← (draft.remove (.pattern pattern) options.wholeStatement : Logged Outcome)
    draft ← absorb draft outcome
  if options.removeUnusedImports then
    draft ← absorb draft (← (draft.removeUnusedImports : Logged Outcome))
  return draft

/-- The lines of a text, each with its end. -/
def diffLines (text : String) : List String := (linesWithEnds text.toList).map String.ofList

/-- What a run of the command leaves behind. -/
structure Revised where
  report : Report
  folder : Folder

/-- Open the file and queue the edits asked for. -/
def session (parser : Parser) (folder : Folder) (options : TransformOptions) :
    CommandM (Document × Draft) := do
  let path := PathName.ofString options.file
  let document ← openFile parser folder path options.language options.specs
  return (document, ← applyOperations options (Draft.ofDocument document))

/-- How many edits there are. -/
def shownCount (edits : List Edit) : String := toString edits.length ++ " edit(s)"

/-- Write the result of some edits back, or print it, or print its difference to the text before. -/
def deliver (folder : Folder) (options : TransformOptions) (edits : List Edit)
    (before result : String) : Revised :=
  let path := PathName.ofString options.file
  if options.write then
    let complaint := "Wrote " ++ path.spelling ++ " (" ++ shownCount edits ++ ")"
    ⟨{ complaints := [complaint] }, folder.write path (encode result)⟩
  else if options.showDiff then
    let output := Diff.unified ("a/" ++ path.baseName) ("b/" ++ path.baseName)
      (diffLines before) (diffLines result)
    ⟨{ output := output }, folder⟩
  else ⟨{ output := result }, folder⟩

/-- Revise a file. -/
def transform (parser : Parser) (folder : Folder) (options : TransformOptions) :
    Logged Revised := do
  let command : CommandM Revised := do
    let (document, draft) ← session parser folder options
    let result ← orStop
      (fun
        | .garbled => crashWith (.failure (.fault .cut))
        | conflict => stopWith 1 ("Transform failed: " ++ conflict.message))
      draft.render
    let path := PathName.ofString options.file
    Logged.emit [⟨.info, .command, path.spelling ++ ": " ++ shownCount draft.edits⟩]
    return deliver folder options draft.edits document.text result
  match ← command.run with
  | .ok revised => return revised
  | .error report => return ⟨report, folder⟩

end Arborist.Command

import Arborist.Command.Display
import Arborist.Command.Invocation
import Arborist.Tree.Outline

/-!
# The command line

Reads the files that an invocation names, runs the command, shows its report and writes back the
file it changed. The syntax tree of a file is kept beside it, as an outline in a file of the same
name with `.tree` after it.
-/

open Arborist Arborist.Text Arborist.Command

/-- The bytes of a file, if it can be read. -/
def fileBytes? (name : String) : IO (Option Bytes) := do
  try
    return some (← IO.FS.readBinFile name).data.toList
  catch _ => return none

/-- The files of some names that can be read. -/
def readFolder (names : List String) : IO Folder := do
  let files ← names.filterMapM fun name => do
    return (← fileBytes? name).map fun content => (name, content)
  return Folder.ofFiles files

/-- The parser of a file: it reads the outline beside it. -/
def parserFor (file : String) : IO Parser := do
  let outline ← fileBytes? (file ++ ".tree")
  return fun _ _ =>
    match (outline.bind decode?).bind Tree.ofOutline? with
    | some tree => .ok tree
    | none => .error ("no outline of a tree in " ++ file ++ ".tree")

/-- Show a report and give the exit code. -/
def showReport (report : Report) (journal : Journal) : IO UInt32 := do
  for record in journal.records do
    IO.eprintln (recordLine record)
  for printed in report.console do
    for line in printed.lines do
      IO.println line
  IO.print report.output
  let (complaints, code) := report.ending.outcome
  for complaint in report.complaints ++ complaints do
    IO.eprintln complaint
  return UInt32.ofNat code

/-- Write a file back if it was changed. -/
def writeBack (before after : Folder) (file : String) : IO Unit := do
  if before != after then
    if let some (.file content) := after.entry? (PathName.ofString file) then
      IO.FS.writeBinFile file content.toByteArray

/-- Run the program on the words after its name. -/
def main (words : List String) : IO UInt32 := do
  match Invocation.ofWords words with
  | .error complaint =>
    IO.eprintln ("Error: " ++ complaint)
    return 2
  | .ok invocation =>
    let folder ← readFolder invocation.fileNames
    match invocation with
    | .help =>
      for line in usage do
        IO.println line
      return 0
    | .find options =>
      let parser ← parserFor options.file
      let (report, journal) := (Command.find parser folder options).run {}
      showReport report journal
    | .transform options =>
      let parser ← parserFor options.file
      let (result, journal) := (Command.transform parser folder options).run {}
      writeBack folder result.folder options.file
      showReport result.report journal

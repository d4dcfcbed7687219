import Arborist.Document
import Arborist.Edit.Render
import Arborist.Revision.Draft
import Arborist.Settings.Load

/-!
# Commands

What the two commands have in common: what they report, how they end, and how they open the file
they work on. A command prints to the console, complains on a console of its own, and may write
text out as it is. It ends with an exit code, or is stopped by an error that it does not handle.
-/

namespace Arborist.Command

open Text

/-- An error that a command does not handle. -/
inductive Crash where
  /-- No threshold has the name, which is in upper case. -/
  | unknownLevel (upperName : String)
  | load (error : LoadError)
  /-- The path of the file cannot even be looked up. -/
  | nameTooLong (path : PathName)
  | opening (error : OpenError)
  | failure (failure : Failure)
  deriving DecidableEq, Repr

/-- How a command ends. -/
inductive Ending where
  | exit (code : Nat)
  /-- An option has a malformed value. -/
  | misuse (option message : String)
  | crash (crash : Crash)
  deriving DecidableEq, Repr

/-- A match as data. -/
structure Row where
  kind : String
  name : Option String
  line : Int
  column : Int
  endLine : Int
  endColumn : Int
  text : String
  deriving DecidableEq, Repr

/-- What is printed to the console. -/
inductive Printed where
  | number (n : Nat)
  | rows (rows : List Row)
  /-- A table of kind, place and text under a title. -/
  | table (title : String) (rows : List (List String))
  deriving DecidableEq, Repr

/-- Everything that a command shows. -/
structure Report where
  console : List Printed := []
  complaints : List String := []
  /-- The text handed out to be written as it is. Where no terminal shows it, what writes it leaves
  the codes for colours out. -/
  output : String := ""
  ending : Ending := .exit 0
  deriving DecidableEq, Repr

/-- A command that may be stopped early; the report then is what it shows. -/
abbrev CommandM := ExceptT Report Logged

/-- Stop with a complaint. -/
def stopWith {α : Type} (code : Nat) (complaint : String) : CommandM α :=
  throw { complaints := [complaint], ending := .exit code }

/-- Stop because of an error that is not handled. -/
def crashWith {α : Type} (crash : Crash) : CommandM α := throw { ending := .crash crash }

/-- The result of a step, or a stop. -/
def orStop {ε α : Type} (stop : ε → CommandM α) (step : Logged (Except ε α)) : CommandM α := do
  match ← (step : Logged (Except ε α)) with
  | .ok result => return result
  | .error error => stop error

/-- Whether a fault of a text is that a value is out of its range. -/
def isValueFault : Yaml.LoadFault → Bool
  | .noSuchCharacter codePoint => codePoint < Yaml.LoadFault.widestCodePoint
  | .integer _ => true
  | .fraction _ => true
  | .calendar _ => true
  | _ => false

/-- Whether an error of loading settings is the fault of who gave them, and is complained about. -/
def isComplaint : LoadError → Bool
  | .notFound _ => true
  | .undecodable _ => true
  | .yaml fault => isValueFault fault
  | .invalid _ => true
  | .isDirectory => false
  | .nameTooLong _ => false
  | .notMapping _ => false
  | .keyNotText => false
  | .endless => false

/-- Load the settings and set the threshold they ask for. -/
def loadSettings (folder : Folder) (specs : List String) : CommandM Settings := do
  match Settings.load folder specs with
  | .error error =>
    if isComplaint error then stopWith 2 ("Error: " ++ error.message)
    else crashWith (.load error)
  | .ok settings =>
    match Threshold.named settings.logLevel with
    | .error name => crashWith (.unknownLevel name)
    | .ok threshold =>
      modify fun journal => { journal with threshold := threshold }
      return settings

/-- Open the file that a command works on. -/
def openFile (parser : Parser) (folder : Folder) (path : PathName) (language : Option String)
    (specs : List String) : CommandM Document := do
  let settings ← loadSettings folder specs
  if folder.isTooLong path then crashWith (.nameTooLong path)
  match folder.entry? path with
  | some (.file content) =>
    let given := language.filter (!·.isEmpty)
    let detected := (Language.ofPath? path.baseName).map Language.name
    match fileText? content with
    | none => crashWith (.opening .undecodable)
    | some text =>
      let document ← orStop
        (fun
          | .unknownLanguage name =>
            stopWith 2 ("Error: " ++ (OpenError.unknownLanguage name).message)
          | error => crashWith (.opening error))
        (Document.ofText parser settings (given <|> detected) text)
      if document.hasError then
        Logged.emit [⟨.warning, .command,
          path.spelling ++ ": source contains syntax errors, results may be partial"⟩]
      return document
  | _ => stopWith 2 ("Error: no such file: " ++ path.spelling)

/-- Run a command to its report. -/
def run (command : CommandM Report) : Logged Report := do
  match ← command.run with
  | .ok report => return report
  | .error report => return report

end Arborist.Command

import Arborist.Command.Find
import Arborist.Command.Transform

/-!
# Invocations

An invocation is what the words after the program's name ask for: one of the two commands with its
options, or help. Options may stand before, between and after the other words; a long option may
have its value in the same word, after an equals sign; after `--` no word is an option.
-/

namespace Arborist.Command

/-- What is asked of the program. -/
inductive Invocation where
  | help
  | find (options : FindOptions)
  | transform (options : TransformOptions)

/-- Options that have a value. -/
def valueOptions : List String :=
  ["-l", "--language", "-c", "--config", "--rename", "--rename-identifier", "--remove"]

/-- Options that have none. -/
def switches : List String :=
  ["--count", "--json", "--whole-statement", "--remove-unused-imports", "-w", "--write", "--diff",
    "--help"]

/-- One part of an invocation. -/
inductive Argument where
  | word (text : String)
  | switch (name : String)
  | option (name value : String)
  deriving DecidableEq, Repr

/-- A long option with its value in the same word. -/
def splitOption? (text : String) : Option Argument :=
  match text.toList.span (· != '=') with
  | (name, '=' :: value) =>
    if ['-', '-'].isPrefixOf name && valueOptions.contains (String.ofList name) then
      some (.option (String.ofList name) (String.ofList value))
    else none
  | _ => none

/-- Tell options from other words. The error is the complaint. -/
def arguments : List String → Except String (List Argument)
  | [] => .ok []
  | "--" :: rest => .ok (rest.map .word)
  | [text] =>
    if valueOptions.contains text then .error ("Option " ++ text ++ " requires an argument.")
    else do return [← single text]
  | text :: next :: rest =>
    if valueOptions.contains text then do return .option text next :: (← arguments rest)
    else do
      let first ← single text
      return first :: (← arguments (next :: rest))
where
  /-- A word that is an argument on its own. -/
  single (text : String) : Except String Argument :=
    match splitOption? text with
    | some argument => .ok argument
    | none =>
      if switches.contains text then .ok (.switch text)
      else if ['-'].isPrefixOf text.toList && text.length > 1 then
        .error ("No such option: " ++ text)
      else .ok (.word text)

namespace Argument

/-- The words among arguments. -/
def words (arguments : List Argument) : List String :=
  arguments.filterMap fun
    | .word text => some text
    | _ => none

/-- Whether one of some switches is among arguments. -/
def hasSwitch (names : List String) (arguments : List Argument) : Bool :=
  arguments.any fun
    | .switch name => names.contains name
    | _ => false

/-- The values given to an option under one of its names, in order. -/
def values (names : List String) (arguments : List Argument) : List String :=
  arguments.filterMap fun
    | .option name value => if names.contains name then some value else none
    | _ => none

/-- The first option or switch that is none of the given ones. -/
def foreign? (names : List String) (arguments : List Argument) : Option String :=
  arguments.findSome? fun
    | .word _ => none
    | .switch name => if names.contains name then none else some name
    | .option name _ => if names.contains name then none else some name

end Argument

/-- Options that both commands have. -/
def sharedOptions : List String := ["-l", "--language", "-c", "--config"]

/-- The options of the command that finds nodes. -/
def findOptions : List String := sharedOptions ++ ["--count", "--json"]

/-- The options of the command that revises a file. -/
def transformOptions : List String :=
  sharedOptions ++ ["--rename", "--rename-identifier", "--remove", "--whole-statement",
    "--remove-unused-imports", "-w", "--write", "--diff"]

/-- Refuse options that a command does not have. -/
def refuseForeign (names : List String) (arguments : List Argument) : Except String Unit :=
  match Argument.foreign? names arguments with
  | some name => .error ("No such option: " ++ name)
  | none => .ok ()

/-- What the arguments of a command ask for. -/
def Invocation.ofCommand (command : String) (words : List String) (arguments : List Argument) :
    Except String Invocation := do
  let language := (Argument.values ["-l", "--language"] arguments).getLast?
  let specs := Argument.values ["-c", "--config"] arguments
  match command, words with
  | "find", [file, pattern] =>
    refuseForeign findOptions arguments
    let style : FindStyle :=
      if Argument.hasSwitch ["--count"] arguments then .count
      else if Argument.hasSwitch ["--json"] arguments then .data
      else .table
    return .find {
      file := file, pattern := pattern, language := language, specs := specs, style := style }
  | "transform", [file] =>
    refuseForeign transformOptions arguments
    return .transform {
      file := file
      renames := Argument.values ["--rename"] arguments
      identifierRenames := Argument.values ["--rename-identifier"] arguments
      removals := Argument.values ["--remove"] arguments
      wholeStatement := Argument.hasSwitch ["--whole-statement"] arguments
      removeUnusedImports := Argument.hasSwitch ["--remove-unused-imports"] arguments
      language := language
      specs := specs
      write := Argument.hasSwitch ["-w", "--write"] arguments
      showDiff := Argument.hasSwitch ["--diff"] arguments }
  | "find", _ => throw "find takes a file and a pattern."
  | "transform", _ => throw "transform takes a file."
  | other, _ => throw ("No such command: " ++ other)

/-- What the words after the program's name ask for. The error is the complaint. -/
def Invocation.ofWords (words : List String) : Except String Invocation := do
  let arguments ← arguments words
  if Argument.hasSwitch ["--help"] arguments then return .help
  match Argument.words arguments with
  | [] => return .help
  | command :: rest => Invocation.ofCommand command rest arguments

/-- The file that an invocation works on, and the texts that may name files with settings. -/
def Invocation.fileNames : Invocation → List String
  | .help => []
  | .find options => options.file :: options.specs
  | .transform options => options.file :: options.specs

end Arborist.Command

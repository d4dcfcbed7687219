import Arborist.Folder
import Arborist.Query
import Arborist.Settings.Check

/-!
# Documents

A document is a source text with its syntax tree. The parser is a parameter: it gets a language
and the bytes of the source and hands over a tree, or refuses with a message.

Syntax errors do not keep a document from being opened: the parser recovers from them and marks
the root. The place of the first error is reported then.
-/

namespace Arborist

open Text

/-- What turns a source into a tree. -/
abbrev Parser := Language → Bytes → Except String Tree

/-- Why a document cannot be opened. -/
inductive OpenError where
  | unknownLanguage (name : String)
  /-- The parser refused the source. -/
  | refused (message : String)
  /-- The root is no node. -/
  | fault (cause : Fault)
  /-- The search for the first syntax error met an absent node. -/
  | brokenRecovery
  /-- The file is not UTF-8. -/
  | undecodable
  deriving DecidableEq, Repr

/-- The wording of an error of opening. A file that is not UTF-8 is reported by its kind alone. -/
def OpenError.message : OpenError → String
  | .unknownLanguage name => "Unknown language: " ++ name
  | .refused message => "Failed to parse: " ++ message
  | .fault cause => cause.message
  | .brokenRecovery => "'NoneType' object has no attribute 'type'"
  | .undecodable => ""

/-- A source text with its syntax tree. -/
structure Document where
  text : String
  language : Language
  settings : Settings
  root : Node

namespace Tree

mutual

/-- The first node, parents first and from the left, that is an error or made up by the parser.
Only nodes said to hold an error are looked into. An absent node met on the way is an error. -/
def firstError : Tree → Except Unit (Option Mark)
  | .absent => .error ()
  | .node kind mark below =>
    if kind == some "ERROR" || mark.missing then .ok (some mark)
    else if mark.flawed then firstErrorAmong below
    else .ok none

/-- The first error among the children of a node. -/
def firstErrorAmong : List Tree → Except Unit (Option Mark)
  | [] => .ok none
  | tree :: rest => do
    match ← tree.firstError with
    | some mark => return some mark
    | none => firstErrorAmong rest

end

end Tree

namespace Document

/-- The bytes of the source. -/
def source (document : Document) : Bytes := encode document.text

/-- How the document is searched. -/
def setting (document : Document) : Setting := ⟨document.source, document.settings.suggestPatterns⟩

/-- A document in one line. -/
def describe (document : Document) : String :=
  "<TreeHugger " ++ document.language.name ++ " " ++ toString document.source.length ++ " bytes>"

/-- Whether the parser had to recover from a syntax error. -/
def hasError (document : Document) : Bool := document.root.mark.flawed

/-- The language asked for, or the one of the settings; an empty name asks for none. -/
def chosenLanguage (settings : Settings) : Option String → Except OpenError Language
  | none => .ok settings.language
  | some name =>
    if name.isEmpty then .ok settings.language
    else match Language.ofName? name with
      | some language => .ok language
      | none => .error (.unknownLanguage name)

/-- The report on the first syntax error of a tree. -/
def recoveryReports (source : Bytes) (tree : Tree) : Except OpenError (List Record) :=
  match tree.firstError with
  | .error () => .error .brokenRecovery
  | .ok none => .ok []
  | .ok (some mark) =>
    .ok [⟨.debug, .document,
      "Recovered from a syntax error at " ++ (Place.ofOffset source mark.start).shown⟩]

/-- Open a source text. -/
def ofText (parser : Parser) (settings : Settings) (language : Option String) (text : String) :
    Logged (Except OpenError Document) := ExceptT.run do
  let language ← ExceptT.mk (pure (chosenLanguage settings language))
  Logged.emit [language.loadReport]
  let source := encode text
  let tree ← ExceptT.mk (pure ((parser language source).mapError .refused))
  let root ← ExceptT.mk (pure (tree.root.mapError .fault))
  if root.mark.flawed then
    let reports ← ExceptT.mk (pure (recoveryReports source tree))
    Logged.emit reports
  return ⟨text, language, settings, root⟩

/-- Open a source text, or the file it names. A text names a file if it ends like one and the file
is there; what is given as a path names a file if it is there, and is the source text otherwise. -/
def ofNamed (parser : Parser) (folder : Folder) (settings : Settings) (language : Option String)
    (isPath : Bool) (text : String) : Logged (Except OpenError Document) := do
  let path := PathName.ofString text
  let mayBeFile := isPath || (Language.ofPath? text).isSome
  match mayBeFile, folder.entry? path with
  | true, some (.file content) =>
    Logged.emit [⟨.debug, .document, "Reading " ++ path.spelling⟩]
    match fileText? content with
    | none => return .error .undecodable
    | some read =>
      let given := language.filter (!·.isEmpty)
      let detected := (Language.ofPath? path.baseName).map Language.name
      ofText parser settings (given <|> detected) read
  | _, _ => ofText parser settings language (if isPath then path.spelling else text)

end Document

end Arborist

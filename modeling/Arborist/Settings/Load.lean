import Arborist.Folder
import Arborist.Settings.Check
import Arborist.Settings.Merge
import Arborist.Yaml.Load

/-!
# Loading settings

Settings are given by specs, each of which is a file name or `key=value`. The value is YAML; if it
is not, it is taken as it is. Dots in the key lead into nested mappings. All specs are read before
any is merged; they are merged in order over the built-in settings and then checked.

A spec may give data that holds itself. Merging such data may have no end, which is an error of its
own; if it has one, what lies deeper than merging goes is left out of the values that are merged.

A path that leads nowhere from the working directory is tried from the directory of the built-in
files.
-/

namespace Arborist

open Text

/-- Why settings cannot be loaded. -/
inductive LoadError where
  | notFound (spec : String)
  | isDirectory
  /-- The path of a file cannot even be looked up. -/
  | nameTooLong (path : PathName)
  | undecodable (fault : Option DecodeFault)
  | yaml (fault : Yaml.LoadFault)
  /-- A file holds something else than a mapping, of the kind named. -/
  | notMapping (kind : String)
  /-- A key of the outermost mapping is no text. -/
  | keyNotText
  /-- Merging what the specs give has no end. -/
  | endless
  | invalid (details : List Detail)
  deriving DecidableEq, Repr

namespace LoadError

/-- Why bytes are no text. -/
def shownReason : DecodeReason → String
  | .badStart => "invalid start byte"
  | .badContinuation => "invalid continuation byte"
  | .cutShort => "unexpected end of data"

/-- Where and why bytes are no text. -/
def shownFault (fault : DecodeFault) : String :=
  let place :=
    if fault.stop == fault.start + 1 then
      "byte 0x" ++ String.ofList (hexPadded 2 fault.byte.toNat) ++ " in position "
        ++ toString fault.start
    else "bytes in position " ++ toString fault.start ++ "-" ++ toString (fault.stop - 1)
  "'utf-8' codec can't decode " ++ place ++ ": " ++ shownReason fault.reason

/-- How many complaints there are. -/
def shownCount (details : List Detail) : String :=
  toString details.length ++ " validation error" ++ (if details.length == 1 then "" else "s")

/-- The wording of an error, on one line. A directory and a text that is not YAML are reported by
their kind alone. -/
def message : LoadError → String
  | .notFound spec => "Could not find config file for spec: " ++ spec
  | .isDirectory => ""
  | .nameTooLong path => path.tooLongMessage
  | .undecodable fault => (fault.map shownFault).getD ""
  | .yaml fault => fault.message
  | .notMapping kind => "'" ++ kind ++ "' object has no attribute 'items'"
  | .keyNotText => "keywords must be strings"
  | .endless => "maximum recursion depth exceeded while calling a Python object"
  | .invalid details =>
    "Invalid treehugger configuration: " ++ shownCount details ++ " for TreeHuggerConfig"

end LoadError

namespace Settings

/-- The built-in settings, as a file gives them. -/
def builtinValues : List (Scalar × Scalar) := [
  (.text "language", .text "javascript"),
  (.text "suggest_patterns", .bool true),
  (.text "method_spacing", .int 1),
  (.text "log_level", .text "WARNING")]

/-- The built-in settings as a mapping. -/
def builtin : Entries := builtinValues.map fun entry => (entry.1, .scalar entry.2)

/-- The name of the directory of the built-in files. -/
def builtinDirectory : String := "config"

/-- The built-in files. -/
def builtinFiles : List (List String × Datum) :=
  [([builtinDirectory, "default.yaml"], .ofEntries builtinValues)]

/-- The built-in files as a folder around their directory. -/
def builtinFolder : Folder := ⟨builtinFiles.map fun file => (file.1, [])⟩

/-- What a relative path leads to from the directory of the built-in files: the data of a file, or
a directory. -/
def builtinAt? (path : PathName) : Option (Except LoadError Datum) := do
  if !path.anchor.isEmpty then none
  match ← builtinFolder.locate { path with parts := builtinDirectory :: path.parts } with
  | (0, parts) =>
    match builtinFiles.lookup parts with
    | some datum => return .ok datum
    | none => (builtinFolder.lookUp parts).map fun _ => .error .isDirectory
  | (_ + 1, _) => return .error .isDirectory

/-- The mapping of a `key=value` spec, cut at its first equals sign. -/
def ofAssignment (key value : String) : Except LoadError Datum := do
  let path := (pieces '.' key.toList).map String.ofList
  match Yaml.read value with
  | .ok datum => return datum.under path
  | .error .malformed => return (Datum.simple (.text value)).under path
  | .error fault => throw (.yaml fault)

/-- The data in the content of a file; data that says nothing counts as an empty mapping. -/
def ofContent (content : Bytes) : Except LoadError Datum :=
  match fileText? content with
  | none => .error (.undecodable (decodeFault? content))
  | some text =>
    match Yaml.read text with
    | .ok datum => .ok (if datum.isVoid then .ofEntries [] else datum)
    | .error fault => .error (.yaml fault)

/-- The data that a spec gives. -/
def datumOf (folder : Folder) (spec : String) : Except LoadError Datum :=
  match spec.toList.span (· != '=') with
  | (key, '=' :: value) => ofAssignment (String.ofList key) (String.ofList value)
  | _ =>
    let path := PathName.ofString spec
    if folder.isTooLong path then .error (.nameTooLong path)
    else match folder.entry? path with
    | some (.file content) => ofContent content
    | some .directory => .error .isDirectory
    | none => (builtinAt? path).getD (.error (.notFound spec))

/-- An entry whose key has to be a text. -/
def textEntry : Scalar × Value → Except LoadError (String × Value)
  | (.text key, value) => .ok (key, value)
  | _ => .error .keyNotText

/-- The settings that specs give. The built-in settings, which are simple, have no part in how deep
merging goes, and no spec has after one that gives no mapping. -/
def load (folder : Folder) (specs : List String) : Except LoadError Settings := do
  let given ← specs.mapM (datumOf folder)
  match Datum.mergeDepth (given.takeWhile (·.isMapping)) with
  | none => throw .endless
  | some depth =>
    let values := given.map (·.cut (depth + 1))
    let merged ← (Value.merge (.map builtin :: values)).mapError .notMapping
    (ofEntries (← merged.mapM textEntry)).mapError .invalid

end Settings

end Arborist

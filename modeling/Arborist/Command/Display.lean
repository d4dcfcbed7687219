import Arborist.Command.Basic

/-!
# How reports look

The layout of what commands print: matches as JSON, or as a table whose columns are as wide as
their widest cell; records of the log by level and message; and the words for errors that stop a
command.
-/

namespace Arborist.Command

open Text

/-! ### JSON -/

/-- One character inside a JSON string. -/
def jsonChar (c : Char) : List Char :=
  if c == '"' || c == '\\' then ['\\', c]
  else if c == '\n' then ['\\', 'n']
  else if c == '\r' then ['\\', 'r']
  else if c == '\t' then ['\\', 't']
  else if c.toNat < 0x20 then '\\' :: 'u' :: hexPadded 4 c.toNat
  else [c]

/-- A text as a JSON string. -/
def jsonString (text : String) : String :=
  String.ofList ('"' :: text.toList.flatMap jsonChar ++ ['"'])

/-- The lines of a match as a JSON object, indented to stand in an array. -/
def Row.jsonLines (row : Row) : List String :=
  let members := [
    ("type", jsonString row.kind), ("name", (row.name.map jsonString).getD "null"),
    ("line", toString row.line), ("column", toString row.column),
    ("end_line", toString row.endLine), ("end_column", toString row.endColumn),
    ("text", jsonString row.text)]
  let lines := members.map fun (key, value) => "    " ++ jsonString key ++ ": " ++ value
  let separated := lines.dropLast.map (· ++ ",") ++ lines.getLast?.toList
  "  \x7b" :: separated ++ ["  \x7d"]

/-- Put a comma at the end of the last of some lines. -/
def withComma (lines : List String) : List String :=
  lines.dropLast ++ (lines.getLast?.map (· ++ ",")).toList

/-- The lines of matches as a JSON array. -/
def jsonLines (rows : List Row) : List String :=
  let blocks := rows.map Row.jsonLines
  if blocks.isEmpty then ["[]"]
  else "[" :: (blocks.dropLast.flatMap withComma ++ (blocks.getLast?.getD [])) ++ ["]"]

/-! ### Tables -/

/-- The heads of the columns. -/
def columnHeads : List String := ["Type", "Position", "Text"]

/-- A text filled up with spaces. -/
def padded (width : Nat) (text : String) : String :=
  text ++ String.ofList (List.replicate (width - text.length) ' ')

/-- The widths of the columns of some lines. -/
def columnWidths (lines : List (List String)) : List Nat :=
  lines.foldr (fun line widths =>
    let widths := widths ++ List.replicate (line.length - widths.length) 0
    List.zipWith max widths
      (line.map String.length ++ List.replicate (widths.length - line.length) 0)) []

/-- The lines of a table under its title. -/
def tableLines (title : String) (rows : List (List String)) : List String :=
  let lines := columnHeads :: rows
  let widths := columnWidths lines
  title :: lines.map fun line => "  ".intercalate (List.zipWith padded widths line)

/-! ### Reports -/

/-- The lines of what is printed to the console. -/
def Printed.lines : Printed → List String
  | .number n => [toString n]
  | .rows found => jsonLines found
  | .table title lines => tableLines title lines

/-- The name of a level. -/
def levelName : Level → String
  | .debug => "DEBUG"
  | .info => "INFO"
  | .warning => "WARNING"

/-- A record as a line. -/
def recordLine (record : Record) : String := levelName record.level ++ " " ++ record.message

/-- The words for an error that stops a command. -/
def Crash.message : Crash → String
  | .unknownLevel upperName => Threshold.unknownMessage upperName
  | .load error => error.message
  | .nameTooLong path => path.tooLongMessage
  | .opening .undecodable => "The file is not UTF-8."
  | .opening error => error.message
  | .failure (.fault .cut) => "A node cuts a character."
  | .failure cause => cause.message

/-- The complaints and the exit code that an ending adds. -/
def Ending.outcome : Ending → List String × Nat
  | .exit code => ([], code)
  | .misuse option message => (["Error: Invalid value for " ++ option ++ ": " ++ message], 2)
  | .crash cause => (["Error: " ++ cause.message], 1)

/-- How the program is used. -/
def usage : List String := [
  "Usage: arborist find FILE PATTERN [-l LANGUAGE] [--count] [--json] [-c CONFIG]...",
  "       arborist transform FILE [--rename OLD=NEW]... [--rename-identifier OLD=NEW]...",
  "                [--remove PATTERN]... [--whole-statement] [--remove-unused-imports]",
  "                [-l LANGUAGE] [-w | --write] [--diff] [-c CONFIG]...",
  "",
  "The syntax tree of FILE is read from the outline in FILE.tree."]

end Arborist.Command

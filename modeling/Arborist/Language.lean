import Arborist.Log
import Arborist.Text.Case

/-!
# Languages

The languages whose grammars are known, by name and by the extension of a file.
-/

namespace Arborist

open Text

/-- A language with a known grammar. -/
inductive Language where
  | javascript
  | typescript
  | tsx
  deriving DecidableEq, Repr

namespace Language

/-- The name of a language. -/
def name : Language → String
  | .javascript => "javascript"
  | .typescript => "typescript"
  | .tsx => "tsx"

/-- Every language, in the order in which they are listed to people. -/
def all : List Language := [.javascript, .typescript, .tsx]

/-- The language of a name. -/
def ofName? (name : String) : Option Language := all.find? fun language => language.name == name

/-- The names of all languages, separated by commas. -/
def namesListed : String := ", ".intercalate (all.map name)

/-- The languages of file extensions. -/
def extensions : List (String × Language) := [
  (".js", .javascript), (".mjs", .javascript), (".cjs", .javascript),
  (".ts", .typescript), (".mts", .typescript), (".cts", .typescript),
  (".jsx", .tsx), (".tsx", .tsx)]

/-- The extension of a path: the last component from its last dot on. Dots that the component
starts with do not start an extension. -/
def extension (path : String) : String :=
  let fromEnd := path.toList.reverse.takeWhile (· != '/')
  let afterDot := fromEnd.takeWhile (· != '.')
  let beforeDot := (fromEnd.drop (afterDot.length + 1))
  if afterDot.length < fromEnd.length && beforeDot.any (· != '.') then
    String.ofList ('.' :: afterDot.reverse)
  else ""

/-- The language that a path is written in, by its extension in any case. -/
def ofPath? (path : String) : Option Language := extensions.lookup (lowerCase (extension path))

/-- The record made when a grammar is loaded. -/
def loadReport (language : Language) : Record :=
  ⟨.debug, .grammar, "Loading tree-sitter grammar for " ++ language.name⟩

/-- What is said of a language without a grammar, when its grammar is asked for. -/
def unsupportedMessage (name : String) : String :=
  "Unknown language: " ++ name ++ ". Supported: " ++ namesListed

end Language

end Arborist

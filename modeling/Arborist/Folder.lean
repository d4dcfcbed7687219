import Arborist.Text.Bytes
import Arborist.Text.Lines
import Arborist.Text.Quoted

/-!
# Files by name

A working directory, as far as the library reads from it: files with their bytes, and the
directories that their names imply.

A path name is kept as its components. The empty component and `.` say nothing and are dropped, so
a path has one spelling; `..` is kept, since what it means depends on the directory before it.
-/

namespace Arborist

open Text

/-- A path as its components. -/
structure PathName where
  /-- The slashes an absolute path starts with; empty for a relative one. -/
  anchor : String
  parts : List String
  deriving DecidableEq, Repr

namespace PathName

/-- The path that a text names. Two leading slashes are kept apart from one; three count as
one. -/
def ofString (text : String) : PathName :=
  let slashes := (text.toList.takeWhile (· == '/')).length
  let anchor := if slashes == 0 then "" else if slashes == 2 then "//" else "/"
  let parts := (pieces '/' text.toList).map String.ofList
  ⟨anchor, parts.filter fun part => part != "" && part != "."⟩

/-- The one spelling of a path. -/
def spelling (path : PathName) : String :=
  if path.anchor.isEmpty && path.parts.isEmpty then "."
  else path.anchor ++ "/".intercalate path.parts

/-- The last component. -/
def baseName (path : PathName) : String := path.parts.getLast?.getD ""

/-- How many bytes the spelling of a path may have. -/
def longestPath : Nat := 4095

/-- How many bytes a component of a path may have. -/
def longestPart : Nat := 255

/-- The complaint about a path that is too long to be looked up. -/
def tooLongMessage (path : PathName) : String :=
  "[Errno 36] File name too long: " ++ quoted path.spelling

end PathName

/-- What a path leads to. -/
inductive Entry where
  | file (content : Bytes)
  | directory
  deriving DecidableEq, Repr

/-- A working directory: files by the components of their paths. A file outside of it has the
slashes its path starts with as first component. -/
structure Folder where
  files : List (List String × Bytes) := []
  deriving DecidableEq, Repr

namespace Folder

/-- What stands at components that have no `..` among them. -/
def lookUp (folder : Folder) (parts : List String) : Option Entry :=
  match folder.files.lookup parts with
  | some content => some (.file content)
  | none =>
    if parts.isEmpty || folder.files.any fun file => parts.isPrefixOf file.1 then some .directory
    else none

/-- Follow components from a directory inside the folder, or from one a number of levels above
it, of which nothing is known but that it is a directory. The way leads to such a number and, for
zero, to components without `..`. -/
def follow (folder : Folder) (levelsAbove : Nat) (here : List String) :
    List String → Option (Nat × List String)
  | [] => some (levelsAbove, here)
  | part :: rest =>
    if part == ".." then
      if here.isEmpty then folder.follow (levelsAbove + 1) [] rest
      else if folder.lookUp here == some .directory then
        folder.follow levelsAbove here.dropLast rest
      else none
    else if levelsAbove == 0 then folder.follow 0 (here ++ [part]) rest
    else none

/-- Where a path leads. A path from the root is taken as it is. -/
def locate (folder : Folder) (path : PathName) : Option (Nat × List String) :=
  if path.anchor.isEmpty then folder.follow 0 [] path.parts
  else some (if path.parts.isEmpty then 1 else 0, path.anchor :: path.parts)

/-- What a path leads to. -/
def entry? (folder : Folder) (path : PathName) : Option Entry := do
  match ← folder.locate path with
  | (0, parts) => folder.lookUp parts
  | (_ + 1, _) => return .directory

/-- Whether components lead from a directory, inside the folder or a number of levels above it, to
one that is too long. Nothing is known of directories outside. -/
def meetsLongPart (folder : Folder) (levelsAbove : Nat) (here : List String) :
    List String → Bool
  | [] => false
  | part :: rest =>
    if part.utf8ByteSize > PathName.longestPart then true
    else match folder.follow levelsAbove here [part] with
      | some (0, next) =>
        folder.lookUp next == some .directory && folder.meetsLongPart 0 next rest
      | some (above, next) => folder.meetsLongPart above next rest
      | none => false

/-- Whether a path is too long to be looked up, as a whole or in a component that is reached. -/
def isTooLong (folder : Folder) (path : PathName) : Bool :=
  let reached := if path.anchor.isEmpty then path.parts else path.parts.take 1
  path.spelling.utf8ByteSize > PathName.longestPath || folder.meetsLongPart 0 [] reached

/-- Replace the content of the file that a path leads to, or add it. -/
def write (folder : Folder) (path : PathName) (content : Bytes) : Folder :=
  match folder.locate path with
  | some (0, parts) => ⟨(parts, content) :: folder.files.filter fun file => file.1 != parts⟩
  | _ => folder

/-- A working directory from file names and contents. -/
def ofFiles (files : List (String × Bytes)) : Folder :=
  files.foldr (fun (name, content) folder => folder.write (PathName.ofString name) content) {}

end Folder

/-- The text of a file: UTF-8 with its line ends unified. -/
def fileText? (content : Bytes) : Option String :=
  (decode? content).map fun text => String.ofList (unifyNewlines text.toList)

end Arborist

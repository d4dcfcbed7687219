import Arborist.Calendar
import Arborist.Numeral.Binary
import Arborist.Text.Quoted

/-!
# Values of settings

Settings come as nested mappings of plain values. Mappings keep the order of their keys and hold a
key once; keys may be of any simple kind. `unset` marks a value that is to be passed over when
mappings are merged.
-/

namespace Arborist

open Numeral Text

/-- A simple value, which can also be a key. -/
inductive Scalar where
  | null
  | bool (value : Bool)
  | int (value : Int)
  | float (value : Binary)
  | text (value : String)
  | bytes (value : Bytes)
  | date (value : Date)
  | moment (value : Moment)
  deriving DecidableEq, Repr

/-- A value of settings. -/
inductive Value where
  | scalar (value : Scalar)
  | list (items : List Value)
  | map (entries : List (Scalar × Value))
  | set (members : List Scalar)
  /-- To be passed over in a merge. -/
  | unset
  deriving Repr

/-- The entries of a mapping, in order. -/
abbrev Entries := List (Scalar × Value)

namespace Scalar

/-- The integer that a key counts as: the truth values and whole numbers count as integers. -/
def asInteger? : Scalar → Option Int
  | .bool value => some (if value then 1 else 0)
  | .int value => some value
  | .float value => value.toInteger?
  | _ => none

/-- The instant that a key counts as: moments count by where they are in universal time. -/
def asInstant? : Scalar → Option Int
  | .moment value => value.instant?
  | _ => none

/-- Whether two keys of one mapping are the same key: numbers are compared by value, whatever
their kind, and moments by instant, whatever their offset. -/
def sameKey (a b : Scalar) : Bool :=
  a == b || (a.asInteger?.isSome && a.asInteger? == b.asInteger?)
    || (a.asInstant?.isSome && a.asInstant? == b.asInstant?)

/-- A key as text. -/
def shownKey : Scalar → String
  | .null => "None"
  | .bool value => if value then "True" else "False"
  | .int value => toString value
  | .float value => value.shown
  | .text value => value
  | .bytes value => quotedBytes value
  | .date value => value.shown
  | .moment value => value.shown

end Scalar

namespace Entries

/-- What a mapping holds under a key, in whatever spelling the key is there. -/
def get? (entries : Entries) (key : Scalar) : Option Value :=
  (entries.find? fun entry => entry.1.sameKey key).map Prod.snd

/-- Set a key: a key that is there keeps its place, a new one goes to the end. -/
def put (entries : Entries) (key : Scalar) (value : Value) : Entries :=
  if entries.any (·.1 == key) then
    entries.map fun entry => if entry.1 == key then (key, value) else entry
  else entries ++ [(key, value)]

/-- Set a key that may be there under another spelling, which is then kept. -/
def putSame (entries : Entries) (key : Scalar) (value : Value) : Entries :=
  match entries.find? fun entry => entry.1.sameKey key with
  | some (found, _) => entries.put found value
  | none => entries ++ [(key, value)]

end Entries

namespace Value

/-- A text as a value. -/
def text (value : String) : Value := .scalar (.text value)

/-- Whether a value is to be passed over in a merge. -/
def isUnset : Value → Bool
  | .unset => true
  | _ => false

/-- Whether a value says nothing: null, false, zero, or empty. -/
def isVoid : Value → Bool
  | .scalar .null => true
  | .scalar (.bool value) => !value
  | .scalar (.int value) => value == 0
  | .scalar (.float (.finite _ significand _)) => significand == 0
  | .scalar (.text value) => value.isEmpty
  | .scalar (.bytes value) => value.isEmpty
  | .scalar _ => false
  | .list items => items.isEmpty
  | .map entries => entries.isEmpty
  | .set members => members.isEmpty
  | .unset => false

/-- The kind of a value, as messages name it. -/
def kindName : Value → String
  | .scalar .null => "NoneType"
  | .scalar (.bool _) => "bool"
  | .scalar (.int _) => "int"
  | .scalar (.float _) => "float"
  | .scalar (.text _) => "str"
  | .scalar (.bytes _) => "bytes"
  | .scalar (.date _) => "datetime.date"
  | .scalar (.moment _) => "datetime.datetime"
  | .list _ => "list"
  | .map _ => "dict"
  | .set _ => "set"
  | .unset => "object"

end Value

end Arborist

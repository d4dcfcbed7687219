import Arborist.Settings.Value

/-!
# Data that may hold itself

What is read from a text is a table of collections that refer to each other. A collection may lie
inside itself, and then the data has no end: no `Value` is equal to it. `Datum.view` shows a datum
one level deep, and everything else looks at data through it. `Datum.cut` is the value that is left
of a datum when what lies deeper than some level is cut off; `Datum.whole?` is the value of a datum
that ends.
-/

namespace Arborist

/-- What a collection is made of: simple values, and collections, which are named by their place in
a table. -/
inductive Piece where
  | simple (value : Scalar)
  | collection (place : Nat)
  deriving DecidableEq, Repr

/-- The content of a collection. A key of a mapping may be there more than once; the last entry
counts. -/
inductive Filling where
  | items (items : List Piece)
  | entries (entries : List (Scalar × Piece))
  | members (members : List Scalar)
  deriving DecidableEq, Repr

/-- A piece together with the collections it refers to, below a path of keys. -/
structure Datum where
  path : List String := []
  fillings : Array Filling := #[]
  piece : Piece
  deriving DecidableEq, Repr

/-- A mapping of entries, of which the last one under a key counts. -/
def Entries.collect {α : Type} (value : α → Value) (entries : List (Scalar × α)) : Entries :=
  entries.foldl (fun all entry => putSame all entry.1 (value entry.2)) []

namespace Datum

/-- A datum, one level deep. -/
inductive View where
  | simple (value : Scalar)
  | list (items : List Datum)
  | mapping (entries : List (Scalar × Datum))
  | set (members : List Scalar)

/-- Members of a set, each once. -/
def distinct (members : List Scalar) : List Scalar :=
  members.foldl (fun kept member => if kept.any member.sameKey then kept else kept ++ [member]) []

/-- A datum, seen one level deep. -/
def view (datum : Datum) : View :=
  let inside (piece : Piece) : Datum := { datum with piece }
  match datum.path, datum.piece with
  | key :: path, _ => .mapping [(.text key, { datum with path })]
  | [], .simple value => .simple value
  | [], .collection place =>
    match datum.fillings[place]? with
    | some (.items items) => .list (items.map inside)
    | some (.entries entries) => .mapping (entries.map fun entry => (entry.1, inside entry.2))
    | some (.members members) => .set (distinct members)
    | none => .list []

/-- A simple value as a datum. -/
def simple (value : Scalar) : Datum := { piece := .simple value }

/-- A datum below further keys. -/
def under (keys : List String) (datum : Datum) : Datum := { datum with path := keys ++ datum.path }

/-- A mapping of simple values as a datum. -/
def ofEntries (entries : List (Scalar × Scalar)) : Datum where
  fillings := #[.entries (entries.map fun entry => (entry.1, .simple entry.2))]
  piece := .collection 0

/-! ### Values -/

/-- The value that is left of a datum when what lies deeper than some level is cut off. An empty
list stands where something was cut off. -/
def cut : Nat → Datum → Value
  | 0, datum =>
    match datum.view with
    | .simple value => .scalar value
    | _ => .list []
  | depth + 1, datum =>
    match datum.view with
    | .simple value => .scalar value
    | .list items => .list (items.map (cut depth))
    | .mapping entries => .map (Entries.collect (cut depth) entries)
    | .set members => .set members

/-- Whether nothing of a datum lies deeper than some level. -/
def endsWithin : Nat → Datum → Bool
  | 0, datum =>
    match datum.view with
    | .simple _ => true
    | _ => false
  | depth + 1, datum =>
    match datum.view with
    | .simple _ => true
    | .list items => items.all (endsWithin depth)
    | .mapping entries => entries.all fun entry => endsWithin depth entry.2
    | .set _ => true

/-- The deepest level of a datum that ends: going down, no collection is met twice. -/
def deepest (datum : Datum) : Nat := datum.fillings.size + datum.path.length + 1

/-- The value of a datum, if it ends. -/
def whole? (datum : Datum) : Option Value :=
  if datum.endsWithin datum.deepest then some (datum.cut datum.deepest) else none

/-- Whether a datum says nothing. -/
def isVoid (datum : Datum) : Bool := (datum.cut 1).isVoid

/-! ### Mappings -/

/-- Whether a datum is a mapping. -/
def isMapping (datum : Datum) : Bool :=
  match datum.view with
  | .mapping _ => true
  | _ => false

/-- The entries of a datum that is a mapping. -/
def entries (datum : Datum) : List (Scalar × Datum) :=
  match datum.view with
  | .mapping entries => entries
  | _ => []

/-- What a mapping holds under a key. -/
def get? (datum : Datum) (key : Scalar) : Option Datum :=
  (datum.entries.reverse.find? fun entry => entry.1.sameKey key).map Prod.snd

/-- The datum itself and the mappings that can lie in it. -/
def within (datum : Datum) : List Datum :=
  (List.range (datum.path.length + 1)).map (fun count =>
      { datum with path := datum.path.drop count })
    ++ (List.range datum.fillings.size).map fun place =>
      { datum with path := [], piece := .collection place }

end Datum

end Arborist

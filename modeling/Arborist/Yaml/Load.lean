import Arborist.Settings.Datum
import Arborist.Yaml.Graph
import Arborist.Yaml.Simple

/-!
# Loading YAML

`Yaml.read` reads a text as plain data, `Yaml.load` as a value, which it is if no collection lies
inside itself. A key given twice has its last value; keys are simple values; `<<` merges the entries
of mappings in, before a mapping's own entries, which win.

Data is made from the nodes of a document in rounds. A scalar is made as soon as it is met. A
collection is first only noted and filled in the next round, in the order of notes, so a fault
further out is found before one further in. A node met again is not made again.
-/

namespace Arborist.Yaml

/-- How far making data has come. -/
structure Making where
  nodes : Array Node
  /-- What nodes have been made into, by their place in the table. -/
  pieces : Array (Option Piece)
  /-- The collections, by the places of their nodes, and then the pairs in them. They are empty
  until they are filled. -/
  fillings : Array Filling
  /-- The collections noted in this round, last one first. -/
  noted : List NodeId := []

/-- A step of making data, which may fail. -/
abbrev Make := StateT Making (Except LoadFault)

namespace Make

/-- A node of the table. -/
def nodeAt (id : NodeId) : Make Node := do orMalformed (← get).nodes[id]?

/-- Change a node of the table. -/
def setNode (id : NodeId) (node : Node) : Make Unit :=
  modify fun making => { making with nodes := making.nodes.set! id node }

/-- The items of a node that has to be a sequence. -/
def itemsAt (id : NodeId) : Make (List NodeId) := do
  match (← nodeAt id).content with
  | .sequence items => return items
  | _ => throw .malformed

/-- The entries of a node that has to be a mapping. -/
def entriesAt (id : NodeId) : Make (List (NodeId × NodeId)) := do
  match (← nodeAt id).content with
  | .mapping entries => return entries
  | _ => throw .malformed

/-- Give a mapping other entries. -/
def setEntries (id : NodeId) (entries : List (NodeId × NodeId)) : Make Unit := do
  setNode id { ← nodeAt id with content := .mapping entries }

/-! ### Scalars -/

/-- The text of a node. That of a mapping is the text of its value under an equals mark; going from
value to value, a node that is met twice is met again and again. -/
def textAt : Nat → NodeId → Make String
  | 0, _ => throw .endless
  | steps + 1, id => do
    match (← nodeAt id).content with
    | .scalar text => return text
    | .sequence _ => throw .malformed
    | .mapping entries =>
      let marked ← entries.findM? fun (key, _) => return (← nodeAt key).tag == .equalsMark
      match marked with
      | some (_, value) => textAt steps value
      | none => throw .malformed

/-- The simple value of a node. -/
def simpleAt (id : NodeId) : Make Scalar := do
  let node ← nodeAt id
  let text ← textAt ((← get).nodes.size + 1) id
  match node.tag, node.content with
  | .moment, .mapping _ => throw .momentOfMapping
  | tag, _ => simpleValue tag text

/-- Whether a tag is that of a collection. -/
def isCollectionTag (tag : Tag) : Bool :=
  [Tag.sequence, .mapping, .orderedMapping, .pairs, .set].contains tag

/-- Whether a tag has no values. -/
def isBareTag (tag : Tag) : Bool := [Tag.mergeMark, .equalsMark, .unknown].contains tag

/-- What a node is made into. The tag decides whether it is a collection. -/
def pieceAt (id : NodeId) : Make Piece := do
  if let some piece := ((← get).pieces[id]?).join then return piece
  let tag := (← nodeAt id).tag
  if isBareTag tag then throw .malformed
  let piece ←
    if isCollectionTag tag then
      modify fun making => { making with noted := id :: making.noted }
      pure (Piece.collection id)
    else do pure (Piece.simple (← simpleAt id))
  modify fun making => { making with pieces := making.pieces.set! id (some piece) }
  return piece

/-! ### Merging mappings in -/

/-- The place of the first merge mark among entries, from a place on. Equals marks before it become
text. -/
def nextMerge (place : Nat) : List (NodeId × NodeId) → Make (Option Nat)
  | [] => return none
  | (key, _) :: entries => do
    let node ← nodeAt key
    if node.tag == .mergeMark then return some place
    if node.tag == .equalsMark then setNode key { node with tag := .text }
    nextMerge (place + 1) entries

mutual

/-- Take the merge marks out of a mapping, from a place on, and collect the entries they bring. -/
def takeMerges (id : NodeId) : Nat → Nat → Make (List (NodeId × NodeId))
  | 0, _ => throw .malformed
  | steps + 1, place => do
    let entries ← entriesAt id
    match ← nextMerge place (entries.drop place) with
    | none => return []
    | some place =>
      setEntries id (entries.eraseIdx place)
      let brought ← match entries[place]? with
        | some (_, value) => broughtBy value steps
        | none => pure []
      return brought ++ (← takeMerges id steps place)

/-- The entries that a node brings when it is merged in: a mapping its own, a sequence of mappings
those of the last one first. -/
def broughtBy (id : NodeId) : Nat → Make (List (NodeId × NodeId))
  | 0 => throw .malformed
  | steps + 1 => do
    match (← nodeAt id).content with
    | .scalar _ => throw .malformed
    | .mapping _ => mergedEntries id steps
    | .sequence items =>
      let brought ← items.mapM fun item => mergedEntries item steps
      return brought.reverse.flatten

/-- The entries of a mapping, those that its merge marks bring before its own. -/
def mergedEntries (id : NodeId) : Nat → Make (List (NodeId × NodeId))
  | 0 => throw .malformed
  | steps + 1 => do
    let brought ← takeMerges id steps 0
    let entries := brought ++ (← entriesAt id)
    setEntries id entries
    return entries

end

/-- A bound for the depth of merges: each takes an entry out. -/
def mergeBound : Make Nat := do
  let sizes := (← get).nodes.map fun node => match node.content with
    | .mapping entries => entries.length
    | _ => 0
  return 3 * sizes.foldl (· + ·) 0 + 3

/-! ### Collections -/

/-- A key, which has to be simple. -/
def keyAt (id : NodeId) : Make Scalar := do
  match ← pieceAt id with
  | .simple value => return value
  | _ => throw .malformed

/-- The keys and values of a mapping. -/
def keyedPieces (id : NodeId) : Make (List (Scalar × Piece)) := do
  let entries ← mergedEntries id (← mergeBound)
  entries.mapM fun (key, value) => do
    let key ← keyAt key
    return (key, ← pieceAt value)

/-- A pair, which is a list that no node stands for. -/
def addPair (first second : Piece) : Make Piece :=
  modifyGet fun making =>
    (.collection making.fillings.size,
      { making with fillings := making.fillings.push (.items [first, second]) })

/-- The pairs of a sequence of mappings with one entry each. -/
def pairPieces (id : NodeId) : Make (List Piece) := do
  (← itemsAt id).mapM fun item => do
    match ← entriesAt item with
    | [(key, value)] => do
      let key ← pieceAt key
      addPair key (← pieceAt value)
    | _ => throw .malformed

/-- Fill a collection. -/
def fill (id : NodeId) : Make Unit := do
  let filling ← match (← nodeAt id).tag with
    | .mapping => do pure (Filling.entries (← keyedPieces id))
    | .set => do pure (Filling.members ((← keyedPieces id).map Prod.fst))
    | .sequence => do pure (Filling.items (← (← itemsAt id).mapM pieceAt))
    | _ => do pure (Filling.items (← pairPieces id))
  modify fun making => { making with fillings := making.fillings.set! id filling }

/-- Fill collections in rounds until no further ones are noted. -/
def fillRounds : Nat → Make Unit
  | 0 => return ()
  | rounds + 1 => do
    let noted := (← get).noted.reverse
    if noted.isEmpty then return
    modify fun making => { making with noted := [] }
    noted.forM fill
    fillRounds rounds

end Make

/-- The data that the nodes of a document stand for; no document counts as null. -/
def Graph.datum (graph : Graph) : Except LoadFault Datum :=
  match graph.root with
  | none => .ok (.simple .null)
  | some root => do
    let size := graph.nodes.size
    let make : Make Piece := do
      let piece ← Make.pieceAt root
      Make.fillRounds (size + 1)
      return piece
    let (piece, making) ← make.run
      { nodes := graph.nodes
        pieces := .replicate size none
        fillings := .replicate size (.items []) }
    return { fillings := making.fillings, piece }

/-- The data that a text holds. -/
def read (text : String) : Except LoadFault Datum := do (← Graph.ofText text).datum

/-- The value that a text holds, if its data ends. -/
def load (text : String) : Except LoadFault Value := do
  match (← read text).whole? with
  | some value => return value
  | none => throw .endless

end Arborist.Yaml

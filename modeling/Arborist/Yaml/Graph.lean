import Arborist.Yaml.Plain
import Arborist.Yaml.Token

/-!
# The nodes of a YAML document

`Graph.ofText` reads the only document of a text. An alias stands for the node that its anchor
names, which may be a collection that the alias itself lies in. So nodes are kept in a table and
refer to each other by their place in it.

Whatever is left out is an empty plain scalar: a key without a value, a value without a key, an
entry with nothing after its dash. A text may hold no document at all.
-/

namespace Arborist.Yaml

/-- A place in the table of nodes. -/
abbrev NodeId := Nat

/-- What a node holds. -/
inductive Content where
  | scalar (text : String)
  | sequence (items : List NodeId)
  | mapping (entries : List (NodeId × NodeId))
  deriving DecidableEq, Repr

/-- A node: what it stands for, and what it holds. -/
structure Node where
  tag : Tag
  content : Content
  deriving DecidableEq, Repr

/-- The nodes of a document and the one at its root, if there is a document. -/
structure Graph where
  nodes : Array Node
  root : Option NodeId

/-- How far reading has come. -/
structure Reading where
  scan : Scan
  /-- A bound for the steps between two tokens. -/
  bound : Nat
  /-- What the handles of tags stand for. -/
  handles : List (String × String) := defaultHandles
  anchors : List (String × NodeId) := []
  nodes : Array Node := #[]

/-- A reader of tokens, which may fail. -/
abbrev Read := StateT Reading (Except LoadFault)

namespace Read

/-- Give up because the text is malformed. -/
def fail {α : Type} : Read α := throw .malformed

/-- The next token; none at the end of the text. -/
def peek : Read (Option Token) := do
  let reading ← get
  let scan ← reading.scan.settle reading.bound
  set { reading with scan := scan }
  return scan.pending.head?

/-- Pass over the token that has been looked at. -/
def advance : Read Unit := modify fun reading => { reading with scan := reading.scan.take }

/-- Pass over a token if it is a given one, and say whether it was. -/
def accept (token : Token) : Read Bool := do
  if (← peek) == some token then
    advance
    return true
  return false

/-- Pass over a token that has to be a given one. -/
def require (token : Token) : Read Unit := do
  if !(← accept token) then fail

/-- Whether the next token is one of some. -/
def sees (tokens : List Token) : Read Bool := do
  return ((← peek).map tokens.contains).getD false

/-- Add a node. If it has a name, that must be new. -/
def addNode (anchor : Option String) (tag : Tag) (content : Content) : Read NodeId := do
  let reading ← get
  let id := reading.nodes.size
  let anchors ← match anchor with
    | none => pure reading.anchors
    | some name =>
      if (reading.anchors.lookup name).isSome then fail
      pure ((name, id) :: reading.anchors)
  set { reading with anchors := anchors, nodes := reading.nodes.push ⟨tag, content⟩ }
  return id

/-- Give a node its content. -/
def setContent (id : NodeId) (content : Content) : Read Unit :=
  modify fun reading =>
    { reading with nodes := reading.nodes.modify id fun node => { node with content := content } }

/-- What stands where a node is left out. -/
def omitted : Read NodeId := addNode none .null (.scalar "")

end Read

open Read

/-- What is written before the content of a node: a name and the full form of a tag. -/
structure Properties where
  anchor : Option String := none
  tag : Option String := none

namespace Properties

/-- What a scalar stands for. Without a tag a plain one stands for what it looks like and any other
for text; the tag `!` makes any scalar a plain one. -/
def scalarTag (properties : Properties) (plain : Bool) (text : String) : Tag :=
  match properties.tag with
  | none => if plain then .ofPlain text else .text
  | some "!" => .ofPlain text
  | some name => .ofName name

/-- What a collection stands for. Without a tag, and with the tag `!`, it is what it is. -/
def collectionTag (properties : Properties) (usual : Tag) : Tag :=
  match properties.tag with
  | none => usual
  | some "!" => usual
  | some name => .ofName name

end Properties

/-- The name of an anchor, if one comes next. -/
def readAnchor : Read (Option String) := do
  match ← peek with
  | some (.anchor name) =>
    advance
    return some name
  | _ => return none

/-- A tag, if one comes next. -/
def readTag : Read (Option WrittenTag) := do
  match ← peek with
  | some (.tag tag) =>
    advance
    return some tag
  | _ => return none

/-- An anchor and a tag, in either order, each at most once. The handle of the tag has to be
defined. -/
def readProperties : Read Properties := do
  let first ← readAnchor
  let tag ← readTag
  let anchor ← if first.isNone && tag.isSome then readAnchor else pure first
  match tag with
  | none => return ⟨anchor, none⟩
  | some tag => return ⟨anchor, some (← orMalformed (tag.full? (← get).handles))⟩

/-- A collection: it has its name before its content is read. -/
def readCollection (properties : Properties) (usual : Tag) (empty : Content)
    (content : Read Content) : Read NodeId := do
  let id ← addNode properties.anchor (properties.collectionTag usual) empty
  setContent id (← content)
  return id

/-- A sequence, given how its items are read. -/
def readSequence (properties : Properties) (items : Read (List NodeId)) : Read NodeId :=
  readCollection properties .sequence (.sequence []) do return .sequence (← items)

/-- A mapping, given how its entries are read. -/
def readMapping (properties : Properties) (entries : Read (List (NodeId × NodeId))) :
    Read NodeId :=
  readCollection properties .mapping (.mapping []) do return .mapping (← entries)

/-- A scalar. -/
def readScalar (properties : Properties) (plain : Bool) (text : String) : Read NodeId :=
  addNode properties.anchor (properties.scalarTag plain text) (.scalar text)

mutual

/-- A node. Block collections count only where `block` says so, and a sequence at the column of its
mapping only where `flush` does. A node without content needs an anchor or a tag. -/
def readNode (block flush : Bool) : Nat → Read NodeId
  | 0 => fail
  | steps + 1 => do
    if let some (.aliasOf name) ← peek then
      advance
      return ← orMalformed ((← get).anchors.lookup name)
    let properties ← readProperties
    match ← peek with
    | some .blockEntry =>
      if flush then return ← readSequence properties (readFlushItems steps)
    | some (.scalar plain text) =>
      advance
      return ← readScalar properties plain text
    | some .flowSequenceStart =>
      return ← readSequence properties do
        advance
        readFlowItems true steps
    | some .flowMappingStart =>
      return ← readMapping properties do
        advance
        readFlowEntries true steps
    | some .blockSequenceStart =>
      if block then
        return ← readSequence properties do
          advance
          readBlockItems steps
    | some .blockMappingStart =>
      if block then
        return ← readMapping properties do
          advance
          readBlockEntries steps
    | _ => pure ()
    if properties.anchor.isNone && properties.tag.isNone then fail
    readScalar properties true ""

/-- A node, or nothing before some tokens. -/
def readNodeBefore (stops : List Token) (block flush : Bool) : Nat → Read NodeId
  | 0 => fail
  | steps + 1 => do
    if ← sees stops then omitted else readNode block flush steps

/-- The items of a block sequence up to its end. -/
def readBlockItems : Nat → Read (List NodeId)
  | 0 => fail
  | steps + 1 => do
    if ← accept .blockEntry then
      let item ← readNodeBefore [.blockEntry, .blockEnd] true false steps
      return item :: (← readBlockItems steps)
    require .blockEnd
    return []

/-- The items of a sequence at the column of its mapping. -/
def readFlushItems : Nat → Read (List NodeId)
  | 0 => fail
  | steps + 1 => do
    if ← accept .blockEntry then
      let item ← readNodeBefore [.blockEntry, .key, .value, .blockEnd] true false steps
      return item :: (← readFlushItems steps)
    return []

/-- The entries of a block mapping up to its end. -/
def readBlockEntries : Nat → Read (List (NodeId × NodeId))
  | 0 => fail
  | steps + 1 => do
    if ← accept .key then
      let key ← readNodeBefore [.key, .value, .blockEnd] true true steps
      let value ← readValue [.key, .value, .blockEnd] true steps
      return (key, value) :: (← readBlockEntries steps)
    require .blockEnd
    return []

/-- The value of an entry; it is left out before some tokens. -/
def readValue (stops : List Token) (block : Bool) : Nat → Read NodeId
  | 0 => fail
  | steps + 1 => do
    if ← accept .value then readNodeBefore stops block block steps else omitted

/-- The entry of a mapping inside brackets or braces, up to one of the tokens that end it. -/
def readFlowEntry (stops : List Token) : Nat → Read (NodeId × NodeId)
  | 0 => fail
  | steps + 1 => do
    let key ← readNodeBefore (.value :: stops) false false steps
    let value ← readValue stops false steps
    return (key, value)

/-- The items of a flow sequence up to its bracket, commas between them. An item may be a single
entry of a mapping. -/
def readFlowItems (first : Bool) : Nat → Read (List NodeId)
  | 0 => fail
  | steps + 1 => do
    if ← accept .flowSequenceEnd then return []
    if !first then require .flowEntry
    if (← peek) == some .key then
      let item ← readMapping {} do
        advance
        return [← readFlowEntry [.flowEntry, .flowSequenceEnd] steps]
      return item :: (← readFlowItems false steps)
    if ← accept .flowSequenceEnd then return []
    let item ← readNode false false steps
    return item :: (← readFlowItems false steps)

/-- The entries of a flow mapping up to its brace, commas between them. A node without a key mark
is a key without a value. -/
def readFlowEntries (first : Bool) : Nat → Read (List (NodeId × NodeId))
  | 0 => fail
  | steps + 1 => do
    if ← accept .flowMappingEnd then return []
    if !first then require .flowEntry
    if ← accept .key then
      let entry ← readFlowEntry [.flowEntry, .flowMappingEnd] steps
      return entry :: (← readFlowEntries false steps)
    if ← accept .flowMappingEnd then return []
    let key ← readNode false false steps
    let value ← omitted
    return (key, value) :: (← readFlowEntries false steps)

end

/-- The directives before a document: at most one says a version, which has to be 1, and a handle
is defined at most once. -/
def readDirectives (versioned : Bool) (handles : List (String × String)) :
    Nat → Read (List (String × String))
  | 0 => fail
  | steps + 1 => do
    match ← peek with
    | some (.directive directive) =>
      advance
      match directive with
      | .version major =>
        if versioned || major != 1 then fail
        readDirectives true handles steps
      | .handle handle lead =>
        if (handles.lookup handle).isSome then fail
        readDirectives versioned (handles ++ [(handle, lead)]) steps
      | .other => readDirectives versioned handles steps
    | _ => return handles

/-- Marks of the end of a document. -/
def skipDocumentEnds : Nat → Read Unit
  | 0 => return ()
  | steps + 1 => do
    if ← accept .documentEnd then skipDocumentEnds steps

/-- Whether the next token belongs to the frame of a document and not to its content. -/
def seesFrame : Read Bool := do
  match ← peek with
  | none => return true
  | some (.directive _) => return true
  | some .documentStart => return true
  | _ => return false

/-- The directives and the mark before a document. -/
def readDocumentStart (steps : Nat) : Read Unit := do
  let handles ← readDirectives false [] steps
  modify fun reading => { reading with handles := handles ++ defaultHandles }
  require .documentStart

/-- The root of the only document of a text, if there is one. -/
def readStream (steps : Nat) : Read (Option NodeId) := do
  if (← peek).isNone then return none
  let framed ← seesFrame
  if framed then readDocumentStart steps
  let ended := framed && ((← seesFrame) || (← peek) == some .documentEnd)
  let root ← if ended then omitted else readNode true false steps
  skipDocumentEnds steps
  if (← peek).isSome then
    readDocumentStart steps
    fail
  return some root

/-- The nodes of the only document of a text. Reading a token takes few steps, and a character
makes few tokens. -/
def Graph.ofText (text : String) : Except LoadFault Graph := do
  let bound := text.length + 2
  let (root, reading) ← (readStream (8 * bound)).run { scan := ← Scan.ofText text, bound := bound }
  return ⟨reading.nodes, root⟩

end Arborist.Yaml

import ApiBindings.Yaml.Tag
import ApiBindings.Yaml.Token

/-!
# Nodes

The nodes of a YAML document, each with its type. An alias is the node that it names, so that nodes
form a graph: every node has a number, and collections hold numbers. Reading nodes from tokens follows
the block and flow grammar; a place where a node may be missing holds an empty plain scalar.
-/

namespace ApiBindings.Yaml

/-- What a node holds; the nodes inside are given by number. -/
inductive Content where
  | scalar (text : String)
  | sequence (items : List Nat)
  | mapping (pairs : List (Nat × Nat))
  deriving DecidableEq, Repr

/-- A node of a document. -/
structure Node where
  tag : Tag
  content : Content
  deriving Repr

/-- The nodes of a document by their numbers. -/
abbrev Nodes := Array Node

namespace Nodes

/-- The node with a number; beyond the end stands an empty sequence. -/
def node (nodes : Nodes) (id : Nat) : Node :=
  nodes.getD id ⟨.seq, .sequence []⟩

end Nodes

/-- How far the reading of nodes has come. -/
structure NodeReader where
  tokens : List Token
  /-- How many more collections may stand inside those that are being read. -/
  depth : Nat
  /-- What stopped the reading of tokens, if it was not the end of the text. -/
  fault : Option Fault
  nodes : Nodes
  anchors : List (String × Nat)
  handles : List (String × String)

/-- A step of the reading of nodes. -/
abbrev ReadNodes := StateT NodeReader (Except Fault)

/-- The marks in front of a node: its anchor, and its tag with the handle resolved. -/
structure Properties where
  anchor : Option String
  tag : Option String

namespace ReadNodes

/-- The text is not well-formed here. -/
def malformed {α : Type} : ReadNodes α :=
  throw .malformed

/-- The next token, which stays unread. -/
def peek : ReadNodes Token := do
  let reader ← get
  match reader.tokens with
  | token :: _ => return token
  | [] => throw (reader.fault.getD .malformed)

/-- Passes over a token. -/
def skip : ReadNodes Unit :=
  modify fun reader => { reader with tokens := reader.tokens.tail }

/-- Passes over the next token if it is the given one; tells whether it was. -/
def accept (token : Token) : ReadNodes Bool := do
  if (← peek) == token then
    skip
    return true
  return false

/-- Passes over the next token, which must be the given one. -/
def expect (token : Token) : ReadNodes Unit := do
  unless ← accept token do malformed

def addNode (node : Node) : ReadNodes Nat := do
  let reader ← get
  set { reader with nodes := reader.nodes.push node }
  return reader.nodes.size

/-- Fills in what a collection holds. -/
def fill (id : Nat) (tag : Tag) (content : Content) : ReadNodes Unit :=
  modify fun reader => { reader with nodes := reader.nodes.setIfInBounds id ⟨tag, content⟩ }

/-- Names a node by its anchor; one name is given once. -/
def setAnchor (anchor : Option String) (id : Nat) : ReadNodes Unit := do
  match anchor with
  | none => return
  | some name =>
    let reader ← get
    if (reader.anchors.lookup name).isSome then malformed
    set { reader with anchors := (name, id) :: reader.anchors }

/-- Adds a scalar that is not written. -/
def addEmpty : ReadNodes Nat :=
  addNode ⟨.null, .scalar ""⟩

/-- Reads an anchor, if one comes next. -/
def anchor? : ReadNodes (Option String) := do
  match ← peek with
  | .anchor name =>
    skip
    return some name
  | _ => return none

/-- Reads a tag, if one comes next, as its handle and its suffix. -/
def tag? : ReadNodes (Option (Option String × String)) := do
  match ← peek with
  | .tag handle suffix =>
    skip
    return some (handle, suffix)
  | _ => return none

/-- The full name of a tag: what its handle stands for, and its suffix. -/
def resolve (tag : Option String × String) : ReadNodes String := do
  match tag.1 with
  | none => return tag.2
  | some handle =>
    match (← get).handles.lookup handle with
    | some meaning => return meaning ++ tag.2
    | none => malformed

/-- Reads the anchor and the tag of a node, in either order. The tag is resolved when both are read. -/
def properties : ReadNodes Properties := do
  match ← anchor? with
  | some anchor =>
    let tag ← tag?
    return ⟨some anchor, ← tag.mapM resolve⟩
  | none =>
    match ← tag? with
    | some tag =>
      let anchor ← anchor?
      return ⟨anchor, some (← resolve tag)⟩
    | none => return ⟨none, none⟩

/-- Reads what stands inside one more collection. -/
def inside {α : Type} (read : ReadNodes α) : ReadNodes α := do
  match (← get).depth with
  | 0 => throw .tooDeep
  | depth + 1 =>
    modify fun reader => { reader with depth }
    let value ← read
    modify fun reader => { reader with depth := depth + 1 }
    return value

end ReadNodes

namespace Properties

/-- Whether a tag leaves the type open: there is none, or it is the lone exclamation mark. -/
def isOpen (properties : Properties) : Bool :=
  properties.tag == none || properties.tag == some "!"

/-- The type of a scalar: what its tag says; with an open tag, what a plain text looks like. -/
def scalarTag (properties : Properties) (text : String) (plain : Bool) : Tag :=
  match properties.tag with
  | none => if plain then .ofPlain text else .str
  | some "!" => .ofPlain text
  | some name => .ofName name

/-- The type of a collection, with the type that it has when its tag is open. -/
def collectionTag (properties : Properties) (usual : Tag) : Tag :=
  if properties.isOpen then usual else .ofName (properties.tag.getD "")

end Properties

namespace ReadNodes

/-- Where a node may stand: its context decides which collections may begin. -/
inductive Place where
  | flow
  | block
  /-- A key or a value of a block mapping, where a sequence need not be indented. -/
  | mappingEntry
  deriving DecidableEq

/-- Reads a collection: it has its number and its anchor before what it holds is read. -/
def collection (properties : Properties) (usual : Tag) (read : Nat → Tag → ReadNodes Unit) :
    ReadNodes Nat := do
  let tag := properties.collectionTag usual
  let id ← addNode ⟨tag, .sequence []⟩
  setAnchor properties.anchor id
  inside (read id tag)
  return id

/-- Adds the empty scalar that stands for a node with nothing but properties. -/
def emptyNode (properties : Properties) : ReadNodes Nat := do
  if properties.anchor.isNone && properties.tag.isNone then malformed
  let id ← addNode ⟨properties.scalarTag "" true, .scalar ""⟩
  setAnchor properties.anchor id
  return id

mutual

def node (place : Place) : Nat → ReadNodes Nat
  | 0 => malformed
  | fuel + 1 => do
    if let .alias name ← peek then
      skip
      match (← get).anchors.lookup name with
      | some id => return id
      | none => malformed
    let properties ← properties
    match ← peek with
    | .blockEntry =>
      if place == .mappingEntry then
        collection properties .seq fun id tag => do
          fill id tag (.sequence (← plainEntries fuel))
      else emptyNode properties
    | .scalar text plain =>
      skip
      let id ← addNode ⟨properties.scalarTag text plain, .scalar text⟩
      setAnchor properties.anchor id
      return id
    | .flowSequenceStart =>
      skip
      collection properties .seq fun id tag => do
        fill id tag (.sequence (← flowItems true fuel))
    | .flowMappingStart =>
      skip
      collection properties .map fun id tag => do
        fill id tag (.mapping (← flowPairs true fuel))
    | .blockSequenceStart =>
      if place == .flow then emptyNode properties
      else
        skip
        collection properties .seq fun id tag => do
          fill id tag (.sequence (← blockEntries fuel))
    | .blockMappingStart =>
      if place == .flow then emptyNode properties
      else
        skip
        collection properties .map fun id tag => do
          fill id tag (.mapping (← blockPairs fuel))
    | _ => emptyNode properties

/-- Reads the entries of an indented block sequence. -/
def blockEntries : Nat → ReadNodes (List Nat)
  | 0 => malformed
  | fuel + 1 => do
    if ← accept .blockEntry then
      let item ← match ← peek with
        | .blockEntry => addEmpty
        | .blockEnd => addEmpty
        | _ => node .block fuel
      return item :: (← blockEntries fuel)
    expect .blockEnd
    return []

/-- Reads the entries of a block sequence that is not indented; what follows the last one belongs to
the mapping around it. -/
def plainEntries : Nat → ReadNodes (List Nat)
  | 0 => malformed
  | fuel + 1 => do
    if ← accept .blockEntry then
      let item ← match ← peek with
        | .blockEntry => addEmpty
        | .key => addEmpty
        | .value => addEmpty
        | .blockEnd => addEmpty
        | _ => node .block fuel
      return item :: (← plainEntries fuel)
    return []

/-- Reads a key or a value of a block mapping, which may be missing. -/
def blockPart : Nat → ReadNodes Nat
  | 0 => malformed
  | fuel + 1 => do
    match ← peek with
    | .key => addEmpty
    | .value => addEmpty
    | .blockEnd => addEmpty
    | _ => node .mappingEntry fuel

/-- Reads the pairs of a block mapping. -/
def blockPairs : Nat → ReadNodes (List (Nat × Nat))
  | 0 => malformed
  | fuel + 1 => do
    if ← accept .blockEnd then
      return []
    expect .key
    let key ← blockPart fuel
    let value ← if ← accept .value then blockPart fuel else addEmpty
    return (key, value) :: (← blockPairs fuel)

/-- Reads a key or a value inside a flow collection, which may be missing before the tokens given. -/
def flowPart (ends : List Token) : Nat → ReadNodes Nat
  | 0 => malformed
  | fuel + 1 => do
    if ends.contains (← peek) then addEmpty else node .flow fuel

/-- Reads the items of a flow sequence; an item with a key is a mapping of one pair. -/
def flowItems (first : Bool) : Nat → ReadNodes (List Nat)
  | 0 => malformed
  | fuel + 1 => do
    if ← accept .flowSequenceEnd then
      return []
    unless first do expect .flowEntry
    if ← accept .flowSequenceEnd then
      return []
    let item ←
      if ← accept .key then do
        let id ← addNode ⟨.map, .mapping []⟩
        inside do
          let key ← flowPart [.value, .flowEntry, .flowSequenceEnd] fuel
          let value ←
            if ← accept .value then flowPart [.flowEntry, .flowSequenceEnd] fuel else addEmpty
          fill id .map (.mapping [(key, value)])
        pure id
      else node .flow fuel
    return item :: (← flowItems false fuel)

/-- Reads the pairs of a flow mapping; an item without a key mark is a key without a value. -/
def flowPairs (first : Bool) : Nat → ReadNodes (List (Nat × Nat))
  | 0 => malformed
  | fuel + 1 => do
    if ← accept .flowMappingEnd then
      return []
    unless first do expect .flowEntry
    if ← accept .flowMappingEnd then
      return []
    let pair ←
      if ← accept .key then do
        let key ← flowPart [.value, .flowEntry, .flowMappingEnd] fuel
        let value ←
          if ← accept .value then flowPart [.flowEntry, .flowMappingEnd] fuel else addEmpty
        pure (key, value)
      else do
        let key ← node .flow fuel
        let value ← addEmpty
        pure (key, value)
    return pair :: (← flowPairs false fuel)

end

end ReadNodes

end ApiBindings.Yaml

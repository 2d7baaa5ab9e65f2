import ApiBindings.Value.Graph
import ApiBindings.Yaml.Document
import ApiBindings.Yaml.Merge
import ApiBindings.Yaml.ScalarValue

/-!
# Values of documents

The graph of values that the nodes of a document denote. Every node denotes one value, whichever
alias leads to it; a collection exists before it is filled, so that it may contain itself. Collections
are filled in the order in which they are met, level by level, and the first fault in this order is
the one that counts.
-/

namespace ApiBindings.Yaml

/-- A collection that is still to be filled from a node. -/
inductive Unfilled where
  | list (id : Nat)
  | mapping (id : Nat)
  | set (id : Nat)
  | association (id : Nat)

/-- How far the values of the nodes are known. -/
structure ValueBuilder where
  nodes : Nodes
  graph : Graph
  /-- The value of each node that has been met. -/
  values : Array (Option Value)
  /-- The collections met and not yet filled, each with its node; the latest first. -/
  unfilled : List (Nat × Unfilled)

/-- A step of the building of values. -/
abbrev BuildValues := StateT ValueBuilder (Except Fault)

namespace BuildValues

/-- The node does not have the kind that its type needs. -/
def malformed {α : Type} : BuildValues α :=
  throw .malformed

/-- The text of a node of a scalar type: a scalar's own, or that of a mapping's default value, which
may be a mapping again to some depth. -/
def scalarText (nodes : Nodes) : (depth : Nat) → Nat → Except Fault String
  | 0, _ => .error .tooDeep
  | depth + 1, id =>
    match (nodes.node id).content with
    | .scalar text => .ok text
    | .sequence _ => .error .malformed
    | .mapping pairs =>
      match pairs.find? fun pair => (nodes.node pair.1).tag == .default with
      | some pair => scalarText nodes depth pair.2
      | none => .error .malformed

/-- How many default values may stand inside each other. -/
def defaultLimit : Nat := 982

/-- The scalar that a node of a scalar type denotes. A time needs a scalar of its own. -/
def scalarAt (nodes : Nodes) (id : Nat) : Except Fault Scalar := do
  let text ← scalarText nodes defaultLimit id
  match (nodes.node id).tag, (nodes.node id).content with
  | .timestamp, .mapping _ => throw .mappingForTimestamp
  | tag, _ => scalarOf id tag text

/-- Keeps the value of a node. -/
def keep (id : Nat) (value : Value) : BuildValues Value := do
  modify fun builder => { builder with values := builder.values.setIfInBounds id (some value) }
  return value

/-- Keeps an empty collection as the value of a node and leaves it to be filled. -/
def keepUnfilled (id : Nat) (add : Graph → Graph × Value) (unfilled : Graph → Unfilled) :
    BuildValues Value := do
  let builder ← get
  let (graph, value) := add builder.graph
  set { builder with graph, unfilled := (id, unfilled builder.graph) :: builder.unfilled }
  keep id value

/-- The value of a node; a collection may still be empty. -/
def valueOf (id : Nat) : BuildValues Value := do
  let builder ← get
  if let some value := builder.values.getD id none then return value
  let node := builder.nodes.node id
  match node.tag with
  | .seq => keepUnfilled id (·.addList []) fun graph => .list graph.lists.size
  | .map => keepUnfilled id (·.addMapping []) fun graph => .mapping graph.mappings.size
  | .set => keepUnfilled id (·.addSet []) fun graph => .set graph.sets.size
  | .orderedMap => keepUnfilled id (·.addList []) fun graph => .association graph.lists.size
  | .pairs => keepUnfilled id (·.addList []) fun graph => .association graph.lists.size
  | .merge => malformed
  | .default => malformed
  | .unknown => malformed
  | _ =>
    let value ← (scalarAt builder.nodes id : Except Fault Scalar)
    keep id (.scalar value)

/-- The entries of the mapping that a node is; keys are scalars. -/
def entriesOf (id : Nat) : BuildValues (Entries Value) := do
  let builder ← get
  match (builder.nodes.node id).content with
  | .mapping _ =>
    let nodes ← (builder.nodes.flatten id : Except Fault Nodes)
    set { builder with nodes }
    (nodes.pairs id).foldlM
      (fun entries pair => do
        match ← valueOf pair.1 with
        | .scalar key => return Entries.set key (← valueOf pair.2) entries
        | _ => malformed)
      []
  | _ => malformed

/-- The entry that a node of an association is: a mapping of one pair. -/
def pairOf (id : Nat) : BuildValues Value := do
  match ((← get).nodes.node id).content with
  | .mapping [pair] =>
    let first ← valueOf pair.1
    let second ← valueOf pair.2
    let builder ← get
    let (graph, value) := builder.graph.addPair first second
    set { builder with graph }
    return value
  | _ => malformed

/-- The nodes in a node that is a sequence. -/
def itemsOf (id : Nat) : BuildValues (List Nat) := do
  match ((← get).nodes.node id).content with
  | .sequence items => return items
  | _ => malformed

def onGraph (change : Graph → Graph) : BuildValues Unit :=
  modify fun builder => { builder with graph := change builder.graph }

/-- Fills a collection from its node. -/
def fill (id : Nat) : Unfilled → BuildValues Unit
  | .list target => do
    let values ← (← itemsOf id).mapM valueOf
    onGraph fun graph => { graph with lists := graph.lists.setIfInBounds target values }
  | .mapping target => do
    let entries ← entriesOf id
    onGraph fun graph => { graph with mappings := graph.mappings.setIfInBounds target entries }
  | .set target => do
    let entries ← entriesOf id
    onGraph fun graph =>
      { graph with sets := graph.sets.setIfInBounds target (entries.map Prod.fst) }
  | .association target => do
    let values ← (← itemsOf id).mapM pairOf
    onGraph fun graph => { graph with lists := graph.lists.setIfInBounds target values }

/-- Fills all collections, level by level. Every node is met once, so that there are no more levels
than nodes. -/
def fillAll : Nat → BuildValues Unit
  | 0 => malformed
  | fuel + 1 => do
    let builder ← get
    match builder.unfilled.reverse with
    | [] => return
    | level =>
      set { builder with unfilled := [] }
      level.forM fun entry => fill entry.1 entry.2
      fillAll fuel

end BuildValues

/-- The value that a text writes, with the graph that holds its parts. An empty text writes null. -/
def read (text : String) : Except Fault (Graph × Value) := do
  let document ← NodeDocument.ofText text.toList
  match document.root with
  | none => return (.empty, .scalar .null)
  | some root =>
    let size := document.nodes.size
    let start : ValueBuilder := ⟨document.nodes, .empty, Array.replicate size none, []⟩
    let build : BuildValues Value := do
      let value ← BuildValues.valueOf root
      BuildValues.fillAll (size + 2)
      return value
    let (value, builder) ← build.run start
    return (builder.graph, value)

end ApiBindings.Yaml

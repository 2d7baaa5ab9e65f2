import ApiBindings.Yaml.Node

/-!
# Merge keys

A pair whose key is the merge key stands for the pairs of the mapping, or of each mapping of the list,
that is its value. They come before the mapping's own pairs, so that these win; of a list, the pairs of
earlier mappings come later and win.
-/

namespace ApiBindings.Yaml

namespace Nodes

/-- The pairs of a node, none unless it is a mapping. -/
def pairs (nodes : Nodes) (id : Nat) : List (Nat × Nat) :=
  match (nodes.node id).content with
  | .mapping pairs => pairs
  | _ => []

/-- The nodes with other pairs in one of them. -/
def setPairs (nodes : Nodes) (id : Nat) (pairs : List (Nat × Nat)) : Nodes :=
  nodes.setIfInBounds id { nodes.node id with content := .mapping pairs }

/-- Whether the key of a pair is the merge key. -/
def isMerge (nodes : Nodes) (pair : Nat × Nat) : Bool :=
  (nodes.node pair.1).tag == .merge

/-- The number of merge keys in all mappings. -/
def mergeCount (nodes : Nodes) : Nat :=
  nodes.toList.foldl (fun count node =>
    match node.content with
    | .mapping pairs => count + (pairs.filter nodes.isMerge).length
    | _ => count) 0

/-- The nodes with every default key of a mapping taken as text. -/
def settleDefaults (nodes : Nodes) (pairs : List (Nat × Nat)) : Nodes :=
  pairs.foldl
    (fun nodes pair =>
      let key := nodes.node pair.1
      if key.tag == .default then nodes.setIfInBounds pair.1 { key with tag := .str } else nodes)
    nodes

/-- The mappings that the value of a merge key names. -/
def mergeSources (nodes : Nodes) (value : Nat) : Except Fault (List Nat) :=
  match (nodes.node value).content with
  | .mapping _ => .ok [value]
  | .sequence items => .ok items
  | .scalar _ => .error .malformed

/-- Whether a node is a mapping. -/
def isMapping (nodes : Nodes) (id : Nat) : Bool :=
  match (nodes.node id).content with
  | .mapping _ => true
  | _ => false

mutual

/-- The nodes with the merge keys of one mapping resolved; `merged` holds the pairs found so far, and
mappings may be merged into each other to some depth. Every step removes a merge key, and pairs that
are taken over have none. -/
def flattenFrom (depth : Nat) (nodes : Nodes) (id : Nat) (merged : List (Nat × Nat)) :
    Nat → Except Fault Nodes
  | 0 => .error .malformed
  | fuel + 1 => do
    let pairs := nodes.pairs id
    let nodes := nodes.settleDefaults pairs
    match pairs.find? nodes.isMerge with
    | none => return if merged.isEmpty then nodes else nodes.setPairs id (merged ++ pairs)
    | some merge =>
      let nodes := nodes.setPairs id (pairs.erase merge)
      let sources ← nodes.mergeSources merge.2
      let (nodes, found) ← flattenAll depth nodes sources [] fuel
      flattenFrom depth nodes id (merged ++ found) fuel

/-- Resolves the merge keys of several mappings, and gives the pairs of all, those of later mappings
first. -/
def flattenAll (depth : Nat) (nodes : Nodes) (sources : List Nat) (found : List (Nat × Nat))
    (fuel : Nat) : Except Fault (Nodes × List (Nat × Nat)) :=
  match sources with
  | [] => return (nodes, found)
  | source :: rest => do
    unless nodes.isMapping source do throw .malformed
    if depth = 0 then throw .tooDeep
    let nodes ← flattenFrom (depth - 1) nodes source [] fuel
    flattenAll depth nodes rest (nodes.pairs source ++ found) fuel

end

/-- How many mappings may be merged into each other. -/
def mergeLimit : Nat := 986

/-- The nodes with the merge keys of a mapping resolved. -/
def flatten (nodes : Nodes) (id : Nat) : Except Fault Nodes :=
  let pairs := nodes.pairs id
  if pairs.any nodes.isMerge then nodes.flattenFrom mergeLimit id [] (nodes.mergeCount + 1)
  else .ok (nodes.settleDefaults pairs)

end Nodes

end ApiBindings.Yaml

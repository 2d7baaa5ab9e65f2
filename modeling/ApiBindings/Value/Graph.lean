import ApiBindings.Sorting
import ApiBindings.Value.Entries

/-!
# Values as a graph

A value read from a document may share parts with others and may contain itself, so lists, mappings and
pairs have identities: a value names the list, mapping or pair that it is, and a graph says what each
holds. A `Tree` is a value written out, in which nothing is shared.
-/

namespace ApiBindings

/-- A value of a graph. A pair is one entry of an ordered association. -/
inductive Value where
  | scalar (value : Scalar)
  | list (id : Nat)
  | mapping (id : Nat)
  | set (id : Nat)
  | pair (id : Nat)
  deriving DecidableEq, Repr

/-- What the lists, mappings, sets and pairs of some values hold; sets hold scalars only. An identity
beyond the end names an empty one, or a pair of nulls. -/
structure Graph where
  lists : Array (List Value)
  mappings : Array (Entries Value)
  sets : Array (List Scalar)
  pairs : Array (Value × Value)

/-- A value written out. -/
inductive Tree where
  | scalar (value : Scalar)
  | list (items : List Tree)
  | mapping (entries : List (Scalar × Tree))
  | set (members : List Scalar)
  | pair (first second : Tree)
  deriving Repr

namespace Value

def text (value : String) : Value :=
  .scalar (.text value)

def text? : Value → Option String
  | .scalar (.text value) => some value
  | _ => none

/-- What a message calls the kind of a value. -/
def kindName : Value → String
  | .scalar value => value.kindName
  | .list _ => "list"
  | .mapping _ => "dict"
  | .set _ => "set"
  | .pair _ => "tuple"

end Value

namespace Graph

/-- The graph that holds nothing. -/
def empty : Graph := ⟨#[], #[], #[], #[]⟩

def items (graph : Graph) (id : Nat) : List Value :=
  graph.lists.getD id []

/-- The entries of a mapping. -/
def entries (graph : Graph) (id : Nat) : Entries Value :=
  graph.mappings.getD id []

/-- The members of a set. -/
def members (graph : Graph) (id : Nat) : List Scalar :=
  graph.sets.getD id []

/-- The two parts of a pair. -/
def parts (graph : Graph) (id : Nat) : Value × Value :=
  graph.pairs.getD id (.scalar .null, .scalar .null)

def items? (graph : Graph) : Value → Option (List Value)
  | .list id => some (graph.items id)
  | _ => none

/-- The entries of a value that is a mapping. -/
def entries? (graph : Graph) : Value → Option (Entries Value)
  | .mapping id => some (graph.entries id)
  | _ => none

/-- Whether a value counts as true: it is neither empty nor zero, null or false. -/
def isTruthy (graph : Graph) : Value → Bool
  | .scalar value => value.isTruthy
  | .list id => !(graph.items id).isEmpty
  | .mapping id => !(graph.entries id).isEmpty
  | .set id => !(graph.members id).isEmpty
  | .pair _ => true

/-- A list, a mapping or a pair, by its identity. -/
inductive Container where
  | list (id : Nat)
  | mapping (id : Nat)
  | pair (id : Nat)
  deriving DecidableEq

/-- More than the number of containers that can stand inside each other, each another one. -/
def depthLimit (graph : Graph) : Nat :=
  graph.lists.size + graph.mappings.size + graph.pairs.size + 2

/-- The whole number below eight that a scalar equals. -/
def digit? (value : Scalar) : Option Nat :=
  match value.key with
  | .number number => if 0 ≤ number ∧ number < 8 then some number.toNat else none
  | _ => none

/-- The members of a set in the order in which a message shows them: whole numbers below eight in
ascending order, any other members as they came. -/
def shownOrder (members : List Scalar) : List Scalar :=
  if members.all fun member => (digit? member).isSome then
    Sorting.sorted (fun a b => (digit? a).getD 8 ≤ (digit? b).getD 8) members
  else members

/-- A value as a message shows it inside the containers `around`; one that stands inside itself is
shown by dots. Values that stand inside each other take one unit of the room each. -/
def shownWithin (graph : Graph) (room : Nat) (around : List Container) (value : Value) :
    Limited String :=
  match room with
  | 0 => .error .depth
  | room + 1 =>
    match value with
    | .scalar value => value.checkedShown
    | .list id =>
      if .list id ∈ around then .ok "[...]"
      else do
        let shown ← (graph.items id).mapM (graph.shownWithin room (.list id :: around))
        return "[" ++ ", ".intercalate shown ++ "]"
    | .mapping id =>
      if .mapping id ∈ around then .ok "\x7b...\x7d"
      else do
        let shown ← (graph.entries id).mapM fun entry => do
          let key ← entry.1.checkedShown
          return key ++ ": " ++ (← graph.shownWithin room (.mapping id :: around) entry.2)
        return "\x7b" ++ ", ".intercalate shown ++ "\x7d"
    | .set id =>
      match graph.members id with
      | [] => .ok "set()"
      | members => do
        let shown ← (shownOrder members).mapM Scalar.checkedShown
        return "\x7b" ++ ", ".intercalate shown ++ "\x7d"
    | .pair id =>
      if .pair id ∈ around then .ok "(...)"
      else do
        let first ← graph.shownWithin room (.pair id :: around) (graph.parts id).1
        let second ← graph.shownWithin room (.pair id :: around) (graph.parts id).2
        return "(" ++ first ++ ", " ++ second ++ ")"

/-- A value as a message shows it, where so many values may stand inside each other. -/
def shown (graph : Graph) (room : Nat) (value : Value) : Limited String :=
  graph.shownWithin room [] value

/-- The text of a value: a scalar's own text, any other value as a message shows it. -/
def textOf (graph : Graph) (room : Nat) : Value → Limited String
  | .scalar value => value.checkedText
  | value => graph.shown room value

/-- The graph with one more list, and the value that is this list. -/
def addList (graph : Graph) (items : List Value) : Graph × Value :=
  ({ graph with lists := graph.lists.push items }, .list graph.lists.size)

/-- The graph with one more mapping, and the value that is this mapping. -/
def addMapping (graph : Graph) (entries : Entries Value) : Graph × Value :=
  ({ graph with mappings := graph.mappings.push entries }, .mapping graph.mappings.size)

/-- The graph with one more set, and the value that is this set. -/
def addSet (graph : Graph) (members : List Scalar) : Graph × Value :=
  ({ graph with sets := graph.sets.push members }, .set graph.sets.size)

/-- The graph with one more pair, and the value that is this pair. -/
def addPair (graph : Graph) (first second : Value) : Graph × Value :=
  ({ graph with pairs := graph.pairs.push (first, second) }, .pair graph.pairs.size)

mutual

/-- The graph with a tree added to it, every list and mapping of the tree as one of its own. -/
def addTree (graph : Graph) : Tree → Graph × Value
  | .scalar value => (graph, .scalar value)
  | .list items =>
    let (graph, values) := graph.addTrees items
    graph.addList values
  | .mapping entries =>
    let (graph, entries) := graph.addEntries entries
    graph.addMapping entries
  | .set members => graph.addSet members
  | .pair first second =>
    let (graph, first) := graph.addTree first
    let (graph, second) := graph.addTree second
    graph.addPair first second

def addTrees (graph : Graph) : List Tree → Graph × List Value
  | [] => (graph, [])
  | tree :: rest =>
    let (graph, value) := graph.addTree tree
    let (graph, values) := graph.addTrees rest
    (graph, value :: values)

def addEntries (graph : Graph) : List (Scalar × Tree) → Graph × Entries Value
  | [] => (graph, [])
  | (key, tree) :: rest =>
    let (graph, value) := graph.addTree tree
    let (graph, entries) := graph.addEntries rest
    (graph, (key, value) :: entries)

end

def ofTree (tree : Tree) : Graph × Value :=
  empty.addTree tree

/-- A value written out to a depth; what lies deeper is left out as null. -/
def unfoldTo (graph : Graph) (depth : Nat) (value : Value) : Tree :=
  match depth with
  | 0 => .scalar .null
  | depth + 1 =>
    match value with
    | .scalar value => .scalar value
    | .list id => .list ((graph.items id).map (graph.unfoldTo depth))
    | .mapping id =>
      .mapping ((graph.entries id).map fun entry => (entry.1, graph.unfoldTo depth entry.2))
    | .set id => .set (graph.members id)
    | .pair id =>
      .pair (graph.unfoldTo depth (graph.parts id).1) (graph.unfoldTo depth (graph.parts id).2)

/-- A value without loops, written out. -/
def unfold (graph : Graph) (value : Value) : Tree :=
  graph.unfoldTo graph.depthLimit value

end Graph

end ApiBindings

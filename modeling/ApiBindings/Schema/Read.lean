import ApiBindings.Assoc
import ApiBindings.Issue
import ApiBindings.Naming.Distinct
import ApiBindings.Schema.Node
import ApiBindings.Value.Graph

/-!
# Reading schemas

A schema is read from a value of a graph. A reference comes before an enumeration, this before a
composition, and these before the type. Whatever is malformed is read as such and leaves one issue at
its location, and its surroundings are read as usual; so is a mapping that is met again inside itself.
There is no reading of a schema that exceeds a limit: a number that names a property or is shown by an
issue has too many digits, or schemas stand inside each other too deeply.
-/

namespace ApiBindings.Schema

/-- A schema with the issues found in it, in the order of the document. -/
structure Reading where
  node : Node
  issues : List Issue
  deriving Repr

namespace Reading

/-- A schema without issues. -/
def clean (node : Node) : Reading := ⟨node, []⟩

/-- A malformed schema. -/
def fault (location : String) (problem : Problem) : Reading :=
  ⟨.malformed, [⟨location, problem⟩]⟩

/-- A malformed schema whose issue shows a value. -/
def faultShowing (graph : Graph) (room : Nat) (value : Value) (location : String)
    (problem : String → Problem) : Limited Reading := do
  return fault location (problem (← graph.shown room value))

/-- A schema with properties, whose issues are those of the properties. -/
def withProperties (node : Node) (properties : List (String × Reading)) : Reading :=
  ⟨node, properties.flatMap fun property => property.2.issues⟩

end Reading

/-- Where a schema stands inside another one. -/
inductive Place where
  | element
  | part
  | property
  /-- A property beside the parts of a composition. -/
  | sibling
  deriving DecidableEq, Repr

/-- How the schemas inside a schema are read, from their place, their value and their location. -/
abbrev Inner := Place → Value → String → Limited Reading

def readReference (graph : Graph) (room : Nat) (value : Value) (location : String) :
    Limited Reading :=
  match value.text? with
  | some reference =>
    match referenceName reference.toList with
    | [] => Reading.faultShowing graph room value location .invalidReference
    | name => .ok (.clean (.reference (.ofList name)))
  | none => Reading.faultShowing graph room value location .invalidReference

/-- The scalar that a value of an enumeration is: null, a truth value, a number or a text. -/
def enumScalar? : Value → Option Scalar
  | .scalar (.bytes _) => none
  | .scalar (.date _) => none
  | .scalar (.instant _) => none
  | .scalar value => some value
  | _ => none

/-- The reading of the values of an enumeration; `values` are those already read, latest first. -/
def readEnumValues (graph : Graph) (room : Nat) (location : String) :
    List Scalar → List Value → Limited Reading
  | values, [] => .ok (.clean (.enumeration values.reverse))
  | values, value :: rest =>
    match enumScalar? value with
    | some scalar => readEnumValues graph room location (scalar :: values) rest
    | none => Reading.faultShowing graph room value location .unsupportedEnumValue

def readEnum (graph : Graph) (room : Nat) (value : Value) (location : String) : Limited Reading :=
  match graph.items? value with
  | some items => readEnumValues graph room location [] items
  | none => .ok (.fault location .enumNotList)

/-- The names of the required properties, none if they are not given as a list of names. -/
def requiredNames? (graph : Graph) (entries : Entries Value) : Option (List String) :=
  match entries.field? "required" with
  | none => some []
  | some value => (graph.items? value).bind fun items => items.mapM Value.text?

/-- The entries of the properties, none if they are neither a mapping nor empty. -/
def propertyEntries? (graph : Graph) (entries : Entries Value) : Option (Entries Value) :=
  match entries.field? "properties" with
  | none => some []
  | some value => if graph.isTruthy value then graph.entries? value else some []

def readObject (location : String) (properties : List (String × Reading))
    (required : Option (List String)) : Reading :=
  match required with
  | some required =>
    .withProperties (.object (properties.map fun property => (property.1, property.2.node)) required)
      properties
  | none =>
    let reading := Reading.withProperties .malformed properties
    { reading with issues := reading.issues ++ [⟨location, .requiredNotNames⟩] }

/-- What the parts of a composition have given so far. -/
structure Composition where
  bases : List String
  properties : Named Node
  required : List String

namespace Composition

/-- The composition with one more part. A part adds its base, or its properties and required names;
any other part adds nothing. -/
def add (composition : Composition) : Node → Composition
  | .reference name => { composition with bases := composition.bases ++ [name] }
  | .object properties required =>
    { composition with
      properties := composition.properties.setAll properties
      required := Naming.merge composition.required required }
  | _ => composition

/-- The composition as a schema. -/
def toNode (composition : Composition) : Node :=
  .composite composition.bases composition.properties composition.required

end Composition

/-- Whether a part of a composition needs an issue of its own: it contributes nothing and has not been
reported as malformed. -/
def isUnusable : Node → Bool
  | .reference _ => false
  | .object _ _ => false
  | .malformed => false
  | _ => true

/-- The issues of a part of a composition. -/
def partIssues (location : String) (part : Reading) : List Issue :=
  part.issues ++ if isUnusable part.node then [⟨location, .unusablePart⟩] else []

/-- The reading of a composition from the readings of the properties beside `allOf` and of its parts,
each part with its location. -/
def readComposition (required : List String) (siblings : List (String × Reading))
    (parts : List (String × Reading)) : Reading :=
  let start : Composition :=
    ⟨[], .ofPairs (siblings.map fun property => (property.1, property.2.node)), required⟩
  let node := (parts.foldl (fun composition part => composition.add part.2.node) start).toNode
  let before := Reading.withProperties node siblings
  { before with issues := before.issues ++ parts.flatMap fun part => partIssues part.1 part.2 }

/-- The location of a part of a composition. -/
def partLocation (location : String) (index : Nat) : String :=
  location ++ ".allOf[" ++ toString index ++ "]"

def propertyLocation (location : String) (name : String) : String :=
  location ++ ".properties." ++ name

/-- The readings of properties, each with its name. -/
def readProperties (inner : Value → String → Limited Reading) (location : String)
    (properties : Entries Value) : Limited (List (String × Reading)) :=
  properties.mapM fun property => do
    let name ← property.1.checkedText
    return (name, ← inner property.2 (propertyLocation location name))

def readObjectAt (graph : Graph) (inner : Inner) (entries : Entries Value) (location : String) :
    Limited Reading :=
  match propertyEntries? graph entries with
  | none => .ok (.fault location .propertiesNotMapping)
  | some properties => do
    let readings ← readProperties (inner .property) location properties
    return readObject location readings (requiredNames? graph entries)

/-- The reading of an array. A missing or null element schema leaves the elements open. -/
def readArrayAt (inner : Inner) (entries : Entries Value) (location : String) : Limited Reading :=
  match entries.field? "items" with
  | none => .ok (.clean (.array none))
  | some (.scalar .null) => .ok (.clean (.array none))
  | some items => do
    let element ← inner .element items (location ++ ".items")
    return { element with node := .array (some element.node) }

/-- The type of a schema: none if it is missing or null, and no result if it is no text. -/
def kind? (entries : Entries Value) : Option (Option String) :=
  match entries.field? "type" with
  | none => some none
  | some (.scalar .null) => some none
  | some value => value.text?.map some

/-- The reading of a schema by its type. One whose type is no text has no type that is known. -/
def readTyped (graph : Graph) (inner : Inner) (entries : Entries Value) (location : String) :
    Limited Reading :=
  match kind? entries with
  | none => .ok (.clean (.primitive none none))
  | some kind =>
    if kind = some "array" then readArrayAt inner entries location
    else if kind = some "object" ∨ (entries.field? "properties").isSome then
      readObjectAt graph inner entries location
    else .ok (.clean (.primitive kind ((entries.field? "format").bind Value.text?)))

/-- The readings of the parts of a composition, each with its location. -/
def readParts (inner : Value → String → Limited Reading) (location : String) (parts : List Value) :
    Limited (List (String × Reading)) :=
  parts.zipIdx.mapM fun part => do
    let location := partLocation location part.2
    return (location, ← inner part.1 location)

/-- The reading of a composition. Properties beside `allOf` come before those of its parts. -/
def readAllOf (graph : Graph) (inner : Inner) (entries : Entries Value) (allOf : Value)
    (location : String) : Limited Reading :=
  match graph.items? allOf with
  | none => .ok (.fault location .allOfNotList)
  | some parts =>
    match requiredNames? graph entries, propertyEntries? graph entries with
    | none, _ => .ok (.fault location .requiredNotNames)
    | some _, none => .ok (.fault location .propertiesNotMapping)
    | some required, some properties => do
      let siblings ← readProperties (inner .sibling) location properties
      let parts ← readParts (inner .part) location parts
      return readComposition required siblings parts

/-- The reading of a schema that is a mapping. Values that an issue shows have a room of their own. -/
def readMapping (graph : Graph) (room : Nat) (inner : Inner) (entries : Entries Value)
    (location : String) : Limited Reading :=
  match entries.field? "$ref" with
  | some reference => readReference graph room reference location
  | none =>
    match entries.field? "enum" with
    | some values => readEnum graph room values location
    | none =>
      match entries.field? "allOf" with
      | some allOf => readAllOf graph inner entries allOf location
      | none => readTyped graph inner entries location

/-- The reading of a schema that stands inside the mappings `path`. Every schema needs five units of the
room; of these it leaves to a schema inside it three if that is its element, two if it is a part of it,
and one if it is a property, unless this stands beside parts. -/
def readAt (graph : Graph) : (room : Nat) → (path : List Nat) → Value → String → Limited Reading
  | room + 5, path, value, location =>
    match value with
    | .mapping id =>
      if id ∈ path then .ok (.fault location .selfContained)
      else
        let inner : Inner
          | .element => readAt graph (room + 3) (id :: path)
          | .part => readAt graph (room + 2) (id :: path)
          | .property => readAt graph (room + 1) (id :: path)
          | .sibling => readAt graph room (id :: path)
        readMapping graph (room + 2) inner (graph.entries id) location
    | value => .ok (.fault location (.notMapping value.kindName))
  | _, _, _, _ => .error .depth

/-- The room for schemas that stand inside each other. -/
def readRoom : Nat := 992

/-- The reading of a schema at a location. -/
def read (graph : Graph) (value : Value) (location : String) : Limited Reading :=
  readAt graph readRoom [] value location

end ApiBindings.Schema

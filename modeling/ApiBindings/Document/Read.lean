import ApiBindings.Document.Basic
import ApiBindings.Document.Pointer
import ApiBindings.Schema.Read
import ApiBindings.Yaml.Value

/-!
# Reading API descriptions

An API description is read from the mapping at the root of a document. Only a root, paths, components
or schemas of the wrong kind make it unreadable; anything else that is malformed is left out or left
untyped, with an issue. Nothing is read of a document that exceeds a limit.
-/

namespace ApiBindings

namespace Document

/-- Why a text is no API description. -/
inductive Fault where
  | malformedYaml
  | rootNotMapping
  | pathsNotMapping
  | componentsNotMapping
  | schemasNotMapping
  deriving DecidableEq, Repr

/-- Why a text is no API description, in words. -/
def Fault.message : Fault → String
  | .malformedYaml => "invalid YAML"
  | .rootNotMapping => "document root is not a mapping"
  | .pathsNotMapping => "'paths' is not a mapping"
  | .componentsNotMapping => "'components' is not a mapping"
  | .schemasNotMapping => "'components.schemas' is not a mapping"

/-- How reading a document can fail. -/
inductive ReadFailure where
  /-- The document is no API description. -/
  | unreadable (fault : Fault)
  /-- The document holds a scalar that denotes nothing, or exceeds a limit. -/
  | meaningless (fault : Yaml.Fault)
  /-- There is too much of something in the document. -/
  | exceeds (limit : Limit)
  deriving DecidableEq, Repr

/-- The entries of a part of a document: empty if the part is missing or counts as false, a fault if
it is anything else than a mapping. -/
def mappingField (graph : Graph) (fault : Fault) (entries : Entries Value) (name : String) :
    Except Fault (Entries Value) :=
  match entries.field? name with
  | none => .ok []
  | some value =>
    if graph.isTruthy value then
      match graph.entries? value with
      | some entries => .ok entries
      | none => .error fault
    else .ok []

def pathEntries (graph : Graph) (root : Entries Value) : Except Fault (Entries Value) :=
  mappingField graph .pathsNotMapping root "paths"

/-- The entries of the named schemas. -/
def schemaEntries (graph : Graph) (root : Entries Value) : Except Fault (Entries Value) := do
  let components ← mappingField graph .componentsNotMapping root "components"
  mappingField graph .schemasNotMapping components "schemas"

/-- A field that is a text; anything else counts as empty. -/
def textField (entries : Entries Value) (name : String) : String :=
  ((entries.field? name).bind Value.text?).getD ""

/-- The addresses of the servers that have one. -/
def readServers (graph : Graph) (root : Entries Value) : List String :=
  match (root.field? "servers").bind graph.items? with
  | none => []
  | some servers =>
    servers.filterMap fun server =>
      (graph.entries? server).bind fun entries => (entries.field? "url").bind Value.text?

/-- A parameter from its entries; it needs a name. -/
def parameterOf? (graph : Graph) (entries : Entries Value) : Option Parameter :=
  ((entries.field? "name").bind Value.text?).map fun name =>
    ⟨name, textField entries "in", (entries.field? "required").any graph.isTruthy⟩

/-- The reference that a value makes, if it is a mapping with a text for one. -/
def referenceOf? (graph : Graph) (value : Value) : Option String :=
  (graph.entries? value).bind fun entries => (entries.field? "$ref").bind Value.text?

/-- The value that describes a parameter: the given one, or the mapping that it refers to. -/
def parameterTarget (graph : Graph) (root : Value) (value : Value) : Except Problem Value :=
  match referenceOf? graph value with
  | none => .ok value
  | some reference =>
    match Pointer.resolve graph root reference with
    | some target => .ok target
    | none => .error (.unresolvedParameter (Text.quotedString reference))

/-- The parameter that a value describes, itself or by a reference into the document. -/
def readParameter (graph : Graph) (root : Value) (value : Value) : Except Problem Parameter := do
  let target ← parameterTarget graph root value
  match (graph.entries? target).bind (parameterOf? graph) with
  | some parameter => return parameter
  | none => throw .namelessParameter

/-- The parameters of a list, and the issues of the entries that describe none. Entries are counted
from `index`. -/
def readParametersFrom (graph : Graph) (root : Value) (location : String) :
    Nat → List Value → List Parameter × List Issue
  | _, [] => ([], [])
  | index, value :: rest =>
    let (parameters, issues) := readParametersFrom graph root location (index + 1) rest
    match readParameter graph root value with
    | .ok parameter => (parameter :: parameters, issues)
    | .error problem => (parameters, ⟨location ++ "[" ++ toString index ++ "]", problem⟩ :: issues)

/-- The parameters that a field gives; a field that is no list gives none. -/
def readParameters (graph : Graph) (root : Value) (location : String) (field : Option Value) :
    List Parameter × List Issue :=
  match field.bind graph.items? with
  | some values => readParametersFrom graph root location 0 values
  | none => ([], [])

/-- The room for values that stand inside each other in the name of an operation. -/
def nameRoom : Nat := 990

/-- The name that an operation gives itself: the text of any value but null and the empty text. -/
def operationId? (graph : Graph) (entries : Entries Value) : Limited (Option String) :=
  match entries.field? "operationId" with
  | none => .ok none
  | some (.scalar .null) => .ok none
  | some (.scalar (.text "")) => .ok none
  | some value => some <$> graph.textOf nameRoom value

/-- The operation that a mapping describes, and the issues of its parameters. -/
def readOperation (graph : Graph) (root : Value) (path method : String) (entries : Entries Value) :
    Limited (Operation × List Issue) := do
  let operationId ← operationId? graph entries
  let location := "paths." ++ path ++ "." ++ method ++ ".parameters"
  let (parameters, issues) :=
    readParameters graph root location (entries.field? "parameters")
  return (⟨path, method, operationId, textField entries "summary", textField entries "description",
    parameters⟩, issues)

/-- The entries that are mappings, each with its key and what the mapping holds. -/
def mappingEntries (graph : Graph) (entries : Entries Value) : List (Scalar × Entries Value) :=
  entries.filterMap fun entry => (graph.entries? entry.2).map fun inner => (entry.1, inner)

/-- The operations of a path: its entries that are mappings, each with its issues. -/
def readOperations (graph : Graph) (root : Value) (path : String) (entries : Entries Value) :
    Limited (List (String × Operation × List Issue)) :=
  (mappingEntries graph entries).mapM fun entry => do
    let method ← entry.1.checkedText
    return (method, ← readOperation graph root path method entry.2)

/-- The operations of all paths, by path and method, and the issues found in them. A path that is no
mapping is left out. -/
def readPaths (graph : Graph) (root : Value) :
    Entries Value → Named (Named Operation) → Limited (Named (Named Operation) × List Issue)
  | [], paths => .ok (paths, [])
  | (key, value) :: rest, paths => do
    let path ← key.checkedText
    match graph.entries? value with
    | none =>
      let (paths, issues) ← readPaths graph root rest paths
      return (paths, ⟨"paths." ++ path, .pathItemNotMapping⟩ :: issues)
    | some entries =>
      let operations ← readOperations graph root path entries
      let named := Assoc.ofPairs (operations.map fun operation => (operation.1, operation.2.1))
      let (paths, issues) ← readPaths graph root rest (paths.set path named)
      return (paths, operations.flatMap (fun operation => operation.2.2) ++ issues)

/-- The named schemas with their readings, in document order. -/
def readSchemas (graph : Graph) (entries : Entries Value) :
    Limited (List (String × Schema.Reading)) :=
  entries.mapM fun entry => do
    let name ← entry.1.checkedText
    return (name, ← Schema.read graph entry.2 ("components.schemas." ++ name))

/-- The API description that the entries of a root mapping make. -/
def ofEntries (graph : Graph) (root : Value) (entries : Entries Value) :
    Except ReadFailure Document := do
  let pathEntries ← (pathEntries graph entries).mapError .unreadable
  let (paths, pathIssues) ← (readPaths graph root pathEntries []).mapError .exceeds
  let schemaEntries ← (schemaEntries graph entries).mapError .unreadable
  let schemas ← (readSchemas graph schemaEntries).mapError .exceeds
  let info := ((entries.field? "info").bind graph.entries?).getD []
  return {
    title := textField info "title"
    servers := readServers graph entries
    paths
    schemas := .ofPairs (schemas.map fun schema => (schema.1, schema.2.node))
    issues := pathIssues ++ schemas.flatMap fun schema => schema.2.issues }

/-- The API description that a value is. -/
def ofValue (graph : Graph) (root : Value) : Except ReadFailure Document :=
  match graph.entries? root with
  | some entries => ofEntries graph root entries
  | none => .error (.unreadable .rootNotMapping)

end Document

end ApiBindings

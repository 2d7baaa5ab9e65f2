import ApiBindings.Assoc
import ApiBindings.Issue
import ApiBindings.Schema.Node

/-!
# API descriptions

What an API description says as far as bindings need it: servers, operations by path and method, and
named schemas. Paths, methods and schemas stand in document order.
-/

namespace ApiBindings

/-- A parameter of an operation; its location is where it is sent, such as `query`. -/
structure Parameter where
  name : String
  location : String
  required : Bool
  deriving DecidableEq, Repr

/-- An operation: one method of one path. -/
structure Operation where
  path : String
  method : String
  operationId : Option String
  summary : String
  description : String
  parameters : List Parameter
  deriving DecidableEq, Repr

/-- An API description. -/
structure Document where
  title : String
  servers : List String
  paths : Named (Named Operation)
  schemas : Named Schema.Node
  issues : List Issue

namespace Document

/-- The address that calls go to: the first server, or none. -/
def baseUrl (document : Document) : String :=
  document.servers.head?.getD ""

/-- Whether the types of all schemas have a text. -/
def isWritable (document : Document) : Bool :=
  document.schemas.all fun schema => schema.2.isWritable

/-- All operations, path by path. -/
def operations (document : Document) : List Operation :=
  document.paths.flatMap fun path => path.2.map Prod.snd

end Document

end ApiBindings

import ApiBindings.Document.Basic
import ApiBindings.Naming.Case
import ApiBindings.Naming.PathTemplate
import ApiBindings.Text.Lines
import ApiBindings.TypeScript.Literal

/-!
# Client methods

The method that a client has for an operation: its name, the arguments that fill the tokens of the
path, the query parameters, and the lines of its comment.
-/

namespace ApiBindings.Client

/-- The methods of HTTP that operations are generated for. -/
def supportedMethods : List String :=
  ["get", "post", "put", "delete", "patch"]

/-- An argument that fills a token of a path. -/
structure PathArgument where
  token : String
  identifier : String
  deriving DecidableEq, Repr

/-- The place in the path that an argument fills. -/
def PathArgument.placeholder (argument : PathArgument) : String :=
  "\x7b" ++ argument.token ++ "\x7d"

/-- A method of a client. -/
structure Method where
  name : String
  httpMethod : String
  path : String
  pathArguments : List PathArgument
  queryParameters : List String
  summary : String
  description : String
  deriving DecidableEq, Repr

/-- The name of a method: the method of HTTP in lower case, and the operation's name or, if it has
none, the one that its path gives, with a capital. -/
def methodName (httpMethod path : String) (operationId : Option String) : String :=
  let name :=
    match operationId with
    | none => Naming.operationName path.toList
    | some "" => Naming.operationName path.toList
    | some name => name.toList
  .ofList (Text.lower httpMethod.toList ++ Naming.pascalCase name)

namespace Method

def ofOperation (operation : Operation) : Method :=
  let httpMethod := Text.lowerString operation.method
  { name := methodName httpMethod operation.path operation.operationId
    httpMethod
    path := operation.path
    pathArguments := (Naming.pathTokens operation.path.toList).map fun token =>
      ⟨.ofList token, .ofList (Naming.toIdentifier token)⟩
    queryParameters :=
      (operation.parameters.filter (·.location = "query")).map Parameter.name
    summary := operation.summary
    description := operation.description }

/-- Whether the method takes query parameters. -/
def hasQuery (method : Method) : Bool :=
  !method.queryParameters.isEmpty

/-- The argument that takes the query parameters, each of them optional. -/
def queryArgument (names : List String) : String :=
  let members := (Naming.distinct names).map fun name => TypeScript.key name ++ "?: any"
  "queryParams?: \x7b " ++ "; ".intercalate members ++ " \x7d"

/-- The argument list. -/
def signature (method : Method) : String :=
  let arguments := method.pathArguments.map fun argument => argument.identifier ++ ": string | number"
  let query := if method.hasQuery then [queryArgument method.queryParameters] else []
  ", ".intercalate (arguments ++ query)

end Method

/-- A text with every end of a comment broken up. -/
def commentSafe : List Char → List Char
  | [] => []
  | '*' :: '/' :: rest => '*' :: '\\' :: '/' :: commentSafe rest
  | c :: rest => c :: commentSafe rest

/-- The lines of a free text as a comment shows them: trimmed, without the empty ones. -/
def commentLines (text : String) : List String :=
  (((Text.lines (Text.trim text.toList)).map Text.trim).filter fun line => !line.isEmpty).map
    fun line => .ofList (commentSafe line)

namespace Method

/-- What the comment begins with: the summary, or else the operation itself. -/
def headline (method : Method) : List String :=
  match commentLines method.summary with
  | [] => [Text.upperString method.httpMethod ++ " " ++ method.path]
  | lines => lines

/-- The lines of the method's comment. -/
def commentText (method : Method) : List String :=
  method.headline
    ++ commentLines method.description
    ++ method.pathArguments.map (fun argument => "@param " ++ argument.identifier ++ " Path parameter")
    ++ (if method.hasQuery then ["@param queryParams Query parameters"] else [])
    ++ ["@returns URL for the " ++ method.name ++ " endpoint"]

end Method

end ApiBindings.Client

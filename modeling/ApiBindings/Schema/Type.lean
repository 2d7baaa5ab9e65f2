import ApiBindings.Naming.Distinct
import ApiBindings.Schema.Node
import ApiBindings.TypeScript.TypeExpr

/-!
# Types of schemas

The type that a schema is expressed in, with the names of the other schemas that the type needs. The
owner of a declaration is not among them: it is in scope already.
-/

namespace ApiBindings.Schema

open TypeScript (TypeExpr)

/-- A type and the schemas that it needs, each once, in the order of their first occurrence. -/
structure Resolved where
  type : TypeExpr
  references : List String
  deriving Repr

/-- A type that needs nothing. -/
def Resolved.plain (type : TypeExpr) : Resolved := ⟨type, []⟩

/-- The formats of texts that are dates. -/
def isDateFormat (format : Option String) : Bool :=
  format = some "date" || format = some "date-time"

/-- The type of a schema that has only a type and a format. -/
def primitiveType (kind format : Option String) : TypeScript.Keyword :=
  match kind with
  | some "string" => if isDateFormat format then .date else .string
  | some "number" => .number
  | some "integer" => .number
  | some "boolean" => .boolean
  | _ => .any

/-- An object type; without members it is open. -/
def objectType : List (String × TypeExpr) → TypeExpr
  | [] => .record
  | members => .object members

/-- The names of a list other than the owner's, each once. -/
def othersThan (owner : String) (names : List String) : List String :=
  Naming.distinct (names.filter (· ≠ owner))

namespace Node

mutual

/-- The type of a schema, as needed in the declaration of `owner`. -/
def resolve (owner : String) : Node → Resolved
  | .malformed => .plain (.keyword .any)
  | .primitive kind format => .plain (.keyword (primitiveType kind format))
  | .array none => .plain (.array (.keyword .any))
  | .array (some items) =>
    let element := items.resolve owner
    ⟨.array element.type, element.references⟩
  | .object properties _ =>
    let (members, references) := resolveMembers owner properties []
    ⟨objectType members, references⟩
  | .reference name => ⟨.reference name, if name = owner then [] else [name]⟩
  | .enumeration values =>
    .plain (if values.isEmpty then .keyword .never else .oneOf values)
  | .composite bases properties _ =>
    let references := othersThan owner bases
    if properties.isEmpty && !bases.isEmpty then
      ⟨.intersection (bases.map .reference), references⟩
    else
      let (members, inner) := resolveMembers owner properties []
      ⟨.intersection (bases.map .reference ++ [objectType members]), Naming.merge references inner⟩

/-- The members of an object type, and the schemas that they need after those needed before. -/
def resolveMembers (owner : String) :
    List (String × Node) → List String → List (String × TypeExpr) × List String
  | [], references => ([], references)
  | (name, property) :: rest, references =>
    let resolved := property.resolve owner
    let (members, references) :=
      resolveMembers owner rest (Naming.merge references resolved.references)
    ((name, resolved.type) :: members, references)

end

end Node

end ApiBindings.Schema

import ApiBindings.Schema.Type

/-!
# Models

The declaration emitted for a schema: an interface for objects and compositions, a type alias for
anything else. An interface extends the schemas that its composition is based on, itself excepted.
-/

namespace ApiBindings.Model

open TypeScript (TypeExpr)
open Schema (Node)

/-- A field of an interface. -/
structure Field where
  name : String
  type : TypeExpr
  optional : Bool
  deriving Repr

/-- The form of a declaration. -/
inductive Form where
  | enumeration (type : TypeExpr)
  | alias (type : TypeExpr)
  | interface (bases : List String) (fields : List Field)
  deriving Repr

end ApiBindings.Model

namespace ApiBindings

open Schema (Node)

/-- The declaration of a schema with the schemas that it imports. -/
structure Model where
  name : String
  imports : List String
  form : Model.Form
  deriving Repr

namespace Model

/-- The fields of an interface, and the schemas that they need after those needed before. -/
def fieldsFrom (owner : String) (required : List String) :
    List (String × Node) → List String → List Field × List String
  | [], references => ([], references)
  | (name, property) :: rest, references =>
    let resolved := property.resolve owner
    let (fields, references) :=
      fieldsFrom owner required rest (Naming.merge references resolved.references)
    (⟨name, resolved.type, !required.contains name⟩ :: fields, references)

/-- The declaration of a schema under a name. -/
def ofNode (name : String) : Node → Model
  | .enumeration values => ⟨name, [], .enumeration ((Node.enumeration values).resolve name).type⟩
  | .object properties required =>
    let (fields, references) := fieldsFrom name required properties []
    ⟨name, references, .interface [] fields⟩
  | .composite bases properties required =>
    let (fields, references) := fieldsFrom name required properties []
    let bases := Schema.othersThan name bases
    ⟨name, Naming.merge bases references, .interface bases fields⟩
  | node =>
    let resolved := node.resolve name
    ⟨name, resolved.references, .alias resolved.type⟩

theorem ofNode_name (name : String) (node : Node) : (ofNode name node).name = name := by
  cases node <;> rfl

end Model

end ApiBindings

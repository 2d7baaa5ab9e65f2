import ApiBindings.Value.Scalar

/-!
# Schemas

A schema after reading. References name other schemas of the same document and are never followed.
-/

namespace ApiBindings.Schema

/-- A schema. -/
inductive Node where
  /-- A malformed spot, which is typed as anything. -/
  | malformed
  /-- A schema by its type and format, where they are given. -/
  | primitive (kind : Option String) (format : Option String)
  | array (items : Option Node)
  | object (properties : List (String × Node)) (required : List String)
  | reference (name : String)
  | enumeration (values : List Scalar)
  /-- A composition: the schemas that it extends, and what its own parts add. -/
  | composite (bases : List String) (properties : List (String × Node)) (required : List String)
  deriving Repr

namespace Node

mutual

/-- Whether all values of enumerations in a schema have a text. -/
def isWritable : Node → Bool
  | .array (some items) => items.isWritable
  | .object properties _ => areWritable properties
  | .enumeration values => values.all Scalar.isWritable
  | .composite _ properties _ => areWritable properties
  | _ => true

/-- Whether all values of enumerations in some properties have a text. -/
def areWritable : List (String × Node) → Bool
  | [] => true
  | (_, property) :: rest => property.isWritable && areWritable rest

end

end Node

/-- The name of the schema that a reference leads to: its last segment, slashes at the end not
counted. -/
def referenceName (reference : List Char) : List Char :=
  ((reference.reverse.dropWhile (· = '/')).takeWhile (· ≠ '/')).reverse

end ApiBindings.Schema

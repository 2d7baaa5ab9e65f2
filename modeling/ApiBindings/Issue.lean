/-!
# Issues

A malformed spot of an API description costs only itself: it is left as untyped, and an issue says
where it is and what is wrong with it.
-/

namespace ApiBindings

/-- What is wrong at a spot. Values are given as messages show them. -/
inductive Problem where
  /-- A schema that is no mapping. -/
  | notMapping (kind : String)
  /-- A schema that stands inside itself. -/
  | selfContained
  /-- A reference that names nothing. -/
  | invalidReference (shown : String)
  | enumNotList
  /-- An enum value that is no scalar with a literal. -/
  | unsupportedEnumValue (shown : String)
  | requiredNotNames
  | propertiesNotMapping
  | allOfNotList
  /-- A part of a composition that contributes nothing. -/
  | unusablePart
  /-- A reference to a parameter that leads nowhere. -/
  | unresolvedParameter (shown : String)
  | namelessParameter
  | pathItemNotMapping
  deriving DecidableEq, Repr

/-- What is wrong, in words. -/
def Problem.message : Problem → String
  | .notMapping kind => "expected a mapping, got " ++ kind
  | .selfContained => "schema contains itself through a YAML alias"
  | .invalidReference shown => "invalid $ref " ++ shown
  | .enumNotList => "enum must be a list"
  | .unsupportedEnumValue shown => "unsupported enum value " ++ shown
  | .requiredNotNames => "required must be a list of names"
  | .propertiesNotMapping => "properties must be a mapping"
  | .allOfNotList => "allOf must be a list"
  | .unusablePart => "allOf part is neither a $ref nor an object"
  | .unresolvedParameter shown => "unresolved parameter " ++ shown
  | .namelessParameter => "parameter without a name"
  | .pathItemNotMapping => "path item is not a mapping"

/-- A malformed spot. -/
structure Issue where
  location : String
  problem : Problem
  deriving DecidableEq, Repr

/-- An issue as one line. -/
def Issue.text (issue : Issue) : String :=
  issue.location ++ ": " ++ issue.problem.message

end ApiBindings

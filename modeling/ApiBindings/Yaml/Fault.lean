/-!
# Faults of a YAML text

Why a text gives no value: it is not well-formed, or it is and a scalar in it denotes nothing, or it
exceeds a limit.
-/

namespace ApiBindings.Yaml

/-- Why a text gives no value. -/
inductive Fault where
  /-- The text breaks the rules of the notation, or uses a tag or an alias that has no meaning. -/
  | malformed
  /-- A date, a time or an offset that does not exist. -/
  | noSuchMoment
  /-- A scalar tagged as a number, or a version, that writes none or has too many digits. -/
  | noSuchNumber
  /-- A number to the base sixty with a digit so far in front that its weight exceeds all
  floating-point numbers. -/
  | weightTooLarge
  /-- A character number beyond the last character. -/
  | noSuchCharacter (number : Nat)
  /-- A scalar tagged as a number that is empty. -/
  | emptyNumber
  /-- A scalar tagged as a truth value that is no word for one. -/
  | noSuchTruth
  /-- A scalar tagged as a time that does not look like one. -/
  | noTimestamp
  /-- A mapping tagged as a time, which has a text but is no scalar. -/
  | mappingForTimestamp
  /-- Collections, merged mappings or default values stand inside each other beyond the depth that is
  read. -/
  | tooDeep
  deriving DecidableEq, Repr

end ApiBindings.Yaml

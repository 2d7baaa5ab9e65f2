/-!
# Limits

Reading a document and writing what was read ends when there is too much of something: when a number
with too many digits has to be written, or when too much stands inside each other.
-/

namespace ApiBindings

/-- What there is too much of. -/
inductive Limit where
  /-- A whole number that has to be written has too many digits. -/
  | digits
  /-- Values or schemas stand inside each other too deeply. -/
  | depth
  deriving DecidableEq, Repr

/-- What there is too much of, in words. -/
def Limit.message : Limit → String
  | .digits => "a document holds a number with too many digits"
  | .depth => "a document nests too deeply"

/-- A result that is there only within the limits. -/
abbrev Limited := Except Limit

end ApiBindings

import ApiBindings.Naming.Distinct
import ApiBindings.Naming.Identifier

/-!
# Path templates

A path template holds parameters in braces: a token is a non-empty text without a closing brace. Its
tokens are the arguments of a method, and its name is read off what stands between them.
-/

namespace ApiBindings.Naming

/-- One element of a path template: a character that stands for itself, or a parameter. -/
inductive Segment where
  | char (c : Char)
  | token (name : List Char)
  deriving DecidableEq, Repr

/-- The elements of a template, where `candidate` holds what has been read (latest first) since an
opening brace that may begin a token. A brace that begins none stands for itself. -/
def segmentsFrom : Option (List Char) → List Char → List Segment
  | none, [] => []
  | none, c :: rest =>
    if c = '{' then segmentsFrom (some []) rest else .char c :: segmentsFrom none rest
  | some read, [] => .char '{' :: read.reverse.map .char
  | some read, c :: rest =>
    if c = '}' then
      if read.isEmpty then .char '{' :: .char '}' :: segmentsFrom none rest
      else .token read.reverse :: segmentsFrom none rest
    else segmentsFrom (some (c :: read)) rest

/-- The elements of a path template, from left to right. -/
def segments (path : List Char) : List Segment :=
  segmentsFrom none path

/-- The parameter that an element stands for. -/
def Segment.token? : Segment → Option (List Char)
  | .char _ => none
  | .token name => some name

/-- What an element contributes to the name of an operation: a parameter counts as `By`. -/
def Segment.nameText : Segment → List Char
  | .char c => if isAlphanumeric c then [c] else []
  | .token _ => ['B', 'y']

/-- The parameters of a path, each once, in the order of their first occurrence. -/
def pathTokens (path : List Char) : List (List Char) :=
  distinct ((segments path).filterMap Segment.token?)

/-- The name of an operation that has none of its own: `/users/{id}/posts` gives `usersByposts`. -/
def operationName (path : List Char) : List Char :=
  (segments path).flatMap Segment.nameText

example : pathTokens "/a/\x7bx\x7d/\x7by\x7d\x7bx\x7d/\x7b\x7d".toList = ["x".toList, "y".toList] := by decide

example : operationName "/users/\x7bid\x7d/posts".toList = "usersByposts".toList := by decide

end ApiBindings.Naming

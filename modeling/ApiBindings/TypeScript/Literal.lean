import ApiBindings.Naming.Identifier
import ApiBindings.Value.Scalar

/-!
# Literals and keys

How texts and scalars are written in TypeScript. Text in types escapes backslashes and apostrophes;
text in code escapes line feeds as well. A property that has an identifier for a name is written bare.
-/

namespace ApiBindings.TypeScript

/-- A character inside a literal of a type. -/
def typeChar (c : Char) : List Char :=
  if c = '\\' ∨ c = '\'' then ['\\', c] else [c]

def typeLiteral (text : List Char) : List Char :=
  '\'' :: text.flatMap typeChar ++ ['\'']

/-- A character inside a literal of code. -/
def codeChar (c : Char) : List Char :=
  if c = '\n' then ['\\', 'n'] else typeChar c

def codeLiteral (text : List Char) : List Char :=
  '\'' :: text.flatMap codeChar ++ ['\'']

/-- A string as a literal of code. -/
def codeString (text : String) : String :=
  .ofList (codeLiteral text.toList)

/-- A scalar as a literal type. -/
def literal : Scalar → String
  | .text value => .ofList (typeLiteral value.toList)
  | .bool value => if value then "true" else "false"
  | .null => "null"
  | value => value.toText

/-- A property name as the key of a member: bare or as a literal. -/
def key (name : String) : String :=
  if Naming.isBare name.toList then name else .ofList (typeLiteral name.toList)

example : codeString "it's\n" = "'it\\'s\\n'" := by decide

example : key "a-b" = "'a-b'" := by decide

end ApiBindings.TypeScript

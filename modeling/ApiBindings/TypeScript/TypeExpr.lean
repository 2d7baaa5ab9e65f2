import ApiBindings.TypeScript.Literal

/-!
# Type expressions

The TypeScript types that schemas are expressed in, and their text. The element of an array is put in
parentheses when its text shows a union or an intersection sign between blanks, wherever it stands.
-/

namespace ApiBindings.TypeScript

/-- A type with a fixed name. -/
inductive Keyword where
  | any
  | string
  | number
  | boolean
  | date
  | never
  deriving DecidableEq, Repr

inductive TypeExpr where
  | keyword (word : Keyword)
  /-- Another schema, by its name. -/
  | reference (name : String)
  /-- An object of which nothing is known. -/
  | record
  /-- One of several values. -/
  | oneOf (values : List Scalar)
  | array (element : TypeExpr)
  | object (members : List (String × TypeExpr))
  | intersection (parts : List TypeExpr)
  deriving Repr

/-- The name of a keyword. -/
def Keyword.text : Keyword → String
  | .any => "any"
  | .string => "string"
  | .number => "number"
  | .boolean => "boolean"
  | .date => "Date"
  | .never => "never"

/-- Whether a text occurs in another. -/
def occursIn (pattern : List Char) : List Char → Bool
  | [] => pattern.isEmpty
  | c :: rest => pattern.isPrefixOf (c :: rest) || occursIn pattern rest

/-- Whether the text of a type needs parentheses in front of the array brackets. -/
def showsOperator (text : List Char) : Bool :=
  occursIn " | ".toList text || occursIn " & ".toList text

/-- The text of an array type from that of its element. -/
def arrayText (element : String) : String :=
  if showsOperator element.toList then "(" ++ element ++ ")[]" else element ++ "[]"

/-- The text of an object type from those of its members. -/
def objectText (members : List String) : String :=
  "\x7b " ++ "; ".intercalate members ++ " \x7d"

/-- The text of a union of literals; without any, nothing has the type. -/
def unionText (values : List Scalar) : String :=
  " | ".intercalate (values.map literal)

namespace TypeExpr

mutual

def text : TypeExpr → String
  | .keyword word => word.text
  | .reference name => name
  | .record => "Record<string, any>"
  | .oneOf values => unionText values
  | .array element => arrayText element.text
  | .object members => objectText (memberTexts members)
  | .intersection parts => " & ".intercalate (partTexts parts)

/-- The texts of the members of an object type. -/
def memberTexts : List (String × TypeExpr) → List String
  | [] => []
  | (name, type) :: rest => (key name ++ ": " ++ type.text) :: memberTexts rest

/-- The texts of the parts of an intersection. -/
def partTexts : List TypeExpr → List String
  | [] => []
  | type :: rest => type.text :: partTexts rest

end

theorem memberTexts_eq_map (members : List (String × TypeExpr)) :
    memberTexts members = members.map fun member => key member.1 ++ ": " ++ member.2.text := by
  induction members with
  | nil => simp [memberTexts]
  | cons member rest ih =>
    obtain ⟨name, type⟩ := member
    simp [memberTexts, ih]

theorem partTexts_eq_map (parts : List TypeExpr) : partTexts parts = parts.map text := by
  induction parts with
  | nil => simp [partTexts]
  | cons type rest ih => simp [partTexts, ih]

end TypeExpr

end ApiBindings.TypeScript

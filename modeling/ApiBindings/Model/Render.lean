import ApiBindings.Model.Basic

/-!
# Model files

The text of a model's file: one import line per schema needed, a blank line after them, and the
declaration. The index file exports every model.
-/

namespace ApiBindings.Model

open TypeScript (key)

/-- The line that imports a model. -/
def importLine (name : String) : String :=
  "import type \x7b " ++ name ++ " \x7d from './" ++ name ++ "';\n"

def fieldLine (field : Field) : String :=
  "  " ++ key field.name ++ (if field.optional then "?" else "") ++ ": " ++ field.type.text ++ ";\n"

/-- The bases that an interface extends. -/
def extendsClause (bases : List String) : String :=
  if bases.isEmpty then "" else " extends " ++ ", ".intercalate bases

def aliasLine (name : String) (type : TypeScript.TypeExpr) : String :=
  "export type " ++ name ++ " = " ++ type.text ++ ";\n"

def declarationText (name : String) : Form → String
  | .enumeration type => aliasLine name type
  | .alias type => aliasLine name type
  | .interface bases fields =>
    "export interface " ++ name ++ extendsClause bases ++ " \x7b\n"
      ++ String.join (fields.map fieldLine) ++ "\x7d\n"

/-- The text of a model's file. -/
def render (model : Model) : String :=
  String.join (model.imports.map importLine) ++ (if model.imports.isEmpty then "" else "\n")
    ++ declarationText model.name model.form

/-- The line of the index that exports a model. -/
def exportLine (name : String) : String :=
  "export type \x7b " ++ name ++ " \x7d from './" ++ name ++ "';\n"

/-- The text of the index of models. -/
def renderIndex (models : List Model) : String :=
  String.join (models.map fun model => exportLine model.name)

end ApiBindings.Model

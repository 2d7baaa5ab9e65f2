import ApiBindings.Naming.Identifier
import ApiBindings.Text.Blank
import ApiBindings.Text.CaseMap
import ApiBindings.Text.CodePoint

/-!
# Camel case

Free text is turned into a name by folding each run of hyphens, underscores and blanks into a capital
on the character that follows it. Only the first character escapes the removal of everything that is
no ASCII letter or digit.
-/

namespace ApiBindings.Naming

open Text

/-- Whether a character separates the words of a name. -/
def isSeparator (c : Char) : Bool :=
  c == '-' || c == '_' || isBlank c

/-- The text with every run of separators folded into a capital on the next character; `folding`
tells that a run has just been read. A run at the end disappears. -/
def foldSeparators (folding : Bool) : List Char → List Char
  | [] => []
  | c :: rest =>
    if isSeparator c then foldSeparators true rest
    else (if folding then upperOf c else [c]) ++ foldSeparators false rest

/-- The text in camel case: `pet-store` becomes `petStore`. -/
def camelCase (text : List Char) : List Char :=
  let (first, rest) := splitFirst text
  first.flatMap lowerOf ++ (foldSeparators false rest).filter isAlphanumeric

/-- Camel case with a capital in front: `pet-store` becomes `PetStore`. -/
def pascalCase (text : List Char) : List Char :=
  match camelCase text with
  | [] => []
  | c :: rest => upperOf c ++ rest

/-- The identifier that stands for a text in an argument list: the text itself when it is written
bare, else its camel case in ASCII, led by an underscore when it would be empty or begin with a
digit. -/
def toIdentifier (text : List Char) : List Char :=
  if isBare text then text
  else
    match (camelCase text).filter isAlphanumeric with
    | [] => ['_']
    | c :: rest => if c.isDigit then '_' :: c :: rest else c :: rest

@[simp] theorem camelCase_nil : camelCase [] = [] := rfl

theorem camelCase_cons {c : Char} (hc : c.toNat ≠ markCode) (rest : List Char) :
    camelCase (c :: rest) = lowerOf c ++ (foldSeparators false rest).filter isAlphanumeric := by
  simp [camelCase, splitFirst_cons hc]

@[simp] theorem pascalCase_nil : pascalCase [] = [] := rfl

end ApiBindings.Naming

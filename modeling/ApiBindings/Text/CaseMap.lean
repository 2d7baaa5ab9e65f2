import ApiBindings.Text.CaseTable
import ApiBindings.Text.Ranges

/-!
# Case mapping

Full upper and lower case of a text: one character may become several, and a capital sigma that
closes a word becomes the final form.
-/

namespace ApiBindings.Text

/-- The image of a code point that the run covers. -/
def CaseRun.map? (run : CaseRun) (code : Nat) : Option Nat :=
  if run.first ≤ code ∧ code ≤ run.last ∧ (code - run.first) % run.step = 0 then
    some (code + run.offset).toNat
  else
    none

/-- The form of a character beyond ASCII by its tables; without an entry it stays itself. -/
def mapCase (expansions : List (Nat × List Nat)) (runs : List CaseRun) (c : Char) : List Char :=
  match expansions.lookup c.toNat with
  | some codes => codes.map Char.ofNat
  | none =>
    match runs.findSome? (·.map? c.toNat) with
    | some code => [Char.ofNat code]
    | none => [c]

/-- The upper-case form of one character. -/
def upperOf (c : Char) : List Char :=
  if c.toNat < 0x80 then [c.toUpper] else mapCase upperExpansions upperRuns c

/-- The lower-case form of one character that stands alone. -/
def lowerOf (c : Char) : List Char :=
  if c.toNat < 0x80 then [c.toLower] else mapCase lowerExpansions lowerRuns c

/-- A text in upper case. -/
def upper (text : List Char) : List Char :=
  text.flatMap upperOf

/-- Whether a word may continue across the character without a change of case context. -/
def isCaseIgnorable (c : Char) : Bool :=
  inRanges caseIgnorableRanges c.toNat

/-- Whether a character has case. -/
def isCased (c : Char) : Bool :=
  inRanges casedRanges c.toNat

/-- Whether the nearest character that counts has case. -/
def meetsCased (text : List Char) : Bool :=
  (text.dropWhile isCaseIgnorable).head?.any isCased

/-- Whether a capital sigma closes a word, given the text before it (nearest character first) and
after it. -/
def closesWord (before after : List Char) : Bool :=
  meetsCased before && !meetsCased after

/-- Lower case of the rest of a text whose earlier characters are `before`, nearest first. -/
def lowerFrom (before : List Char) : List Char → List Char
  | [] => []
  | c :: rest =>
    (if c = 'Σ' then [if closesWord before rest then 'ς' else 'σ'] else lowerOf c)
      ++ lowerFrom (c :: before) rest

/-- A text in lower case. -/
def lower (text : List Char) : List Char :=
  lowerFrom [] text

/-- A string in upper case. -/
def upperString (text : String) : String :=
  .ofList (upper text.toList)

/-- A string in lower case. -/
def lowerString (text : String) : String :=
  .ofList (lower text.toList)

theorem upperOf_of_ascii {c : Char} (h : c.toNat < 0x80) : upperOf c = [c.toUpper] := by
  simp [upperOf, h]

theorem lowerOf_of_ascii {c : Char} (h : c.toNat < 0x80) : lowerOf c = [c.toLower] := by
  simp [lowerOf, h]

@[simp] theorem upper_nil : upper [] = [] := rfl

@[simp] theorem upper_append (a b : List Char) : upper (a ++ b) = upper a ++ upper b := by
  simp [upper]

example : upper "straße".toList = "STRASSE".toList := by decide +kernel

example : lower "ΣΑΣ".toList = "σας".toList := by decide +kernel

end ApiBindings.Text

import ApiBindings.Calendar
import ApiBindings.Decimal.Numeral
import ApiBindings.Decimal.Shortest
import ApiBindings.Limit
import ApiBindings.Text.Quoted

/-!
# Scalars

The values without parts, their text, and when two of them are the same key of a mapping: numbers and
truth values are compared by value, so that 1, 1.0 and true are one key, and times with an offset by
the moment they name.
-/

namespace ApiBindings

/-- A value without parts. -/
inductive Scalar where
  | null
  | bool (value : Bool)
  | int (value : Int)
  | float (value : Binary64)
  /-- What is no number, apart from the one that `float` holds: each is equal to itself only. -/
  | nan (id : Nat)
  | text (value : String)
  | bytes (value : List UInt8)
  | date (value : Date)
  | instant (value : Instant)
  deriving DecidableEq, Repr

namespace Scalar

/-- What two scalars have in common exactly if they are the same key. -/
inductive Key where
  | number (value : Int)
  | moment (value : Int)
  | other (value : Scalar)
  deriving DecidableEq

def key : Scalar → Key
  | .bool value => .number (if value then 1 else 0)
  | .int value => .number value
  | .float value =>
    match value.toInt? with
    | some value => .number value
    | none => .other (.float value)
  | .instant value =>
    match value.offset with
    | some _ => .moment value.position
    | none => .other (.instant value)
  | value => .other value

/-- The text of a scalar that stands for itself. -/
def toText : Scalar → String
  | .null => "None"
  | .bool value => if value then "True" else "False"
  | .int value => toString value
  | .float value => value.text
  | .nan _ => Binary64.nan.text
  | .text value => value
  | .bytes value => .ofList (Text.quotedBytes value)
  | .date value => value.text
  | .instant value => value.text

/-- A scalar as a message shows it. -/
def shown : Scalar → String
  | .text value => Text.quotedString value
  | .date value => value.shown
  | .instant value => value.shown
  | value => value.toText

/-- Whether a scalar is within the limit of digits. -/
def isWritable : Scalar → Bool
  | .int value => Numeral.isWritable value
  | _ => true

/-- The text of a scalar that stands for itself, within the limit of digits. -/
def checkedText (value : Scalar) : Limited String :=
  if value.isWritable then .ok value.toText else .error .digits

/-- A scalar as a message shows it, within the limit of digits. -/
def checkedShown (value : Scalar) : Limited String :=
  if value.isWritable then .ok value.shown else .error .digits

/-- What a message calls the kind of a scalar. -/
def kindName : Scalar → String
  | .null => "NoneType"
  | .bool _ => "bool"
  | .int _ => "int"
  | .float _ => "float"
  | .nan _ => "float"
  | .text _ => "str"
  | .bytes _ => "bytes"
  | .date _ => "date"
  | .instant _ => "datetime"

/-- Whether a scalar counts as true: it is no zero, no empty text and neither null nor false. -/
def isTruthy : Scalar → Bool
  | .null => false
  | .bool value => value
  | .int value => value ≠ 0
  | .float value =>
    match value with
    | .finite _ m _ => m ≠ 0
    | _ => true
  | .nan _ => true
  | .text value => value ≠ ""
  | .bytes value => !value.isEmpty
  | .date _ => true
  | .instant _ => true

@[simp] theorem key_text (value : String) : (Scalar.text value).key = .other (.text value) := rfl

theorem toText_of_checkedText {value : Scalar} {text : String} (h : value.checkedText = .ok text) :
    text = value.toText := by
  unfold checkedText at h
  split at h
  · exact (Except.ok.inj h).symm
  · cases h

theorem key_eq_key_text_iff {a : Scalar} {value : String} :
    a.key = (Scalar.text value).key ↔ a = .text value := by
  constructor
  · intro h
    cases a with
    | text other => simpa [key] using h
    | float x =>
      simp only [key] at h
      split at h <;> simp at h
    | instant x =>
      simp only [key] at h
      split at h <;> simp at h
    | _ => simp [key] at h
  · rintro rfl
    rfl

end Scalar

end ApiBindings

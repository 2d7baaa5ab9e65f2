import ApiBindings.Document.Read

/-!
# API descriptions as text

Reading a YAML text as an API description. A text with a scalar that denotes nothing is neither an API
description nor malformed: this failure is kept apart.
-/

namespace ApiBindings.Document

/-- The failure that a fault of a text is. -/
def ReadFailure.ofYaml : Yaml.Fault → ReadFailure
  | .malformed => .unreadable .malformedYaml
  | fault => .meaningless fault

/-- The API description that a text writes. -/
def ofText (text : String) : Except ReadFailure Document :=
  match Yaml.read text with
  | .error fault => .error (.ofYaml fault)
  | .ok (graph, root) => ofValue graph root

/-- If what is looked at in the description of a text has a value, then there is such a description. -/
theorem exists_of_ofText {α : Type} {text : String} {view : Document → α} {value : α}
    (h : (ofText text).toOption.map view = some value) :
    ∃ document, ofText text = .ok document ∧ view document = value := by
  cases hread : ofText text with
  | error failure =>
    rw [hread] at h
    cases h
  | ok document =>
    rw [hread] at h
    exact ⟨document, rfl, Option.some.inj h⟩

end ApiBindings.Document

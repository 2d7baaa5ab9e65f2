import ApiBindings.Proofs.Value.Limited
import ApiBindings.Schema.Read

/-!
# What a mapping is read as

The fields of a mapping decide whether it is read as an array, as an object or as a composition of other
schemas (`IsArrayOf`, `IsObjectOf`, `IsComposition`). Anything else ends with the mapping: no schema inside
it is read. `Outcome` is all that can come of it.
-/

namespace ApiBindings.Schema

/-- A mapping that is read by its type. -/
structure IsTyped (entries : Entries Value) : Prop where
  reference : entries.field? "$ref" = none
  enumeration : entries.field? "enum" = none
  composition : entries.field? "allOf" = none

/-- A mapping that is read as an array of elements with a schema. -/
structure IsArrayOf (entries : Entries Value) (items : Value) : Prop extends IsTyped entries where
  kind : kind? entries = some (some "array")
  element : entries.field? "items" = some items
  notNull : items ≠ .scalar .null

/-- A mapping that is read as an object with these properties. -/
structure IsObjectOf (graph : Graph) (entries properties : Entries Value) : Prop
    extends IsTyped entries where
  kind : ∃ kind, kind? entries = some kind ∧ kind ≠ some "array" ∧
    (kind = some "object" ∨ (entries.field? "properties").isSome)
  properties : propertyEntries? graph entries = some properties

/-- A mapping that is read as a composition of parts, with required names and properties beside them. -/
structure IsComposition (graph : Graph) (entries : Entries Value) (required : List String)
    (properties : Entries Value) (parts : List Value) : Prop where
  reference : entries.field? "$ref" = none
  enumeration : entries.field? "enum" = none
  parts : (entries.field? "allOf").bind graph.items? = some parts
  required : requiredNames? graph entries = some required
  properties : propertyEntries? graph entries = some properties

/-- A schema that is read without reading a schema inside it. -/
def Node.isLeaf : Node → Bool
  | .primitive _ _ => true
  | .array none => true
  | .reference _ => true
  | .enumeration _ => true
  | _ => false

/-- What can come of reading a mapping at a location. -/
inductive Outcome (graph : Graph) (inner : Inner) (entries : Entries Value) (location : String) :
    Reading → Prop where
  | fault (problem : Problem) : Outcome graph inner entries location (.fault location problem)
  | leaf {node : Node} : node.isLeaf = true → Outcome graph inner entries location (.clean node)
  | array {items : Value} {element : Reading} : IsArrayOf entries items →
      inner .element items (location ++ ".items") = .ok element →
      Outcome graph inner entries location { element with node := .array (some element.node) }
  | object {properties : Entries Value} {readings : List (String × Reading)} :
      IsObjectOf graph entries properties →
      readProperties (inner .property) location properties = .ok readings →
      Outcome graph inner entries location
        (readObject location readings (requiredNames? graph entries))
  | composition {required : List String} {properties : Entries Value} {parts : List Value}
      {siblings readings : List (String × Reading)} :
      IsComposition graph entries required properties parts →
      readProperties (inner .sibling) location properties = .ok siblings →
      readParts (inner .part) location parts = .ok readings →
      Outcome graph inner entries location (readComposition required siblings readings)

section

variable {graph : Graph} {room : Nat} {inner : Inner} {entries properties : Entries Value}
  {value : Value} {location : String} {reading : Reading}

/-! ## Schemas inside a mapping -/

section

variable {inner : Value → String → Limited Reading} {readings : List (String × Reading)}

theorem readProperty_eq_ok_iff {property : Scalar × Value} {reading : String × Reading} :
    (do let name ← property.1.checkedText
        return (name, ← inner property.2 (propertyLocation location name))) = .ok reading ↔
      property.1.checkedText = .ok reading.1 ∧
        inner property.2 (propertyLocation location reading.1) = .ok reading.2 := by
  constructor
  · intro h
    obtain ⟨name, hname, h⟩ := Limited.exists_of_bind_eq_ok h
    obtain ⟨result, hresult, h⟩ := Limited.exists_of_bind_eq_ok h
    cases h
    exact ⟨hname, hresult⟩
  · rintro ⟨hname, hresult⟩
    rw [hname]
    show (do return (reading.1, ← inner property.2 (propertyLocation location reading.1))) = _
    rw [hresult]
    rfl

theorem readPart_eq_ok_iff {part : Value × Nat} {reading : String × Reading} :
    (do return (partLocation location part.2, ← inner part.1 (partLocation location part.2))) =
        .ok reading ↔
      reading.1 = partLocation location part.2 ∧ inner part.1 reading.1 = .ok reading.2 := by
  constructor
  · intro h
    obtain ⟨result, hresult, h⟩ := Limited.exists_of_bind_eq_ok h
    cases h
    exact ⟨rfl, hresult⟩
  · rintro ⟨hplace, hresult⟩
    rw [hplace] at hresult
    rw [hresult, ← hplace]
    rfl

theorem readProperties_eq_ok_iff :
    readProperties inner location properties = .ok readings ↔
      List.Forall₂ (fun property reading => property.1.checkedText = .ok reading.1 ∧
        inner property.2 (propertyLocation location reading.1) = .ok reading.2) properties readings := by
  rw [readProperties, Limited.mapM_eq_ok_iff]
  exact ⟨fun h => h.imp fun _ _ => readProperty_eq_ok_iff.1,
    fun h => h.imp fun _ _ => readProperty_eq_ok_iff.2⟩

theorem readParts_eq_ok_iff {parts : List Value} :
    readParts inner location parts = .ok readings ↔
      List.Forall₂ (fun part reading => reading.1 = partLocation location part.2 ∧
        inner part.1 reading.1 = .ok reading.2) parts.zipIdx readings := by
  rw [readParts, Limited.mapM_eq_ok_iff]
  exact ⟨fun h => h.imp fun _ _ => readPart_eq_ok_iff.1,
    fun h => h.imp fun _ _ => readPart_eq_ok_iff.2⟩

theorem exists_readProperties_eq_ok_iff :
    (∃ readings, readProperties inner location properties = .ok readings) ↔
      ∀ property ∈ properties, ∃ name reading, property.1.checkedText = .ok name ∧
        inner property.2 (propertyLocation location name) = .ok reading := by
  refine Limited.exists_mapM_eq_ok_iff.trans ?_
  refine forall₂_congr fun property _ => ?_
  simp only [readProperty_eq_ok_iff, Prod.exists]

theorem exists_readParts_eq_ok_iff {parts : List Value} :
    (∃ readings, readParts inner location parts = .ok readings) ↔
      ∀ part ∈ parts.zipIdx, ∃ reading, inner part.1 (partLocation location part.2) = .ok reading := by
  refine Limited.exists_mapM_eq_ok_iff.trans ?_
  refine forall₂_congr fun part _ => ?_
  simp only [readPart_eq_ok_iff, Prod.exists]
  grind

end

/-! ## What is read follows from the shape -/

theorem readMapping_of_isTyped (h : IsTyped entries) :
    readMapping graph room inner entries location = readTyped graph inner entries location := by
  rw [readMapping, h.reference, h.enumeration, h.composition]

theorem readArrayAt_of_field? {items : Value} (hitems : entries.field? "items" = some items)
    (hnull : items ≠ .scalar .null) :
    readArrayAt inner entries location = do
      let element ← inner .element items (location ++ ".items")
      return { element with node := .array (some element.node) } := by
  rw [readArrayAt, hitems]
  split
  · next heq => cases heq
  · next heq => exact absurd (Option.some.inj heq) hnull
  · next heq =>
    cases heq
    rfl

theorem IsArrayOf.readMapping {items : Value} (h : IsArrayOf entries items) :
    readMapping graph room inner entries location = do
      let element ← inner .element items (location ++ ".items")
      return { element with node := .array (some element.node) } := by
  rw [readMapping_of_isTyped h.toIsTyped, readTyped, h.kind]
  exact readArrayAt_of_field? h.element h.notNull

theorem IsObjectOf.readMapping (h : IsObjectOf graph entries properties) :
    readMapping graph room inner entries location = do
      let readings ← readProperties (inner .property) location properties
      return readObject location readings (requiredNames? graph entries) := by
  obtain ⟨kind, hkind, harray, hobject⟩ := h.kind
  rw [readMapping_of_isTyped h.toIsTyped, readTyped, hkind]
  show (if kind = some "array" then _ else _) = _
  rw [if_neg harray, if_pos hobject, readObjectAt, h.properties]

theorem IsComposition.readMapping {required : List String} {parts : List Value}
    (h : IsComposition graph entries required properties parts) :
    readMapping graph room inner entries location = do
      let siblings ← readProperties (inner .sibling) location properties
      let parts ← readParts (inner .part) location parts
      return readComposition required siblings parts := by
  obtain ⟨allOf, hallOf, hparts⟩ := Option.bind_eq_some_iff.1 h.parts
  rw [Schema.readMapping, h.reference, h.enumeration, hallOf]
  show readAllOf graph inner entries allOf location = _
  rw [readAllOf, hparts, h.required, h.properties]

/-! ## The shape follows from what is read -/

theorem outcome_faultShowing {problem : String → Problem}
    (h : Reading.faultShowing graph room value location problem = .ok reading) :
    Outcome graph inner entries location reading := by
  obtain ⟨text, -, htext⟩ := Limited.exists_of_bind_eq_ok h
  cases htext
  exact .fault (problem text)

theorem outcome_readReference (h : readReference graph room value location = .ok reading) :
    Outcome graph inner entries location reading := by
  unfold readReference at h
  split at h
  · split at h
    · exact outcome_faultShowing h
    · cases h
      exact .leaf rfl
  · exact outcome_faultShowing h

theorem outcome_readEnumValues {values : List Scalar} {items : List Value}
    (h : readEnumValues graph room location values items = .ok reading) :
    Outcome graph inner entries location reading := by
  induction items generalizing values with
  | nil =>
    cases h
    exact .leaf rfl
  | cons item items ih =>
    rw [readEnumValues] at h
    split at h
    · exact ih h
    · exact outcome_faultShowing h

theorem outcome_readEnum (h : readEnum graph room value location = .ok reading) :
    Outcome graph inner entries location reading := by
  unfold readEnum at h
  split at h
  · exact outcome_readEnumValues h
  · cases h
    exact .fault .enumNotList

theorem outcome_readAllOf {allOf : Value} (href : entries.field? "$ref" = none)
    (henum : entries.field? "enum" = none) (hallOf : entries.field? "allOf" = some allOf)
    (h : readAllOf graph inner entries allOf location = .ok reading) :
    Outcome graph inner entries location reading := by
  unfold readAllOf at h
  split at h
  · cases h
    exact .fault .allOfNotList
  · next parts hparts =>
    split at h
    · cases h
      exact .fault .requiredNotNames
    · cases h
      exact .fault .propertiesNotMapping
    · next required properties hrequired hproperties =>
      obtain ⟨siblings, hsiblings, h⟩ := Limited.exists_of_bind_eq_ok h
      obtain ⟨readings, hreadings, h⟩ := Limited.exists_of_bind_eq_ok h
      cases h
      have hbind : (entries.field? "allOf").bind graph.items? = some parts := by
        rw [hallOf]
        exact hparts
      exact .composition ⟨href, henum, hbind, hrequired, hproperties⟩ hsiblings hreadings

theorem outcome_readArrayAt (htyped : IsTyped entries) (hkind : kind? entries = some (some "array"))
    (h : readArrayAt inner entries location = .ok reading) :
    Outcome graph inner entries location reading := by
  unfold readArrayAt at h
  split at h
  · cases h
    exact .leaf rfl
  · cases h
    exact .leaf rfl
  · next items hnull hitems =>
    obtain ⟨element, helement, h⟩ := Limited.exists_of_bind_eq_ok h
    cases h
    exact .array ⟨htyped, hkind, hitems, hnull⟩ helement

theorem outcome_readTyped (htyped : IsTyped entries)
    (h : readTyped graph inner entries location = .ok reading) :
    Outcome graph inner entries location reading := by
  unfold readTyped at h
  split at h
  · cases h
    exact .leaf rfl
  · next kind hkind =>
    split at h
    · next harray => exact outcome_readArrayAt htyped (harray ▸ hkind) h
    · next harray =>
      split at h
      · next hobject =>
        unfold readObjectAt at h
        split at h
        · cases h
          exact .fault .propertiesNotMapping
        · next properties hproperties =>
          obtain ⟨readings, hreadings, h⟩ := Limited.exists_of_bind_eq_ok h
          cases h
          exact .object ⟨htyped, ⟨kind, hkind, harray, hobject⟩, hproperties⟩ hreadings
      · cases h
        exact .leaf rfl

theorem outcome_of_readMapping (h : readMapping graph room inner entries location = .ok reading) :
    Outcome graph inner entries location reading := by
  unfold readMapping at h
  split at h
  · exact outcome_readReference h
  · next href =>
    split at h
    · exact outcome_readEnum h
    · next henum =>
      split at h
      · next allOf hallOf => exact outcome_readAllOf href henum hallOf h
      · next hallOf => exact outcome_readTyped ⟨href, henum, hallOf⟩ h

theorem Outcome.exists_of_array {node : Node} (h : Outcome graph inner entries location reading)
    (hnode : reading.node = .array (some node)) : ∃ items, IsArrayOf entries items ∧
      inner .element items (location ++ ".items") = .ok ⟨node, reading.issues⟩ := by
  cases h with
  | fault problem => cases hnode
  | leaf hleaf =>
    subst hnode
    cases hleaf
  | array hshape helement =>
    cases hnode
    exact ⟨_, hshape, helement⟩
  | object _ _ =>
    cases hrequired : requiredNames? graph entries with
    | none =>
      rw [hrequired] at hnode
      cases hnode
    | some required =>
      rw [hrequired] at hnode
      cases hnode
  | composition _ _ _ => cases hnode

theorem Outcome.exists_of_object {nodes : List (String × Node)} {required : List String}
    (h : Outcome graph inner entries location reading) (hnode : reading.node = .object nodes required) :
    ∃ properties readings, IsObjectOf graph entries properties ∧
      requiredNames? graph entries = some required ∧
      readProperties (inner .property) location properties = .ok readings ∧
      reading = readObject location readings (some required) := by
  cases h with
  | fault problem => cases hnode
  | leaf hleaf =>
    subst hnode
    cases hleaf
  | array _ _ => cases hnode
  | @object properties readings hshape hreadings =>
    cases hrequired : requiredNames? graph entries with
    | none =>
      rw [hrequired] at hnode
      cases hnode
    | some names =>
      rw [hrequired] at hnode
      cases hnode
      exact ⟨properties, readings, hshape, rfl, hreadings, rfl⟩
  | composition _ _ _ => cases hnode

end

end ApiBindings.Schema

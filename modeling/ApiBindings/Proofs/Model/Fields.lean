import ApiBindings.Proofs.Model.Imports
import ApiBindings.Proofs.Schema.Composition
import ApiBindings.Proofs.TypeScript.Key

/-!
# Fields of interfaces

The fields of an interface are the properties of its schema, one by one and in order (`fieldsFrom_eq_map`).
What a composition is read as has each of its properties once, but an object has one for every key of its
mapping. Keys that differ can have the same text, as the null value and the text `None` do, and fields of an
interface have the same key only if this is so (`nodup_fieldKeys_iff`).
-/

namespace ApiBindings

namespace Schema

/-- The texts of the keys of the properties that a mapping gives. -/
def propertyTexts (graph : Graph) (entries : Entries Value) : List String :=
  ((propertyEntries? graph entries).getD []).map fun property => property.1.toText

section

variable {graph : Graph} {inner : Inner} {entries properties : Entries Value} {location : String}
  {reading : Reading}

/-! ## Names of properties -/

theorem names_readProperties {inner : Value → String → Limited Reading}
    {readings : List (String × Reading)}
    (h : readProperties inner location properties = .ok readings) :
    readings.map Prod.fst = properties.map fun property => property.1.toText :=
  Assoc.keys_of_forall₂ (fun hentry => Scalar.toText_of_checkedText hentry.1)
    (readProperties_eq_ok_iff.1 h)

/-- The properties of an object that is read are named by the keys of its mapping. -/
theorem Outcome.names_of_object {nodes : List (String × Node)} {required : List String}
    (h : Outcome graph inner entries location reading) (hnode : reading.node = .object nodes required) :
    entries.field? "allOf" = none ∧ nodes.map Prod.fst = propertyTexts graph entries := by
  obtain ⟨properties, readings, hshape, -, hreadings, rfl⟩ := h.exists_of_object hnode
  cases hnode
  refine ⟨hshape.composition, ?_⟩
  rw [propertyTexts, hshape.properties, Option.getD_some, ← names_readProperties hreadings,
    List.map_map]
  rfl

/-- A composition that is read has each of its properties once. -/
theorem Outcome.nodup_of_composite {bases : List String} {nodes : List (String × Node)}
    {required : List String} (h : Outcome graph inner entries location reading)
    (hnode : reading.node = .composite bases nodes required) :
    (entries.field? "allOf").isSome = true ∧ (nodes.map Prod.fst).Nodup := by
  cases h with
  | fault problem => cases hnode
  | leaf hleaf =>
    subst hnode
    cases hleaf
  | array _ _ => cases hnode
  | object _ _ =>
    cases hrequired : requiredNames? graph entries <;> rw [hrequired] at hnode <;> cases hnode
  | composition hshape _ _ =>
    rw [node_readComposition] at hnode
    cases hnode
    obtain ⟨allOf, hallOf, -⟩ := Option.bind_eq_some_iff.1 hshape.parts
    exact ⟨by rw [hallOf]; rfl, Assoc.nodup_keys_ofPairs _⟩

end

end Schema

namespace Model

open Schema (Node)

/-! ## Names of fields -/

/-- The fields of an interface are the properties one by one. -/
theorem fieldsFrom_eq_map (owner : String) (required : List String) (properties : List (String × Node))
    (kept : List String) :
    (fieldsFrom owner required properties kept).1 = properties.map fun property =>
      ⟨property.1, (property.2.resolve owner).type, !required.contains property.1⟩ := by
  induction properties generalizing kept with
  | nil => rfl
  | cons property rest ih =>
    obtain ⟨name, node⟩ := property
    rw [fieldsFrom]
    simp only [ih, List.map_cons]

theorem names_fieldsFrom (owner : String) (required : List String) (properties : List (String × Node)) :
    (fieldsFrom owner required properties []).1.map Field.name = properties.map Prod.fst := by
  rw [fieldsFrom_eq_map, List.map_map]
  rfl

/-- An interface is declared for an object or a composition, with a field for each of its properties. -/
theorem names_of_interface {owner : String} {node : Node} {bases : List String} {fields : List Field}
    (h : (ofNode owner node).form = .interface bases fields) :
    (∃ properties required, node = .object properties required ∧
      fields.map Field.name = properties.map Prod.fst) ∨
    ∃ parts properties required, node = .composite parts properties required ∧
      fields.map Field.name = properties.map Prod.fst := by
  cases node with
  | object properties required =>
    cases h
    exact .inl ⟨properties, required, rfl, names_fieldsFrom owner required properties⟩
  | composite parts properties required =>
    cases h
    exact .inr ⟨parts, properties, required, rfl, names_fieldsFrom owner required properties⟩
  | _ => cases h

theorem nodup_keys_iff {fields : List Field} :
    (fields.map fun field => TypeScript.key field.name).Nodup ↔ (fields.map Field.name).Nodup := by
  have hkeys : (fields.map fun field => TypeScript.key field.name) =
      (fields.map Field.name).map TypeScript.key := by
    rw [List.map_map]
    rfl
  rw [hkeys]
  exact List.nodup_map_iff fun _ _ => TypeScript.key_inj.1

end Model

open Schema

/-- Texts that are different keys are different texts. -/
theorem nodup_texts_of_nodup_keys {properties : Entries Value}
    (htexts : ∀ property ∈ properties, ∃ name, property.1 = .text name)
    (hkeys : (properties.map fun property => property.1.key).Nodup) :
    (properties.map fun property => property.1.toText).Nodup := by
  rw [List.Nodup, List.pairwise_map] at hkeys ⊢
  refine hkeys.imp_of_mem fun {property other} hproperty hother hne heq => hne ?_
  obtain ⟨name, hname⟩ := htexts property hproperty
  obtain ⟨name', hname'⟩ := htexts other hother
  rw [hname, hname'] at heq ⊢
  exact congrArg (fun name => (Scalar.text name).key) heq

/-- **Fields of interfaces.** The fields of an interface have different keys exactly if its schema is a
composition or the keys of its properties have different texts. So they do if the properties have different
texts for keys. -/
theorem nodup_fieldKeys_iff {graph : Graph} {room : Nat} {path : List Nat} {id : Nat} {location : String}
    {reading : Reading} (hread : readAt graph room path (.mapping id) location = .ok reading)
    (owner : String) {bases : List String} {fields : List Model.Field}
    (hform : (Model.ofNode owner reading.node).form = .interface bases fields) :
    ((fields.map fun field => TypeScript.key field.name).Nodup ↔
      ((graph.entries id).field? "allOf").isSome = true ∨
        (propertyTexts graph (graph.entries id)).Nodup) ∧
    ∀ properties, propertyEntries? graph (graph.entries id) = some properties →
      (∀ property ∈ properties, ∃ name, property.1 = .text name) →
      (properties.map fun property => property.1.key).Nodup →
      (fields.map fun field => TypeScript.key field.name).Nodup := by
  obtain ⟨room, rfl⟩ : ∃ n, room = n + 5 := by
    refine ⟨room - 5, ?_⟩
    by_contra hne
    rw [readAt_tiny graph room path location _ (by omega)] at hread
    cases hread
  have hmet : id ∉ path := by
    intro hmem
    rw [readAt_met graph room location hmem] at hread
    cases hread
    cases hform
  rw [readAt_mapping graph room location hmet] at hread
  have houtcome := outcome_of_readMapping hread
  have hiff : (fields.map Model.Field.name).Nodup ↔
      ((graph.entries id).field? "allOf").isSome = true ∨
        (propertyTexts graph (graph.entries id)).Nodup := by
    rcases Model.names_of_interface hform with ⟨properties, required, hnode, hnames⟩ |
        ⟨parts, properties, required, hnode, hnames⟩
    · obtain ⟨hallOf, htexts⟩ := houtcome.names_of_object hnode
      rw [hnames, htexts, hallOf]
      simp
    · obtain ⟨hallOf, hnodup⟩ := houtcome.nodup_of_composite hnode
      rw [hnames]
      exact iff_of_true hnodup (.inl hallOf)
  rw [Model.nodup_keys_iff, hiff]
  refine ⟨Iff.rfl, fun properties hproperties htexts hkeys => .inr ?_⟩
  rw [propertyTexts, hproperties]
  exact nodup_texts_of_nodup_keys htexts hkeys

/-- Schemas with properties named by the null value and by the text `None`, in an object and beside the parts
of a composition. -/
def nullProperties : Graph where
  lists := #[[]]
  mappings := #[[(.text "properties", .mapping 2)],
    [(.text "allOf", .list 0), (.text "properties", .mapping 2)],
    [(.null, .mapping 3), (.text "None", .mapping 4)],
    [(.text "type", .text "integer")], [(.text "type", .text "string")]]
  sets := #[]
  pairs := #[]

theorem merged_fields_apart :
    ∃ reading fields, readAt nullProperties 992 [] (.mapping 1) "S" = .ok reading ∧
      (Model.ofNode "S" reading.node).form = .interface [] fields ∧
      (fields.map fun field => TypeScript.key field.name) = ["None"] ∧
      (fields.map fun field => TypeScript.key field.name).Nodup := by
  have hread : readAt nullProperties 992 [] (.mapping 1) "S" = .ok _ := rfl
  exact ⟨_, _, hread, rfl, by decide +kernel, (nodup_fieldKeys_iff hread "S" rfl).1.2 (.inl rfl)⟩

/-- Two fields of an object's interface with one key. -/
theorem null_fields_clash :
    ∃ reading fields, readAt nullProperties 992 [] (.mapping 0) "S" = .ok reading ∧
      (Model.ofNode "S" reading.node).form = .interface [] fields ∧
      (fields.map fun field => TypeScript.key field.name) = ["None", "None"] ∧
      ¬ (fields.map fun field => TypeScript.key field.name).Nodup :=
  ⟨_, _, rfl, rfl, by decide +kernel, by decide +kernel⟩

end ApiBindings

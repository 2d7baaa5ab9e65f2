import ApiBindings.Proofs.Model.Imports
import ApiBindings.Proofs.Output.Models

/-!
# Modules that find each other

A model's file imports other models from `./` and their name, and the index exports every model from
there. What is imported and exported has a file of that name, with a declaration of that name
(`modules_resolve`).
-/

namespace ApiBindings

open Output

/-! ## Modules -/

/-- Whether a text declares a schema: an interface or a type with its name. -/
def Declares (text name : String) : Prop :=
  ("export interface " ++ name ++ " ").toList <+: text.toList ∨
    ("export type " ++ name ++ " = ").toList <+: text.toList

/-- Whether a text imports some schemas, a line for each, and then declares a schema. -/
def IsModule (text name : String) (imports : List String) : Prop :=
  ∃ declaration, Declares declaration name ∧
    text = String.join (imports.map Model.importLine) ++ (if imports.isEmpty then "" else "\n") ++
      declaration

theorem declares_append {text name more : String} (h : Declares text name) :
    Declares (text ++ more) name := by
  have hmore : text.toList <+: (text ++ more).toList := by
    rw [String.toList_append]
    exact List.prefix_append _ _
  exact h.imp (·.trans hmore) (·.trans hmore)

/-- What an interface extends is set off from its name. -/
theorem space_begins_extendsClause (bases : List String) :
    " ".toList <+: (Model.extendsClause bases ++ " \x7b\n").toList := by
  unfold Model.extendsClause
  split
  · decide
  · have hspace : " ".toList <+: " extends ".toList := by decide
    rw [String.toList_append, String.toList_append, List.append_assoc]
    exact hspace.trans (List.prefix_append _ _)

theorem prefix_of_clause {keyword name gap clause opening : String}
    (h : gap.toList <+: (clause ++ opening).toList) (fields closing : String) :
    (keyword ++ name ++ gap).toList <+:
      (keyword ++ name ++ clause ++ opening ++ fields ++ closing).toList := by
  rw [String.toList_append] at h
  simp only [String.toList_append, List.append_assoc]
  rw [List.prefix_append_right_inj, List.prefix_append_right_inj, ← List.append_assoc]
  exact h.trans (List.prefix_append _ _)

theorem declares_declarationText (name : String) (form : Model.Form) :
    Declares (Model.declarationText name form) name := by
  have halias : ∀ type, Declares (Model.aliasLine name type) name := by
    intro type
    have hbegins : Declares ("export type " ++ name ++ " = ") name := .inr (List.prefix_refl _)
    exact declares_append (declares_append hbegins)
  rcases form with type | type | ⟨bases, fields⟩
  · exact halias type
  · exact halias type
  · exact .inl (prefix_of_clause (space_begins_extendsClause bases) _ _)

theorem isModule_render (name : String) (node : Schema.Node) :
    IsModule (Model.ofNode name node).render name (Schema.othersThan name node.refs) := by
  refine ⟨Model.declarationText name (Model.ofNode name node).form, declares_declarationText .., ?_⟩
  rw [Model.render, Model.imports_ofNode, Model.ofNode_name]

/-! ## Files by name -/

section

variable {source path : FilePath} {document : Document} {name : String}
  (hslash : ∀ name ∈ document.schemas.keys, '/' ∉ name.toList)

include hslash

/-- The file in the place of a schema is that of a schema with this name. -/
theorem exists_get?_modelPath (hindex : "index" ∉ document.schemas.keys)
    (hname : name ∈ document.schemas.keys) :
    ∃ node, (name, node) ∈ document.schemas ∧
      (filesOf (.usual source) path document).get? ((Layout.usual source).modelPath path name) =
        some (Model.ofNode name node).render := by
  have hne : document.schemas ≠ [] := by
    rintro hnil
    rw [hnil] at hname
    cases hname
  have hplace : (Layout.usual source).modelPath path name ∈
      Assoc.keys (generated (.usual source) path document) := by
    rw [keys_generated]
    exact List.mem_append_left _ (List.mem_map_of_mem (List.mem_append_left _ hname))
  obtain ⟨text, hfile, hget⟩ := Assoc.exists_get?_ofPairs hplace
  rw [filesOf_eq_ofPairs hne, hget]
  rcases mem_generated.1 hfile with ⟨schema, hschema, heq, rfl⟩ | ⟨heq, -⟩ | ⟨heq, -⟩
  · have hsame := Layout.eq_of_modelPath_usual source path (hslash name hname)
      (hslash schema.1 (Assoc.mem_keys_of_mem hschema)) heq
    subst hsame
    exact ⟨schema.2, hschema, rfl⟩
  · have hsame := Layout.eq_of_modelPath_usual source path (hslash name hname) (by decide) heq
    exact absurd (hsame ▸ hname) hindex
  · exact absurd heq (Layout.clientPath_ne_modelPath _ _ (Layout.head?_of_notMem (hslash name hname)))

theorem get?_index (hindex : "index" ∉ document.schemas.keys) (hne : document.schemas ≠ []) :
    (filesOf (.usual source) path document).get? ((Layout.usual source).modelPath path "index") =
      some (String.join (document.schemas.keys.map Model.exportLine)) := by
  have hplace : (Layout.usual source).modelPath path "index" ∈
      Assoc.keys (generated (.usual source) path document) := by
    rw [keys_generated]
    exact List.mem_append_left _ (List.mem_map_of_mem (List.mem_append_right _ List.mem_cons_self))
  obtain ⟨text, hfile, hget⟩ := Assoc.exists_get?_ofPairs hplace
  rw [filesOf_eq_ofPairs hne, hget]
  rcases mem_generated.1 hfile with ⟨schema, hschema, heq, -⟩ | ⟨-, rfl⟩ | ⟨heq, -⟩
  · have hname := Assoc.mem_keys_of_mem hschema
    have hsame := Layout.eq_of_modelPath_usual source path (by decide) (hslash schema.1 hname) heq
    exact absurd (hsame ▸ hname) hindex
  · simp only [Model.renderIndex, modelsOf, List.map_map, Assoc.keys]
    refine congrArg some (congrArg String.join (List.map_congr_left fun schema _ => ?_))
    exact congrArg Model.exportLine (Model.ofNode_name schema.1 schema.2)
  · exact absurd heq (Layout.clientPath_ne_modelPath _ _ (by decide))

end

/-- **Modules.** If the schemas of a document refer to schemas of the document, no name holds a slash and
none is `index`, then there is a module for each schema in the place of its name. It imports the other
schemas that its schema refers to, which have modules too. Beside the modules there is the client, and an
index with one line for each schema, in the order of the document. -/
theorem modules_resolve (source path : FilePath) {document : Document}
    (hrefs : ∀ schema ∈ document.schemas, schema.2.refs ⊆ document.schemas.keys)
    (hslash : ∀ name ∈ document.schemas.keys, '/' ∉ name.toList)
    (hindex : "index" ∉ document.schemas.keys) :
    let output := filesOf (.usual source) path document
    let place := (Layout.usual source).modelPath path
    (∀ name ∈ document.schemas.keys, ∃ node text, (name, node) ∈ document.schemas ∧
      output.get? (place name) = some text ∧ IsModule text name (Schema.othersThan name node.refs) ∧
      Schema.othersThan name node.refs ⊆ document.schemas.keys) ∧
    (document.schemas ≠ [] → output.get? (place "index") =
      some (String.join (document.schemas.keys.map Model.exportLine))) ∧
    ∀ file ∈ output.keys, file = (Layout.usual source).clientPath path ∨ file = place "index" ∨
      ∃ name ∈ document.schemas.keys, file = place name := by
  intro output place
  refine ⟨fun name hname => ?_, fun hne => get?_index hslash hindex hne, fun file hfile => ?_⟩
  · obtain ⟨node, hschema, hfile⟩ := exists_get?_modelPath hslash hindex hname
    refine ⟨node, _, hschema, hfile, isModule_render name node, ?_⟩
    intro other hother
    exact hrefs _ hschema (Schema.Node.othersThan_subset name _ hother)
  · rcases mem_keys_generate.1 hfile with hclient | ⟨-, hother | ⟨model, hmodel, hplace⟩⟩
    · exact .inl hclient
    · exact .inr (.inl hother)
    · exact .inr (.inr ⟨model.name, mem_keys_of_mem_modelsOf hmodel, hplace⟩)

/-- A description with a schema that refers to another one and to itself. -/
def taggedPet : Document where
  title := ""
  servers := []
  paths := []
  schemas := [("Pet", .object [("tag", .reference "Tag"), ("parent", .reference "Pet")] ["tag"]),
    ("Tag", .primitive (some "string") none)]
  issues := []

theorem taggedPet_resolves :
    (∀ schema ∈ taggedPet.schemas, schema.2.refs ⊆ taggedPet.schemas.keys) ∧
      (∀ name ∈ taggedPet.schemas.keys, '/' ∉ name.toList) ∧ "index" ∉ taggedPet.schemas.keys ∧
      ∃ text,
        (filesOf (.usual (.ofString "/specs")) (.ofString "/specs/api.yaml") taggedPet).get?
          (.ofString "/specs/generated/models/Pet.ts") = some text ∧ IsModule text "Pet" ["Tag"] := by
  have hrefs : ∀ schema ∈ taggedPet.schemas, schema.2.refs ⊆ taggedPet.schemas.keys := by
    decide +kernel
  have hslash : ∀ name ∈ taggedPet.schemas.keys, '/' ∉ name.toList := by
    decide
  have hindex : "index" ∉ taggedPet.schemas.keys := by
    decide
  obtain ⟨node, text, hschema, hfile, hmodule, -⟩ :=
    (modules_resolve (.ofString "/specs") (.ofString "/specs/api.yaml") hrefs hslash hindex).1
      "Pet" (by decide)
  have himports : Schema.othersThan "Pet" node.refs = ["Tag"] := by
    rcases List.mem_cons.1 hschema with heq | htag
    · cases heq
      decide +kernel
    · have hname : "Pet" = "Tag" := congrArg Prod.fst (List.mem_singleton.1 htag)
      exact absurd hname (by decide)
  exact ⟨hrefs, hslash, hindex, text, hfile, himports ▸ hmodule⟩

end ApiBindings

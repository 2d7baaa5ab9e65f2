import ApiBindings.Output
import ApiBindings.Proofs.Assoc.Overlay
import ApiBindings.Proofs.FilePath.Join

/-!
# The files of an output

Which paths an output has, and that none of them looks like a document under the usual names: whatever
the schemas are called, generating for one document leaves the text of every document alone.
-/

namespace ApiBindings

/-! ## The usual names -/

namespace Layout

/-- The layout with the usual extensions and names. -/
def usual (source : FilePath) : Layout := { sourceDirectory := source }

variable (source path : FilePath)

theorem outputDirectory_usual :
    (usual source).outputDirectory path = ⟨path.anchor, path.parent.names ++ ["generated"]⟩ :=
  FilePath.join_of_notMem path.parent "generated" (by decide) (by decide)

theorem clientPath_usual :
    (usual source).clientPath path =
      ⟨((usual source).outputDirectory path).anchor,
        ((usual source).outputDirectory path).names ++ ["openApi.ts"]⟩ :=
  FilePath.join_of_notMem _ "openApi.ts" (by decide) (by decide)

theorem modelsDirectory_usual :
    (usual source).modelsDirectory path =
      ⟨((usual source).outputDirectory path).anchor,
        ((usual source).outputDirectory path).names ++ ["models"]⟩ :=
  FilePath.join_of_notMem _ "models" (by decide) (by decide)

/-- The directory of the document that a file is generated for, unless the file is that of a schema whose
name leads elsewhere. -/
def origin (file : FilePath) : FilePath :=
  if file.parent.name = "models" then file.parent.parent.parent else file.parent.parent

theorem origin_clientPath : origin ((usual source).clientPath path) = path.parent := by
  rw [clientPath_usual, outputDirectory_usual]
  simp [origin, FilePath.parent, FilePath.name]

theorem origin_modelPath {name : String} (h : '/' ∉ name.toList) :
    origin ((usual source).modelPath path name) = path.parent := by
  have hfile := FilePath.ofString_append_of_notMem h
  have hmodel : (usual source).modelPath path name =
      (usual source).modelsDirectory path / (name ++ ".ts") := rfl
  rw [hmodel, FilePath.join_of_relative _ (by rw [hfile]), hfile, modelsDirectory_usual,
    outputDirectory_usual]
  simp [origin, FilePath.parent, FilePath.name]

end Layout

namespace Output

/-! ## Models of schemas -/

theorem mem_keys_of_mem_modelsOf {document : Document} {model : Model}
    (h : model ∈ modelsOf document) : model.name ∈ document.schemas.keys := by
  obtain ⟨schema, hschema, rfl⟩ := List.mem_map.1 h
  rw [Model.ofNode_name]
  exact Assoc.mem_keys_of_mem hschema

/-! ## Paths -/

theorem mem_keys_modelFiles {layout : Layout} {path file : FilePath} {models : List Model} :
    file ∈ (modelFiles layout path models).keys ↔
      models ≠ [] ∧ (file = layout.modelPath path "index" ∨
        ∃ model ∈ models, file = layout.modelPath path model.name) := by
  cases models with
  | nil => simp [modelFiles, Assoc.keys]
  | cons model models =>
    simp only [modelFiles, List.isEmpty_cons, Bool.false_eq_true, if_false, Assoc.mem_keys_set,
      Assoc.ofPairs, Assoc.mem_keys_setAll]
    simp [Assoc.keys, eq_comm]

theorem mem_keys_generate {layout : Layout} {path file : FilePath} {models : List Model}
    {client : Client} :
    file ∈ (generate layout path models client).keys ↔
      file = layout.clientPath path ∨ (models ≠ [] ∧ (file = layout.modelPath path "index" ∨
        ∃ model ∈ models, file = layout.modelPath path model.name)) := by
  rw [generate, Assoc.mem_keys_set, mem_keys_modelFiles]

theorem modelPath_mem_generate {layout : Layout} {path : FilePath} {document : Document}
    {client : Client} {name : String} (h : name ∈ document.schemas.keys) :
    layout.modelPath path name ∈ (generate layout path (modelsOf document) client).keys := by
  obtain ⟨node, hschema⟩ := Assoc.exists_mem_of_mem_keys h
  refine mem_keys_generate.2 (.inr ⟨?_, .inr ⟨.ofNode name node, ?_, ?_⟩⟩)
  · simp [modelsOf, List.ne_nil_of_mem hschema]
  · exact List.mem_map.2 ⟨(name, node), hschema, rfl⟩
  · rw [Model.ofNode_name]

theorem nodup_keys_generate (layout : Layout) (path : FilePath) (models : List Model)
    (client : Client) : (generate layout path models client).keys.Nodup := by
  refine Assoc.nodup_keys_set ?_
  unfold modelFiles
  split
  · exact List.nodup_nil
  · exact Assoc.nodup_keys_set (Assoc.nodup_keys_ofPairs _)

theorem generate_ne_nil (layout : Layout) (path : FilePath) (models : List Model) (client : Client) :
    generate layout path models client ≠ [] := by
  intro hnil
  have hclient : layout.clientPath path ∈ (generate layout path models client).keys :=
    mem_keys_generate.2 (.inl rfl)
  rw [hnil] at hclient
  cases hclient

/-! ## Documents -/

/-- Under the usual names every file of an output has the extension of generated files. -/
theorem exists_names_of_mem_keys {source path file : FilePath} {models : List Model}
    {client : Client} (h : file ∈ (generate (.usual source) path models client).keys) :
    ∃ init stem, file.names = init ++ [stem ++ ".ts"] := by
  rcases mem_keys_generate.1 h with rfl | ⟨-, rfl | ⟨model, -, rfl⟩⟩
  · exact FilePath.exists_names_join _ "openApi"
  · exact FilePath.exists_names_join _ "index"
  · exact FilePath.exists_names_join _ model.name

end Output

/-- Under the layout no generated file is looked at as a document. -/
def Layout.KeepsApart (layout : Layout) : Prop :=
  ∀ (path : FilePath) (models : List Model) (client : Client),
    ∀ file ∈ (Output.generate layout path models client).keys, layout.isDocument file = false

/-- The usual names keep documents and generated files apart, whatever the schemas are called. -/
theorem Layout.keepsApart_usual (source : FilePath) : (Layout.usual source).KeepsApart := by
  intro path models client file hfile
  obtain ⟨init, stem, hnames⟩ := Output.exists_names_of_mem_keys hfile
  rcases FilePath.suffix_of_names hnames with hsuffix | hsuffix <;>
    simp [isDocument, usual, hsuffix]

end ApiBindings

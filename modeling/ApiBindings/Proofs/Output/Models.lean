import ApiBindings.Document.Text
import ApiBindings.Proofs.Output.Files

/-!
# Files of models

The files generated for a document are kept by their paths: of two files with one path the later one
remains, and nothing tells that there was another. No file is lost exactly if the names of the schemas and
of the index lead to different places (`keepsModels_iff`).
-/

namespace ApiBindings

/-! ## Places of models -/

namespace FilePath

theorem anchor_ofString_of_head? {text : String} (h : text.toList.head? ≠ some '/') :
    (ofString text).anchor = .relative := by
  have hstart : text.toList.takeWhile (· = '/') = [] := by
    cases htext : text.toList with
    | nil => rfl
    | cons c rest =>
      have hne : c ≠ '/' := fun heq => h (by simp [htext, heq])
      simp [hne]
  simp only [ofString, anchorOf, hstart]
  rfl

theorem eq_of_names {path other : FilePath} (hanchor : path.anchor = other.anchor)
    (hnames : path.names = other.names) : path = other := by
  obtain ⟨anchor, names⟩ := path
  cases hanchor
  cases hnames
  rfl

end FilePath

namespace Layout

/-- The path that the name of a schema is written as. -/
def writtenPath (name : String) : FilePath :=
  .ofString (name ++ ".ts")

theorem anchor_writtenPath {name : String} (h : name.toList.head? ≠ some '/') :
    (writtenPath name).anchor = .relative := by
  apply FilePath.anchor_ofString_of_head?
  rw [String.toList_append]
  cases hname : name.toList with
  | nil => decide
  | cons c rest =>
    rw [hname] at h
    exact h

theorem head?_of_notMem {name : String} (h : '/' ∉ name.toList) : name.toList.head? ≠ some '/' :=
  fun hhead => h (List.mem_of_mem_head? hhead)

section Usual

variable (source path : FilePath) {name other : String}

theorem modelPath_usual (h : name.toList.head? ≠ some '/') :
    (usual source).modelPath path name =
      ⟨((usual source).outputDirectory path).anchor,
        ((usual source).outputDirectory path).names ++ "models" :: (writtenPath name).names⟩ := by
  have hmodel : (usual source).modelPath path name =
      (usual source).modelsDirectory path / (name ++ ".ts") := rfl
  rw [hmodel, FilePath.join_of_relative _ (anchor_writtenPath h), modelsDirectory_usual,
    List.append_assoc]
  rfl

theorem modelPath_usual_inj (hname : name.toList.head? ≠ some '/')
    (hother : other.toList.head? ≠ some '/') :
    (usual source).modelPath path name = (usual source).modelPath path other ↔
      writtenPath name = writtenPath other := by
  have hanchors := (anchor_writtenPath hname).trans (anchor_writtenPath hother).symm
  rw [modelPath_usual _ _ hname, modelPath_usual _ _ hother]
  constructor
  · intro heq
    obtain ⟨-, hnames⟩ := FilePath.mk.inj heq
    have hrest := (List.cons.inj (List.append_cancel_left hnames)).2
    exact FilePath.eq_of_names hanchors hrest
  · intro heq
    rw [heq]

theorem clientPath_ne_modelPath (h : name.toList.head? ≠ some '/') :
    (usual source).modelPath path name ≠ (usual source).clientPath path := by
  rw [modelPath_usual _ _ h, clientPath_usual]
  intro heq
  obtain ⟨-, hnames⟩ := FilePath.mk.inj heq
  have hhead := (List.cons.inj (List.append_cancel_left hnames)).1
  exact absurd hhead (by decide)

theorem writtenPath_inj (hname : '/' ∉ name.toList) (hother : '/' ∉ other.toList) :
    writtenPath name = writtenPath other ↔ name = other := by
  rw [writtenPath, writtenPath, FilePath.ofString_append_of_notMem hname,
    FilePath.ofString_append_of_notMem hother]
  simp

/-- Different names without slashes lead to different files. -/
theorem eq_of_modelPath_usual (hname : '/' ∉ name.toList) (hother : '/' ∉ other.toList)
    (h : (usual source).modelPath path name = (usual source).modelPath path other) : name = other := by
  rw [modelPath_usual_inj _ _ (head?_of_notMem hname) (head?_of_notMem hother)] at h
  exact (writtenPath_inj hname hother).1 h

end Usual

end Layout

namespace Output

/-- The files generated for a document. -/
def filesOf (layout : Layout) (path : FilePath) (document : Document) : Output :=
  generate layout path (modelsOf document) (.ofDocument document path)

/-- The places of the files for a document that has schemas with some names. -/
def places (layout : Layout) (path : FilePath) (names : List String) : List FilePath :=
  (names ++ ["index"]).map (layout.modelPath path) ++ [layout.clientPath path]

/-- Whether every file generated for a document has a place of its own. -/
structure KeepsModels (layout : Layout) (path : FilePath) (document : Document) : Prop where
  paths : (filesOf layout path document).keys = places layout path document.schemas.keys
  model : ∀ schema ∈ document.schemas,
    (filesOf layout path document).get? (layout.modelPath path schema.1) =
      some (Model.ofNode schema.1 schema.2).render
  index : (filesOf layout path document).get? (layout.modelPath path "index") =
    some (Model.renderIndex (modelsOf document))
  client : (filesOf layout path document).get? (layout.clientPath path) =
    some (Client.ofDocument document path).render

section

variable {layout : Layout} {path : FilePath} {document : Document}

/-- The files for a document, in the order in which they are generated. -/
def generated (layout : Layout) (path : FilePath) (document : Document) : List (FilePath × String) :=
  document.schemas.map (fun schema =>
      (layout.modelPath path schema.1, (Model.ofNode schema.1 schema.2).render)) ++
    [(layout.modelPath path "index", Model.renderIndex (modelsOf document)),
      (layout.clientPath path, (Client.ofDocument document path).render)]

theorem mem_generated {file : FilePath} {text : String} :
    (file, text) ∈ generated layout path document ↔
      (∃ schema ∈ document.schemas, file = layout.modelPath path schema.1 ∧
        text = (Model.ofNode schema.1 schema.2).render) ∨
      (file = layout.modelPath path "index" ∧ text = Model.renderIndex (modelsOf document)) ∨
      (file = layout.clientPath path ∧ text = (Client.ofDocument document path).render) := by
  simp [generated, eq_comm]

theorem filesOf_eq_ofPairs (h : document.schemas ≠ []) :
    filesOf layout path document = .ofPairs (generated layout path document) := by
  have hmodels : (modelsOf document).isEmpty = false := by
    simp [modelsOf, h]
  have hnames : ((modelsOf document).map fun model => (layout.modelPath path model.name, model.render)) =
      document.schemas.map fun schema =>
        (layout.modelPath path schema.1, (Model.ofNode schema.1 schema.2).render) := by
    simp [modelsOf, Model.ofNode_name]
  rw [filesOf, generate, modelFiles, hmodels, hnames, generated]
  simp only [Bool.false_eq_true, if_false, Assoc.ofPairs, Assoc.setAll_append, Assoc.setAll_cons,
    Assoc.setAll_nil]

theorem keys_generated (layout : Layout) (path : FilePath) (document : Document) :
    Assoc.keys (generated layout path document) = places layout path document.schemas.keys := by
  simp [Assoc.keys, generated, places]

/-- No file is lost if no two of them have one place, and only then. -/
theorem keepsModels_iff_nodup (h : document.schemas ≠ []) :
    KeepsModels layout path document ↔ (places layout path document.schemas.keys).Nodup := by
  constructor
  · intro hkeeps
    rw [← hkeeps.paths]
    exact nodup_keys_generate ..
  · intro hnodup
    rw [← keys_generated] at hnodup
    have hfiles : filesOf layout path document = generated layout path document := by
      rw [filesOf_eq_ofPairs h, Assoc.ofPairs_of_nodup hnodup]
    constructor
    · rw [hfiles, keys_generated]
    · intro schema hschema
      rw [hfiles]
      exact Assoc.get?_of_mem hnodup (List.mem_append_left _ (List.mem_map.2 ⟨schema, hschema, rfl⟩))
    · rw [hfiles]
      exact Assoc.get?_of_mem hnodup (by simp [generated])
    · rw [hfiles]
      exact Assoc.get?_of_mem hnodup (by simp [generated])

end

/-! ## Names of schemas -/

theorem nodup_map_iff {α β γ : Type} {f : α → β} {g : α → γ} {items : List α}
    (h : ∀ a ∈ items, ∀ b ∈ items, f a = f b ↔ g a = g b) :
    (items.map f).Nodup ↔ (items.map g).Nodup := by
  rw [List.Nodup, List.Nodup, List.pairwise_map, List.pairwise_map]
  exact List.Pairwise.iff_of_mem fun ha hb => not_congr (h _ ha _ hb)

theorem nodup_places_iff (source path : FilePath) {names : List String}
    (h : ∀ name ∈ names, name.toList.head? ≠ some '/') :
    (places (.usual source) path names).Nodup ↔ ((names ++ ["index"]).map Layout.writtenPath).Nodup := by
  have hall : ∀ name ∈ names ++ ["index"], name.toList.head? ≠ some '/' :=
    List.forall_mem_append.2 ⟨h, by decide⟩
  have hclient : (Layout.usual source).clientPath path ∉
      (names ++ ["index"]).map ((Layout.usual source).modelPath path) := by
    intro hmem
    obtain ⟨name, hname, heq⟩ := List.mem_map.1 hmem
    exact Layout.clientPath_ne_modelPath source path (hall name hname) heq
  rw [places, List.nodup_append_comm, List.singleton_append, List.nodup_cons, and_iff_right hclient]
  exact nodup_map_iff fun a ha b hb => Layout.modelPath_usual_inj source path (hall a ha) (hall b hb)

theorem nodup_writtenPath_iff {names : List String} (h : ∀ name ∈ names, '/' ∉ name.toList) :
    ((names ++ ["index"]).map Layout.writtenPath).Nodup ↔ names.Nodup ∧ "index" ∉ names := by
  have hall : ∀ name ∈ names ++ ["index"], '/' ∉ name.toList :=
    List.forall_mem_append.2 ⟨h, by decide⟩
  have hnames : ((names ++ ["index"]).map Layout.writtenPath).Nodup ↔
      ((names ++ ["index"]).map id).Nodup :=
    nodup_map_iff fun a ha b hb => Layout.writtenPath_inj (hall a ha) (hall b hb)
  rw [hnames, List.map_id, List.nodup_append_comm, List.singleton_append, List.nodup_cons, and_comm]

end Output

open Output

/-- **Files of models.** A document with schemas keeps all its files exactly if no two of them have one
place. If no name begins with a slash, these are the places that the names lead to from the directory of
the models; if no name holds a slash, every schema but one called `index` has a place of its own. -/
theorem keepsModels_iff (source path : FilePath) {document : Document} (h : document.schemas ≠ []) :
    (KeepsModels (.usual source) path document ↔
      (places (.usual source) path document.schemas.keys).Nodup) ∧
    ((∀ name ∈ document.schemas.keys, name.toList.head? ≠ some '/') →
      (KeepsModels (.usual source) path document ↔
        ((document.schemas.keys ++ ["index"]).map Layout.writtenPath).Nodup)) ∧
    ((∀ name ∈ document.schemas.keys, '/' ∉ name.toList) →
      (KeepsModels (.usual source) path document ↔
        document.schemas.keys.Nodup ∧ "index" ∉ document.schemas.keys)) := by
  refine ⟨keepsModels_iff_nodup h, fun hrelative => ?_, fun hslash => ?_⟩
  · rw [keepsModels_iff_nodup h, nodup_places_iff source path hrelative]
  · have hrelative : ∀ name ∈ document.schemas.keys, name.toList.head? ≠ some '/' :=
      fun name hname => Layout.head?_of_notMem (hslash name hname)
    rw [keepsModels_iff_nodup h, nodup_places_iff source path hrelative, nodup_writtenPath_iff hslash]

/-- A description with schemas of some names. -/
def stringSchemas (names : List String) : String :=
  "components:\n  schemas:\n" ++
    String.join (names.map fun name => "    " ++ name ++ ":\n      type: string\n")

/-- Two schemas with files of one name, in two directories. -/
theorem nested_name_kept :
    ∃ document, Document.ofText (stringSchemas ["Pet", "a/Pet"]) = .ok document ∧
      document.schemas ≠ [] ∧
      KeepsModels (.usual (.ofString "/specs")) (.ofString "/specs/api.yaml") document := by
  have hnames : (Document.ofText (stringSchemas ["Pet", "a/Pet"])).toOption.map (·.schemas.keys) =
      some ["Pet", "a/Pet"] := by
    decide +kernel
  obtain ⟨document, hread, hkeys⟩ := Document.exists_of_ofText hnames
  have hne : document.schemas ≠ [] := by
    intro hnil
    rw [hnil] at hkeys
    cases hkeys
  have hiff := (keepsModels_iff (.ofString "/specs") (.ofString "/specs/api.yaml") hne).2.1
  rw [hkeys] at hiff
  exact ⟨document, hread, hne, (hiff (by decide)).2 (by decide +kernel)⟩

/-- The file of a schema called `index` is lost to the index. -/
theorem index_schema_lost :
    ∃ document, Document.ofText (stringSchemas ["index"]) = .ok document ∧
      (filesOf (.usual (.ofString "/specs")) (.ofString "/specs/api.yaml") document).get?
          (.ofString "/specs/generated/models/index.ts") =
        some "export type \x7b index \x7d from './index';\n" ∧
      ¬ KeepsModels (.usual (.ofString "/specs")) (.ofString "/specs/api.yaml") document := by
  have hread : (Document.ofText (stringSchemas ["index"])).toOption.map (fun document =>
      (document.schemas.keys,
        (filesOf (.usual (.ofString "/specs")) (.ofString "/specs/api.yaml") document).get?
          (.ofString "/specs/generated/models/index.ts"))) =
      some (["index"], some "export type \x7b index \x7d from './index';\n") := by
    decide +kernel
  obtain ⟨document, hdocument, hview⟩ := Document.exists_of_ofText hread
  obtain ⟨hkeys, hfile⟩ := Prod.mk.inj hview
  refine ⟨document, hdocument, hfile, fun hkeeps => ?_⟩
  have hnodup : (filesOf (.usual (.ofString "/specs")) (.ofString "/specs/api.yaml")
      document).keys.Nodup := nodup_keys_generate ..
  rw [hkeeps.paths, hkeys] at hnodup
  exact absurd hnodup (by decide)

end ApiBindings

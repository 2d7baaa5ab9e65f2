import ApiBindings.Document.Text
import ApiBindings.Proofs.FilePath.Resolution
import ApiBindings.Proofs.Output.Files

/-!
# Which generated files stay in their directory

The client and the index of the models always lie in the directory for generated files. The file of a
schema lies where its name leads, and names come from the document: `generate_beneath_iff` says exactly
which names lead to a place beneath that directory.
-/

namespace ApiBindings

open FilePath (walk)

/-! ## Generated files beneath a directory -/

theorem down_outputDirectory_usual (source path : FilePath) :
    (walk ((Layout.usual source).outputDirectory path).names).down =
      "generated" :: (walk path.parent.names).down := by
  rw [Layout.outputDirectory_usual, FilePath.walk_concat _ (by decide) (by decide)]

/-- The name of a generated file is no name with another end. -/
theorem append_ne {stem text : String} (htext : text.toList.getLast? ≠ some 's') :
    stem ++ ".ts" ≠ text := by
  rintro rfl
  exact htext (by simp)

theorem walk_generated (init : List String) (stem : String) :
    walk (init ++ [stem ++ ".ts"]) = ⟨(walk init).up, (stem ++ ".ts") :: (walk init).down⟩ :=
  FilePath.walk_concat init (append_ne (by decide)) (append_ne (by decide))

theorem getLast?_names_resolve {path : FilePath} {name : String} {rest : List String}
    (h : (walk path.names).down = name :: rest) : path.resolve.names.getLast? = some name := by
  unfold FilePath.resolve
  cases path.anchor <;> simp [h]

section Beneath

variable {directory : FilePath} {rest : List String}
  (hdown : (walk directory.names).down = "generated" :: rest)

include hdown

/-- The directory for generated files is none of them, so a file lies beneath it if it leads there. -/
theorem isAncestorOf_resolve_iff {file : FilePath} {init : List String} {stem : String}
    (hnames : file.names = init ++ [stem ++ ".ts"]) :
    directory.resolve.isAncestorOf file.resolve = true ↔
      directory.anchor = file.anchor ∧
        (directory.anchor = .relative → (walk directory.names).up = (walk file.names).up) ∧
        (walk directory.names).down <:+ (walk file.names).down := by
  have hfile : (walk file.names).down = (stem ++ ".ts") :: (walk init).down := by
    rw [hnames, walk_generated]
  have hne : directory.resolve ≠ file.resolve := by
    intro heq
    have hlast := getLast?_names_resolve hdown
    rw [heq, getLast?_names_resolve hfile] at hlast
    exact append_ne (by decide) (Option.some.inj hlast)
  rw [← FilePath.covers_resolve_iff (by simp [hdown])]
  simp [FilePath.isAncestorOf, hne]

end Beneath

/-! ## Files of schemas -/

/-- Whether the file of a schema stays beneath the directory for generated files. A relative name is
followed from the directory of the models, one level below: what it climbs above the directory it has
to come down again on the same way. An absolute name has to lead into the directory by itself. -/
def StaysBeneath (directory : FilePath) (name : String) : Prop :=
  let file := FilePath.ofString (name ++ ".ts")
  let outer := walk directory.names
  let inner := walk file.names
  if file.anchor = .relative then
    outer.down.take (inner.up - 1) <:+ inner.down ∧
      (directory.anchor = .relative → inner.up ≤ outer.down.length + 1)
  else directory.anchor = file.anchor ∧ outer.down <:+ inner.down
  deriving Decidable

/-- What is left of a way after some steps up is completed by the steps taken up. -/
theorem suffix_append_drop_iff {down inner : List String} (models : String) (up : Nat) :
    down <:+ inner ++ (models :: down).drop up ↔ down.take (up - 1) <:+ inner := by
  cases up with
  | zero => simpa using List.suffix_append_of_suffix (List.suffix_cons models down)
  | succ up =>
    rw [List.drop_succ_cons, Nat.add_sub_cancel]
    conv => lhs; lhs; rw [← List.take_append_drop up down]
    exact List.suffix_append_self_iff

theorem isAncestorOf_model_iff (source path : FilePath) (name : String) :
    ((Layout.usual source).outputDirectory path).resolve.isAncestorOf
        ((Layout.usual source).modelPath path name).resolve = true ↔
      StaysBeneath ((Layout.usual source).outputDirectory path) name := by
  have hdown := down_outputDirectory_usual source path
  have hmodel : (Layout.usual source).modelPath path name =
      (Layout.usual source).modelsDirectory path / (name ++ ".ts") := rfl
  rw [hmodel, Layout.modelsDirectory_usual]
  generalize (Layout.usual source).outputDirectory path = directory at hdown ⊢
  obtain ⟨init, stem, hnames⟩ := FilePath.exists_names_ofString name
  unfold StaysBeneath
  by_cases hanchor : (FilePath.ofString (name ++ ".ts")).anchor = .relative
  · have hmodels : walk (directory.names ++ ["models"]) =
        ⟨(walk directory.names).up, "models" :: (walk directory.names).down⟩ :=
      FilePath.walk_concat _ (by decide) (by decide)
    rw [if_pos hanchor, FilePath.join_of_relative _ hanchor,
      isAncestorOf_resolve_iff hdown (by rw [hnames]; exact (List.append_assoc ..).symm),
      FilePath.walk_append, hmodels]
    simp only [FilePath.Walk.andThen, List.length_cons, suffix_append_drop_iff, true_and]
    rw [and_comm]
    refine and_congr_right fun _ => imp_congr_right fun _ => ?_
    omega
  · rw [if_neg hanchor, FilePath.join_of_absolute _ hanchor, isAncestorOf_resolve_iff hdown hnames]
    refine and_congr_right fun heq => and_iff_right fun hrelative => ?_
    exact absurd (heq.symm.trans hrelative) hanchor

/-- A name without a separator stays beneath the directory, whatever dots it holds. -/
theorem staysBeneath_of_notMem (directory : FilePath) {name : String} (h : '/' ∉ name.toList) :
    StaysBeneath directory name := by
  have hfile := FilePath.ofString_append_of_notMem h
  have hwalk : walk [name ++ ".ts"] = ⟨0, [name ++ ".ts"]⟩ := walk_generated [] name
  unfold StaysBeneath
  simp [hfile, hwalk]

/-! ## Outputs -/

theorem isAncestorOf_clientPath (source path : FilePath) :
    ((Layout.usual source).outputDirectory path).resolve.isAncestorOf
      ((Layout.usual source).clientPath path).resolve = true := by
  have hdown := down_outputDirectory_usual source path
  have hnames : ((Layout.usual source).clientPath path).names =
      ((Layout.usual source).outputDirectory path).names ++ ["openApi" ++ ".ts"] := by
    rw [Layout.clientPath_usual]
    rfl
  rw [isAncestorOf_resolve_iff hdown hnames, hnames, walk_generated]
  refine ⟨?_, fun _ => rfl, List.suffix_cons _ _⟩
  rw [Layout.clientPath_usual]

/-- **Containment.** The files generated for a document all lie beneath its directory for generated files
exactly if the names of its schemas keep them there. -/
theorem generate_beneath_iff (source path : FilePath) (document : Document) :
    (∀ file ∈ (Output.generate (.usual source) path (Output.modelsOf document)
        (.ofDocument document path)).keys,
      ((Layout.usual source).outputDirectory path).resolve.isAncestorOf file.resolve = true) ↔
    ∀ name ∈ document.schemas.keys,
      StaysBeneath ((Layout.usual source).outputDirectory path) name := by
  constructor
  · intro hbeneath name hname
    exact (isAncestorOf_model_iff ..).1 (hbeneath _ (Output.modelPath_mem_generate hname))
  · intro hstays file hfile
    rcases Output.mem_keys_generate.1 hfile with rfl | ⟨-, rfl | ⟨model, hmodel, rfl⟩⟩
    · exact isAncestorOf_clientPath source path
    · exact (isAncestorOf_model_iff ..).2 (staysBeneath_of_notMem _ (by decide))
    · exact (isAncestorOf_model_iff ..).2 (hstays _ (Output.mem_keys_of_mem_modelsOf hmodel))

example : StaysBeneath (.ofString "/specs/generated") "../../generated/Pet" := by decide

example : ¬ StaysBeneath (.ofString "/specs/generated") "../../Pet" := by decide

/-- An absolute name in a document leads away from the directory. -/
theorem absolute_name_escapes :
    let path : FilePath := .ofString "/specs/api.yaml"
    ∃ document,
      Document.ofText "components:\n  schemas:\n    /etc/app:\n      type: string\n" = .ok document ∧
      ¬ ∀ file ∈ (Output.generate (.usual (.ofString "/specs")) path (Output.modelsOf document)
          (.ofDocument document path)).keys,
        ((Layout.usual (.ofString "/specs")).outputDirectory path).resolve.isAncestorOf
          file.resolve = true := by
  intro path
  have hnames : (Document.ofText
      "components:\n  schemas:\n    /etc/app:\n      type: string\n").toOption.map (·.schemas.keys) =
      some ["/etc/app"] := by
    decide +kernel
  generalize Document.ofText _ = reading at hnames ⊢
  cases reading with
  | error failure => cases hnames
  | ok document =>
    have hkeys : document.schemas.keys = ["/etc/app"] := Option.some.inj hnames
    have hname : "/etc/app" ∈ document.schemas.keys := by
      rw [hkeys]
      exact List.mem_cons_self
    refine ⟨document, rfl, fun hbeneath => ?_⟩
    have hstays := (isAncestorOf_model_iff ..).1 (hbeneath _ (Output.modelPath_mem_generate hname))
    exact absurd hstays (by decide)

end ApiBindings

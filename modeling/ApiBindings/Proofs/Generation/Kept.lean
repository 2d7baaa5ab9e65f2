import ApiBindings.Proofs.Generation.Documents
import Mathlib.Data.List.Induction

/-!
# Which generated files a run keeps

Documents of one directory share the file of their client, and models with the same name share a file
too. After a run a file holds what the last document to write it wrote (`get?_storeAfter`). So a run
keeps all that it reports as generated exactly if no file of a generated document is written once more
with another text (`generateAll_keeps_iff`).
-/

namespace ApiBindings

/-! ## The last document to write a file -/

/-- The last of some documents for which a file is written. -/
def lastWriter? (layout : Layout) (documents : List FilePath) (store : Store) (file : FilePath) :
    Option FilePath :=
  documents.reverse.find? fun path => (written layout path store).keys.contains file

section LastWriter

variable {layout : Layout} {store : Store}

theorem lastWriter?_concat (documents : List FilePath) (path file : FilePath) :
    lastWriter? layout (documents ++ [path]) store file =
      if (written layout path store).keys.contains file then some path
      else lastWriter? layout documents store file := by
  unfold lastWriter?
  rw [List.reverse_append, List.reverse_singleton, List.singleton_append, List.find?_cons]
  cases (written layout path store).keys.contains file <;> rfl

theorem exists_lastWriter? {documents : List FilePath} {path file : FilePath}
    (hpath : path ∈ documents) (hfile : file ∈ (written layout path store).keys) :
    ∃ last, lastWriter? layout documents store file = some last := by
  refine Option.isSome_iff_exists.1 (List.find?_isSome.2 ⟨path, List.mem_reverse.2 hpath, ?_⟩)
  simpa using hfile

/-- What documents write is found where the last of them to write the file wrote it. -/
theorem get?_setAll_writtenAll (files : Assoc FilePath String) (documents : List FilePath)
    (file : FilePath) :
    (files.setAll (writtenAll layout documents store)).get? file =
      match lastWriter? layout documents store file with
      | some path => (written layout path store).get? file
      | none => files.get? file := by
  -- From the end, since the last document to write the file decides.
  induction documents using List.reverseRecOn with
  | nil => rfl
  | append_singleton documents path ih =>
    have hconcat : writtenAll layout (documents ++ [path]) store =
        writtenAll layout documents store ++ written layout path store := by
      simp [writtenAll]
    rw [hconcat, Assoc.setAll_append, lastWriter?_concat]
    by_cases hfile : file ∈ (written layout path store).keys
    · obtain ⟨text, hpair⟩ := Assoc.exists_mem_of_mem_keys hfile
      rw [Assoc.get?_setAll_of_mem _ nodup_keys_written hpair, if_pos (by simpa using hfile)]
      exact (Assoc.get?_of_mem nodup_keys_written hpair).symm
    · rw [Assoc.get?_setAll_of_notMem _ hfile, if_neg (by simpa using hfile)]
      exact ih

theorem get?_storeAfter (hapart : layout.KeepsApart) {documents : List FilePath}
    (hdocuments : ∀ path ∈ documents, layout.isDocument path = true) (file : FilePath) :
    (storeAfter layout documents store).files.get? file =
      match lastWriter? layout documents store file with
      | some path => (written layout path store).get? file
      | none => store.files.get? file := by
  rw [((SameDocuments.refl layout store).overlay_storeAfter hapart hdocuments).files]
  exact get?_setAll_writtenAll store.files documents file

/-- A pair of a document is there after a run if the last document to write its file wrote it. -/
theorem get?_storeAfter_of_mem (hapart : layout.KeepsApart) {documents : List FilePath}
    (hdocuments : ∀ path ∈ documents, layout.isDocument path = true) {path : FilePath}
    (hpath : path ∈ documents) {pair : FilePath × String} (hpair : pair ∈ written layout path store)
    (hlast : ∀ last, lastWriter? layout documents store pair.1 = some last →
      pair ∈ written layout last store) :
    (storeAfter layout documents store).files.get? pair.1 = some pair.2 := by
  obtain ⟨last, hwriter⟩ := exists_lastWriter? hpath (Assoc.mem_keys_of_mem hpair)
  rw [get?_storeAfter hapart hdocuments, hwriter]
  exact Assoc.get?_of_mem nodup_keys_written (hlast last hwriter)

theorem of_lastWriter?_eq_some {documents : List FilePath} {last file : FilePath}
    (h : lastWriter? layout documents store file = some last) :
    last ∈ documents ∧ file ∈ (written layout last store).keys := by
  refine ⟨List.mem_reverse.1 (List.mem_of_find?_eq_some h), ?_⟩
  simpa using List.find?_some h

end LastWriter

/-! ## What a run keeps -/

/-- In a run over documents the given output is generated for a document in its turn. -/
def Produced (layout : Layout) (documents : List FilePath) (store : Store) (path : FilePath)
    (output : Output) : Prop :=
  ∃ before later, documents = before ++ path :: later ∧
    (generateDocument layout path (storeAfter layout before store)).1.result = .ok output

/-- What is generated for a document in its turn is what would be at the start of the run. -/
theorem produced_iff {layout : Layout} (hapart : layout.KeepsApart) {documents : List FilePath}
    (hdocuments : ∀ path ∈ documents, layout.isDocument path = true) {store : Store}
    {path : FilePath} {output : Output} :
    Produced layout documents store path output ↔
      path ∈ documents ∧ (generateDocument layout path store).1.result = .ok output := by
  have hsame := fun before => (SameDocuments.refl layout store).run hapart before
  constructor
  · rintro ⟨before, later, rfl, hresult⟩
    have hpath : path ∈ before ++ path :: later := by simp
    rw [(hsame before).attempt_eq (hdocuments path hpath)] at hresult
    exact ⟨hpath, hresult⟩
  · rintro ⟨hpath, hresult⟩
    obtain ⟨before, later, rfl⟩ := List.append_of_mem hpath
    refine ⟨before, later, rfl, ?_⟩
    rw [(hsame before).attempt_eq (hdocuments path hpath)]
    exact hresult

theorem exists_output_of_isGenerated {layout : Layout} {store : Store} {path : FilePath}
    (h : isGenerated layout store path = true) :
    ∃ output, (generateDocument layout path store).1.result = .ok output := by
  unfold isGenerated at h
  split at h
  · next output hresult => exact ⟨output, hresult⟩
  · cases h

/-- **What a run keeps.** For each document of its summary's generated ones a run has produced an
output. After the run all pairs of these outputs are still there exactly if, for every file of such an
output, the last document of the run to write the file has written the same text. -/
theorem generateAll_keeps_iff (source : FilePath) (store : Store) (summary : Summary)
    (hrun : (generateAll (.usual source) store).1.result = .ok summary) :
    (∀ path ∈ summary.generated, ∃ output,
      Produced (.usual source) summary.documents store path output) ∧
    ((∀ path ∈ summary.generated, ∀ output,
        Produced (.usual source) summary.documents store path output →
        ∀ pair ∈ output, (generateAll (.usual source) store).2.files.get? pair.1 = some pair.2) ↔
      ∀ path ∈ summary.generated, ∀ pair ∈ written (.usual source) path store, ∀ last,
        lastWriter? (.usual source) summary.documents store pair.1 = some last →
        pair ∈ written (.usual source) last store) := by
  have hapart := Layout.keepsApart_usual source
  have hdocuments := isDocument_of_mem_documentsOf (.usual source) store
  obtain ⟨hescape, rfl⟩ := summary_eq hapart store hrun
  have hproduced : ∀ path ∈ (documentsOf (.usual source) store).filter
      (isGenerated (.usual source) store), ∃ output,
        Produced (.usual source) (documentsOf (.usual source) store) store path output ∧
        written (.usual source) path store = output := by
    intro path hpath
    obtain ⟨hmem, hgenerated⟩ := List.mem_filter.1 hpath
    obtain ⟨output, hresult⟩ := exists_output_of_isGenerated hgenerated
    exact ⟨output, (produced_iff hapart hdocuments).2 ⟨hmem, hresult⟩, (written_of_ok hresult).2.1⟩
  rw [generateAll_store hapart store hescape]
  refine ⟨fun path hpath => ?_, ?_, ?_⟩
  · obtain ⟨output, houtput, -⟩ := hproduced path hpath
    exact ⟨output, houtput⟩
  · intro hkept path hpath pair hpair last hlast
    obtain ⟨output, houtput, rfl⟩ := hproduced path hpath
    have hget := hkept path hpath _ houtput pair hpair
    rw [get?_storeAfter hapart hdocuments, hlast] at hget
    exact Assoc.mem_of_get?_eq_some hget
  · intro hlasts path hpath output houtput pair hpair
    obtain ⟨hmem, hresult⟩ := (produced_iff hapart hdocuments).1 houtput
    obtain ⟨-, rfl, -⟩ := written_of_ok hresult
    exact get?_storeAfter_of_mem hapart hdocuments hmem hpair (hlasts path hpath pair hpair)

/-! ## Documents of different directories -/

/-- No schema of the document at a path has a name with a separator. -/
def HasPlainNames (store : Store) (path : FilePath) : Prop :=
  ∀ text document, store.files.get? path = some text → Document.ofText text = .ok document →
    ∀ name ∈ document.schemas.keys, '/' ∉ name.toList

theorem HasPlainNames.origin_eq {source path file : FilePath} {store : Store}
    (hplain : HasPlainNames store path) (h : file ∈ (written (.usual source) path store).keys) :
    Layout.origin file = path.parent := by
  obtain ⟨content, hpair⟩ := Assoc.exists_mem_of_mem_keys h
  obtain ⟨output, houtput, hmem⟩ := mem_of_mem_written hpair
  obtain ⟨text, document, hget, hdocument, rfl⟩ := exists_of_outputOf?_eq_some houtput
  rcases Output.mem_keys_generate.1 (Assoc.mem_keys_of_mem hmem) with
    rfl | ⟨-, rfl | ⟨model, hmodel, rfl⟩⟩
  · exact Layout.origin_clientPath source path
  · exact Layout.origin_modelPath source path (by decide)
  · refine Layout.origin_modelPath source path ?_
    exact hplain text document hget hdocument _ (Output.mem_keys_of_mem_modelsOf hmodel)

/-- A run over documents of different directories keeps all that is generated, if the names of their
schemas are plain. -/
theorem generateAll_keeps_of_apart (source : FilePath) (store : Store) (summary : Summary)
    (hrun : (generateAll (.usual source) store).1.result = .ok summary)
    (hdirectories : ∀ path ∈ summary.documents, ∀ other ∈ summary.documents,
      path.parent = other.parent → path = other)
    (hplain : ∀ path ∈ summary.documents, HasPlainNames store path) :
    ∀ path ∈ summary.generated, ∀ output,
      Produced (.usual source) summary.documents store path output →
      ∀ pair ∈ output, (generateAll (.usual source) store).2.files.get? pair.1 = some pair.2 := by
  have hapart := Layout.keepsApart_usual source
  have hdocuments := isDocument_of_mem_documentsOf (.usual source) store
  obtain ⟨hescape, rfl⟩ := summary_eq hapart store hrun
  intro path hpath output houtput pair hpair
  obtain ⟨hmem, hresult⟩ := (produced_iff hapart hdocuments).1 houtput
  obtain ⟨-, rfl, -⟩ := written_of_ok hresult
  rw [generateAll_store hapart store hescape]
  refine get?_storeAfter_of_mem hapart hdocuments hmem hpair fun last hlast => ?_
  obtain ⟨hlastMem, hfile⟩ := of_lastWriter?_eq_some hlast
  have horigin := (hplain path hmem).origin_eq (Assoc.mem_keys_of_mem hpair)
  rw [(hplain last hlastMem).origin_eq hfile] at horigin
  rw [hdirectories last hlastMem path hmem horigin]
  exact hpair

/-! ## Two documents in two directories and in one -/

/-- A source directory. -/
def specs : FilePath := .ofString "/specs"

/-- A store of documents without schemas or paths. -/
def Store.ofEmptyDocuments (documents : List FilePath) : Store where
  files := documents.map fun path => (path, "\x7b\x7d")

def twoDirectories : List FilePath := [.ofString "/specs/a/api.yaml", .ofString "/specs/b/api.yaml"]

def oneDirectory : List FilePath := [.ofString "/specs/a.yaml", .ofString "/specs/b.yaml"]

/-- Documents of two directories keep their clients. -/
theorem two_directories_kept :
    (generateAll (.usual specs) (Store.ofEmptyDocuments twoDirectories)).1.result =
        .ok { documents := twoDirectories, generated := twoDirectories } ∧
      ∀ path ∈ twoDirectories, ∀ output,
        Produced (.usual specs) twoDirectories (.ofEmptyDocuments twoDirectories) path output →
        ∀ pair ∈ output,
          (generateAll (.usual specs) (Store.ofEmptyDocuments twoDirectories)).2.files.get? pair.1 =
            some pair.2 := by
  have hrun : (generateAll (.usual specs) (Store.ofEmptyDocuments twoDirectories)).1.result =
      .ok { documents := twoDirectories, generated := twoDirectories } := by
    decide +kernel
  have hlasts : ∀ path ∈ twoDirectories,
      ∀ pair ∈ written (.usual specs) path (.ofEmptyDocuments twoDirectories),
        lastWriter? (.usual specs) twoDirectories (.ofEmptyDocuments twoDirectories) pair.1 =
          some path := by
    decide +kernel
  refine ⟨hrun, (generateAll_keeps_iff _ _ _ hrun).2.2 ?_⟩
  intro path hpath pair hpair last hlast
  have heq := (hlasts path hpath pair hpair).symm.trans hlast
  cases heq
  exact hpair

/-- Two documents of one directory are both generated, but the client of the first is lost. -/
theorem one_directory_not_kept :
    (generateAll (.usual specs) (Store.ofEmptyDocuments oneDirectory)).1.result =
        .ok { documents := oneDirectory, generated := oneDirectory } ∧
      ¬ ∀ path ∈ oneDirectory, ∀ output,
        Produced (.usual specs) oneDirectory (.ofEmptyDocuments oneDirectory) path output →
        ∀ pair ∈ output,
          (generateAll (.usual specs) (Store.ofEmptyDocuments oneDirectory)).2.files.get? pair.1 =
            some pair.2 := by
  refine ⟨by decide +kernel, fun hkept => ?_⟩
  have hproduced : Produced (.usual specs) oneDirectory (.ofEmptyDocuments oneDirectory)
      (.ofString "/specs/a.yaml")
      (written (.usual specs) (.ofString "/specs/a.yaml") (.ofEmptyDocuments oneDirectory)) :=
    ⟨[], [.ofString "/specs/b.yaml"], rfl, by decide +kernel⟩
  have hlost : ∃ pair ∈
      written (.usual specs) (.ofString "/specs/a.yaml") (.ofEmptyDocuments oneDirectory),
      (generateAll (.usual specs) (Store.ofEmptyDocuments oneDirectory)).2.files.get? pair.1 ≠
        some pair.2 := by
    decide +kernel
  obtain ⟨pair, hpair, hget⟩ := hlost
  exact hget (hkept _ List.mem_cons_self _ hproduced pair hpair)

end ApiBindings

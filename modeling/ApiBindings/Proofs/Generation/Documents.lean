import ApiBindings.Proofs.Generation.Document
import ApiBindings.Proofs.Generation.Log

/-!
# Runs over documents

Under a layout that keeps documents and generated files apart, a run never changes a document. So what
becomes of each document is settled by the store that the run starts from: `generateEach_result` and
`generateEach_store` say it for given documents, `generateAll_result` and `generateAll_store` for those
that are discovered.
-/

namespace ApiBindings

open Store (Overlay)

/-! ## Stores with the same documents -/

/-- A store with the documents of another one, each with its text, and with the same locks. -/
structure SameDocuments (layout : Layout) (start store : Store) : Prop where
  get?_eq : ∀ {path}, layout.isDocument path = true → store.files.get? path = start.files.get? path
  locks : store.locks = start.locks

namespace SameDocuments

variable {layout : Layout} {start store : Store}

theorem refl (layout : Layout) (store : Store) : SameDocuments layout store store :=
  ⟨fun _ => rfl, rfl⟩

theorem isLocked_eq (h : SameDocuments layout start store) : store.isLocked = start.isLocked :=
  Store.isLocked_congr fun lock => by rw [h.locks]

theorem attempt_eq (h : SameDocuments layout start store) {path : FilePath}
    (hpath : layout.isDocument path = true) :
    (generateDocument layout path store).1 = (generateDocument layout path start).1 :=
  generateDocument_congr (h.get?_eq hpath) h.isLocked_eq

theorem changesFor_eq (h : SameDocuments layout start store) {path : FilePath}
    (hpath : layout.isDocument path = true) :
    changesFor layout path store = changesFor layout path start :=
  changesFor_congr (h.get?_eq hpath) h.isLocked_eq

theorem written_eq (h : SameDocuments layout start store) {path : FilePath}
    (hpath : layout.isDocument path = true) :
    written layout path store = written layout path start :=
  written_congr (h.get?_eq hpath) h.isLocked_eq

end SameDocuments

theorem Layout.KeepsApart.isDocument_eq_false {layout : Layout} (hapart : layout.KeepsApart)
    {path file : FilePath} {store : Store}
    (h : file ∈ Assoc.keys (written layout path store)) : layout.isDocument file = false := by
  obtain ⟨text, hpair⟩ := Assoc.exists_mem_of_mem_keys h
  obtain ⟨output, houtput, hmem⟩ := mem_of_mem_written hpair
  obtain ⟨-, document, -, -, rfl⟩ := exists_of_outputOf?_eq_some houtput
  exact hapart path _ _ file (Assoc.mem_keys_of_mem hmem)

/-! ## One document after another -/

/-- The store after generating for documents, one after another. -/
def storeAfter (layout : Layout) (documents : List FilePath) (store : Store) : Store :=
  documents.foldl (fun store path => (generateDocument layout path store).2) store

/-- The changes that generating for documents makes, in order. -/
def changesForAll (layout : Layout) (documents : List FilePath) (store : Store) : List Change :=
  documents.flatMap fun path => changesFor layout path store

/-- The pairs that generating for documents writes, in order. -/
def writtenAll (layout : Layout) (documents : List FilePath) (store : Store) : Output :=
  documents.flatMap fun path => written layout path store

theorem filterMap_changesForAll (layout : Layout) (documents : List FilePath) (store : Store) :
    (changesForAll layout documents store).filterMap Change.pair? =
      writtenAll layout documents store := by
  simp only [changesForAll, writtenAll, List.filterMap_flatMap, filterMap_changesFor]

section Documents

variable {layout : Layout} (hapart : layout.KeepsApart) {start store : Store}

include hapart

/-- One document leaves every document as it is. -/
theorem SameDocuments.step (h : SameDocuments layout start store) (path : FilePath) :
    SameDocuments layout start (generateDocument layout path store).2 := by
  have hoverlay := generateDocument_overlay layout path store
  refine ⟨fun {other} hother => ?_, hoverlay.locks.trans h.locks⟩
  rw [hoverlay.get?_eq, h.get?_eq hother]
  intro hmem
  rw [hapart.isDocument_eq_false hmem] at hother
  cases hother

theorem SameDocuments.run (h : SameDocuments layout start store) (documents : List FilePath) :
    SameDocuments layout start (storeAfter layout documents store) := by
  induction documents generalizing store with
  | nil => exact h
  | cons path rest ih => exact ih (h.step hapart path)

section Settled

variable (hsame : SameDocuments layout start store) {documents : List FilePath}
  (hdocuments : ∀ path ∈ documents, layout.isDocument path = true)

include hsame hdocuments

/-- Generating for documents makes the changes that the start settles for each of them. -/
theorem storeAfter_eq_applyAll :
    storeAfter layout documents store = store.applyAll (changesForAll layout documents start) := by
  induction documents generalizing store with
  | nil => rfl
  | cons path rest ih =>
    obtain ⟨hpath, hrest⟩ := List.forall_mem_cons.1 hdocuments
    rw [changesForAll, List.flatMap_cons, Store.applyAll_append, ← hsame.changesFor_eq hpath,
      ← generateDocument_store]
    exact ih (hsame.step hapart path) hrest

/-- Generating for documents overlays the files with what the start settles for each of them. -/
theorem SameDocuments.overlay_storeAfter :
    Overlay store (writtenAll layout documents start) (storeAfter layout documents store) := by
  rw [storeAfter_eq_applyAll hapart hsame hdocuments, ← filterMap_changesForAll]
  exact Store.overlay_applyAll store _

end Settled

end Documents

/-! ## What becomes of a document -/

/-- What generating for a document ends the run with, if it does. -/
def escape? (layout : Layout) (store : Store) (path : FilePath) : Option Escape :=
  match (generateDocument layout path store).1.result with
  | .error (.escaping escape) => some escape
  | _ => none

/-- Whether all files of a document are generated. -/
def isGenerated (layout : Layout) (store : Store) (path : FilePath) : Bool :=
  match (generateDocument layout path store).1.result with
  | .ok _ => true
  | .error _ => false

section Each

variable {layout : Layout} (hapart : layout.KeepsApart) {start store : Store}
  (hsame : SameDocuments layout start store) {documents : List FilePath}
  (hdocuments : ∀ path ∈ documents, layout.isDocument path = true)

include hapart hsame hdocuments

/-- A run ends with the first document that ends it, or tells the documents that are generated from
those that are not. -/
theorem generateEach_result (summary : Summary) :
    (generateEach layout summary documents store).1.result =
      match documents.findSome? (escape? layout start) with
      | some escape => .error escape
      | none => .ok { summary with
          generated := summary.generated ++ documents.filter (isGenerated layout start)
          failed := summary.failed ++ documents.filter (!isGenerated layout start ·) } := by
  -- The store changes from one document to the next, what becomes of each is settled by `start`.
  induction documents generalizing store summary with
  | nil => simp [generateEach]
  | cons path rest ih =>
    obtain ⟨hpath, hrest⟩ := List.forall_mem_cons.1 hdocuments
    have hattempt := hsame.attempt_eq hpath
    have hstep := hsame.step hapart path
    simp only [generateEach, hattempt, List.findSome?_cons, List.filter_cons]
    cases hresult : (generateDocument layout path start).1.result with
    | ok output =>
      have hgenerated : isGenerated layout start path = true := by simp [isGenerated, hresult]
      have hescape : escape? layout start path = none := by simp [escape?, hresult]
      simp only [hgenerated, hescape, ih hstep hrest]
      cases rest.findSome? (escape? layout start) <;> simp
    | error failure =>
      have hgenerated : isGenerated layout start path = false := by simp [isGenerated, hresult]
      cases failure with
      | confined failure =>
        have hescape : escape? layout start path = none := by simp [escape?, hresult]
        simp only [hgenerated, hescape, ih hstep hrest]
        cases rest.findSome? (escape? layout start) <;> simp
      | escaping escape =>
        have hescape : escape? layout start path = some escape := by simp [escape?, hresult]
        simp only [hescape]

/-- A run that no document ends generates for all of them. -/
theorem generateEach_store (summary : Summary)
    (hescape : documents.findSome? (escape? layout start) = none) :
    (generateEach layout summary documents store).2 = storeAfter layout documents store := by
  have hresult := generateEach_result hapart hsame hdocuments summary
  rw [hescape] at hresult
  have hlog := findSome?_log_eq_none hresult
  rw [generateEach_eq, map_document_log, map_document_turns hlog]
  rfl

end Each

/-! ## Discovered documents -/

/-- The documents of a store beneath the source directory, in order. -/
def documentsOf (layout : Layout) (store : Store) : List FilePath :=
  (store.filesBeneath layout.sourceDirectory).filter layout.isDocument

theorem mem_documentsOf {layout : Layout} {store : Store} {path : FilePath} :
    path ∈ documentsOf layout store ↔
      path ∈ store.files.keys ∧ layout.sourceDirectory.isAncestorOf path = true ∧
        layout.isDocument path = true := by
  simp only [documentsOf, Store.filesBeneath, List.mem_filter, Sorting.mem_sorted, and_assoc]

theorem discover_of_isDirectory {layout : Layout} {store : Store}
    (h : store.isDirectory layout.sourceDirectory = true) :
    discover layout store = .ok (documentsOf layout store) := by
  simp only [discover, FileSystem.walk, if_pos h]
  rfl

theorem discover_of_not_isDirectory {layout : Layout} {store : Store}
    (h : store.isDirectory layout.sourceDirectory = false) :
    discover layout store = .error (.noDirectory layout.sourceDirectory) := by
  simp only [discover, FileSystem.walk, h, Bool.false_eq_true, if_false]
  rfl

theorem documentsOf_eq_nil {layout : Layout} {store : Store}
    (h : store.isDirectory layout.sourceDirectory = false) : documentsOf layout store = [] := by
  refine List.eq_nil_iff_forall_not_mem.2 fun path hpath => ?_
  obtain ⟨hkey, hbeneath, -⟩ := mem_documentsOf.1 hpath
  obtain ⟨-, hnone⟩ := Bool.or_eq_false_iff.1 h
  exact Bool.eq_false_iff.1 hnone (List.any_eq_true.2 ⟨path, hkey, hbeneath⟩)

theorem isDocument_of_mem_documentsOf (layout : Layout) (store : Store) :
    ∀ path ∈ documentsOf layout store, layout.isDocument path = true :=
  fun _ hpath => (mem_documentsOf.1 hpath).2.2

section All

variable {layout : Layout} (hapart : layout.KeepsApart) (store : Store)

include hapart

/-- A run over the documents of a store ends with the first of them that ends it, or tells those that
are generated from those that are not. -/
theorem generateAll_result :
    (generateAll layout store).1.result =
      match (documentsOf layout store).findSome? (escape? layout store) with
      | some escape => .error escape
      | none => .ok {
          documents := documentsOf layout store
          generated := (documentsOf layout store).filter (isGenerated layout store)
          failed := (documentsOf layout store).filter (!isGenerated layout store ·)
          scanFailed := !store.isDirectory layout.sourceDirectory } := by
  have heach := generateEach_result hapart (.refl layout store)
    (isDocument_of_mem_documentsOf layout store)
  cases hdirectory : store.isDirectory layout.sourceDirectory with
  | false =>
    have hdiscover := discover_of_not_isDirectory hdirectory
    rw [generateAll_of_fault hdiscover, documentsOf_eq_nil hdirectory]
    rfl
  | true =>
    have hdiscover := discover_of_isDirectory hdirectory
    by_cases hne : documentsOf layout store = []
    · rw [hne] at hdiscover ⊢
      rw [generateAll_of_nil hdiscover]
      rfl
    · have hresult := heach { documents := documentsOf layout store }
      rw [generateEach_eq] at hresult
      rw [generateAll_of_ne_nil hdiscover hne]
      exact hresult

theorem summary_eq {summary : Summary} (h : (generateAll layout store).1.result = .ok summary) :
    (documentsOf layout store).findSome? (escape? layout store) = none ∧
      summary = {
        documents := documentsOf layout store
        generated := (documentsOf layout store).filter (isGenerated layout store)
        failed := (documentsOf layout store).filter (!isGenerated layout store ·)
        scanFailed := !store.isDirectory layout.sourceDirectory } := by
  rw [generateAll_result hapart] at h
  cases hescape : (documentsOf layout store).findSome? (escape? layout store) with
  | some escape => simp [hescape] at h
  | none =>
    rw [hescape] at h
    exact ⟨rfl, (Except.ok.inj h).symm⟩

theorem generateAll_store
    (hescape : (documentsOf layout store).findSome? (escape? layout store) = none) :
    (generateAll layout store).2 = storeAfter layout (documentsOf layout store) store := by
  have heach := generateEach_store hapart (.refl layout store)
    (isDocument_of_mem_documentsOf layout store) { documents := documentsOf layout store } hescape
  cases hdirectory : store.isDirectory layout.sourceDirectory with
  | false =>
    have hdiscover := discover_of_not_isDirectory hdirectory
    rw [generateAll_of_fault hdiscover, documentsOf_eq_nil hdirectory]
    rfl
  | true =>
    have hdiscover := discover_of_isDirectory hdirectory
    by_cases hne : documentsOf layout store = []
    · rw [hne] at hdiscover ⊢
      rw [generateAll_of_nil hdiscover]
      rfl
    · rw [generateEach_eq] at heach
      rw [generateAll_of_ne_nil hdiscover hne]
      exact heach

end All

end ApiBindings

import ApiBindings.Proofs.Generation.Documents

/-!
# Running again

A run over a store makes changes that are settled before it begins, and none of them is to a document
(`generateAll_eq_of_same`). So the next run discovers what the first one did, and making the same
changes once more changes nothing: it ends where the first one ended, with the same reports
(`generateAll_twice`).
-/

namespace ApiBindings

/-- The changes that a run makes: those for its documents, up to one that ends it. -/
def runChanges (layout : Layout) (store : Store) : List Change :=
  match discover layout store with
  | .ok documents => changesForAll layout ((log layout documents store).map Entry.document) store
  | .error _ => []

section Apart

variable {layout : Layout} (hapart : layout.KeepsApart)

include hapart

/-! ## Runs over stores with the same documents -/

/-- The log of a run over documents depends on the documents and on the locks only. -/
theorem SameDocuments.log_eq {start store : Store} (h : SameDocuments layout start store)
    {documents : List FilePath} (hdocuments : ∀ path ∈ documents, layout.isDocument path = true) :
    log layout documents store = log layout documents start := by
  -- Both runs change their stores as they go on, so the induction is on what `start` says of both.
  suffices hboth : ∀ {other : Store}, SameDocuments layout start other →
      log layout documents store = log layout documents other from hboth (.refl layout start)
  induction documents generalizing store with
  | nil => exact fun _ => rfl
  | cons path rest ih =>
    intro other hother
    obtain ⟨hpath, hrest⟩ := List.forall_mem_cons.1 hdocuments
    have hentry : (⟨path, store⟩ : Turn Store).entry layout =
        (⟨path, other⟩ : Turn Store).entry layout := by
      simp only [Turn.entry, h.attempt_eq hpath, hother.attempt_eq hpath]
    have hlog := ih (h.step hapart path) hrest (hother.step hapart path)
    simp only [log, turns, hentry]
    cases ((⟨path, other⟩ : Turn Store).entry layout).escape? with
    | some escape => simp only [List.map_cons, List.map_nil, hentry]
    | none =>
      rw [List.map_cons, List.map_cons, hentry]
      exact congrArg _ hlog

/-- A run over a store with the same documents reports and returns the same, and makes the same
changes. -/
theorem generateAll_eq_of_same {start store : Store} (hsame : SameDocuments layout start store)
    (hdiscover : discover layout store = discover layout start) :
    generateAll layout store =
      ((generateAll layout start).1, store.applyAll (runChanges layout start)) := by
  unfold runChanges
  cases hfound : discover layout start with
  | error fault =>
    rw [generateAll_of_fault hfound, generateAll_of_fault (hdiscover.trans hfound)]
    rfl
  | ok documents =>
    by_cases hne : documents = []
    · subst hne
      rw [generateAll_of_nil hfound, generateAll_of_nil (hdiscover.trans hfound)]
      rfl
    · have hdocuments := isDocument_of_discover hfound
      have hlog := hsame.log_eq hapart hdocuments
      have hcome : ∀ path ∈ (log layout documents start).map Entry.document,
          layout.isDocument path = true := by
        rw [map_document_log]
        exact fun path hpath => hdocuments path (map_document_turns_subset documents start hpath)
      rw [generateAll_of_ne_nil hfound hne, generateAll_of_ne_nil (hdiscover.trans hfound) hne, hlog,
        ← storeAfter_eq_applyAll hapart hsame hcome]
      rfl

theorem generateAll_changes (store : Store) :
    (generateAll layout store).2 = store.applyAll (runChanges layout store) :=
  congrArg Prod.snd (generateAll_eq_of_same hapart (.refl layout store) rfl)

/-! ## What the next run finds -/

/-- No change that a run makes is to a document. -/
theorem isDocument_of_mem_runChanges (store : Store) :
    ∀ file ∈ Assoc.keys ((runChanges layout store).filterMap Change.pair?),
      layout.isDocument file = false := by
  intro file hfile
  unfold runChanges at hfile
  cases hfound : discover layout store with
  | error fault => simp [hfound, Assoc.keys] at hfile
  | ok documents =>
    simp only [hfound, filterMap_changesForAll] at hfile
    obtain ⟨text, hpair⟩ := Assoc.exists_mem_of_mem_keys hfile
    obtain ⟨path, -, hwritten⟩ := List.mem_flatMap.1 hpair
    exact hapart.isDocument_eq_false (Assoc.mem_keys_of_mem hwritten)

theorem sameDocuments_applyAll (store : Store) :
    SameDocuments layout store (store.applyAll (runChanges layout store)) := by
  refine ⟨fun {path} hpath => ?_, Store.locks_applyAll store _⟩
  refine (Store.overlay_applyAll store _).get?_eq fun hmem => ?_
  rw [isDocument_of_mem_runChanges hapart store path hmem] at hpath
  cases hpath

theorem documentsOf_applyAll (store : Store) :
    documentsOf layout (store.applyAll (runChanges layout store)) = documentsOf layout store := by
  have horder := FilePath.isOrder_precedes
  simp only [documentsOf, Store.filesBeneath, Sorting.filter_sorted horder, List.filter_filter]
  rw [Store.files_applyAll, Assoc.filter_keys_setAll]
  intro file hfile
  rw [isDocument_of_mem_runChanges hapart store file hfile, Bool.false_and]

theorem discover_applyAll (store : Store) :
    discover layout (store.applyAll (runChanges layout store)) = discover layout store := by
  cases hdirectory : store.isDirectory layout.sourceDirectory with
  | false =>
    have hchanges : runChanges layout store = [] := by
      rw [runChanges, discover_of_not_isDirectory hdirectory]
    rw [hchanges, Store.applyAll_nil]
  | true =>
    rw [discover_of_isDirectory hdirectory,
      discover_of_isDirectory (Store.isDirectory_applyAll _ hdirectory), documentsOf_applyAll hapart]

end Apart

/-- **Running again changes nothing.** Under the usual names a second run ends with the same files and
directories as the first, and reports and returns the same. -/
theorem generateAll_twice (source : FilePath) (store : Store) :
    generateAll (.usual source) (generateAll (.usual source) store).2 =
      generateAll (.usual source) store := by
  have hapart := Layout.keepsApart_usual source
  have hchanges := generateAll_changes hapart store
  rw [hchanges, generateAll_eq_of_same hapart (sameDocuments_applyAll hapart store)
    (discover_applyAll hapart store), Store.applyAll_applyAll_self, ← hchanges]

end ApiBindings

import ApiBindings.Generation.Run

/-!
# The log of a run

A run comes to its documents one after another, and each of them finds the files that those before it
have left. All that the run reports and returns is read off its log, which holds for every document in
its turn what generating for it came to (`generateEach_eq`). This is so on every file system and under
every layout.
-/

namespace ApiBindings

/-! ## Logs -/

/-- What generating for a document in its turn came to. -/
structure Entry where
  document : FilePath
  attempt : Attempt

namespace Entry

/-- What the document ends the run with, if it does. -/
def escape? (entry : Entry) : Option Escape :=
  match entry.attempt.result with
  | .error (.escaping escape) => some escape
  | _ => none

/-- Whether all files of the document were generated. -/
def succeeds (entry : Entry) : Bool :=
  match entry.attempt.result with
  | .ok _ => true
  | .error _ => false

/-- What the run reports on the document: what generating for it reports, and after that its failure if
the run goes on. -/
def reports (entry : Entry) : List Report :=
  entry.attempt.reports ++
    match entry.attempt.result with
    | .error (.confined failure) => [.failed entry.document failure]
    | _ => []

end Entry

namespace Run

/-- The run with a log, where a summary tells what became of the documents before. -/
def ofLog (summary : Summary) (log : List Entry) : Run :=
  match log.findSome? Entry.escape? with
  | some escape => ⟨log.flatMap Entry.reports, .error escape⟩
  | none =>
    ⟨log.flatMap Entry.reports ++ [.finished], .ok { summary with
      generated := summary.generated ++ (log.filter Entry.succeeds).map Entry.document
      failed := summary.failed ++ (log.filter (!Entry.succeeds ·)).map Entry.document }⟩

def after (reports : List Report) (run : Run) : Run :=
  { run with reports := reports ++ run.reports }

variable {summary : Summary} {entry : Entry} {log : List Entry}

theorem ofLog_cons_of_ok {output : Output} (h : entry.attempt.result = .ok output) :
    ofLog summary (entry :: log) = after entry.reports
      (ofLog { summary with generated := summary.generated ++ [entry.document] } log) := by
  have hescape : entry.escape? = none := by simp [Entry.escape?, h]
  have hsucceeds : entry.succeeds = true := by simp [Entry.succeeds, h]
  simp only [ofLog, List.findSome?_cons, hescape]
  cases log.findSome? Entry.escape? <;> simp [after, hsucceeds]

theorem ofLog_cons_of_confined {failure : DocumentFailure}
    (h : entry.attempt.result = .error (.confined failure)) :
    ofLog summary (entry :: log) = after entry.reports
      (ofLog { summary with failed := summary.failed ++ [entry.document] } log) := by
  have hescape : entry.escape? = none := by simp [Entry.escape?, h]
  have hsucceeds : entry.succeeds = false := by simp [Entry.succeeds, h]
  simp only [ofLog, List.findSome?_cons, hescape]
  cases log.findSome? Entry.escape? <;> simp [after, hsucceeds]

theorem ofLog_singleton_of_escaping {escape : Escape}
    (h : entry.attempt.result = .error (.escaping escape)) :
    ofLog summary [entry] = ⟨entry.reports, .error escape⟩ := by
  have hescape : entry.escape? = some escape := by simp [Entry.escape?, h]
  simp [ofLog, hescape]

end Run

/-! ## Turns -/

/-- A document in its turn, with the files that it finds. -/
structure Turn (σ : Type) where
  document : FilePath
  files : σ

section Turns

variable {σ : Type} [FileSystem σ] (layout : Layout)

namespace Turn

/-- What the log of a run holds for a turn. -/
def entry (turn : Turn σ) : Entry :=
  ⟨turn.document, (generateDocument layout turn.document turn.files).1⟩

def left (turn : Turn σ) : σ :=
  (generateDocument layout turn.document turn.files).2

end Turn

/-- The turns of documents in a run, up to one that ends it. -/
def turns : List FilePath → σ → List (Turn σ)
  | [], _ => []
  | path :: rest, files =>
    let turn : Turn σ := ⟨path, files⟩
    match (turn.entry layout).escape? with
    | some _ => [turn]
    | none => turn :: turns rest (turn.left layout)

/-- The log of a run over documents. -/
def log (documents : List FilePath) (files : σ) : List Entry :=
  (turns layout documents files).map (Turn.entry layout)

/-- The files after generating for documents, one after another. -/
def filesAfter (documents : List FilePath) (files : σ) : σ :=
  documents.foldl (fun files path => (generateDocument layout path files).2) files

/-- **A run is its log.** It reports and returns what its log says, and leaves the files that the
documents of its log have left. -/
theorem generateEach_eq (summary : Summary) (documents : List FilePath) (files : σ) :
    generateEach layout summary documents files =
      (.ofLog summary (log layout documents files),
        filesAfter layout ((log layout documents files).map Entry.document) files) := by
  -- Summary and files are those that the documents before have left.
  induction documents generalizing summary files with
  | nil => simp [generateEach, log, turns, filesAfter, Run.ofLog]
  | cons path rest ih =>
    obtain ⟨attempt, left, hattempt⟩ : ∃ attempt left,
        generateDocument layout path files = (attempt, left) := ⟨_, _, rfl⟩
    have hentry : (⟨path, files⟩ : Turn σ).entry layout = ⟨path, attempt⟩ := by
      simp [Turn.entry, hattempt]
    have hleft : (⟨path, files⟩ : Turn σ).left layout = left := by simp [Turn.left, hattempt]
    cases hresult : attempt.result with
    | ok output =>
      have hlog : log layout (path :: rest) files = ⟨path, attempt⟩ :: log layout rest left := by
        simp [log, turns, hentry, hleft, Entry.escape?, hresult]
      rw [hlog, Run.ofLog_cons_of_ok hresult]
      simp [generateEach, hattempt, hresult, ih, filesAfter, Run.after, Entry.reports]
    | error failure =>
      cases failure with
      | confined failure =>
        have hlog : log layout (path :: rest) files = ⟨path, attempt⟩ :: log layout rest left := by
          simp [log, turns, hentry, hleft, Entry.escape?, hresult]
        rw [hlog, Run.ofLog_cons_of_confined hresult]
        simp [generateEach, hattempt, hresult, ih, filesAfter, Run.after, Entry.reports]
      | escaping escape =>
        have hlog : log layout (path :: rest) files = [⟨path, attempt⟩] := by
          simp [log, turns, hentry, Entry.escape?, hresult]
        rw [hlog, Run.ofLog_singleton_of_escaping hresult]
        simp [generateEach, hattempt, hresult, filesAfter, Entry.reports]

variable {layout}

theorem findSome?_log_eq_none {summary final : Summary} {documents : List FilePath} {files : σ}
    (h : (generateEach layout summary documents files).1.result = .ok final) :
    (log layout documents files).findSome? Entry.escape? = none := by
  rw [generateEach_eq, Run.ofLog] at h
  cases hescape : (log layout documents files).findSome? Entry.escape? with
  | none => rfl
  | some escape => simp [hescape] at h

/-- A run that no document ends comes to all of them. -/
theorem map_document_turns {documents : List FilePath} {files : σ}
    (h : (log layout documents files).findSome? Entry.escape? = none) :
    (turns layout documents files).map Turn.document = documents := by
  induction documents generalizing files with
  | nil => rfl
  | cons path rest ih =>
    rw [log, turns] at h
    rw [turns]
    cases hescape : ((⟨path, files⟩ : Turn σ).entry layout).escape? with
    | some escape => simp [hescape] at h
    | none =>
      simp only [hescape, List.map_cons, List.findSome?_cons] at h
      simp only [List.map_cons, ih h]

theorem map_document_log (documents : List FilePath) (files : σ) :
    (log layout documents files).map Entry.document =
      (turns layout documents files).map Turn.document := by
  rw [log, List.map_map]
  rfl

theorem map_document_turns_subset (documents : List FilePath) (files : σ) :
    (turns layout documents files).map Turn.document ⊆ documents := by
  induction documents generalizing files with
  | nil => exact List.Subset.refl _
  | cons path rest ih =>
    rw [turns]
    cases ((⟨path, files⟩ : Turn σ).entry layout).escape? with
    | some escape => simp
    | none =>
      rw [List.map_cons]
      exact List.cons_subset_cons path (ih _)

end Turns

/-! ## Runs over what is discovered -/

section Discover

variable {σ : Type} [FileSystem σ] {layout : Layout} {files : σ}

theorem isDocument_of_discover {documents : List FilePath}
    (h : discover layout files = .ok documents) :
    ∀ path ∈ documents, layout.isDocument path = true := by
  unfold discover at h
  cases hwalk : FileSystem.walk files layout.sourceDirectory with
  | error fault =>
    rw [hwalk] at h
    cases h
  | ok found =>
    rw [hwalk] at h
    cases h
    exact fun path hpath => (List.mem_filter.1 hpath).2

theorem generateAll_of_fault {fault : FileFault} (h : discover layout files = .error fault) :
    generateAll layout files =
      (match Escape.ofFault? fault with
        | some escape => ⟨[], .error escape⟩
        | none => ⟨[.cannotScan layout.sourceDirectory fault], .ok { scanFailed := true }⟩,
      files) := by
  unfold generateAll
  rw [h]
  cases hescape : Escape.ofFault? fault with
  | none => simp only [hescape]
  | some escape => simp only [hescape]

theorem generateAll_of_nil (h : discover layout files = .ok []) :
    generateAll layout files = (⟨[.nothingFound layout.sourceDirectory], .ok {}⟩, files) := by
  unfold generateAll
  rw [h]

theorem generateAll_of_ne_nil {documents : List FilePath} (h : discover layout files = .ok documents)
    (hne : documents ≠ []) :
    generateAll layout files =
      (.after [.found documents.length layout.sourceDirectory]
        (.ofLog { documents } (log layout documents files)),
      filesAfter layout ((log layout documents files).map Entry.document) files) := by
  cases documents with
  | nil => exact absurd rfl hne
  | cons path rest =>
    unfold generateAll
    rw [h]
    simp only [generateEach_eq]
    rfl

/-- A run with a summary could not look for documents, found none, or came to all that it found. -/
theorem generateAll_cases {summary : Summary} (h : (generateAll layout files).1.result = .ok summary) :
    (∃ fault, discover layout files = .error fault ∧ summary = { scanFailed := true } ∧
      (generateAll layout files).1.reports = [.cannotScan layout.sourceDirectory fault]) ∨
    (discover layout files = .ok [] ∧ summary = {} ∧
      (generateAll layout files).1.reports = [.nothingFound layout.sourceDirectory]) ∨
    (∃ documents, discover layout files = .ok documents ∧ documents ≠ [] ∧
      (log layout documents files).findSome? Entry.escape? = none ∧
      summary = {
        documents
        generated := ((log layout documents files).filter Entry.succeeds).map Entry.document
        failed := ((log layout documents files).filter (!Entry.succeeds ·)).map Entry.document } ∧
      (generateAll layout files).1.reports =
        .found documents.length layout.sourceDirectory ::
          (log layout documents files).flatMap Entry.reports ++ [.finished]) := by
  cases hfound : discover layout files with
  | error fault =>
    rw [generateAll_of_fault hfound] at h ⊢
    cases hescape : Escape.ofFault? fault with
    | some escape => simp [hescape] at h
    | none =>
      simp only [hescape, Except.ok.injEq] at h
      exact .inl ⟨fault, rfl, h.symm, rfl⟩
  | ok documents =>
    by_cases hne : documents = []
    · subst hne
      rw [generateAll_of_nil hfound] at h ⊢
      cases h
      exact .inr (.inl ⟨rfl, rfl, rfl⟩)
    · rw [generateAll_of_ne_nil hfound hne] at h ⊢
      refine .inr (.inr ⟨documents, rfl, hne, ?_⟩)
      rw [Run.after, Run.ofLog] at h ⊢
      cases hescape : (log layout documents files).findSome? Entry.escape? with
      | some escape => simp [hescape] at h
      | none =>
        simp only [hescape, List.nil_append, Except.ok.injEq] at h
        exact ⟨rfl, h.symm, rfl⟩

end Discover

end ApiBindings

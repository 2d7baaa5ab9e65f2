import ApiBindings.Proofs.FileSystem.Recorded
import ApiBindings.Proofs.Generation.Documents

/-!
# Documents do not influence each other

What a run does for a document in its turn, on whatever files the documents before it have left, is what
the start of the run settles for it. So two runs over stores with the same locks report and write the
same for a document with the same text, whatever else the stores hold (`generateAll_independent`).
-/

namespace ApiBindings

/-! ## What is written in a turn -/

/-- The files that are written in a turn, in order and with their texts. -/
def Turn.writes {σ : Type} [FileSystem σ] (layout : Layout) (turn : Turn σ) : Output :=
  (generateDocument layout turn.document (⟨turn.files, []⟩ : Recorded σ)).2.record

theorem Recorded.read_plan (layout : Layout) (path : FilePath) (store : Store) (record : Output) :
    Plan.read layout path (⟨store, record⟩ : Recorded Store) = Plan.read layout path store :=
  rfl

/-- Recording what is written does not change what is generated. -/
theorem Recorded.generateDocument_eq (layout : Layout) (path : FilePath) (store : Store)
    (record : Output) :
    generateDocument layout path (⟨store, record⟩ : Recorded Store) =
      ((generateDocument layout path store).1,
        ⟨(generateDocument layout path store).2, record ++ written layout path store⟩) := by
  unfold generateDocument written
  rw [Recorded.read_plan]
  cases Plan.read layout path store with
  | error refusal => simp only [List.append_nil]
  | ok plan =>
    have hrun := Recorded.performAll_run plan.changes store record
    rw [plan.filterMap_allowed] at hrun
    simp only [Plan.write_eq_performAll, hrun]
    cases (Change.performAll plan.changes : EStateM FileFault Store Unit).run store <;> rfl

theorem Turn.writes_eq (layout : Layout) (turn : Turn Store) :
    turn.writes layout = written layout turn.document turn.files := by
  rw [Turn.writes, Recorded.generateDocument_eq, List.nil_append]

/-- A recorded run is the run, and its record is what its turns write. -/
theorem Recorded.generateEach_eq (layout : Layout) (summary : Summary) (documents : List FilePath)
    (store : Store) (record : Output) :
    generateEach layout summary documents (⟨store, record⟩ : Recorded Store) =
      ((generateEach layout summary documents store).1,
        ⟨(generateEach layout summary documents store).2,
          record ++ (turns layout documents store).flatMap (Turn.writes layout)⟩) := by
  -- The record grows with the store, so both are general in the induction.
  induction documents generalizing summary store record with
  | nil => simp [generateEach, turns]
  | cons path rest ih =>
    have hdocument := Recorded.generateDocument_eq layout path store record
    have hwrites := (⟨path, store⟩ : Turn Store).writes_eq layout
    rw [← hwrites] at hdocument
    simp only [generateEach, hdocument, turns, Entry.escape?, Turn.entry, Turn.left]
    cases hresult : (generateDocument layout path store).1.result with
    | ok output => simp only [ih, List.flatMap_cons, List.append_assoc]
    | error failure =>
      cases failure with
      | confined failure => simp only [ih, List.flatMap_cons, List.append_assoc]
      | escaping escape => simp only [List.flatMap_cons, List.flatMap_nil, List.append_nil]

theorem Recorded.generateAll_eq (layout : Layout) (store : Store) (record : Output) :
    generateAll layout (⟨store, record⟩ : Recorded Store) =
      ((generateAll layout store).1,
        ⟨(generateAll layout store).2, record ++
          match discover layout store with
          | .ok documents => (turns layout documents store).flatMap (Turn.writes layout)
          | .error _ => []⟩) := by
  have hsame : discover layout (⟨store, record⟩ : Recorded Store) = discover layout store := rfl
  cases hfound : discover layout store with
  | error fault =>
    rw [generateAll_of_fault hfound, generateAll_of_fault (hsame.trans hfound), List.append_nil]
  | ok documents =>
    cases documents with
    | nil =>
      rw [generateAll_of_nil hfound, generateAll_of_nil (hsame.trans hfound)]
      simp [turns]
    | cons path rest =>
      unfold generateAll
      simp only [hsame, hfound, Recorded.generateEach_eq]

/-! ## Turns of a run -/

theorem exists_turn {σ : Type} [FileSystem σ] {layout : Layout} {documents : List FilePath} {files : σ}
    (h : (log layout documents files).findSome? Entry.escape? = none) {document : FilePath}
    (hmem : document ∈ documents) :
    ∃ turn ∈ turns layout documents files, turn.document = document := by
  rw [← map_document_turns h] at hmem
  exact List.mem_map.1 hmem

section Apart

variable {layout : Layout} (hapart : layout.KeepsApart) {start : Store}

include hapart

/-- Every document of a run finds the documents as they were at the start. -/
theorem SameDocuments.of_mem_turns {store : Store} (h : SameDocuments layout start store)
    {documents : List FilePath} {turn : Turn Store} (hturn : turn ∈ turns layout documents store) :
    SameDocuments layout start turn.files := by
  induction documents generalizing store with
  | nil => cases hturn
  | cons path rest ih =>
    rw [turns] at hturn
    cases hescape : ((⟨path, store⟩ : Turn Store).entry layout).escape? with
    | some escape =>
      simp only [hescape, List.mem_singleton] at hturn
      subst hturn
      exact h
    | none =>
      simp only [hescape, List.mem_cons] at hturn
      rcases hturn with rfl | hturn
      · exact h
      · exact ih (h.step hapart path) hturn

theorem turn_eq {documents : List FilePath} {turn : Turn Store}
    (hturn : turn ∈ turns layout documents start) (hdocument : layout.isDocument turn.document = true) :
    turn.entry layout = (⟨turn.document, start⟩ : Turn Store).entry layout ∧
      turn.writes layout = written layout turn.document start := by
  have hsame := (SameDocuments.refl layout start).of_mem_turns hapart hturn
  constructor
  · simp only [Turn.entry, hsame.attempt_eq hdocument]
  · rw [Turn.writes_eq, hsame.written_eq hdocument]

end Apart

/-! ## Two runs -/

/-- How a run that returned a summary treats a document. -/
structure Treats (layout : Layout) (store : Store) (summary : Summary) (document : FilePath)
    (reports : List Report) (writes : Output) : Prop where
  /-- All reports of the run but the first and the last come from its turns. -/
  reports_run : (generateAll layout store).1.reports =
    .found summary.documents.length layout.sourceDirectory ::
      (turns layout summary.documents store).flatMap (fun turn => (turn.entry layout).reports) ++
        [.finished]
  /-- All that the run writes is written in its turns. -/
  writes_run : (generateAll layout (⟨store, []⟩ : Recorded Store)).2.record =
    (turns layout summary.documents store).flatMap (Turn.writes layout)
  /-- The run comes to the document. -/
  comes : ∃ turn ∈ turns layout summary.documents store, turn.document = document
  /-- Then it reports and writes this. -/
  does : ∀ turn ∈ turns layout summary.documents store, turn.document = document →
    (turn.entry layout).reports = reports ∧ turn.writes layout = writes

theorem treats_of_mem {layout : Layout} (hapart : layout.KeepsApart) {store : Store}
    {summary : Summary} (h : (generateAll layout store).1.result = .ok summary) {document : FilePath}
    (hmem : document ∈ summary.documents) :
    Treats layout store summary document ((⟨document, store⟩ : Turn Store).entry layout).reports
      (written layout document store) := by
  rcases generateAll_cases h with
    ⟨fault, -, rfl, -⟩ | ⟨-, rfl, -⟩ | ⟨documents, hfound, hne, hescape, rfl, hreports⟩
  · cases hmem
  · cases hmem
  · have hdocument := isDocument_of_discover hfound document hmem
    refine ⟨?_, ?_, exists_turn hescape hmem, ?_⟩
    · rw [hreports, log, List.flatMap_map]
    · simp only [Recorded.generateAll_eq, hfound, List.nil_append]
    · rintro turn hturn rfl
      obtain ⟨hentry, hwrites⟩ := turn_eq hapart hturn hdocument
      exact ⟨by rw [hentry], hwrites⟩

section Independence

variable {layout : Layout} {store other : Store} {document : FilePath}
  (hget : other.files.get? document = store.files.get? document)
  (hlocked : other.isLocked = store.isLocked)

include hget hlocked

theorem entry_congr :
    (⟨document, other⟩ : Turn Store).entry layout = (⟨document, store⟩ : Turn Store).entry layout := by
  simp only [Turn.entry, generateDocument_congr hget hlocked]

theorem isGenerated_congr : isGenerated layout other document = isGenerated layout store document := by
  simp only [isGenerated, generateDocument_congr hget hlocked]

end Independence

/-- **Documents are independent.** Two runs over stores with the same locks treat a document with the
same text alike: it is generated in both or in none, and both report and write the same for it, whatever
other files there are. -/
theorem generateAll_independent {source document : FilePath} {store other : Store}
    (hlocks : ∀ lock, lock ∈ other.locks ↔ lock ∈ store.locks)
    (htext : other.files.get? document = store.files.get? document)
    {summary summary' : Summary}
    (hstore : (generateAll (.usual source) store).1.result = .ok summary)
    (hother : (generateAll (.usual source) other).1.result = .ok summary')
    (hmem : document ∈ summary.documents) (hmem' : document ∈ summary'.documents) :
    (document ∈ summary.generated ↔ document ∈ summary'.generated) ∧
    ∃ reports writes, Treats (.usual source) store summary document reports writes ∧
      Treats (.usual source) other summary' document reports writes := by
  have hapart := Layout.keepsApart_usual source
  have hlocked := Store.isLocked_congr hlocks
  constructor
  · obtain ⟨-, hsummary⟩ := summary_eq hapart store hstore
    obtain ⟨-, hsummary'⟩ := summary_eq hapart other hother
    rw [hsummary] at hmem
    rw [hsummary'] at hmem'
    rw [hsummary, hsummary', List.mem_filter, List.mem_filter, isGenerated_congr htext hlocked]
    exact and_congr_left fun _ => iff_of_true hmem hmem'
  · have htreats := treats_of_mem hapart hstore hmem
    have htreats' := treats_of_mem hapart hother hmem'
    rw [entry_congr htext hlocked, written_congr htext hlocked] at htreats'
    exact ⟨_, _, htreats, htreats'⟩

/-- An empty API description, after a document that is none. -/
def Store.withBrokenNeighbour : Store where
  files := [(.ofString "/specs/a.yaml", "- 1"), (.ofString "/specs/b.yaml", "\x7b\x7d")]
  locks := [.ofString "/specs/c/generated"]

/-- The same one with a document in a directory that is locked. -/
def Store.withLockedNeighbour : Store where
  files := [(.ofString "/specs/b.yaml", "\x7b\x7d"), (.ofString "/specs/c/d.yaml", "\x7b\x7d")]
  locks := [.ofString "/specs/c/generated"]

/-- Neither a neighbour that is broken nor one that cannot be written is noticed. -/
theorem neighbours_not_noticed :
    let source : FilePath := .ofString "/specs"
    let document : FilePath := .ofString "/specs/b.yaml"
    let summary : Summary := {
      documents := [.ofString "/specs/a.yaml", document]
      generated := [document]
      failed := [.ofString "/specs/a.yaml"] }
    let summary' : Summary := {
      documents := [document, .ofString "/specs/c/d.yaml"]
      generated := [document]
      failed := [.ofString "/specs/c/d.yaml"] }
    (document ∈ summary.generated ↔ document ∈ summary'.generated) ∧
    ∃ reports writes,
      Treats (.usual source) Store.withBrokenNeighbour summary document reports writes ∧
        Treats (.usual source) Store.withLockedNeighbour summary' document reports writes := by
  intro source document summary summary'
  have hstore : (generateAll (.usual source) Store.withBrokenNeighbour).1.result = .ok summary := by
    decide +kernel
  have hother : (generateAll (.usual source) Store.withLockedNeighbour).1.result = .ok summary' := by
    decide +kernel
  have htext : Store.withLockedNeighbour.files.get? document =
      Store.withBrokenNeighbour.files.get? document := by decide +kernel
  have hmem : document ∈ summary.documents := by simp [summary]
  have hmem' : document ∈ summary'.documents := by simp [summary']
  have hlocks : ∀ lock, lock ∈ Store.withLockedNeighbour.locks ↔
      lock ∈ Store.withBrokenNeighbour.locks := fun _ => Iff.rfl
  exact generateAll_independent hlocks htext hstore hother hmem hmem'

end ApiBindings

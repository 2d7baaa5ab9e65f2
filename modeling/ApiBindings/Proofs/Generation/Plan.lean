import ApiBindings.Generation.Run

/-!
# What is planned for a document

All that a plan can be and every reason why there is none, on any file system.
-/

namespace ApiBindings.Plan

variable {σ : Type} [FileSystem σ] {layout : Layout} {path : FilePath} {files : σ}

/-- A plan is that of an API description that can be written out. -/
theorem exists_of_read {plan : Plan} (h : Plan.read layout path files = .ok plan) :
    ∃ text document, FileSystem.readText files path = .ok text ∧
      Document.ofText text = .ok document ∧ document.isWritable = true ∧
      plan.warnings = document.issues.map (.degraded path) ++
        (Client.ofDocument document path).renames.map (.renamed path) ∧
      plan.directory = layout.outputDirectory path ∧
      plan.output = .generate layout path (Output.modelsOf document) (.ofDocument document path) ∧
      plan.notes = [.modelsGenerated path (Output.modelsOf document).length,
        .clientGenerated path (Client.ofDocument document path).className] := by
  unfold Plan.read at h
  cases hread : FileSystem.readText files path with
  | error fault => simp [hread] at h
  | ok text =>
    simp only [hread, Plan.ofText] at h
    cases hdocument : Document.ofText text with
    | error failure => simp [hdocument] at h
    | ok document =>
      simp only [hdocument, Plan.ofDocument] at h
      by_cases hwritable : document.isWritable = true
      · rw [if_pos hwritable, Except.ok.injEq] at h
        subst h
        exact ⟨text, document, rfl, hdocument, hwritable, rfl, rfl, rfl, rfl⟩
      · simp [hwritable] at h

/-- A document is refused because it cannot be read, is no API description, or cannot be written out. -/
theorem cases_of_refusal {refusal : Refusal} (h : Plan.read layout path files = .error refusal) :
    (∃ fault, FileSystem.readText files path = .error fault ∧
      refusal = { failure := .ofRead fault }) ∨
    (∃ text failure, FileSystem.readText files path = .ok text ∧
      Document.ofText text = .error failure ∧ refusal = { failure := .ofText failure }) ∨
    (∃ text document, FileSystem.readText files path = .ok text ∧
      Document.ofText text = .ok document ∧ document.isWritable = false ∧
      refusal.failure = .escaping (.exceeds .digits)) := by
  unfold Plan.read at h
  cases hread : FileSystem.readText files path with
  | error fault =>
    simp only [hread, Except.error.injEq] at h
    exact .inl ⟨fault, rfl, h.symm⟩
  | ok text =>
    simp only [hread, Plan.ofText] at h
    cases hdocument : Document.ofText text with
    | error failure =>
      simp only [hdocument, Except.error.injEq] at h
      exact .inr (.inl ⟨text, failure, rfl, hdocument, h.symm⟩)
    | ok document =>
      simp only [hdocument, Plan.ofDocument] at h
      by_cases hwritable : document.isWritable = true
      · simp [hwritable] at h
      · rw [if_neg hwritable, Except.error.injEq] at h
        refine .inr (.inr ⟨text, document, rfl, hdocument, Bool.eq_false_iff.2 hwritable, ?_⟩)
        rw [← h]

end ApiBindings.Plan

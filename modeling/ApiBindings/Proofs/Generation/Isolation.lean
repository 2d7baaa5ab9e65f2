import ApiBindings.Proofs.Generation.Documents

/-!
# Which documents end a run

A document costs only itself when its text is read, or refused as no API description. A text with a
scalar that denotes nothing, or with too much of something, ends the whole run instead, and that is the
only way for a run over a store to end without a summary (`generateAll_summarizes_iff`).
-/

namespace ApiBindings

/-! ## Documents that end a run -/

/-- What a document with the text ends a run with, if it does. -/
def escapeOfText? (text : String) : Option Escape :=
  match Document.ofText text with
  | .ok document => if document.isWritable then none else some (.exceeds .digits)
  | .error (.unreadable _) => none
  | .error (.meaningless fault) => some (.meaningless fault)
  | .error (.exceeds limit) => some (.exceeds limit)

theorem escape?_of_plan {layout : Layout} {path : FilePath} {store : Store} {plan : Plan}
    (h : Plan.read layout path store = .ok plan) : escape? layout store path = none := by
  unfold escape?
  rw [generateDocument_of_plan h]
  cases plan.touched.find? store.isLocked <;> rfl

theorem escape?_of_refusal {layout : Layout} {path : FilePath} {store : Store} {refusal : Refusal}
    (h : Plan.read layout path store = .error refusal) :
    escape? layout store path =
      match refusal.failure with
      | .escaping escape => some escape
      | .confined _ => none := by
  unfold escape?
  rw [generateDocument_of_refusal h]
  cases refusal.failure <;> rfl

/-- Whether a document ends a run depends on its text alone. -/
theorem escape?_eq (layout : Layout) {path : FilePath} {store : Store} {text : String}
    (hget : store.files.get? path = some text) :
    escape? layout store path = escapeOfText? text := by
  have hread : Plan.read layout path store = Plan.ofText layout path text := by
    simp only [Plan.read, FileSystem.readText, hget]
  unfold Plan.ofText at hread
  unfold escapeOfText?
  cases hdocument : Document.ofText text with
  | error failure =>
    rw [hdocument] at hread
    rw [escape?_of_refusal hread]
    cases failure <;> rfl
  | ok document =>
    simp only [hdocument, Plan.ofDocument] at hread
    by_cases hwritable : document.isWritable = true
    · rw [if_pos hwritable] at hread
      simp only [escape?_of_plan hread, hwritable, if_true]
    · rw [if_neg hwritable] at hread
      simp only [escape?_of_refusal hread, hwritable, Bool.false_eq_true, if_false]

/-! ## Runs with a summary -/

theorem findSome?_escape?_eq_none_iff {layout : Layout} {store : Store} :
    (documentsOf layout store).findSome? (escape? layout store) = none ↔
      ∀ path ∈ documentsOf layout store, ∀ text, store.files.get? path = some text →
        escapeOfText? text = none := by
  rw [List.findSome?_eq_none_iff]
  constructor
  · intro h path hpath text hget
    rw [← escape?_eq layout hget]
    exact h path hpath
  · intro h path hpath
    cases hget : store.files.get? path with
    | none => exact absurd (mem_documentsOf.1 hpath).1 (Assoc.get?_eq_none_iff.1 hget)
    | some text =>
      rw [escape?_eq layout hget]
      exact h path hpath text hget

/-- **Isolation.** Under the usual names a run ends with a summary that tells of every document what
became of it exactly if no document has a text that ends runs. -/
theorem generateAll_summarizes_iff (source : FilePath) (store : Store) :
    (∃ summary, (generateAll (.usual source) store).1.result = .ok summary ∧
      summary.documents = documentsOf (.usual source) store ∧
      ∀ path ∈ summary.documents, path ∈ summary.generated ∨ path ∈ summary.failed) ↔
    ∀ path ∈ documentsOf (.usual source) store, ∀ text, store.files.get? path = some text →
      escapeOfText? text = none := by
  have hapart := Layout.keepsApart_usual source
  rw [← findSome?_escape?_eq_none_iff]
  constructor
  · rintro ⟨summary, hsummary, -⟩
    exact (summary_eq hapart store hsummary).1
  · intro hescape
    have hresult := generateAll_result hapart store
    rw [hescape] at hresult
    refine ⟨_, hresult, rfl, fun path hpath => ?_⟩
    cases hgenerated : isGenerated (.usual source) store path with
    | true => exact .inl (List.mem_filter.2 ⟨hpath, hgenerated⟩)
    | false => exact .inr (List.mem_filter.2 ⟨hpath, by simp [hgenerated]⟩)

/-- A document with a date that does not exist, followed by one without a fault. -/
def Store.withImpossibleDate : Store where
  files := [(.ofString "/specs/a.yaml", "2020-13-45"), (.ofString "/specs/b.yaml", "\x7b\x7d")]

/-- The date ends the run before the document after it, which could be generated, gets a file. -/
theorem impossible_date_ends_run :
    let layout : Layout := .usual (.ofString "/specs")
    let store : Store := .withImpossibleDate
    (generateAll layout store).1.result = .error (.meaningless .noSuchMoment) ∧
      (generateAll layout store).2 = store ∧
      isGenerated layout store (.ofString "/specs/b.yaml") = true := by
  decide +kernel

end ApiBindings

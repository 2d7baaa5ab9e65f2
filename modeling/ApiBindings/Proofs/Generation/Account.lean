import ApiBindings.CommandLine
import ApiBindings.Proofs.FileSystem.Listing
import ApiBindings.Proofs.Generation.Log
import ApiBindings.Proofs.Generation.Plan

/-!
# What a run tells

The reports on a document are a block: what there is to warn of, closed by two infos or by one error
that names the document (`Turn.block`). The reports of a run are the blocks of its documents in order,
and its summary splits the documents by how their blocks close (`generateAll_accounts`). So a run is
without failure exactly if it reports no error, on every file system and under every layout.
-/

namespace ApiBindings

/-! ## The reports on one document -/

section Block

variable {σ : Type} [FileSystem σ]

/-- What there is to warn of in a document: its issues, then its methods that get other names. Of a text
that is no API description, or cannot be read, there is nothing to say. -/
def warningsFor (path : FilePath) (files : σ) : List Report :=
  match FileSystem.readText files path with
  | .error _ => []
  | .ok text =>
    match Document.ofText text with
    | .error _ => []
    | .ok document =>
      document.issues.map (.degraded path) ++
        (Client.ofDocument document path).renames.map (.renamed path)

/-- How the reports on a document close: with two infos if its files are generated, and if not with one
error that begins with its path. -/
def Closes (path : FilePath) (closing : List Report) (generated : Bool) : Prop :=
  if generated then closing.map Report.level = [.info, .info]
  else ∃ report, closing = [report] ∧ report.level = .error ∧
    path.toString.toList <+: report.message.toList

/-- The reports on a document are warnings and what closes them. -/
def Block (path : FilePath) (warnings reports : List Report) (generated : Bool) : Prop :=
  ∃ closing, reports = warnings ++ closing ∧ (∀ report ∈ warnings, report.level = .warning) ∧
    Closes path closing generated

theorem level_of_mem_warningsFor {path : FilePath} {files : σ} {report : Report}
    (h : report ∈ warningsFor path files) : report.level = .warning := by
  unfold warningsFor at h
  cases hread : FileSystem.readText files path with
  | error fault => simp [hread] at h
  | ok text =>
    cases hdocument : Document.ofText text with
    | error failure => simp [hread, hdocument] at h
    | ok document =>
      simp only [hread, hdocument, List.mem_append, List.mem_map] at h
      rcases h with ⟨issue, -, rfl⟩ | ⟨rename, -, rfl⟩ <;> rfl

theorem warningsFor_of_text {path : FilePath} {files : σ} {text : String}
    (h : FileSystem.readText files path = .ok text) :
    warningsFor path files =
      match Document.ofText text with
      | .error _ => []
      | .ok document =>
        document.issues.map (.degraded path) ++
          (Client.ofDocument document path).renames.map (.renamed path) := by
  rw [warningsFor, h]

theorem closes_failed (path : FilePath) (failure : DocumentFailure) :
    Closes path [.failed path failure] false := by
  have hmessage : path.toString.toList <+: (failure.message path).toList := by
    unfold DocumentFailure.message
    rw [String.toList_append, String.toList_append, List.append_assoc]
    exact List.prefix_append _ _
  exact ⟨.failed path failure, rfl, rfl, hmessage⟩

theorem Plan.reports_of_read {layout : Layout} {path : FilePath} {files : σ} {plan : Plan}
    (h : Plan.read layout path files = .ok plan) :
    plan.warnings = warningsFor path files ∧ Closes path plan.notes true := by
  obtain ⟨text, document, hread, hdocument, -, hwarnings, -, -, hnotes⟩ := Plan.exists_of_read h
  constructor
  · rw [warningsFor_of_text hread, hdocument, hwarnings]
  · rw [hnotes]
    rfl

/-- If a document is refused and the run goes on, then there was nothing to warn of. -/
theorem Plan.warnings_of_refusal {layout : Layout} {path : FilePath} {files : σ} {refusal : Refusal}
    {failure : DocumentFailure} (h : Plan.read layout path files = .error refusal)
    (hfailure : refusal.failure = .confined failure) :
    refusal.warnings = [] ∧ warningsFor path files = [] := by
  rcases Plan.cases_of_refusal h with
    ⟨fault, hread, rfl⟩ | ⟨text, failure, hread, hdocument, rfl⟩ | ⟨-, -, -, -, -, hescaping⟩
  · exact ⟨rfl, by rw [warningsFor, hread]⟩
  · exact ⟨rfl, by rw [warningsFor_of_text hread, hdocument]⟩
  · -- A description that cannot be written out ends the run.
    rw [hescaping] at hfailure
    cases hfailure

/-- **The reports on a document.** If a document does not end the run, the reports on it are a block. -/
theorem Turn.block {layout : Layout} {turn : Turn σ} (h : (turn.entry layout).escape? = none) :
    Block turn.document (warningsFor turn.document turn.files) (turn.entry layout).reports
      (turn.entry layout).succeeds := by
  have hwarnings : ∀ report ∈ warningsFor turn.document turn.files, report.level = .warning :=
    fun report hreport => level_of_mem_warningsFor hreport
  obtain ⟨path, files⟩ := turn
  simp only [Turn.entry, Entry.escape?, Entry.reports, Entry.succeeds, generateDocument] at h ⊢
  cases hread : Plan.read layout path files with
  | error refusal =>
    cases hfailure : refusal.failure with
    | escaping escape => simp [hread, hfailure] at h
    | confined failure =>
      obtain ⟨hnone, hnothing⟩ := Plan.warnings_of_refusal hread hfailure
      simp only [hfailure]
      exact ⟨_, by rw [hnone, hnothing], hwarnings, closes_failed path failure⟩
  | ok plan =>
    obtain ⟨hplan, hnotes⟩ := Plan.reports_of_read hread
    simp only [hread] at h ⊢
    cases hwrite : plan.write.run files with
    | ok _ left =>
      simp only [List.append_nil]
      exact ⟨plan.notes, by rw [hplan], hwarnings, hnotes⟩
    | error fault left =>
      -- Writing fails after the warnings have been given, so they stand in front of the error.
      simp only [hwrite] at h ⊢
      cases hfailure : Failure.ofWrite fault with
      | escaping escape => simp [hfailure] at h
      | confined failure => exact ⟨_, by rw [hplan], hwarnings, closes_failed path failure⟩

theorem Block.level_ne_error_iff {path : FilePath} {warnings reports : List Report} {generated : Bool}
    (h : Block path warnings reports generated) :
    (∀ report ∈ reports, report.level ≠ .error) ↔ generated = true := by
  obtain ⟨closing, rfl, hwarnings, hcloses⟩ := h
  cases generated with
  | true =>
    refine iff_of_true (fun report hreport => ?_) rfl
    rcases List.mem_append.1 hreport with hreport | hreport
    · simp [hwarnings report hreport]
    · have hlevel : report.level ∈ [Report.Level.info, .info] := by
        rw [← hcloses]
        exact List.mem_map_of_mem hreport
      rcases List.mem_cons.1 hlevel with hlevel | hlevel
      · simp [hlevel]
      · simp [List.mem_singleton.1 hlevel]
  | false =>
    obtain ⟨report, rfl, herror, -⟩ := hcloses
    refine iff_of_false (fun hnone => hnone report ?_ herror) Bool.false_ne_true
    exact List.mem_append_right _ (List.mem_singleton_self report)

end Block

/-! ## The reports and the summary of a run -/

section Run

variable {σ : Type} [FileSystem σ] {layout : Layout} {files : σ}

/-- Over documents that it has found, a run tells of each of them what has become of it. -/
structure Accounts (layout : Layout) (files : σ) (documents : List FilePath) (summary : Summary)
    (reports : List Report) : Prop where
  documents_eq : summary.documents = documents
  scanned : summary.scanFailed = false
  /-- Every document has its turn. -/
  comes : (turns layout documents files).map Turn.document = documents
  reports_eq : reports = .found documents.length layout.sourceDirectory ::
    (turns layout documents files).flatMap (fun turn => (turn.entry layout).reports) ++ [.finished]
  blocks : ∀ turn ∈ turns layout documents files,
    Block turn.document (warningsFor turn.document turn.files) (turn.entry layout).reports
      (turn.entry layout).succeeds
  generated_eq : summary.generated = ((turns layout documents files).filter
    fun turn => (turn.entry layout).succeeds).map Turn.document
  failed_eq : summary.failed = ((turns layout documents files).filter
    fun turn => !(turn.entry layout).succeeds).map Turn.document

namespace Accounts

variable {documents : List FilePath} {summary : Summary} {reports : List Report}
  (h : Accounts layout files documents summary reports)

include h

theorem perm : (summary.generated ++ summary.failed).Perm documents := by
  have hperm := (List.filter_append_perm (fun turn : Turn σ => (turn.entry layout).succeeds)
    (turns layout documents files)).map Turn.document
  rw [List.map_append, h.comes] at hperm
  rw [h.generated_eq, h.failed_eq]
  exact hperm

theorem filter_sublist (p : Turn σ → Bool) :
    (((turns layout documents files).filter p).map Turn.document).Sublist documents := by
  have hsublist : (((turns layout documents files).filter p).map Turn.document).Sublist
      ((turns layout documents files).map Turn.document) := List.filter_sublist.map _
  rw [h.comes] at hsublist
  exact hsublist

theorem sublist : summary.generated.Sublist documents ∧ summary.failed.Sublist documents := by
  rw [h.generated_eq, h.failed_eq]
  exact ⟨h.filter_sublist _, h.filter_sublist _⟩

theorem mem_generated_iff (hnodup : documents.Nodup) {path : FilePath} (hpath : path ∈ documents) :
    path ∈ summary.generated ↔ path ∉ summary.failed := by
  have hdisjoint := List.disjoint_of_nodup_append (h.perm.nodup_iff.2 hnodup)
  have hmem := h.perm.mem_iff.2 hpath
  rw [List.mem_append] at hmem
  constructor
  · exact fun hgenerated hfailed => hdisjoint hgenerated hfailed
  · exact fun hfailed => hmem.resolve_right hfailed

theorem ok_iff : summary.ok = true ↔ ∀ report ∈ reports, report.level ≠ .error := by
  have hok : summary.ok = true ↔
      ∀ turn ∈ turns layout documents files, (turn.entry layout).succeeds = true := by
    rw [Summary.ok, h.scanned, h.failed_eq]
    simp
  have hreports : (∀ report ∈ reports, report.level ≠ .error) ↔
      ∀ turn ∈ turns layout documents files, ∀ report ∈ (turn.entry layout).reports,
        report.level ≠ .error := by
    -- The first and the last report are infos.
    rw [h.reports_eq]
    simp only [List.mem_append, List.mem_cons, List.mem_flatMap, List.not_mem_nil, or_false]
    constructor
    · intro hall turn hturn report hreport
      exact hall report (.inl (.inr ⟨turn, hturn, hreport⟩))
    · rintro hall report ((rfl | ⟨turn, hturn, hreport⟩) | rfl)
      · simp [Report.level]
      · exact hall turn hturn report hreport
      · simp [Report.level]
  rw [hok, hreports]
  exact forall₂_congr fun turn hturn => (h.blocks turn hturn).level_ne_error_iff.symm

end Accounts

theorem nodup_of_discover (hlists : FileSystem.ListsOnce files) {documents : List FilePath}
    (h : discover layout files = .ok documents) : documents.Nodup := by
  unfold discover at h
  cases hwalk : FileSystem.walk files layout.sourceDirectory with
  | error fault =>
    rw [hwalk] at h
    cases h
  | ok found =>
    rw [hwalk] at h
    cases h
    exact (hlists _ found hwalk).filter _

theorem map_filter_log (p : Entry → Bool) (documents : List FilePath) (files : σ) :
    ((log layout documents files).filter p).map Entry.document =
      ((turns layout documents files).filter fun turn => p (turn.entry layout)).map
        Turn.document := by
  rw [log, List.filter_map, List.map_map]
  rfl

theorem accounts_of_log {documents : List FilePath}
    (hescape : (log layout documents files).findSome? Entry.escape? = none) :
    Accounts layout files documents {
        documents
        generated := ((log layout documents files).filter Entry.succeeds).map Entry.document
        failed := ((log layout documents files).filter (!Entry.succeeds ·)).map Entry.document }
      (.found documents.length layout.sourceDirectory ::
        (log layout documents files).flatMap Entry.reports ++ [.finished]) where
  documents_eq := rfl
  scanned := rfl
  comes := map_document_turns hescape
  reports_eq := by rw [log, List.flatMap_map]
  blocks turn hturn := by
    have hnone := List.findSome?_eq_none_iff.1 hescape (turn.entry layout) (List.mem_map_of_mem hturn)
    exact Turn.block hnone
  generated_eq := map_filter_log Entry.succeeds documents files
  failed_eq := map_filter_log (!Entry.succeeds ·) documents files

/-- What a run with a summary tells, by what it has found. -/
def Tells (layout : Layout) (files : σ) (summary : Summary) (reports : List Report) : Prop :=
  match discover layout files with
  | .error _ => summary = { scanFailed := true } ∧ reports.map Report.level = [.error]
  | .ok [] => summary = {} ∧ reports.map Report.level = [.warning]
  | .ok documents =>
    Accounts layout files documents summary reports ∧
      (summary.generated ++ summary.failed).Perm documents ∧
      summary.generated.Sublist documents ∧ summary.failed.Sublist documents ∧
      (FileSystem.ListsOnce files →
        ∀ path ∈ documents, (path ∈ summary.generated ↔ path ∉ summary.failed))

theorem tells_of_ok {summary : Summary} (h : (generateAll layout files).1.result = .ok summary) :
    Tells layout files summary (generateAll layout files).1.reports ∧
      (summary.ok = true ↔
        ∀ report ∈ (generateAll layout files).1.reports, report.level ≠ .error) := by
  unfold Tells
  rcases generateAll_cases h with ⟨fault, hfound, rfl, hreports⟩ | ⟨hfound, rfl, hreports⟩ |
    ⟨documents, hfound, hne, hescape, rfl, hreports⟩
  · rw [hreports, hfound]
    exact ⟨⟨rfl, rfl⟩, by simp [Summary.ok, Report.level]⟩
  · rw [hreports, hfound]
    exact ⟨⟨rfl, rfl⟩, by simp [Summary.ok, Report.level]⟩
  · have haccounts := accounts_of_log hescape
    rw [hreports, hfound]
    refine ⟨?_, haccounts.ok_iff⟩
    cases documents with
    | nil => exact absurd rfl hne
    | cons path rest =>
      refine ⟨haccounts, haccounts.perm, haccounts.sublist.1, haccounts.sublist.2, ?_⟩
      intro hlists document hdocument
      exact haccounts.mem_generated_iff (nodup_of_discover hlists hfound) hdocument

end Run

/-! ## Calls -/

/-- A call that comes to its end is a run, and prints what the run reports. -/
theorem CommandLine.run_finished {arguments : List String} {environment : Named String}
    {disk after : Disk} {printed : Printed} {ok : Bool}
    (h : run arguments environment disk = (.finished printed ok, after)) :
    ∃ source further quiet summary,
      Request.read arguments environment = .ok (.generate source further quiet) ∧
      (generateAll { sourceDirectory := .ofString source } disk).1.result = .ok summary ∧
      (generateAll { sourceDirectory := .ofString source } disk).2 = after ∧
      printed =
        .ofReports quiet (generateAll { sourceDirectory := .ofString source } disk).1.reports ∧
      ok = summary.ok := by
  unfold run at h
  cases hrequest : Request.read arguments environment with
  | error misuse => simp [hrequest] at h
  | ok request =>
    cases request with
    | help => simp [hrequest] at h
    | generate source further quiet =>
      simp only [hrequest] at h
      cases hescape : sourceEscape? source with
      | some escape => simp [hescape] at h
      | none =>
        cases hmisuse : sourceMisuse? disk source further with
        | some misuse => simp [hescape, hmisuse] at h
        | none =>
          simp only [hescape, hmisuse] at h
          cases hresult : (generateAll { sourceDirectory := .ofString source } disk).1.result with
          | error escape => simp [hresult] at h
          | ok summary =>
            simp only [hresult, Prod.mk.injEq, Ending.finished.injEq] at h
            obtain ⟨⟨hprinted, hok⟩, hafter⟩ := h
            exact ⟨source, further, quiet, summary, rfl, hresult, hafter, hprinted.symm, hok.symm⟩

/-- **What a run tells.** A run that returns a summary tells of every document what became of it, and
nothing failed exactly if it reports no error. The number that a call ends with after such a run is 0 in
that case only. -/
theorem generateAll_accounts {σ : Type} [FileSystem σ] {layout : Layout} {files : σ}
    {summary : Summary} (h : (generateAll layout files).1.result = .ok summary) :
    Tells layout files summary (generateAll layout files).1.reports ∧
    (summary.ok = true ↔
      ∀ report ∈ (generateAll layout files).1.reports, report.level ≠ .error) ∧
    ∀ arguments environment (disk after : Disk) printed ok,
      CommandLine.run arguments environment disk = (.finished printed ok, after) →
      ∃ source further quiet,
        CommandLine.Request.read arguments environment = .ok (.generate source further quiet) ∧
        (generateAll { sourceDirectory := .ofString source } disk).2 = after ∧
        printed =
          .ofReports quiet (generateAll { sourceDirectory := .ofString source } disk).1.reports ∧
        ((CommandLine.Ending.finished printed ok).code = 0 ↔
          ∀ report ∈ (generateAll { sourceDirectory := .ofString source } disk).1.reports,
            report.level ≠ .error) := by
  obtain ⟨htells, hok⟩ := tells_of_ok h
  refine ⟨htells, hok, ?_⟩
  intro arguments environment disk after printed ok hrun
  obtain ⟨source, further, quiet, summary, hrequest, hresult, hafter, hprinted, rfl⟩ :=
    CommandLine.run_finished hrun
  refine ⟨source, further, quiet, hrequest, hafter, hprinted, ?_⟩
  rw [← (tells_of_ok hresult).2]
  cases summary.ok <;> simp [CommandLine.Ending.code]

/-- A document that is none, and one with a schema that is none. -/
def Store.withFaults : Store where
  files := [
    (.ofString "/specs/a.yaml", "- 1"),
    (.ofString "/specs/b.yaml", "components: \x7bschemas: \x7bA: 3\x7d\x7d")]

/-- One document fails, and the other is generated after a warning. -/
theorem faults_told :
    let layout : Layout := { sourceDirectory := .ofString "/specs" }
    let store : Store := .withFaults
    let summary : Summary := {
      documents := [.ofString "/specs/a.yaml", .ofString "/specs/b.yaml"]
      generated := [.ofString "/specs/b.yaml"]
      failed := [.ofString "/specs/a.yaml"] }
    (generateAll layout store).1.result = .ok summary ∧ FileSystem.ListsOnce store ∧
      Tells layout store summary (generateAll layout store).1.reports ∧
      (summary.ok = true ↔
        ∀ report ∈ (generateAll layout store).1.reports, report.level ≠ .error) := by
  intro layout store summary
  have hresult : (generateAll layout store).1.result = .ok summary := by decide +kernel
  have hkeys : store.files.keys.Nodup := by decide +kernel
  obtain ⟨htells, hok, -⟩ := generateAll_accounts hresult
  exact ⟨hresult, Store.listsOnce hkeys, htells, hok⟩

end ApiBindings

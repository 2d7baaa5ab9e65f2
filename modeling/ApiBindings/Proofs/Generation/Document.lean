import ApiBindings.Proofs.FileSystem.Write
import ApiBindings.Proofs.Generation.Plan
import ApiBindings.Proofs.Output.Files

/-!
# What generating for one document does to a store

A document is planned from its text alone, and writing the plan overlays the files with as many pairs of
the output as stand in front of a lock (`generateDocument_of_plan`). The main statement,
`generateDocument_files`, says for every way of ending what the files are then: overlaid with the whole
output, with a proper part of it that a lock explains, or as they were.
-/

namespace ApiBindings

open Store (Overlay)

/-! ## Plans -/

/-- The output of the document at a path: that of an API description that can be written out. -/
def outputOf? (layout : Layout) (path : FilePath) (store : Store) : Option Output :=
  match store.files.get? path with
  | none => none
  | some text =>
    match Document.ofText text with
    | .error _ => none
    | .ok document =>
      if document.isWritable then
        some (.generate layout path (Output.modelsOf document) (.ofDocument document path))
      else none

theorem exists_of_outputOf?_eq_some {layout : Layout} {path : FilePath} {store : Store}
    {output : Output} (h : outputOf? layout path store = some output) :
    ∃ text document, store.files.get? path = some text ∧ Document.ofText text = .ok document ∧
      output = .generate layout path (Output.modelsOf document) (.ofDocument document path) := by
  unfold outputOf? at h
  cases hget : store.files.get? path with
  | none => simp [hget] at h
  | some text =>
    cases hdocument : Document.ofText text with
    | error failure => simp [hget, hdocument] at h
    | ok document =>
      simp only [hget, hdocument, Option.ite_none_right_eq_some, Option.some.injEq] at h
      exact ⟨text, document, rfl, hdocument, h.2.symm⟩

namespace Plan

/-- The changes that writing a plan consists of. -/
def changes (plan : Plan) : List Change :=
  .directory plan.directory :: plan.output.changes

/-- The paths that writing a plan touches, in order. -/
def touched (plan : Plan) : List FilePath :=
  plan.directory :: plan.output.touched

/-- The pairs of a plan that a store takes. -/
def accepted (plan : Plan) (store : Store) : Output :=
  if store.isLocked plan.directory then [] else store.accepted plan.output

theorem readText_eq_ok_iff {store : Store} {path : FilePath} {text : String} :
    FileSystem.readText store path = .ok text ↔ store.files.get? path = some text := by
  simp only [FileSystem.readText]
  cases store.files.get? path <;> simp

theorem of_read {layout : Layout} {path : FilePath} {store : Store} {plan : Plan}
    (h : Plan.read layout path store = .ok plan) :
    plan.directory = layout.outputDirectory path ∧ plan.output ≠ [] ∧
      plan.output.keys.Nodup ∧ outputOf? layout path store = some plan.output := by
  obtain ⟨text, document, hread, hdocument, hwritable, -, hdirectory, houtput, -⟩ := exists_of_read h
  have hget := readText_eq_ok_iff.1 hread
  rw [houtput]
  refine ⟨hdirectory, Output.generate_ne_nil _ _ _ _, Output.nodup_keys_generate _ _ _ _, ?_⟩
  simp [outputOf?, hget, hdocument, hwritable]

/-- A document that is refused has no output, and nothing has been written for it. -/
theorem of_refusal {layout : Layout} {path : FilePath} {store : Store} {refusal : Refusal}
    (h : Plan.read layout path store = .error refusal) :
    outputOf? layout path store = none ∧
      ∀ fault, refusal.failure ≠ .confined (.unwritable fault) := by
  rcases cases_of_refusal h with
    ⟨fault, hread, rfl⟩ | ⟨text, failure, hread, hdocument, rfl⟩ |
      ⟨text, document, hread, hdocument, hwritable, hfailure⟩
  · have hget : store.files.get? path = none := by
      cases hget : store.files.get? path with
      | none => rfl
      | some text => simp [readText_eq_ok_iff.2 hget] at hread
    refine ⟨by simp [outputOf?, hget], fun other => ?_⟩
    cases hescape : Escape.ofFault? fault <;> simp [Failure.ofRead, Failure.ofFault, hescape]
  · have hget := readText_eq_ok_iff.1 hread
    refine ⟨by simp [outputOf?, hget, hdocument], ?_⟩
    cases failure <;> simp [Failure.ofText]
  · have hget := readText_eq_ok_iff.1 hread
    refine ⟨by simp [outputOf?, hget, hdocument, hwritable], ?_⟩
    simp [hfailure]

theorem read_congr (layout : Layout) {path : FilePath} {store other : Store}
    (h : other.files.get? path = store.files.get? path) :
    Plan.read layout path other = Plan.read layout path store := by
  simp only [Plan.read, FileSystem.readText, h]

theorem write_eq_performAll {σ : Type} [FileSystem σ] (plan : Plan) :
    (plan.write : EStateM FileFault σ Unit) = Change.performAll plan.changes := by
  rw [Plan.write, Output.write_eq_performAll]
  rfl

theorem write_run (plan : Plan) (store : Store) :
    plan.write.run store =
      match plan.touched.find? store.isLocked with
      | some path => .error (.locked path) (store.applyAll (store.allowed plan.changes))
      | none => .ok () (store.applyAll (store.allowed plan.changes)) := by
  rw [write_eq_performAll]
  exact Store.performAll_run plan.changes store

/-- The files that are set by the changes that a store takes. -/
theorem filterMap_allowed (plan : Plan) (store : Store) :
    (store.allowed plan.changes).filterMap Change.pair? = plan.accepted store := by
  rw [changes, Store.allowed, List.takeWhile_cons, accepted]
  by_cases hdirectory : store.isLocked plan.directory = true
  · simp [Change.path, hdirectory]
  · simp only [Change.path, hdirectory, Bool.not_false, if_true, List.filterMap_cons, Change.pair?]
    exact Store.filterMap_allowed store plan.output

theorem accepted_eq_output {plan : Plan} {store : Store}
    (h : plan.touched.find? store.isLocked = none) : plan.accepted store = plan.output := by
  obtain ⟨hdirectory, hrest⟩ : store.isLocked plan.directory = false ∧
      plan.output.touched.find? store.isLocked = none := by
    rw [touched, List.find?_cons] at h
    cases hlocked : store.isLocked plan.directory <;> simp_all
  rw [accepted, hdirectory, if_neg Bool.false_ne_true, Store.accepted_eq_self hrest]

/-- A plan that is stopped is written up to a pair whose file, or whose output's directory, is
locked. -/
theorem accepted_eq_take {plan : Plan} {store : Store} {path : FilePath} (hne : plan.output ≠ [])
    (h : plan.touched.find? store.isLocked = some path) :
    ∃ (count : Nat) (hcount : count < plan.output.length),
      plan.accepted store = plan.output.take count ∧
      (store.isLocked plan.directory = true ∨ store.isLocked plan.output[count].1 = true) := by
  by_cases hdirectory : store.isLocked plan.directory = true
  · exact ⟨0, List.length_pos_iff.2 hne, by simp [accepted, hdirectory], .inl hdirectory⟩
  · have hrest : plan.output.touched.find? store.isLocked = some path := by
      simpa [touched, List.find?_cons, hdirectory] using h
    obtain ⟨pair, rest, hsplit, hlocked⟩ := Store.exists_stop hrest
    generalize htaken : store.accepted plan.output = taken at hsplit
    refine ⟨taken.length, by simp [hsplit], ?_, .inr ?_⟩
    · rw [accepted, if_neg hdirectory, htaken, hsplit, List.take_left]
    · simpa [hsplit] using hlocked

end Plan

/-! ## Generating for a document -/

section Generate

variable {layout : Layout} {path : FilePath} {store : Store}

theorem generateDocument_of_refusal {refusal : Refusal}
    (h : Plan.read layout path store = .error refusal) :
    generateDocument layout path store = (⟨refusal.warnings, .error refusal.failure⟩, store) := by
  simp only [generateDocument, h]

/-- A plan is written, or stopped by the first locked path of those it touches. -/
theorem generateDocument_of_plan {plan : Plan} (h : Plan.read layout path store = .ok plan) :
    generateDocument layout path store =
      (match plan.touched.find? store.isLocked with
        | some locked => ⟨plan.warnings, .error (.confined (.unwritable (.locked locked)))⟩
        | none => ⟨plan.warnings ++ plan.notes, .ok plan.output⟩,
      store.applyAll (store.allowed plan.changes)) := by
  have hrun := plan.write_run store
  cases hfind : plan.touched.find? store.isLocked with
  | some locked =>
    rw [hfind] at hrun
    simp only [generateDocument, h, hrun]
    rfl
  | none =>
    rw [hfind] at hrun
    simp only [generateDocument, h, hrun]

variable (layout path store) in
/-- The changes that generating for a document makes. -/
def changesFor : List Change :=
  match Plan.read layout path store with
  | .ok plan => store.allowed plan.changes
  | .error _ => []

variable (layout path store) in
theorem generateDocument_store :
    (generateDocument layout path store).2 = store.applyAll (changesFor layout path store) := by
  unfold changesFor
  cases hread : Plan.read layout path store with
  | error refusal => rw [generateDocument_of_refusal hread, Store.applyAll_nil]
  | ok plan => rw [generateDocument_of_plan hread]

variable (layout path store) in
/-- The pairs that generating for a document writes. -/
def written : Output :=
  match Plan.read layout path store with
  | .ok plan => plan.accepted store
  | .error _ => []

variable (layout path store) in
theorem filterMap_changesFor :
    (changesFor layout path store).filterMap Change.pair? = written layout path store := by
  unfold changesFor written
  cases Plan.read layout path store with
  | error refusal => rfl
  | ok plan => exact plan.filterMap_allowed store

variable (layout path store) in
theorem generateDocument_overlay :
    Overlay store (written layout path store) (generateDocument layout path store).2 := by
  rw [generateDocument_store, ← filterMap_changesFor]
  exact Store.overlay_applyAll store _

/-- What is generated is all that was computed, and it has been written. -/
theorem written_of_ok {output : Output}
    (h : (generateDocument layout path store).1.result = .ok output) :
    outputOf? layout path store = some output ∧ written layout path store = output ∧
      output.keys.Nodup := by
  unfold written
  cases hread : Plan.read layout path store with
  | error refusal =>
    rw [generateDocument_of_refusal hread] at h
    cases h
  | ok plan =>
    obtain ⟨-, -, hnodup, houtput⟩ := Plan.of_read hread
    rw [generateDocument_of_plan hread] at h
    cases hfind : plan.touched.find? store.isLocked with
    | some locked => simp [hfind] at h
    | none =>
      simp only [hfind, Except.ok.injEq] at h
      subst h
      exact ⟨houtput, Plan.accepted_eq_output hfind, hnodup⟩

/-- Nothing is written outside the output of the document. -/
theorem mem_of_mem_written {pair : FilePath × String} (h : pair ∈ written layout path store) :
    ∃ output, outputOf? layout path store = some output ∧ pair ∈ output := by
  unfold written at h
  cases hread : Plan.read layout path store with
  | error refusal => simp [hread] at h
  | ok plan =>
    obtain ⟨-, -, -, houtput⟩ := Plan.of_read hread
    refine ⟨plan.output, houtput, ?_⟩
    simp only [hread, Plan.accepted] at h
    split at h
    · cases h
    · exact (List.takeWhile_prefix _).subset h

theorem nodup_keys_written : (written layout path store).keys.Nodup := by
  unfold written
  cases hread : Plan.read layout path store with
  | error refusal => exact List.nodup_nil
  | ok plan =>
    obtain ⟨-, -, hnodup, -⟩ := Plan.of_read hread
    simp only [Plan.accepted]
    split
    · exact List.nodup_nil
    · exact hnodup.sublist ((List.takeWhile_sublist _).map Prod.fst)

section Congruence

variable {other : Store} (hget : other.files.get? path = store.files.get? path)
  (hlocked : other.isLocked = store.isLocked)

include hget hlocked

/-- What generating for a document comes to depends on the text of the document and on what is locked
only. -/
theorem generateDocument_congr :
    (generateDocument layout path other).1 = (generateDocument layout path store).1 := by
  have hread := Plan.read_congr layout hget
  cases hplan : Plan.read layout path store with
  | error refusal =>
    rw [generateDocument_of_refusal hplan, generateDocument_of_refusal (hread.trans hplan)]
  | ok plan =>
    rw [generateDocument_of_plan hplan, generateDocument_of_plan (hread.trans hplan), hlocked]

theorem changesFor_congr : changesFor layout path other = changesFor layout path store := by
  unfold changesFor
  rw [Plan.read_congr layout hget]
  simp only [Store.allowed, hlocked]

theorem written_congr : written layout path other = written layout path store := by
  rw [← filterMap_changesFor, changesFor_congr hget hlocked, filterMap_changesFor]

end Congruence

end Generate

/-! ## The files afterwards -/

/-- How the files after generating for a document come from those before it, by the way it ended. A
lock that covers a path is that path or leads to it. -/
def FilesAfter (layout : Layout) (path : FilePath) (store : Store)
    (files : Assoc FilePath String) : Except Failure Output → Prop
  | .ok output =>
    outputOf? layout path store = some output ∧ files = store.files.setAll output ∧
      ∀ pair ∈ output, files.get? pair.1 = some pair.2
  | .error (.confined (.unwritable _)) =>
    ∃ (output : Output) (count : Nat) (hcount : count < output.length),
      outputOf? layout path store = some output ∧
      files = store.files.setAll (output.take count) ∧
      ∃ lock ∈ store.locks,
        lock.covers (layout.outputDirectory path) = true ∨ lock.covers output[count].1 = true
  | .error _ => files = store.files

section FilesAfter

variable {layout : Layout} {path : FilePath} {store : Store}

theorem filesAfter_of_refusal {refusal : Refusal}
    (h : Plan.read layout path store = .error refusal) :
    FilesAfter layout path store (generateDocument layout path store).2.files
      (generateDocument layout path store).1.result := by
  obtain ⟨-, hnever⟩ := Plan.of_refusal h
  rw [generateDocument_of_refusal h]
  cases hfailure : refusal.failure with
  | escaping escape => exact rfl
  | confined failure =>
    cases failure with
    | unreadable fault => exact rfl
    | invalid fault => exact rfl
    | unwritable fault => exact absurd hfailure (hnever fault)

theorem filesAfter_of_plan {plan : Plan} (h : Plan.read layout path store = .ok plan) :
    FilesAfter layout path store (generateDocument layout path store).2.files
      (generateDocument layout path store).1.result := by
  obtain ⟨hdirectory, hne, hnodup, houtput⟩ := Plan.of_read h
  have hafter := Store.overlay_applyAll store (store.allowed plan.changes)
  rw [plan.filterMap_allowed] at hafter
  rw [generateDocument_of_plan h]
  cases hfind : plan.touched.find? store.isLocked with
  | none =>
    have hfiles : (store.applyAll (store.allowed plan.changes)).files =
        store.files.setAll plan.output := by
      rw [hafter.files, Plan.accepted_eq_output hfind]
    refine ⟨houtput, hfiles, fun pair hpair => ?_⟩
    simp only [hfiles]
    exact Assoc.get?_setAll_of_mem _ hnodup hpair
  | some locked =>
    obtain ⟨count, hcount, haccepted, hlocked⟩ := Plan.accepted_eq_take hne hfind
    refine ⟨plan.output, count, hcount, houtput, by rw [hafter.files, haccepted], ?_⟩
    rw [hdirectory] at hlocked
    -- A path is locked by a lock that covers it.
    rcases hlocked with hlocked | hlocked
    · obtain ⟨lock, hlock, hcovers⟩ := List.any_eq_true.1 hlocked
      exact ⟨lock, hlock, .inl hcovers⟩
    · obtain ⟨lock, hlock, hcovers⟩ := List.any_eq_true.1 hlocked
      exact ⟨lock, hlock, .inr hcovers⟩

end FilesAfter

/-- **What generating for a document does to the files.** In every case no file disappears, and what is
not part of the output keeps its text. -/
theorem generateDocument_files (layout : Layout) (path : FilePath) (store : Store) :
    FilesAfter layout path store (generateDocument layout path store).2.files
      (generateDocument layout path store).1.result ∧
    (∀ file ∈ store.files.keys, file ∈ (generateDocument layout path store).2.files.keys) ∧
    (∀ file, (∀ output, outputOf? layout path store = some output → file ∉ output.keys) →
      (generateDocument layout path store).2.files.get? file = store.files.get? file) := by
  have hoverlay := generateDocument_overlay layout path store
  refine ⟨?_, fun file hfile => hoverlay.mem_keys hfile, fun file hfile => ?_⟩
  · cases hread : Plan.read layout path store with
    | error refusal => exact filesAfter_of_refusal hread
    | ok plan => exact filesAfter_of_plan hread
  · refine hoverlay.get?_eq fun hmem => ?_
    obtain ⟨text, hpair⟩ := Assoc.exists_mem_of_mem_keys hmem
    obtain ⟨output, houtput, hin⟩ := mem_of_mem_written hpair
    exact hfile output houtput (Assoc.mem_keys_of_mem hin)

end ApiBindings

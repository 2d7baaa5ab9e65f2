import ApiBindings.Proofs.FileSystem.Change

/-!
# Recording what is written

A file system with a record of the files that are written, in order and with their texts. It does to
its files what the file system beneath does, and fails where that fails. For a store the record grows by
the pairs of the changes in front of the first locked path (`performAll_run`).
-/

namespace ApiBindings

/-- Files with a record of what has been written to them. -/
structure Recorded (σ : Type) where
  files : σ
  record : Output

namespace Recorded

variable {σ : Type} [FileSystem σ]

/-- An operation on the files that goes into the record if it succeeds. -/
def recording (pairs : Output) (operation : EStateM FileFault σ Unit) :
    EStateM FileFault (Recorded σ) Unit := fun recorded =>
  match operation.run recorded.files with
  | .ok () files => .ok () ⟨files, recorded.record ++ pairs⟩
  | .error fault files => .error fault ⟨files, recorded.record⟩

instance : FileSystem (Recorded σ) where
  walk recorded := FileSystem.walk recorded.files
  readText recorded := FileSystem.readText recorded.files
  writeText path text := recording [(path, text)] (FileSystem.writeText path text)
  makeDirectory path := recording [] (FileSystem.makeDirectory path)

theorem perform_run (change : Change) (recorded : Recorded σ) :
    (change.perform : EStateM FileFault (Recorded σ) Unit).run recorded =
      match (change.perform : EStateM FileFault σ Unit).run recorded.files with
      | .ok () files => .ok () ⟨files, recorded.record ++ change.pair?.toList⟩
      | .error fault files => .error fault ⟨files, recorded.record⟩ := by
  cases change <;> rfl

/-- What is recorded of changes to a store are the files that its changes set. -/
theorem performAll_run (changes : List Change) (store : Store) (record : Output) :
    (Change.performAll changes : EStateM FileFault (Recorded Store) Unit).run ⟨store, record⟩ =
      match (Change.performAll changes : EStateM FileFault Store Unit).run store with
      | .ok () after =>
        .ok () ⟨after, record ++ (store.allowed changes).filterMap Change.pair?⟩
      | .error fault after =>
        .error fault ⟨after, record ++ (store.allowed changes).filterMap Change.pair?⟩ := by
  induction changes generalizing store record with
  | nil =>
    rw [Store.allowed, List.takeWhile_nil, List.filterMap_nil, List.append_nil]
    rfl
  | cons change rest ih =>
    rw [Change.performAll, EStateM.run_bind, perform_run, Change.performAll, EStateM.run_bind,
      Store.perform_run]
    cases hlocked : store.isLocked change.path with
    | true =>
      rw [Store.allowed_cons_of_locked rest hlocked, List.filterMap_nil, List.append_nil]
      rfl
    | false =>
      have hpairs : (change :: (store.apply change).allowed rest).filterMap Change.pair? =
          change.pair?.toList ++ ((store.apply change).allowed rest).filterMap Change.pair? := by
        cases change <;> rfl
      rw [Store.allowed_cons_of_free rest hlocked, hpairs, ← List.append_assoc]
      exact ih (store.apply change) (record ++ change.pair?.toList)

end Recorded

end ApiBindings

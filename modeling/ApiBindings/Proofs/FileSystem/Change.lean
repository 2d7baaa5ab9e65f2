import ApiBindings.FileSystem.Store
import ApiBindings.Proofs.Assoc.Overlay
import Mathlib.Data.List.TakeWhile

/-!
# Changes of a store

Writing is one change after another: a directory is made, a file gets a text. A store takes changes up
to the first one with a locked path (`performAll_run`). What it has become then is known part by part,
and the same changes made once more leave it as it is (`applyAll_applyAll_self`).
-/

namespace ApiBindings

/-- One step of writing. -/
inductive Change where
  | directory (path : FilePath)
  | file (path : FilePath) (text : String)

namespace Change

/-- What a change touches. -/
def path : Change → FilePath
  | .directory path => path
  | .file path _ => path

/-- The file that a change sets, with its text. -/
def pair? : Change → Option (FilePath × String)
  | .directory _ => none
  | .file path text => some (path, text)

/-- The directory that a change makes. -/
def directory? : Change → Option FilePath
  | .directory path => some path
  | .file _ _ => none

section Perform

variable {σ : Type} [FileSystem σ]

def perform : Change → EStateM FileFault σ Unit
  | .directory path => FileSystem.makeDirectory path
  | .file path text => FileSystem.writeText path text

/-- Makes changes in order, up to the first failure. -/
def performAll : List Change → EStateM FileFault σ Unit
  | [] => pure ()
  | change :: rest => do
    change.perform
    performAll rest

end Perform

end Change

/-- The changes that writing an output consists of. -/
def Output.changes (output : Output) : List Change :=
  output.flatMap fun pair => [.directory pair.1.parent, .file pair.1 pair.2]

theorem Output.write_eq_performAll {σ : Type} [FileSystem σ] (output : Output) :
    (output.write : EStateM FileFault σ Unit) = Change.performAll output.changes := by
  induction output with
  | nil => rfl
  | cons pair rest ih =>
    rw [Output.write, ih]
    rfl

namespace Store

/-! ## Locks -/

theorem covers_of_covers_parent {lock path : FilePath} (h : lock.covers path.parent = true) :
    lock.covers path = true := by
  obtain ⟨hanchor, hnames⟩ := Bool.and_eq_true_iff.1 h
  have hprefix : lock.names <+: path.names :=
    (List.isPrefixOf_iff_prefix.1 hnames).trans (List.dropLast_prefix _)
  exact Bool.and_eq_true_iff.2 ⟨hanchor, List.isPrefixOf_iff_prefix.2 hprefix⟩

theorem isLocked_of_parent {store : Store} {path : FilePath}
    (h : store.isLocked path.parent = true) : store.isLocked path = true := by
  obtain ⟨lock, hlock, hcovers⟩ := List.any_eq_true.1 h
  exact List.any_eq_true.2 ⟨lock, hlock, covers_of_covers_parent hcovers⟩

/-- What is locked depends on which locks there are, not on their order. -/
theorem isLocked_congr {store other : Store}
    (h : ∀ lock, lock ∈ other.locks ↔ lock ∈ store.locks) : other.isLocked = store.isLocked := by
  funext path
  rw [Bool.eq_iff_iff, isLocked, isLocked, List.any_eq_true, List.any_eq_true]
  exact exists_congr fun lock => and_congr_left fun _ => h lock

/-! ## Stores after changes -/

/-- The store with a change made, whatever is locked. -/
def apply (store : Store) : Change → Store
  | .directory path => { store with directories := store.directories.insert path }
  | .file path text => store.put path text

/-- The store with changes made one after another. -/
def applyAll (store : Store) (changes : List Change) : Store :=
  changes.foldl apply store

/-- The changes that a store takes: those in front of the first locked path. -/
def allowed (store : Store) (changes : List Change) : List Change :=
  changes.takeWhile fun change => !store.isLocked change.path

@[simp] theorem applyAll_nil (store : Store) : store.applyAll [] = store := rfl

@[simp] theorem applyAll_cons (store : Store) (change : Change) (changes : List Change) :
    store.applyAll (change :: changes) = (store.apply change).applyAll changes := rfl

theorem applyAll_append (store : Store) (changes more : List Change) :
    store.applyAll (changes ++ more) = (store.applyAll changes).applyAll more :=
  List.foldl_append

@[simp] theorem locks_apply (store : Store) (change : Change) :
    (store.apply change).locks = store.locks := by
  cases change <;> rfl

@[simp] theorem locks_applyAll (store : Store) (changes : List Change) :
    (store.applyAll changes).locks = store.locks := by
  induction changes generalizing store with
  | nil => rfl
  | cons change rest ih => rw [applyAll_cons, ih, locks_apply]

theorem files_applyAll (store : Store) (changes : List Change) :
    (store.applyAll changes).files = store.files.setAll (changes.filterMap Change.pair?) := by
  induction changes generalizing store with
  | nil => rfl
  | cons change rest ih =>
    rw [applyAll_cons, ih]
    cases change <;> rfl

/-- Directories with further ones, each only if it is new. -/
def insertAll (directories more : List FilePath) : List FilePath :=
  more.foldl (fun made path => made.insert path) directories

theorem directories_applyAll (store : Store) (changes : List Change) :
    (store.applyAll changes).directories =
      insertAll store.directories (changes.filterMap Change.directory?) := by
  induction changes generalizing store with
  | nil => rfl
  | cons change rest ih =>
    rw [applyAll_cons, ih]
    cases change <;> rfl

theorem mem_insertAll {directories more : List FilePath} {path : FilePath} :
    path ∈ insertAll directories more ↔ path ∈ directories ∨ path ∈ more := by
  induction more generalizing directories with
  | nil => simp [insertAll]
  | cons first rest ih =>
    rw [show insertAll directories (first :: rest) = insertAll (directories.insert first) rest from rfl,
      ih, List.mem_insert_iff, List.mem_cons]
    tauto

theorem insertAll_of_forall {directories more : List FilePath}
    (h : ∀ path ∈ more, path ∈ directories) : insertAll directories more = directories := by
  induction more with
  | nil => rfl
  | cons first rest ih =>
    obtain ⟨hfirst, hrest⟩ := List.forall_mem_cons.1 h
    rw [show insertAll directories (first :: rest) = insertAll (directories.insert first) rest from rfl,
      List.insert_of_mem hfirst, ih hrest]

theorem isDirectory_applyAll {store : Store} (changes : List Change) {path : FilePath}
    (h : store.isDirectory path = true) : (store.applyAll changes).isDirectory path = true := by
  rw [isDirectory, files_applyAll, directories_applyAll, Bool.or_eq_true, List.contains_iff_mem,
    List.any_eq_true]
  rcases Bool.or_eq_true_iff.1 h with hmade | hleads
  · exact .inl (mem_insertAll.2 (.inl (List.contains_iff_mem.1 hmade)))
  · obtain ⟨file, hfile, hancestor⟩ := List.any_eq_true.1 hleads
    exact .inr ⟨file, Assoc.mem_keys_setAll.2 (.inr hfile), hancestor⟩

/-- Changes that have been made can be made once more without effect. -/
theorem applyAll_applyAll_self (store : Store) (changes : List Change) :
    (store.applyAll changes).applyAll changes = store.applyAll changes := by
  -- Part by part: files keep their last text, and no directory is new the second time.
  have hfiles : ((store.applyAll changes).applyAll changes).files = (store.applyAll changes).files := by
    rw [files_applyAll (store.applyAll changes), files_applyAll, Assoc.setAll_setAll_self]
  have hdirectories : ((store.applyAll changes).applyAll changes).directories =
      (store.applyAll changes).directories := by
    rw [directories_applyAll (store.applyAll changes)]
    refine insertAll_of_forall fun path hpath => ?_
    rw [directories_applyAll]
    exact mem_insertAll.2 (.inr hpath)
  have hlocks : ((store.applyAll changes).applyAll changes).locks = (store.applyAll changes).locks :=
    locks_applyAll _ changes
  revert hfiles hdirectories hlocks
  cases (store.applyAll changes).applyAll changes
  cases store.applyAll changes
  rintro rfl rfl rfl
  rfl

/-! ## Making changes -/

theorem guarded_run (path : FilePath) (change : Store → Store) (store : Store) :
    (guarded path change).run store =
      if store.isLocked path then .error (.locked path) store else .ok () (change store) := by
  by_cases h : store.isLocked path = true
  · rw [if_pos h]
    simp only [guarded, EStateM.run_bind, EStateM.run_get, h, if_true]
    rfl
  · rw [if_neg h]
    simp only [guarded, EStateM.run_bind, EStateM.run_get, h]
    rfl

theorem perform_run (change : Change) (store : Store) :
    (change.perform : EStateM FileFault Store Unit).run store =
      if store.isLocked change.path then .error (.locked change.path) store
      else .ok () (store.apply change) := by
  cases change with
  | directory path => exact guarded_run path _ store
  | file path text => exact guarded_run path _ store

theorem isLocked_apply (store : Store) (change : Change) :
    (store.apply change).isLocked = store.isLocked :=
  isLocked_congr fun lock => by rw [locks_apply]

theorem allowed_cons_of_locked {store : Store} {change : Change} (rest : List Change)
    (h : store.isLocked change.path = true) : store.allowed (change :: rest) = [] := by
  rw [allowed, List.takeWhile_cons, if_neg (by simp [h])]

/-- No change locks or unlocks anything, so the rest stops where it would have stopped before. -/
theorem allowed_cons_of_free {store : Store} {change : Change} (rest : List Change)
    (h : store.isLocked change.path = false) :
    store.allowed (change :: rest) = change :: (store.apply change).allowed rest := by
  rw [allowed, List.takeWhile_cons, if_pos (by simp [h]), allowed, isLocked_apply]

/-- Changes are made up to the first locked path. -/
theorem performAll_run (changes : List Change) (store : Store) :
    (Change.performAll changes : EStateM FileFault Store Unit).run store =
      match (changes.map Change.path).find? store.isLocked with
      | some path => .error (.locked path) (store.applyAll (store.allowed changes))
      | none => .ok () (store.applyAll (store.allowed changes)) := by
  induction changes generalizing store with
  | nil => rfl
  | cons change rest ih =>
    rw [Change.performAll, EStateM.run_bind, perform_run, List.map_cons, List.find?_cons]
    cases hlocked : store.isLocked change.path with
    | true =>
      rw [allowed_cons_of_locked rest hlocked]
      rfl
    | false =>
      rw [allowed_cons_of_free rest hlocked, if_neg Bool.false_ne_true, applyAll_cons]
      simp only [ih, isLocked_apply]

end Store

end ApiBindings

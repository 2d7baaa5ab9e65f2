import ApiBindings.Proofs.FileSystem.Change

/-!
# Writing into a store

Writing an output touches, file by file, the directory of the file and then the file, and stops at the
first locked path. What is there afterwards are the files before, overlaid with the pairs in front of
that path (`filterMap_allowed`), under the same locks.
-/

namespace ApiBindings

/-- The paths that writing an output touches, in order. -/
def Output.touched (output : Output) : List FilePath :=
  output.changes.map Change.path

namespace Store

/-! ## Overlays -/

/-- `after` holds the files of `before` overlaid with some pairs, and the same is locked. -/
structure Overlay (before : Store) (pairs : Output) (after : Store) : Prop where
  files : after.files = before.files.setAll pairs
  locks : after.locks = before.locks

namespace Overlay

theorem get?_eq {before after : Store} {pairs : Output} (h : Overlay before pairs after)
    {path : FilePath} (hpath : path ∉ Assoc.keys pairs) :
    after.files.get? path = before.files.get? path := by
  rw [h.files, Assoc.get?_setAll_of_notMem _ hpath]

theorem mem_keys {before after : Store} {pairs : Output} (h : Overlay before pairs after)
    {path : FilePath} (hpath : path ∈ before.files.keys) : path ∈ after.files.keys := by
  rw [h.files]
  exact Assoc.mem_keys_setAll.2 (.inr hpath)

end Overlay

theorem overlay_applyAll (store : Store) (changes : List Change) :
    Overlay store (changes.filterMap Change.pair?) (store.applyAll changes) :=
  ⟨files_applyAll store changes, locks_applyAll store changes⟩

/-! ## Writing -/

/-- The pairs of an output that a store takes: those in front of the first locked path. -/
def accepted (store : Store) (output : Output) : Output :=
  output.takeWhile fun pair => !store.isLocked pair.1

/-- The files that are set by the changes that a store takes. -/
theorem filterMap_allowed (store : Store) (output : Output) :
    (store.allowed output.changes).filterMap Change.pair? = store.accepted output := by
  induction output with
  | nil => rfl
  | cons pair rest ih =>
    obtain ⟨path, text⟩ := pair
    have hchanges : Output.changes ((path, text) :: rest) =
        .directory path.parent :: .file path text :: Output.changes rest := rfl
    rw [accepted, List.takeWhile_cons, hchanges, allowed, List.takeWhile_cons]
    by_cases hparent : store.isLocked path.parent = true
    · -- A locked directory stops the writing, and its file is not taken either.
      simp [Change.path, hparent, isLocked_of_parent hparent]
    · rw [List.takeWhile_cons]
      by_cases hpath : store.isLocked path = true
      · simp [Change.path, Change.pair?, hparent, hpath]
      · simp only [Change.path, hparent, hpath, Bool.not_false, if_true, List.filterMap_cons,
          Change.pair?]
        exact congrArg _ ih

/-! ## Where writing stops -/

theorem touched_find?_eq_none_iff {store : Store} {output : Output} :
    output.touched.find? store.isLocked = none ↔ ∀ pair ∈ output, store.isLocked pair.1 = false := by
  have htouched : output.touched = output.flatMap fun pair => [pair.1.parent, pair.1] := by
    rw [Output.touched, Output.changes, List.map_flatMap]
    rfl
  simp only [List.find?_eq_none, htouched, List.mem_flatMap, List.mem_cons, List.not_mem_nil,
    or_false, Bool.not_eq_true]
  constructor
  · intro h pair hpair
    exact h pair.1 ⟨pair, hpair, .inr rfl⟩
  · rintro h path ⟨pair, hpair, rfl | rfl⟩
    · exact Bool.eq_false_iff.2 fun hparent =>
        Bool.eq_false_iff.1 (h pair hpair) (isLocked_of_parent hparent)
    · exact h pair hpair

theorem accepted_eq_self {store : Store} {output : Output}
    (h : output.touched.find? store.isLocked = none) : store.accepted output = output := by
  refine List.takeWhile_eq_self_iff.2 fun pair hpair => ?_
  simp [touched_find?_eq_none_iff.1 h pair hpair]

/-- Writing that stops leaves out a locked file and what comes after it. -/
theorem exists_stop {store : Store} {output : Output} {path : FilePath}
    (h : output.touched.find? store.isLocked = some path) :
    ∃ pair rest, output = store.accepted output ++ pair :: rest ∧ store.isLocked pair.1 = true := by
  have hsplit : store.accepted output ++ output.dropWhile (fun pair => !store.isLocked pair.1) =
      output := List.takeWhile_append_dropWhile
  cases hdrop : output.dropWhile (fun pair => !store.isLocked pair.1) with
  | nil =>
    have hfree : output.touched.find? store.isLocked = none := by
      refine touched_find?_eq_none_iff.2 fun pair hpair => ?_
      simpa using List.dropWhile_eq_nil_iff.1 hdrop pair hpair
    rw [hfree] at h
    cases h
  | cons pair rest =>
    refine ⟨pair, rest, by rw [← hdrop, hsplit], ?_⟩
    have hne : output.dropWhile (fun pair => !store.isLocked pair.1) ≠ [] := by simp [hdrop]
    have hhead := List.head_dropWhile_not (fun pair : FilePath × String => !store.isLocked pair.1) hne
    simpa [hdrop] using hhead

end Store

end ApiBindings

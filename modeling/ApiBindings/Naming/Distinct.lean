/-!
# Names without repetition

Ordered collections of names in which each name stands once, at its first occurrence.
-/

namespace ApiBindings.Naming

variable {α : Type} [DecidableEq α]

/-- The collection with one more name at its end, unless it has the name already. -/
def addName (kept : List α) (name : α) : List α :=
  if name ∈ kept then kept else kept ++ [name]

/-- The collection with further names at its end, each only if it is new. -/
def merge (kept names : List α) : List α :=
  names.foldl addName kept

/-- The names without later repetitions. -/
def distinct (names : List α) : List α :=
  merge [] names

@[simp] theorem merge_nil (kept : List α) : merge kept [] = kept := rfl

@[simp] theorem merge_cons (kept : List α) (name : α) (names : List α) :
    merge kept (name :: names) = merge (addName kept name) names := rfl

theorem merge_append (kept a b : List α) : merge kept (a ++ b) = merge (merge kept a) b := by
  simp [merge]

theorem mem_addName {kept : List α} {name x : α} : x ∈ addName kept name ↔ x ∈ kept ∨ x = name := by
  unfold addName
  split
  · constructor
    · exact Or.inl
    · rintro (h | rfl) <;> assumption
  · simp

theorem mem_merge {kept names : List α} {x : α} : x ∈ merge kept names ↔ x ∈ kept ∨ x ∈ names := by
  induction names generalizing kept with
  | nil => simp
  | cons name names ih => simp [ih, mem_addName, or_assoc]

theorem nodup_addName {kept : List α} (h : kept.Nodup) (name : α) : (addName kept name).Nodup := by
  unfold addName
  split
  · exact h
  · rename_i hmem
    refine List.nodup_append.2 ⟨h, by simp, ?_⟩
    rintro a ha b hb rfl
    exact hmem (List.mem_singleton.1 hb ▸ ha)

theorem nodup_merge {kept : List α} (h : kept.Nodup) (names : List α) : (merge kept names).Nodup := by
  induction names generalizing kept with
  | nil => exact h
  | cons name names ih => exact ih (nodup_addName h name)

end ApiBindings.Naming

import ApiBindings.Naming.Distinct
import Mathlib.Data.List.Induction

/-!
# Merging names

Merging drops repetitions as it goes on, so it comes to the same whether the names that are merged have
been freed of repetitions before or not (`merge_distinct`), and what is left of a list are the first
occurrences (`distinct_eq_eraseDups`).
-/

namespace ApiBindings.Naming

variable {α : Type} [DecidableEq α]

theorem merge_addName (kept more : List α) (name : α) :
    merge kept (addName more name) = addName (merge kept more) name := by
  unfold addName
  by_cases hmem : name ∈ more
  · have hmerged : name ∈ merge kept more := mem_merge.2 (.inr hmem)
    rw [if_pos hmem, if_pos hmerged]
  · rw [if_neg hmem, merge_append]
    rfl

theorem merge_merge (kept more names : List α) :
    merge kept (merge more names) = merge (merge kept more) names := by
  induction names generalizing more with
  | nil => rfl
  | cons name rest ih => rw [merge_cons, merge_cons, ih, merge_addName]

theorem merge_distinct (kept names : List α) : merge kept (distinct names) = merge kept names := by
  rw [distinct, merge_merge, merge_nil]

theorem distinct_append (names more : List α) :
    distinct (names ++ more) = merge (distinct names) more := by
  rw [distinct, merge_append, distinct]

theorem merge_begins (kept names : List α) : kept <+: merge kept names := by
  induction names generalizing kept with
  | nil => exact List.prefix_rfl
  | cons name rest ih =>
    have hadd : kept <+: addName kept name := by
      unfold addName
      split
      · exact List.prefix_rfl
      · exact List.prefix_append kept [name]
    exact hadd.trans (ih (addName kept name))

theorem merge_map {β : Type} [DecidableEq β] {f : α → β} (hf : ∀ a b, f a = f b → a = b)
    (kept names : List α) : merge (kept.map f) (names.map f) = (merge kept names).map f := by
  induction names generalizing kept with
  | nil => rfl
  | cons name rest ih =>
    have hadd : addName (kept.map f) (f name) = (addName kept name).map f := by
      unfold addName
      by_cases hmem : name ∈ kept
      · rw [if_pos hmem, if_pos (List.mem_map_of_mem hmem)]
      · rw [if_neg hmem, if_neg fun h => ?_, List.map_append, List.map_singleton]
        obtain ⟨other, hother, heq⟩ := List.mem_map.1 h
        exact hmem (hf other name heq ▸ hother)
    rw [List.map_cons, merge_cons, merge_cons, hadd, ih]

theorem distinct_eq_eraseDups [BEq α] [LawfulBEq α] (names : List α) :
    distinct names = names.eraseDups := by
  -- From the end, since the first of several equal names stays.
  induction names using List.reverseRecOn with
  | nil => rfl
  | append_singleton names name ih =>
    rw [distinct_append, ih, List.eraseDups_append, merge_cons, merge_nil, addName]
    by_cases hmem : name ∈ names
    · rw [if_pos (List.mem_eraseDups.2 hmem)]
      simp [List.removeAll, hmem]
    · rw [if_neg fun h => hmem (List.mem_eraseDups.1 h)]
      simp [List.removeAll, hmem, List.eraseDups_cons]

end ApiBindings.Naming

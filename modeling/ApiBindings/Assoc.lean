/-!
# Ordered associations

Keys with values in the order in which the keys first came. Setting a key again keeps its place and
takes the new value.
-/

namespace ApiBindings

/-- Keys with their values, in order. -/
abbrev Assoc (κ α : Type) := List (κ × α)

namespace Assoc

variable {κ α : Type} [DecidableEq κ]

/-- The association with a key set to a value. -/
def set (key : κ) (value : α) : Assoc κ α → Assoc κ α
  | [] => [(key, value)]
  | (k, v) :: rest => if k = key then (k, value) :: rest else (k, v) :: set key value rest

/-- The association with several keys set, one after another. -/
def setAll (assoc : Assoc κ α) (pairs : List (κ × α)) : Assoc κ α :=
  pairs.foldl (fun assoc pair => assoc.set pair.1 pair.2) assoc

/-- The association that results from setting keys one after another. -/
def ofPairs (pairs : List (κ × α)) : Assoc κ α :=
  setAll [] pairs

/-- The value of a key. -/
def get? (key : κ) : Assoc κ α → Option α
  | [] => none
  | (k, v) :: rest => if k = key then some v else get? key rest

/-- The keys, in order. -/
def keys (assoc : Assoc κ α) : List κ :=
  assoc.map Prod.fst

@[simp] theorem setAll_nil (assoc : Assoc κ α) : assoc.setAll [] = assoc := rfl

@[simp] theorem setAll_cons (assoc : Assoc κ α) (pair : κ × α) (pairs : List (κ × α)) :
    assoc.setAll (pair :: pairs) = (assoc.set pair.1 pair.2).setAll pairs := rfl

theorem get?_set_self (key : κ) (value : α) (assoc : Assoc κ α) :
    (assoc.set key value).get? key = some value := by
  induction assoc with
  | nil => simp [set, get?]
  | cons pair rest ih =>
    obtain ⟨k, v⟩ := pair
    by_cases h : k = key <;> simp [set, get?, h, ih]

theorem get?_set_of_ne {key other : κ} (value : α) (assoc : Assoc κ α) (h : other ≠ key) :
    (assoc.set key value).get? other = assoc.get? other := by
  induction assoc with
  | nil => simp [set, get?, Ne.symm h]
  | cons pair rest ih =>
    obtain ⟨k, v⟩ := pair
    by_cases hk : k = key
    · simp [set, get?, hk, Ne.symm h]
    · simp [set, hk, get?, ih]

theorem mem_keys_set {key other : κ} {value : α} {assoc : Assoc κ α} :
    other ∈ (assoc.set key value).keys ↔ other = key ∨ other ∈ assoc.keys := by
  induction assoc with
  | nil => simp [set, keys]
  | cons pair rest ih =>
    obtain ⟨k, v⟩ := pair
    simp only [keys] at ih
    by_cases hk : k = key
    · simp [set, keys, hk]
    · simp [set, keys, hk, ih]
      constructor
      · rintro (h | h | h) <;> simp [h]
      · rintro (h | h | h) <;> simp [h]

theorem nodup_keys_set {key : κ} {value : α} {assoc : Assoc κ α} (h : assoc.keys.Nodup) :
    (assoc.set key value).keys.Nodup := by
  induction assoc with
  | nil => simp [set, keys]
  | cons pair rest ih =>
    obtain ⟨k, v⟩ := pair
    have hkeys : k ∉ keys rest ∧ (keys rest).Nodup := List.nodup_cons.1 h
    by_cases hk : k = key
    · rw [set, if_pos hk]
      exact List.nodup_cons.2 hkeys
    · rw [set, if_neg hk]
      refine List.nodup_cons.2 ⟨?_, ih hkeys.2⟩
      intro hmem
      rcases mem_keys_set.1 hmem with he | hm
      · exact hk he
      · exact hkeys.1 hm

theorem nodup_keys_setAll {assoc : Assoc κ α} (h : assoc.keys.Nodup) (pairs : List (κ × α)) :
    (assoc.setAll pairs).keys.Nodup := by
  induction pairs generalizing assoc with
  | nil => exact h
  | cons pair pairs ih => exact ih (nodup_keys_set h)

end Assoc

/-- Named things, in order. -/
abbrev Named (α : Type) := Assoc String α

end ApiBindings

import ApiBindings.Value.Scalar

/-!
# Ordered mappings

A mapping is its list of entries in the order in which keys first came; setting a key that is already
there replaces the value and keeps key and place.
-/

namespace ApiBindings

/-- The entries of a mapping, in order. -/
abbrev Entries (α : Type) := List (Scalar × α)

namespace Entries

variable {α : Type}

/-- The mapping with a key set to a value. -/
def set (key : Scalar) (value : α) : Entries α → Entries α
  | [] => [(key, value)]
  | (k, v) :: rest =>
    if k.key = key.key then (k, value) :: rest else (k, v) :: set key value rest

/-- The mapping that results from setting keys one after another. -/
def ofList (pairs : List (Scalar × α)) : Entries α :=
  pairs.foldl (fun entries pair => entries.set pair.1 pair.2) []

/-- The value of a key. -/
def get? (key : Scalar) : Entries α → Option α
  | [] => none
  | (k, v) :: rest => if k.key = key.key then some v else get? key rest

/-- The value of a key that is a text. -/
def field? (entries : Entries α) (name : String) : Option α :=
  entries.get? (.text name)

@[simp] theorem get?_nil (key : Scalar) : get? key ([] : Entries α) = none := rfl

theorem get?_set_self (key : Scalar) (value : α) (entries : Entries α) :
    (entries.set key value).get? key = some value := by
  induction entries with
  | nil => simp [set, get?]
  | cons entry rest ih =>
    obtain ⟨k, v⟩ := entry
    by_cases h : k.key = key.key <;> simp [set, get?, h, ih]

theorem get?_set_of_ne {key other : Scalar} (value : α) (entries : Entries α)
    (h : other.key ≠ key.key) : (entries.set key value).get? other = entries.get? other := by
  induction entries with
  | nil => simp [set, get?, Ne.symm h]
  | cons entry rest ih =>
    obtain ⟨k, v⟩ := entry
    by_cases hk : k.key = key.key
    · simp [set, get?, hk, Ne.symm h]
    · simp [set, hk, get?, ih]

end Entries

end ApiBindings

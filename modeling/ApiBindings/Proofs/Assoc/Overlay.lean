import ApiBindings.Assoc
import ApiBindings.Proofs.Naming.Distinct
import Mathlib.Data.List.Nodup

/-!
# Overlays of associations

`setAll` lays pairs over an association. This file says what the overlay holds: a key of the pairs has
the value of its last pair, and every other key keeps its value. No key is ever lost. Laying the same
pairs over it once more changes nothing, not even if they set a key twice (`setAll_setAll_self`).
-/

namespace ApiBindings.Assoc

variable {κ α : Type} [DecidableEq κ]

/-! ## Keys and values -/

omit [DecidableEq κ] in
theorem mem_keys_of_mem {key : κ} {value : α} {assoc : Assoc κ α} (h : (key, value) ∈ assoc) :
    key ∈ assoc.keys :=
  List.mem_map.2 ⟨(key, value), h, rfl⟩

omit [DecidableEq κ] in
theorem exists_mem_of_mem_keys {key : κ} {assoc : Assoc κ α} (h : key ∈ assoc.keys) :
    ∃ value, (key, value) ∈ assoc := by
  obtain ⟨⟨k, value⟩, hmem, rfl⟩ := List.mem_map.1 h
  exact ⟨value, hmem⟩

omit [DecidableEq κ] in
/-- What stands under a key, in the same order, stands under the name of the key. -/
theorem keys_of_forall₂ {ι β : Type} {name : ι → κ} {r : ι × β → κ × α → Prop}
    (hname : ∀ {entry named}, r entry named → named.1 = name entry.1) {entries : List (ι × β)}
    {named : List (κ × α)} (h : List.Forall₂ r entries named) :
    keys named = entries.map fun entry => name entry.1 := by
  induction h with
  | nil => rfl
  | cons hentry _ ih => exact congrArg₂ List.cons (hname hentry) ih

theorem get?_eq_none_iff {key : κ} {assoc : Assoc κ α} :
    assoc.get? key = none ↔ key ∉ assoc.keys := by
  induction assoc with
  | nil => simp [get?, keys]
  | cons pair rest ih =>
    obtain ⟨k, v⟩ := pair
    by_cases hk : k = key
    · simp [get?, keys, hk]
    · have hne : key ≠ k := Ne.symm hk
      simp only [get?, if_neg hk, keys, List.map_cons, List.mem_cons, not_or]
      exact ⟨fun h => ⟨hne, ih.1 h⟩, fun h => ih.2 h.2⟩

theorem mem_of_get?_eq_some {key : κ} {value : α} {assoc : Assoc κ α}
    (h : assoc.get? key = some value) : (key, value) ∈ assoc := by
  induction assoc with
  | nil => cases h
  | cons pair rest ih =>
    obtain ⟨k, v⟩ := pair
    by_cases hk : k = key
    · rw [get?, if_pos hk] at h
      cases h
      subst hk
      exact List.mem_cons_self
    · rw [get?, if_neg hk] at h
      exact List.mem_cons_of_mem _ (ih h)

theorem get?_of_mem {key : κ} {value : α} {assoc : Assoc κ α} (hnodup : assoc.keys.Nodup)
    (h : (key, value) ∈ assoc) : assoc.get? key = some value := by
  induction assoc with
  | nil => cases h
  | cons pair rest ih =>
    obtain ⟨hnotin, hrest⟩ := List.nodup_cons.1 hnodup
    rcases List.mem_cons.1 h with rfl | h
    · rw [get?, if_pos rfl]
    · have hne : pair.1 ≠ key := fun heq => hnotin (heq ▸ mem_keys_of_mem h)
      rw [get?, if_neg hne, ih hrest h]

/-! ## Setting keys again -/

theorem set_set_self (key : κ) (value other : α) (assoc : Assoc κ α) :
    (assoc.set key value).set key other = assoc.set key other := by
  induction assoc with
  | nil => simp [set]
  | cons pair rest ih =>
    obtain ⟨k, v⟩ := pair
    by_cases hk : k = key
    · simp only [set, if_pos hk]
    · simp only [set, if_neg hk, ih]

/-- Two keys can be set in either order if the one that comes second has a place already. -/
theorem set_set_comm {key other : κ} (value value' : α) {assoc : Assoc κ α} (hne : other ≠ key)
    (hmem : other ∈ assoc.keys) :
    (assoc.set key value).set other value' = (assoc.set other value').set key value := by
  induction assoc with
  | nil => cases hmem
  | cons pair rest ih =>
    obtain ⟨k, v⟩ := pair
    by_cases hkey : k = key
    · have hother : k ≠ other := fun heq => hne (heq.symm.trans hkey)
      simp only [set, if_pos hkey, if_neg hother]
    · by_cases hother : k = other
      · simp only [set, if_neg hkey, if_pos hother]
      · have hrest : other ∈ keys rest := (List.mem_cons.1 hmem).resolve_left (Ne.symm hother)
        simp only [set, if_neg hkey, if_neg hother, ih hrest]

theorem filter_keys_set {p : κ → Bool} {key : κ} {value : α} (assoc : Assoc κ α)
    (h : p key = false) : (assoc.set key value).keys.filter p = assoc.keys.filter p := by
  induction assoc with
  | nil => simp [set, keys, h]
  | cons pair rest ih =>
    obtain ⟨k, v⟩ := pair
    by_cases hk : k = key
    · rw [set, if_pos hk]
      rfl
    · simp only [keys] at ih
      simp only [set, if_neg hk, keys, List.map_cons, List.filter_cons, ih]

/-! ## Overlays -/

theorem setAll_append (assoc : Assoc κ α) (pairs more : List (κ × α)) :
    assoc.setAll (pairs ++ more) = (assoc.setAll pairs).setAll more :=
  List.foldl_append

theorem mem_keys_setAll {key : κ} {pairs : List (κ × α)} {assoc : Assoc κ α} :
    key ∈ (assoc.setAll pairs).keys ↔ key ∈ keys pairs ∨ key ∈ assoc.keys := by
  induction pairs generalizing assoc with
  | nil => simp [keys]
  | cons pair pairs ih =>
    rw [setAll_cons, ih, mem_keys_set]
    simp only [keys, List.map_cons, List.mem_cons]
    constructor
    · rintro (h | h | h)
      · exact .inl (.inr h)
      · exact .inl (.inl h)
      · exact .inr h
    · rintro ((h | h) | h)
      · exact .inr (.inl h)
      · exact .inl h
      · exact .inr (.inr h)

theorem get?_setAll_of_notMem {key : κ} {pairs : List (κ × α)} (assoc : Assoc κ α)
    (h : key ∉ keys pairs) : (assoc.setAll pairs).get? key = assoc.get? key := by
  induction pairs generalizing assoc with
  | nil => rfl
  | cons pair pairs ih =>
    obtain ⟨hne, hrest⟩ := not_or.1 fun hor => h (List.mem_cons.2 hor)
    rw [setAll_cons, ih _ hrest, get?_set_of_ne _ _ hne]

/-- If no key is set twice, the pairs are looked at first and what is under them next. -/
theorem get?_setAll {key : κ} {pairs : List (κ × α)} (assoc : Assoc κ α)
    (hnodup : (keys pairs).Nodup) :
    (assoc.setAll pairs).get? key = (get? key pairs).or (assoc.get? key) := by
  induction pairs generalizing assoc with
  | nil => rfl
  | cons pair pairs ih =>
    obtain ⟨hnotin, hrest⟩ := List.nodup_cons.1 hnodup
    rw [setAll_cons]
    by_cases hkey : pair.1 = key
    · rw [get?_setAll_of_notMem _ (hkey ▸ hnotin), hkey, get?_set_self, get?, if_pos hkey,
        Option.some_or]
    · rw [ih _ hrest, get?_set_of_ne _ _ (Ne.symm hkey), get?, if_neg hkey]

theorem get?_setAll_of_mem {key : κ} {value : α} {pairs : List (κ × α)} (assoc : Assoc κ α)
    (hnodup : (keys pairs).Nodup) (h : (key, value) ∈ pairs) :
    (assoc.setAll pairs).get? key = some value := by
  rw [get?_setAll _ hnodup, get?_of_mem hnodup h, Option.some_or]

/-- New keys come behind those that are there. -/
theorem filter_keys_setAll {p : κ → Bool} {pairs : List (κ × α)} (assoc : Assoc κ α)
    (h : ∀ key ∈ keys pairs, p key = false) :
    (assoc.setAll pairs).keys.filter p = assoc.keys.filter p := by
  induction pairs generalizing assoc with
  | nil => rfl
  | cons pair pairs ih =>
    obtain ⟨hpair, hrest⟩ := List.forall_mem_cons.1 h
    rw [setAll_cons, ih _ hrest, filter_keys_set _ hpair]

theorem nodup_keys_ofPairs (pairs : List (κ × α)) : (ofPairs pairs).keys.Nodup := by
  have hnil : (keys ([] : Assoc κ α)).Nodup := List.nodup_nil
  exact nodup_keys_setAll hnil pairs

theorem keys_set (key : κ) (value : α) (assoc : Assoc κ α) :
    (assoc.set key value).keys = Naming.addName assoc.keys key := by
  induction assoc with
  | nil => rfl
  | cons pair rest ih =>
    obtain ⟨k, v⟩ := pair
    show _ = Naming.addName (k :: keys rest) key
    unfold Naming.addName at ih ⊢
    by_cases hk : k = key
    · subst hk
      rw [set, if_pos rfl, if_pos List.mem_cons_self]
      rfl
    · rw [set, if_neg hk]
      show k :: keys (set key value rest) = _
      rw [ih]
      by_cases hmem : key ∈ keys rest
      · rw [if_pos hmem, if_pos (List.mem_cons_of_mem k hmem)]
      · rw [if_neg hmem, if_neg fun h => hmem ((List.mem_cons.1 h).resolve_left (Ne.symm hk))]
        rfl

/-- Keys that come anew stand behind the others in the order in which they first come. -/
theorem keys_setAll (assoc : Assoc κ α) (pairs : List (κ × α)) :
    (assoc.setAll pairs).keys = Naming.merge assoc.keys (keys pairs) := by
  induction pairs generalizing assoc with
  | nil => rfl
  | cons pair pairs ih =>
    rw [setAll_cons, ih, keys_set]
    rfl

theorem set_of_notMem {key : κ} (value : α) {assoc : Assoc κ α} (h : key ∉ assoc.keys) :
    assoc.set key value = assoc ++ [(key, value)] := by
  induction assoc with
  | nil => rfl
  | cons pair rest ih =>
    obtain ⟨hne, hrest⟩ := not_or.1 fun hor => h (List.mem_cons.2 hor)
    rw [set, if_neg (Ne.symm hne), ih hrest, List.cons_append]

/-- Pairs with distinct keys stay as they are. -/
theorem ofPairs_of_nodup {pairs : List (κ × α)} (h : (keys pairs).Nodup) : ofPairs pairs = pairs := by
  induction pairs using List.reverseRecOn with
  | nil => rfl
  | append_singleton pairs pair ih =>
    rw [keys, List.map_append, List.nodup_append] at h
    obtain ⟨hpairs, -, hdisjoint⟩ := h
    have hnew : pair.1 ∉ keys pairs := fun hmem =>
      hdisjoint pair.1 hmem pair.1 (List.mem_singleton_self _) rfl
    rw [ofPairs, setAll_append, ← ofPairs, ih hpairs]
    exact set_of_notMem pair.2 hnew

/-- Nothing comes into an association but what is set. -/
theorem mem_of_mem_set {key : κ} {value : α} {pair : κ × α} {assoc : Assoc κ α}
    (h : pair ∈ assoc.set key value) : pair = (key, value) ∨ pair ∈ assoc := by
  induction assoc with
  | nil => exact .inl (List.mem_singleton.1 h)
  | cons first rest ih =>
    obtain ⟨k, v⟩ := first
    by_cases hk : k = key
    · rw [set, if_pos hk, hk] at h
      exact (List.mem_cons.1 h).imp_right (List.mem_cons_of_mem _)
    · rw [set, if_neg hk] at h
      rcases List.mem_cons.1 h with rfl | hrest
      · exact .inr List.mem_cons_self
      · exact (ih hrest).imp_right (List.mem_cons_of_mem _)

theorem mem_of_mem_setAll {pair : κ × α} {pairs : List (κ × α)} {assoc : Assoc κ α}
    (h : pair ∈ assoc.setAll pairs) : pair ∈ pairs ∨ pair ∈ assoc := by
  induction pairs generalizing assoc with
  | nil => exact .inr h
  | cons first pairs ih =>
    rcases ih h with hpairs | hset
    · exact .inl (List.mem_cons_of_mem _ hpairs)
    · rcases mem_of_mem_set hset with rfl | hassoc
      · exact .inl List.mem_cons_self
      · exact .inr hassoc

/-- A key of some pairs gets one of the values that the pairs give it. -/
theorem exists_get?_ofPairs {key : κ} {pairs : List (κ × α)} (h : key ∈ keys pairs) :
    ∃ value, (key, value) ∈ pairs ∧ (ofPairs pairs).get? key = some value := by
  have hkey : key ∈ (ofPairs pairs).keys := mem_keys_setAll.2 (.inl h)
  obtain ⟨value, hmem⟩ := exists_mem_of_mem_keys hkey
  exact ⟨value, (mem_of_mem_setAll hmem).resolve_right List.not_mem_nil,
    get?_of_mem (nodup_keys_ofPairs pairs) hmem⟩

omit [DecidableEq κ] in
/-- A key of some pairs comes last in one of them. -/
theorem exists_last {key : κ} {pairs : List (κ × α)} (h : key ∈ keys pairs) :
    ∃ before value after, pairs = before ++ (key, value) :: after ∧ key ∉ keys after := by
  classical
  induction pairs with
  | nil => cases h
  | cons pair rest ih =>
    by_cases hrest : key ∈ keys rest
    · obtain ⟨before, value, after, rfl, hafter⟩ := ih hrest
      exact ⟨pair :: before, value, after, rfl, hafter⟩
    · have hkey : key = pair.1 := (List.mem_cons.1 h).resolve_right hrest
      exact ⟨[], pair.2, rest, by rw [hkey]; rfl, hrest⟩

/-- Every key has the value of its last pair. -/
theorem mem_ofPairs_iff {key : κ} {value : α} {pairs : List (κ × α)} :
    (key, value) ∈ ofPairs pairs ↔
      ∃ before after, pairs = before ++ (key, value) :: after ∧ key ∉ keys after := by
  have hlast : ∀ before last after, pairs = before ++ (key, last) :: after → key ∉ keys after →
      (ofPairs pairs).get? key = some last := by
    rintro before last after rfl hafter
    rw [ofPairs, setAll_append, setAll_cons, get?_setAll_of_notMem _ hafter, get?_set_self]
  constructor
  · intro h
    have hkey : key ∈ keys pairs :=
      mem_keys_of_mem ((mem_of_mem_setAll h).resolve_right List.not_mem_nil)
    obtain ⟨before, last, after, hpairs, hafter⟩ := exists_last hkey
    have hvalue := get?_of_mem (nodup_keys_ofPairs pairs) h
    rw [hlast before last after hpairs hafter] at hvalue
    cases hvalue
    exact ⟨before, after, hpairs, hafter⟩
  · rintro ⟨before, after, hpairs, hafter⟩
    exact mem_of_get?_eq_some (hlast before value after hpairs hafter)

theorem keys_ofPairs (pairs : List (κ × α)) : (ofPairs pairs).keys = (keys pairs).eraseDups := by
  rw [ofPairs, keys_setAll]
  exact Naming.distinct_eq_eraseDups _

/-! ## Laying the same pairs over once more -/

/-- What is set before other keys is lost if it is set after them too. -/
theorem set_setAll_set {key : κ} (value : α) {pairs : List (κ × α)} {assoc : Assoc κ α}
    (h : ∀ other ∈ keys pairs, other ∈ assoc.keys) :
    ((assoc.set key value).setAll pairs).set key value = (assoc.setAll pairs).set key value := by
  induction pairs generalizing assoc with
  | nil => exact set_set_self key value value assoc
  | cons pair pairs ih =>
    obtain ⟨hpair, hrest⟩ := List.forall_mem_cons.1 h
    rw [setAll_cons, setAll_cons]
    by_cases hkey : pair.1 = key
    · rw [hkey, set_set_self]
    · rw [set_set_comm value pair.2 hkey hpair]
      exact ih fun other hother => mem_keys_set.2 (.inr (hrest other hother))

theorem setAll_setAll_self (assoc : Assoc κ α) (pairs : List (κ × α)) :
    (assoc.setAll pairs).setAll pairs = assoc.setAll pairs := by
  -- From the end, since the last pair with a key decides.
  induction pairs using List.reverseRecOn with
  | nil => rfl
  | append_singleton pairs pair ih =>
    have hkeys : ∀ key ∈ keys pairs, key ∈ (assoc.setAll pairs).keys :=
      fun key hkey => mem_keys_setAll.2 (.inl hkey)
    simp only [setAll_append, setAll_cons, setAll_nil]
    rw [set_setAll_set pair.2 hkeys, ih]

end ApiBindings.Assoc

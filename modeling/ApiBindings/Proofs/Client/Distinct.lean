import ApiBindings.Client.Basic
import Mathlib.Data.List.Nodup
import Mathlib.Data.List.Perm.Subperm

/-!
# Telling methods apart

The methods of a client get distinct names (`nodup_names_distinguish`): the first of a name keeps it,
and a later one gets a number with which the name is new. Among as many numbers as there are names, and
one more, such a number is always found (`numbered_freeNumber_notMem`).
-/

namespace ApiBindings.Client

/-! ## Numbered names -/

theorem toList_numbered (name : String) (number : Nat) :
    (numbered name number).toList = name.toList ++ Nat.toDigits 10 number := by
  rw [numbered, String.toList_append, Nat.toString_eq_ofList_toDigits, String.toList_ofList]

theorem numbered_injective (name : String) : Function.Injective (numbered name) := by
  intro m n heq
  have hlists := congrArg String.toList heq
  rw [toList_numbered, toList_numbered] at hlists
  have hvalues := congrArg (Nat.ofDigitChars 10 · 0) (List.append_cancel_left hlists)
  simpa using hvalues

/-- A numbered name ends with a digit. -/
theorem isDigit_getLast?_numbered (name : String) (number : Nat) :
    ∀ c ∈ (numbered name number).toList.getLast?, c.isDigit = true := by
  intro c hc
  rw [toList_numbered, List.getLast?_append_of_ne_nil _ Nat.toDigits_ne_nil] at hc
  exact Nat.isDigit_of_mem_toDigits (by decide) (by decide) (List.mem_of_getLast? hc)

/-! ## Free numbers -/

section FreeNumber

variable {taken : List String} {name : String}

theorem mem_of_lt_freeNumber {fuel number k : Nat} (hle : number ≤ k)
    (hlt : k < freeNumber taken name fuel number) : numbered name k ∈ taken := by
  induction fuel generalizing number with
  | zero => exact absurd hlt (Nat.not_lt.2 hle)
  | succ fuel ih =>
    rw [freeNumber] at hlt
    split at hlt
    · next hmem =>
      rcases Nat.eq_or_lt_of_le hle with rfl | hnext
      · exact hmem
      · exact ih hnext hlt
    · exact absurd hlt (Nat.not_lt.2 hle)

/-- The search gives a number that is not free only where it breaks off. -/
theorem freeNumber_eq_of_mem {fuel number : Nat}
    (h : numbered name (freeNumber taken name fuel number) ∈ taken) :
    freeNumber taken name fuel number = number + fuel := by
  induction fuel generalizing number with
  | zero => rfl
  | succ fuel ih =>
    rw [freeNumber] at h ⊢
    split at h
    · next hmem =>
      rw [if_pos hmem, ih h]
      omega
    · next hfree => exact absurd h hfree

/-- The number that is found is free, for there are more numbers to try than names. -/
theorem numbered_freeNumber_notMem (taken : List String) (name : String) (number : Nat) :
    numbered name (freeNumber taken name (taken.length + 1) number) ∉ taken := by
  intro hmem
  -- If even the last number were taken, all numbers tried were, one more than there are names.
  have hend := freeNumber_eq_of_mem hmem
  let tried := (List.range' number (taken.length + 1)).map (numbered name)
  have hnodup : tried.Nodup := List.Nodup.map (numbered_injective name) List.nodup_range'
  have hsubset : tried ⊆ taken := by
    intro candidate hcandidate
    obtain ⟨k, hk, rfl⟩ := List.mem_map.1 hcandidate
    obtain ⟨hle, hlt⟩ := List.mem_range'_1.1 hk
    exact mem_of_lt_freeNumber hle (hend ▸ hlt)
  have hlength := (hnodup.subperm hsubset).length_le
  simp only [tried, List.length_map, List.length_range'] at hlength
  omega

end FreeNumber

/-! ## Distinct names -/

section Names

variable {seen taken : List String} {method : Method}

theorem names_distinguishFrom_of_mem (h : method.name ∈ seen) (rest : List Method) :
    (distinguishFrom seen taken (method :: rest)).1.map Method.name =
      let name := numbered method.name (freeNumber taken method.name (taken.length + 1) 2)
      name :: (distinguishFrom (name :: seen) (name :: taken) rest).1.map Method.name := by
  rw [distinguishFrom, if_pos h]
  rfl

theorem names_distinguishFrom_of_notMem (h : method.name ∉ seen) (rest : List Method) :
    (distinguishFrom seen taken (method :: rest)).1.map Method.name =
      method.name :: (distinguishFrom (method.name :: seen) taken rest).1.map Method.name := by
  rw [distinguishFrom, if_neg h]
  rfl

variable {methods : List Method}

/-- The first method of a name keeps it, so no name is lost. -/
theorem mem_names_distinguishFrom (h : method ∈ methods) :
    method.name ∈ seen ∨ method.name ∈ (distinguishFrom seen taken methods).1.map Method.name := by
  induction methods generalizing seen taken with
  | nil => cases h
  | cons first rest ih =>
    have hlater : method ∈ rest → ∀ name taken, method.name ∈ seen ∨
        method.name ∈ name :: (distinguishFrom (name :: seen) taken rest).1.map Method.name := by
      intro hrest name taken
      have hname := @ih (name :: seen) taken hrest
      rw [List.mem_cons] at hname ⊢
      exact or_left_comm.1 (or_assoc.1 hname)
    by_cases hfirst : first.name ∈ seen
    · rw [names_distinguishFrom_of_mem hfirst]
      rcases List.mem_cons.1 h with rfl | hrest
      · exact .inl hfirst
      · exact hlater hrest _ _
    · rw [names_distinguishFrom_of_notMem hfirst]
      rcases List.mem_cons.1 h with rfl | hrest
      · exact .inr List.mem_cons_self
      · exact hlater hrest _ _

/-- A method has the name it had, or a numbered one. -/
theorem exists_of_mem_names_distinguishFrom {name : String}
    (h : name ∈ (distinguishFrom seen taken methods).1.map Method.name) :
    ∃ method ∈ methods, name = method.name ∨ ∃ number, name = numbered method.name number := by
  induction methods generalizing seen taken with
  | nil => cases h
  | cons first rest ih =>
    have hlater : ∀ {seen taken : List String},
        name ∈ (distinguishFrom seen taken rest).1.map Method.name →
        ∃ method ∈ first :: rest, name = method.name ∨ ∃ number, name = numbered method.name number := by
      intro seen taken hrest
      obtain ⟨method, hmethod, hname⟩ := ih hrest
      exact ⟨method, List.mem_cons_of_mem _ hmethod, hname⟩
    by_cases hfirst : first.name ∈ seen
    · rw [names_distinguishFrom_of_mem hfirst] at h
      rcases List.mem_cons.1 h with hname | hrest
      · exact ⟨first, List.mem_cons_self, .inr ⟨_, hname⟩⟩
      · exact hlater hrest
    · rw [names_distinguishFrom_of_notMem hfirst] at h
      rcases List.mem_cons.1 h with hname | hrest
      · exact ⟨first, List.mem_cons_self, .inl hname⟩
      · exact hlater hrest

/-- The names that are given are distinct and new, as long as those given before and those that
methods come with are taken. -/
theorem nodup_names_distinguishFrom (hseen : seen ⊆ taken)
    (hnames : methods.map Method.name ⊆ taken) :
    ((distinguishFrom seen taken methods).1.map Method.name).Nodup ∧
      ∀ name ∈ (distinguishFrom seen taken methods).1.map Method.name, name ∉ seen := by
  induction methods generalizing seen taken with
  | nil => exact ⟨List.nodup_nil, fun _ h => absurd h List.not_mem_nil⟩
  | cons method rest ih =>
    obtain ⟨hname, hrest⟩ := List.cons_subset.1 hnames
    by_cases hmethod : method.name ∈ seen
    · rw [names_distinguishFrom_of_mem hmethod]
      have hfree := numbered_freeNumber_notMem taken method.name 2
      generalize numbered method.name (freeNumber taken method.name (taken.length + 1) 2) = newName
        at hfree ⊢
      obtain ⟨hnodup, hnew⟩ := ih (List.cons_subset_cons newName hseen)
        (List.subset_cons_of_subset newName hrest)
      refine ⟨List.nodup_cons.2 ⟨fun hmem => hnew _ hmem List.mem_cons_self, hnodup⟩, ?_⟩
      refine List.forall_mem_cons.2 ⟨fun hmem => hfree (hseen hmem), fun name hmem hold => ?_⟩
      exact hnew name hmem (List.mem_cons_of_mem _ hold)
    · rw [names_distinguishFrom_of_notMem hmethod]
      obtain ⟨hnodup, hnew⟩ := ih (List.cons_subset.2 ⟨hname, hseen⟩) hrest
      refine ⟨List.nodup_cons.2 ⟨fun hmem => hnew _ hmem List.mem_cons_self, hnodup⟩, ?_⟩
      refine List.forall_mem_cons.2 ⟨hmethod, fun name hmem hold => ?_⟩
      exact hnew name hmem (List.mem_cons_of_mem _ hold)

end Names

theorem nodup_names_distinguish (methods : List Method) :
    ((distinguish methods).1.map Method.name).Nodup :=
  (nodup_names_distinguishFrom (List.nil_subset _) (List.Subset.refl _)).1

end ApiBindings.Client

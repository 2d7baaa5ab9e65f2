import ApiBindings.Proofs.Client.Distinct
import Mathlib.Order.Bounds.Defs

/-!
# Which methods are renamed

Telling methods apart goes through them once and never looks back, so what becomes of a method depends on
those in front of it and on the names that all of them came with. The first method of a name keeps it,
and a later one gets the least number that gives a name nobody has (`distinguish_toldApart`).
-/

namespace ApiBindings.Client

/-- The methods that have another name now, each as it was and as it is. -/
def renamed (methods named : List Method) : List (Method × Method) :=
  (methods.zip named).filter fun pair => pair.1.name ≠ pair.2.name

/-- What becomes of methods that are told apart. -/
structure ToldApart (methods named : List Method) (renames : List Rename) : Prop where
  onlyNames : List.Forall₂ (fun method now => now = { method with name := now.name }) methods named
  nodup : (named.map Method.name).Nodup
  /-- The first method of a name keeps it. -/
  first : ∀ before method after, methods = before ++ method :: after →
    method.name ∉ before.map Method.name → named[before.length]? = some method
  /-- A later one gets the least number from 2 on that makes a name which no method came with and
  which none in front of it has been given. -/
  later : ∀ before method after, methods = before ++ method :: after →
    method.name ∈ before.map Method.name → ∃ number,
      named[before.length]? = some { method with name := numbered method.name number } ∧
      IsLeast {k | 2 ≤ k ∧ numbered method.name k ∉ methods.map Method.name ∧
        numbered method.name k ∉ (renamed before named).map fun pair => pair.2.name} number
  messages : renames.map Rename.message = (renamed methods named).map fun pair =>
    Text.upperString pair.1.httpMethod ++ " " ++ pair.1.path ++ ": method " ++ pair.1.name
      ++ " renamed to " ++ pair.2.name

/-! ## Numbers -/

theorem le_freeNumber (taken : List String) (name : String) (fuel number : Nat) :
    number ≤ freeNumber taken name fuel number := by
  induction fuel generalizing number with
  | zero => exact Nat.le_refl number
  | succ fuel ih =>
    rw [freeNumber]
    split
    · exact Nat.le_of_succ_le (ih (number + 1))
    · exact Nat.le_refl number

theorem isLeast_freeNumber (taken : List String) (name : String) :
    IsLeast {k | 2 ≤ k ∧ numbered name k ∉ taken} (freeNumber taken name (taken.length + 1) 2) := by
  refine ⟨⟨le_freeNumber _ _ _ _, numbered_freeNumber_notMem taken name 2⟩, ?_⟩
  intro k ⟨hle, hfree⟩
  by_contra hlt
  exact hfree (mem_of_lt_freeNumber hle (Nat.not_le.1 hlt))

theorem numbered_ne (name : String) (number : Nat) : numbered name number ≠ name := by
  intro heq
  have hlists := congrArg String.toList heq
  rw [toList_numbered] at hlists
  exact Nat.toDigits_ne_nil (List.append_right_eq_self.1 hlists)

/-! ## Method by method -/

section

variable {seen taken : List String} {method now : Method} {methods named : List Method}

theorem renamed_cons_of_ne (h : now.name ≠ method.name) :
    renamed (method :: methods) (now :: named) = (method, now) :: renamed methods named := by
  simp [renamed, h.symm]

theorem renamed_cons_of_eq (h : now.name = method.name) :
    renamed (method :: methods) (now :: named) = renamed methods named := by
  simp [renamed, h]

theorem distinguishFrom_of_mem (h : method.name ∈ seen) (rest : List Method) :
    distinguishFrom seen taken (method :: rest) =
      let name := numbered method.name (freeNumber taken method.name (taken.length + 1) 2)
      let later := distinguishFrom (name :: seen) (name :: taken) rest
      ({ method with name := name } :: later.1,
        ⟨method.httpMethod, method.path, method.name, name⟩ :: later.2) := by
  rw [distinguishFrom, if_pos h]

theorem distinguishFrom_of_notMem (h : method.name ∉ seen) (rest : List Method) :
    distinguishFrom seen taken (method :: rest) =
      let later := distinguishFrom (method.name :: seen) taken rest
      (method :: later.1, later.2) := by
  rw [distinguishFrom, if_neg h]

variable (seen taken)

/-- What comes behind some methods finds the names that these have got. -/
theorem distinguishFrom_append (before rest : List Method) :
    distinguishFrom seen taken (before ++ rest) =
      let first := distinguishFrom seen taken before
      let later := distinguishFrom ((first.1.map Method.name).reverse ++ seen)
        ((first.2.map Rename.newName).reverse ++ taken) rest
      (first.1 ++ later.1, first.2 ++ later.2) := by
  induction before generalizing seen taken with
  | nil => rfl
  | cons method before ih =>
    rw [List.cons_append]
    by_cases h : method.name ∈ seen
    · simp [distinguishFrom_of_mem h, ih]
    · simp [distinguishFrom_of_notMem h, ih]

theorem forall₂_distinguishFrom (methods : List Method) :
    List.Forall₂ (fun method now => now = { method with name := now.name }) methods
      (distinguishFrom seen taken methods).1 := by
  induction methods generalizing seen taken with
  | nil => exact .nil
  | cons method rest ih =>
    by_cases h : method.name ∈ seen
    · rw [distinguishFrom_of_mem h]
      exact .cons rfl (ih _ _)
    · rw [distinguishFrom_of_notMem h]
      exact .cons rfl (ih _ _)

theorem renames_distinguishFrom (methods : List Method) :
    (distinguishFrom seen taken methods).2 =
      (renamed methods (distinguishFrom seen taken methods).1).map fun pair =>
        ⟨pair.1.httpMethod, pair.1.path, pair.1.name, pair.2.name⟩ := by
  induction methods generalizing seen taken with
  | nil => rfl
  | cons method rest ih =>
    by_cases h : method.name ∈ seen
    · rw [distinguishFrom_of_mem h, renamed_cons_of_ne (numbered_ne method.name _), List.map_cons, ← ih]
    · rw [distinguishFrom_of_notMem h, renamed_cons_of_eq rfl, ← ih]

variable {seen taken}

/-- A name that is given is one that a method came with, or is new. -/
theorem mem_or_notMem_taken {name : String}
    (h : name ∈ (distinguishFrom seen taken methods).1.map Method.name) :
    name ∈ methods.map Method.name ∨ name ∉ taken := by
  induction methods generalizing seen taken with
  | nil => cases h
  | cons method rest ih =>
    rw [List.map_cons, List.mem_cons]
    by_cases hseen : method.name ∈ seen
    · rw [names_distinguishFrom_of_mem hseen] at h
      rcases List.mem_cons.1 h with rfl | hrest
      · exact .inr (numbered_freeNumber_notMem taken method.name 2)
      · exact (ih hrest).imp .inr fun hnew hmem => hnew (List.mem_cons_of_mem _ hmem)
    · rw [names_distinguishFrom_of_notMem hseen] at h
      rcases List.mem_cons.1 h with rfl | hrest
      · exact .inl (.inl rfl)
      · exact (ih hrest).imp .inr id

/-- Distinct names stay as they are. -/
theorem distinguishFrom_of_nodup (hnodup : (methods.map Method.name).Nodup)
    (hnew : ∀ method ∈ methods, method.name ∉ seen) :
    distinguishFrom seen taken methods = (methods, []) := by
  induction methods generalizing seen with
  | nil => rfl
  | cons method rest ih =>
    obtain ⟨hmethod, hrest⟩ := List.forall_mem_cons.1 hnew
    obtain ⟨hother, hnodup⟩ := List.nodup_cons.1 hnodup
    have hlater : ∀ next ∈ rest, next.name ∉ method.name :: seen := by
      intro next hnext hmem
      rcases List.mem_cons.1 hmem with heq | hmem
      · exact hother (heq ▸ List.mem_map_of_mem hnext)
      · exact hrest next hnext hmem
    rw [distinguishFrom_of_notMem hmethod, ih hnodup hlater]

end

theorem exists_of_mem_distinguish {methods : List Method} {now : Method}
    (h : now ∈ (distinguish methods).1) :
    ∃ method ∈ methods, now = { method with name := now.name } := by
  have hall := forall₂_distinguishFrom [] (methods.map Method.name) methods
  rw [← distinguish] at hall
  generalize (distinguish methods).1 = named at h hall
  induction hall with
  | nil => cases h
  | @cons method first _ _ hfirst _ ih =>
    rcases List.mem_cons.1 h with rfl | hrest
    · exact ⟨method, List.mem_cons_self, hfirst⟩
    · obtain ⟨method, hmethod, hname⟩ := ih hrest
      exact ⟨method, List.mem_cons_of_mem _ hmethod, hname⟩

/-! ## All methods -/

section

variable {methods before after : List Method} {method : Method}

/-- A method finds its name among those in front of it exactly if one of them came with it. -/
theorem mem_names_before_iff (h : method ∈ methods) :
    method.name ∈ (distinguishFrom [] (methods.map Method.name) before).1.map Method.name ↔
      method.name ∈ before.map Method.name := by
  constructor
  · intro hmem
    exact (mem_or_notMem_taken hmem).resolve_right fun hnew => hnew (List.mem_map_of_mem h)
  · intro hmem
    obtain ⟨first, hfirst, hname⟩ := List.mem_map.1 hmem
    rw [← hname]
    exact (mem_names_distinguishFrom hfirst).resolve_left List.not_mem_nil

/-- What the methods in front of one have become, and it is the next to be looked at. -/
theorem distinguish_split (h : methods = before ++ method :: after) :
    let first := distinguishFrom [] (methods.map Method.name) before
    let given := (renamed before (distinguish methods).1).map fun pair => pair.2.name
    first.1.length = before.length ∧ (distinguish methods).1 = first.1 ++
      (distinguishFrom ((first.1.map Method.name).reverse ++ [])
        (given.reverse ++ methods.map Method.name) (method :: after)).1 := by
  intro first given
  have hlength : first.1.length = before.length := (forall₂_distinguishFrom _ _ before).length_eq.symm
  have happend : (distinguish methods).1 = first.1 ++
      (distinguishFrom ((first.1.map Method.name).reverse ++ [])
        ((first.2.map Rename.newName).reverse ++ methods.map Method.name) (method :: after)).1 := by
    have hall := congrArg Prod.fst
      (distinguishFrom_append [] (methods.map Method.name) before (method :: after))
    rwa [← h] at hall
  have hgiven : first.2.map Rename.newName = given := by
    have hzip : ∀ later, before.zip (first.1 ++ later) = before.zip first.1 := by
      intro later
      have hzip : (before ++ []).zip (first.1 ++ later) = before.zip first.1 ++ [].zip later :=
        List.zip_append hlength.symm
      simpa using hzip
    have hrenames : first.2 = _ := renames_distinguishFrom [] (methods.map Method.name) before
    rw [hrenames, List.map_map]
    show (renamed before first.1).map _ = (renamed before (distinguish methods).1).map _
    rw [happend, renamed, renamed, hzip]
    rfl
  exact ⟨hlength, hgiven ▸ happend⟩

end

/-- **Telling methods apart.** Whatever the methods are, all of them stay, in order, and change nothing but
their names. The names are distinct, the first method of a name keeps it, and a later one gets the least
number that gives a new name; each such change is told once, in order. Told apart once more, they stay as
they are. -/
theorem distinguish_toldApart (methods : List Method) :
    ToldApart methods (distinguish methods).1 (distinguish methods).2 ∧
      distinguish (distinguish methods).1 = ((distinguish methods).1, []) := by
  refine ⟨⟨forall₂_distinguishFrom _ _ methods, nodup_names_distinguish methods, ?_, ?_, ?_⟩, ?_⟩
  · intro before method after hmethods hname
    obtain ⟨hlength, happend⟩ := distinguish_split hmethods
    have hmem : method ∈ methods := by simp [hmethods]
    have hnew := mt (mem_names_before_iff hmem).1 hname
    rw [happend, distinguishFrom_of_notMem (by simpa using hnew), ← hlength]
    simp
  · intro before method after hmethods hname
    obtain ⟨hlength, happend⟩ := distinguish_split hmethods
    have hmem : method ∈ methods := by simp [hmethods]
    have hold := (mem_names_before_iff hmem).2 hname
    generalize (renamed before (distinguish methods).1).map (fun pair => pair.2.name) = given
      at happend ⊢
    have hleast := isLeast_freeNumber (given.reverse ++ methods.map Method.name) method.name
    rw [distinguishFrom_of_mem (by simpa using hold)] at happend
    generalize freeNumber _ method.name _ 2 = number at happend hleast
    refine ⟨number, ?_, ?_⟩
    · rw [happend, ← hlength]
      simp
    · simpa only [List.mem_append, List.mem_reverse, not_or, and_comm] using hleast
  · rw [distinguish, renames_distinguishFrom, List.map_map]
    rfl
  · exact distinguishFrom_of_nodup (nodup_names_distinguish methods) fun _ _ => List.not_mem_nil

end ApiBindings.Client

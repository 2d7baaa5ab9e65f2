import ApiBindings.Proofs.Value.Unfolding

/-!
# Values and their trees

What a value is can be seen from its tree, and the fields of a mapping are those of its tree.
-/

namespace ApiBindings

/-- What a message calls the kind of a value. -/
def Tree.kindName : Tree → String
  | .scalar value => value.kindName
  | .list _ => "list"
  | .mapping _ => "dict"
  | .set _ => "set"
  | .pair _ _ => "tuple"

namespace Graph

section

variable {graph : Graph} {value : Value} {tree part : Tree}

theorem kindName_eq_of_unfolds (h : graph.Unfolds value tree) : value.kindName = tree.kindName := by
  obtain ⟨n, hn⟩ := h
  rw [← hn (n + 1) (Nat.le_succ n)]
  cases value <;> rfl

theorem mapping_iff_of_unfolds (h : graph.Unfolds value tree) :
    (∃ id, value = .mapping id) ↔ ∃ entries, tree = .mapping entries := by
  constructor
  · rintro ⟨id, rfl⟩
    exact h.of_mapping
  · rintro ⟨entries, rfl⟩
    obtain ⟨id, rfl, -⟩ := h.mapping
    exact ⟨id, rfl⟩

theorem null_iff_of_unfolds (h : graph.Unfolds value tree) :
    value = .scalar .null ↔ tree = .scalar .null := by
  constructor
  · rintro rfl
    obtain ⟨n, hn⟩ := h
    exact (hn (n + 1) (Nat.le_succ n)).symm
  · rintro rfl
    exact h.scalar

end

/-! ## The fields of a mapping -/

/-- The entries of a mapping and their trees. -/
def UnfoldEntries (graph : Graph) : Entries Value → List (Scalar × Tree) → Prop :=
  List.Forall₂ fun entry tree => entry.1 = tree.1 ∧ graph.Unfolds entry.2 tree.2

section

variable {graph : Graph} {value : Value} {tree part : Tree} {entries : Entries Value}
  {trees : List (Scalar × Tree)} {name : String}

theorem UnfoldEntries.field?
    (h : UnfoldEntries graph entries trees) (name : String) :
    Option.Rel graph.Unfolds (entries.field? name) (Entries.field? trees name) := by
  unfold Entries.field?
  induction h with
  | nil => exact .none
  | @cons entry tree _ _ hentry _ ih =>
    obtain ⟨key, value⟩ := entry
    obtain ⟨key', tree⟩ := tree
    obtain ⟨rfl, hvalue⟩ := hentry
    rw [Entries.get?, Entries.get?]
    split
    · exact .some hvalue
    · exact ih

theorem UnfoldEntries.exists_tree (h : UnfoldEntries graph entries trees)
    (hvalue : entries.field? name = some value) :
    ∃ tree, Entries.field? trees name = some tree ∧ graph.Unfolds value tree := by
  rcases cases_of_rel (h.field? name) with ⟨hnone, -⟩ | ⟨_, tree, hsome, htree, hunfolds⟩
  · rw [hnone] at hvalue
    cases hvalue
  · rw [hsome] at hvalue
    cases hvalue
    exact ⟨tree, htree, hunfolds⟩

theorem UnfoldEntries.exists_value (h : UnfoldEntries graph entries trees)
    (htree : Entries.field? trees name = some tree) :
    ∃ value, entries.field? name = some value ∧ graph.Unfolds value tree := by
  rcases cases_of_rel (h.field? name) with ⟨-, hnone⟩ | ⟨value, _, hvalue, hsome, hunfolds⟩
  · rw [hnone] at htree
    cases htree
  · rw [hsome] at htree
    cases htree
    exact ⟨value, hvalue, hunfolds⟩

theorem UnfoldEntries.keys (h : UnfoldEntries graph entries trees) :
    entries.map Prod.fst = trees.map Prod.fst := by
  induction h with
  | nil => rfl
  | cons hentry _ ih => rw [List.map_cons, List.map_cons, hentry.1, ih]

theorem exists_mem_of_field? (h : Entries.field? trees name = some part) :
    ∃ key, (key, part) ∈ trees := by
  unfold Entries.field? at h
  induction trees with
  | nil => cases h
  | cons tree trees ih =>
    obtain ⟨key, tree⟩ := tree
    rw [Entries.get?] at h
    split at h
    · cases h
      exact ⟨key, List.mem_cons_self⟩
    · obtain ⟨key, hmem⟩ := ih h
      exact ⟨key, List.mem_cons_of_mem _ hmem⟩

theorem sizeOf_lt_of_field? (h : Entries.field? trees name = some part) :
    sizeOf part < sizeOf (Tree.mapping trees) := by
  obtain ⟨key, hmem⟩ := exists_mem_of_field? h
  exact sizeOf_lt_mapping hmem

end

end Graph

end ApiBindings

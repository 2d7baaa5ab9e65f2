import ApiBindings.Proofs.Naming.Distinct
import ApiBindings.Schema.Type

/-!
# References of schemas

The schemas that the type of a schema needs are those that the schema refers to anywhere in its tree, its
owner excepted, each once (`references_resolve`). The type itself does not depend on the owner
(`type_resolve`).
-/

namespace ApiBindings.Schema.Node

mutual

/-- The names of all references in a schema, from the first to the last and with repetitions. What a
composition is based on comes before what its properties refer to. -/
def refs : Node → List String
  | .array (some items) => items.refs
  | .object properties _ => refsOf properties
  | .reference name => [name]
  | .composite bases properties _ => bases ++ refsOf properties
  | _ => []

/-- The names of all references in some properties. -/
def refsOf : List (String × Node) → List String
  | [] => []
  | (_, property) :: rest => property.refs ++ refsOf rest

end

/-- What a schema is based on. -/
def bases : Node → List String
  | .composite bases _ _ => bases
  | _ => []

/-! ## What a type needs -/

theorem othersThan_subset (owner : String) (names : List String) : othersThan owner names ⊆ names := by
  intro name hname
  rw [othersThan, Naming.distinct_eq_eraseDups, List.mem_eraseDups] at hname
  exact (List.mem_filter.1 hname).1

theorem othersThan_append (owner : String) (names more : List String) :
    othersThan owner (names ++ more) =
      Naming.merge (othersThan owner names) (more.filter (· ≠ owner)) := by
  rw [othersThan, List.filter_append, Naming.distinct_append, othersThan]

theorem merge_othersThan (owner : String) (kept names more : List String) :
    Naming.merge (Naming.merge kept (othersThan owner names)) (more.filter (· ≠ owner)) =
      Naming.merge kept ((names ++ more).filter (· ≠ owner)) := by
  rw [othersThan, Naming.merge_distinct, List.filter_append, Naming.merge_append]

/-- A composition without properties of its own needs nothing for them. -/
theorem references_composite (owner : String) (bases : List String)
    (properties : List (String × Node)) (required : List String) :
    ((composite bases properties required).resolve owner).references =
      Naming.merge (othersThan owner bases) (resolveMembers owner properties []).2 := by
  rw [resolve]
  cases properties with
  | nil =>
    cases bases with
    | nil => rfl
    | cons base rest => rfl
  | cons property rest => rfl

mutual

/-- **What a type needs.** The references of a schema other than its owner, each once. -/
theorem references_resolve (owner : String) :
    ∀ node : Node, (node.resolve owner).references = othersThan owner node.refs
  | .malformed => rfl
  | .primitive _ _ => rfl
  | .array none => rfl
  | .array (some items) => by
    rw [resolve, refs]
    exact references_resolve owner items
  | .object properties _ => by
    rw [resolve, refs]
    exact references_resolveMembers owner properties []
  | .reference name => by
    rw [resolve, refs, othersThan]
    by_cases hname : name = owner
    · simp [hname, Naming.distinct]
    · simp [hname, Naming.distinct, Naming.addName]
  | .enumeration _ => rfl
  | .composite bases properties required => by
    have hmembers := references_resolveMembers owner properties []
    rw [references_composite, hmembers, Naming.merge_merge, Naming.merge_nil, refs,
      othersThan_append]

theorem references_resolveMembers (owner : String) :
    ∀ (properties : List (String × Node)) (kept : List String),
      (resolveMembers owner properties kept).2 =
        Naming.merge kept ((refsOf properties).filter (· ≠ owner))
  | [], _ => rfl
  | (name, property) :: rest, kept => by
    have hproperty := references_resolve owner property
    have hrest := references_resolveMembers owner rest
      (Naming.merge kept (property.resolve owner).references)
    rw [hproperty] at hrest
    rw [resolveMembers, refsOf, hproperty, ← merge_othersThan, ← hrest]

end

/-! ## Types and owners -/

mutual

/-- The owner of a declaration does not change the type. -/
theorem type_resolve (owner other : String) :
    ∀ node : Node, (node.resolve other).type = (node.resolve owner).type
  | .malformed => rfl
  | .primitive _ _ => rfl
  | .array none => rfl
  | .array (some items) => by
    have hitems := type_resolve owner other items
    rw [resolve, resolve]
    exact congrArg TypeScript.TypeExpr.array hitems
  | .object properties _ => by
    have hmembers := members_resolveMembers owner other properties [] []
    rw [resolve, resolve]
    exact congrArg objectType hmembers
  | .reference name => rfl
  | .enumeration _ => rfl
  | .composite bases properties _ => by
    have hmembers := members_resolveMembers owner other properties [] []
    rw [resolve, resolve]
    split
    · rfl
    · simp only [hmembers]

theorem members_resolveMembers (owner other : String) :
    ∀ (properties : List (String × Node)) (kept kept' : List String),
      (resolveMembers other properties kept').1 = (resolveMembers owner properties kept).1
  | [], _, _ => rfl
  | (name, property) :: rest, kept, kept' => by
    have hproperty := type_resolve owner other property
    have hrest := members_resolveMembers owner other rest
      (Naming.merge kept (property.resolve owner).references)
      (Naming.merge kept' (property.resolve other).references)
    rw [resolveMembers, resolveMembers]
    simp only [hproperty, hrest]

end

end ApiBindings.Schema.Node

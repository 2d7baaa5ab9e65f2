import ApiBindings.Proofs.Schema.Sharing
import ApiBindings.Proofs.Schema.Unrolling

/-!
# Schemas with aliases

The values of a document form a graph, in which schemas may share parts and may stand inside themselves.
-/

namespace ApiBindings

open Schema (Reading readAt)

namespace Graph

/-- A graph has no loops if there is a rank that falls from each container to those that it holds. -/
theorem isLoopFree_of_rank {graph : Graph} (rank : Container → Nat)
    (h : ∀ outer inner, graph.Holds outer inner → rank inner < rank outer) (value : Value) :
    graph.IsLoopFree value := by
  have hlt : ∀ outer inner, Relation.TransGen graph.Holds outer inner → rank inner < rank outer := by
    intro outer inner hpath
    induction hpath with
    | single hstep => exact h _ _ hstep
    | tail _ hstep ih => exact Nat.lt_trans (h _ _ hstep) ih
  exact fun c _ hloop => Nat.lt_irrefl _ (hlt c c hloop)

end Graph

/-- **Schemas of a graph.** Reading a schema ends: with enough room, of which there is some for every
graph, its outcome is always the same and never that there was too little room, and with any room it is
this outcome or that one. If there are no loops, the value can be written out as a tree, and reading the
tree, in which nothing is shared, has the same outcome, in which nothing is told of a loop. A mapping
that is met again inside itself is malformed and leaves one issue at its location, and everything else is
read as it is with some misplaced scalar there. -/
theorem readAt_aliases (graph : Graph) (value : Value) (location : String) :
    (∃ outcome, outcome ≠ .error .depth ∧
      (∀ room, 6 * graph.depthLimit ≤ room → readAt graph room [] value location = outcome) ∧
      ∀ room, readAt graph room [] value location = .error .depth ∨
        readAt graph room [] value location = outcome) ∧
    (graph.IsLoopFree value →
      (∀ depth, graph.depthLimit ≤ depth → graph.unfoldTo depth value = graph.unfold value) ∧
      (∀ room, readAt graph room [] value location =
        readAt (Graph.ofTree (graph.unfold value)).1 room []
          (Graph.ofTree (graph.unfold value)).2 location) ∧
      ∀ room reading, readAt graph room [] value location = .ok reading →
        ∀ issue ∈ reading.issues, issue.problem ≠ .selfContained) ∧
    (∀ room path, ∀ id ∈ path, readAt graph (room + 5) path (.mapping id) location =
      .ok ⟨.malformed, [⟨location, .selfContained⟩]⟩) ∧
    (graph.IsClosed → graph.Has value → ∀ leaf, leaf ≠ .null → ∀ room,
      readAt (graph.graft (graph.unroll leaf value)).1 room []
          (graph.graft (graph.unroll leaf value)).2 location =
        (readAt graph room [] value location).map (Reading.marked (.notMapping leaf.kindName))) := by
  refine ⟨⟨readAt graph (6 * graph.depthLimit) [] value location, ?_, ?_, ?_⟩, ?_, ?_, ?_⟩
  · exact Schema.readAt_ne_depth_of_le (Nat.le_refl _) location
  · exact fun room hroom => Schema.readAt_eq_of_le hroom location
  · intro room
    rcases Nat.le_total room (6 * graph.depthLimit) with hroom | hroom
    · exact Schema.readAt_deeper hroom location
    · exact .inr (Schema.readAt_eq_of_le hroom location)
  · intro hfree
    have hvalue := Graph.unfolds_unfold hfree
    refine ⟨fun depth => Graph.unfoldTo_of_isLoopFree hfree, fun room => ?_, fun room reading => ?_⟩
    · exact Schema.readAt_of_unfolds hvalue (Graph.unfolds_ofTree _) room location
    · exact Schema.problem_ne_selfContained hvalue
  · exact fun room path id hid => Schema.readAt_met graph room location hid
  · exact fun hclosed hvalue leaf hleaf room =>
      Schema.readAt_graft hclosed hvalue hleaf room location

example : Schema.read ⟨#[], #[[(.text "type", .text "array"), (.text "items", .mapping 0)]], #[], #[]⟩
    (.mapping 0) "S" = .ok ⟨.array (some .malformed), [⟨"S.items", .selfContained⟩]⟩ := by
  rfl

/-- A schema with two properties that are one mapping. -/
def sharedSchema : Graph where
  lists := #[]
  mappings := #[[(.text "type", .text "string")],
    [(.text "a", .mapping 0), (.text "b", .mapping 0)], [(.text "properties", .mapping 1)]]
  sets := #[]
  pairs := #[]

/-- A schema of arrays whose elements are such arrays again. -/
def loopedSchema : Graph where
  lists := #[]
  mappings := #[[(.text "type", .text "array"), (.text "items", .mapping 0)]]
  sets := #[]
  pairs := #[]

theorem sharedSchema_isLoopFree (value : Value) : sharedSchema.IsLoopFree value := by
  let rank : Graph.Container → Nat
    | .mapping id => id
    | _ => 0
  apply Graph.isLoopFree_of_rank rank
  intro outer inner hholds
  unfold Graph.Holds at hholds
  rcases outer with id | (_ | _ | _ | id) | id
  · simp [Graph.held, Graph.items, sharedSchema] at hholds
  · simp [Graph.held, Graph.entries, sharedSchema] at hholds
    cases inner <;> cases hholds
  · simp [Graph.held, Graph.entries, sharedSchema] at hholds
    cases inner <;> cases hholds
    decide
  · simp [Graph.held, Graph.entries, sharedSchema] at hholds
    cases inner <;> cases hholds
    decide
  · simp [Graph.held, Graph.entries, sharedSchema] at hholds
  · simp [Graph.held, Graph.parts, sharedSchema] at hholds
    cases inner <;> cases hholds

theorem loopedSchema_isClosed : loopedSchema.IsClosed := by
  intro c value hvalue
  rcases c with id | (_ | id) | id
  · simp [Graph.held, Graph.items, loopedSchema] at hvalue
  · simp [Graph.held, Graph.entries, loopedSchema] at hvalue
    rcases hvalue with rfl | rfl
    · trivial
    · exact Nat.one_pos
  · simp [Graph.held, Graph.entries, loopedSchema] at hvalue
  · simp [Graph.held, Graph.parts, loopedSchema] at hvalue
    rw [hvalue]
    trivial

theorem shared_and_looped_read :
    (sharedSchema.IsLoopFree (.mapping 2) ∧ ∀ room,
      readAt sharedSchema room [] (.mapping 2) "S" =
        readAt (Graph.ofTree (sharedSchema.unfold (.mapping 2))).1 room []
          (Graph.ofTree (sharedSchema.unfold (.mapping 2))).2 "S") ∧
    loopedSchema.IsClosed ∧ loopedSchema.Has (.mapping 0) ∧ Scalar.int 0 ≠ .null ∧ ∀ room,
      readAt (loopedSchema.graft (loopedSchema.unroll (.int 0) (.mapping 0))).1 room []
          (loopedSchema.graft (loopedSchema.unroll (.int 0) (.mapping 0))).2 "S" =
        (readAt loopedSchema room [] (.mapping 0) "S").map (Reading.marked (.notMapping "int")) := by
  have hshared := sharedSchema_isLoopFree (.mapping 2)
  have hhas : loopedSchema.Has (.mapping 0) := Nat.one_pos
  obtain ⟨-, htree, -, -⟩ := readAt_aliases sharedSchema (.mapping 2) "S"
  obtain ⟨-, -, -, hunrolled⟩ := readAt_aliases loopedSchema (.mapping 0) "S"
  refine ⟨⟨hshared, (htree hshared).2.1⟩, loopedSchema_isClosed, hhas, nofun, ?_⟩
  exact hunrolled loopedSchema_isClosed hhas (.int 0) nofun

end ApiBindings

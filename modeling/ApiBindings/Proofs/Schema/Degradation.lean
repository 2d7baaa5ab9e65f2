import ApiBindings.Proofs.Schema.Logging
import ApiBindings.Proofs.Schema.Replacement

/-!
# Malformed schemas cost only themselves

A schema that is no mapping is read as malformed, and nothing else of what it stands in is read differently
for that, however deep it stands (`readAt_degraded`).
-/

namespace ApiBindings

open Schema

/-- **Degradation.** Putting something that is neither a mapping nor null in the place of a schema to which
elements of arrays and properties of objects lead makes the schema malformed in this place and changes
nothing else. One issue at the location of the place stands instead of those found in it before; the issues
before and after these stay. All this holds with a log of issues and without one. -/
theorem readAt_degraded {graph : Graph} {value : Value} {tree : Tree}
    (htree : graph.Unfolds value tree) {room : Nat} {location : String} {reading : Reading}
    (hread : readAt graph room [] value location = .ok reading) {descents : List Descent} {node : Node}
    (hnode : reading.node.at? descents = some node) :
    (∀ log, readInto graph room [] value location log =
      .ok (reading.node, log.map (· ++ reading.issues))) ∧
    ∃ part place less inside before after,
      tree.reach? descents location = some (part, place) ∧
      readTree less part place = .ok inside ∧ inside.node = node ∧
      reading.issues = before ++ inside.issues ++ after ∧
      ∀ new, (∀ entries, new ≠ .mapping entries) → new ≠ .scalar .null →
        ∀ (other : Graph) (value' : Value), other.Unfolds value' (tree.replaceAt descents new) →
          let degraded := reading.node.replaceAt descents .malformed
          let issues := before ++ ⟨place, .notMapping new.kindName⟩ :: after
          readAt other room [] value' location = .ok ⟨degraded, issues⟩ ∧
          ∀ log, readInto other room [] value' location log = .ok (degraded, log.map (· ++ issues)) := by
  refine ⟨fun log => ?_, ?_⟩
  · rw [readInto_eq, hread]
    rfl
  rw [readAt_eq_readTree htree] at hread
  obtain ⟨part, place, less, inside, before, after, hreach, hinside, hsame, hissues, hnew⟩ :=
    readTree_replaceAt descents hread hnode
  refine ⟨part, place, less, inside, before, after, hreach, hinside, hsame, hissues, ?_⟩
  intro new hmapping hnull other value' hother
  have hless : ¬ less < 5 := by
    intro htiny
    rw [readTree, readAt_tiny _ less [] place _ htiny] at hinside
    cases hinside
  obtain ⟨enough, rfl⟩ : ∃ n, less = n + 5 := ⟨less - 5, by omega⟩
  have hfault := readTree_of_ne_mapping hmapping enough place
  have hdegraded : readAt other room [] value' location = _ :=
    (readAt_eq_readTree hother room location).trans (hnew new _ hnull hfault)
  have hlist : before ++ (Reading.fault place (.notMapping new.kindName)).issues ++ after =
      before ++ ⟨place, .notMapping new.kindName⟩ :: after := by
    simp [Reading.fault]
  rw [hlist] at hdegraded
  refine ⟨hdegraded, fun log => ?_⟩
  rw [readInto_eq, hdegraded]
  rfl

/-- An object with three malformed properties, the second one an array of malformed elements. -/
def nestedFaults : Tree :=
  .mapping [(.text "properties", .mapping [(.text "x", .scalar (.int 1)),
    (.text "a", .mapping [(.text "type", .scalar (.text "array")),
      (.text "items", .mapping [(.text "enum", .scalar (.int 5))])]),
    (.text "b", .scalar (.bool true))])]

theorem nestedFaults_degraded :
    ∃ reading, readTree 992 nestedFaults "S" = .ok reading ∧
      reading.node.at? [.property 1, .element] = some .malformed ∧
      (∀ entries, Tree.list [] ≠ .mapping entries) ∧ Tree.list [] ≠ .scalar .null ∧
      ∃ inside before after, reading.issues = before ++ inside ++ after ∧
        readTree 992 (nestedFaults.replaceAt [.property 1, .element] (.list [])) "S" =
          .ok ⟨.object [("x", .malformed), ("a", .array (some .malformed)), ("b", .malformed)] [],
            before ++ ⟨"S.properties.a.items", .notMapping "list"⟩ :: after⟩ := by
  have htree := Graph.unfolds_ofTree nestedFaults
  have hread : readTree 992 nestedFaults "S" =
      .ok ⟨.object [("x", .malformed), ("a", .array (some .malformed)), ("b", .malformed)] [],
        [⟨"S.properties.x", .notMapping "int"⟩, ⟨"S.properties.a.items", .enumNotList⟩,
          ⟨"S.properties.b", .notMapping "bool"⟩]⟩ := rfl
  have hnode : (Node.object [("x", .malformed), ("a", .array (some .malformed)), ("b", .malformed)]
      []).at? [.property 1, .element] = some .malformed := rfl
  obtain ⟨-, part, place, less, inside, before, after, hreach, -, -, hissues, hdegraded⟩ :=
    readAt_degraded htree hread hnode
  have hplace : nestedFaults.reach? [.property 1, .element] "S" =
      some (.mapping [(.text "enum", .scalar (.int 5))], "S.properties.a.items") := rfl
  cases hreach.symm.trans hplace
  have hnew := hdegraded (.list []) nofun nofun _ _ (Graph.unfolds_ofTree _)
  exact ⟨_, hread, hnode, nofun, nofun, inside.issues, before, after, hissues, hnew.1⟩

end ApiBindings

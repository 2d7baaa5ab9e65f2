import ApiBindings.Proofs.Schema.Sharing
import ApiBindings.Proofs.Value.Written

/-!
# Schemas inside schemas

Some descents lead from a schema to the element of an array or to a property of an object, and on from
there. They lead to a position in what is read and to one in the value that it is read from.
-/

namespace ApiBindings

namespace Schema

/-- A step from a schema to a schema inside it. -/
inductive Descent where
  | element
  | property (index : Nat)
  deriving DecidableEq, Repr

/-- The schema that descents lead to. -/
def Node.at? : Node → List Descent → Option Node
  | node, [] => some node
  | .array (some items), .element :: descents => items.at? descents
  | .object properties _, .property index :: descents =>
    properties[index]?.bind fun property => property.2.at? descents
  | _, _ :: _ => none

/-- A schema with another one in the position that descents lead to. -/
def Node.replaceAt : Node → List Descent → Node → Node
  | _, [], new => new
  | .array (some items), .element :: descents, new => .array (some (items.replaceAt descents new))
  | .object properties required, .property index :: descents, new =>
    match properties[index]? with
    | some (name, property) =>
      .object (properties.set index (name, property.replaceAt descents new)) required
    | none => .object properties required
  | node, _ :: _, _ => node

end Schema

open Schema

/-- The value of a schema that descents lead to, and its location. -/
def Tree.reach? : Tree → List Descent → String → Option (Tree × String)
  | tree, [], location => some (tree, location)
  | .mapping entries, .element :: descents, location =>
    (Entries.field? entries "items").bind fun items => items.reach? descents (location ++ ".items")
  | .mapping entries, .property index :: descents, location =>
    match Entries.field? entries "properties" with
    | some (.mapping properties) => properties[index]?.bind fun property =>
      property.2.reach? descents (propertyLocation location property.1.toText)
    | _ => none
  | _, _ :: _, _ => none

/-- The value of a schema with another one in the position that descents lead to. -/
def Tree.replaceAt : Tree → List Descent → Tree → Tree
  | _, [], new => new
  | .mapping entries, .element :: descents, new =>
    match Entries.field? entries "items" with
    | some items => .mapping (Entries.set (.text "items") (items.replaceAt descents new) entries)
    | none => .mapping entries
  | .mapping entries, .property index :: descents, new =>
    match Entries.field? entries "properties" with
    | some (.mapping properties) =>
      match properties[index]? with
      | some (key, property) =>
        let replaced := properties.set index (key, property.replaceAt descents new)
        .mapping (Entries.set (.text "properties") (.mapping replaced) entries)
      | none => .mapping entries
    | _ => .mapping entries
  | tree, _ :: _, _ => tree

namespace Schema

/-- The reading of a schema whose value is written out. -/
def readTree (room : Nat) (tree : Tree) (location : String) : Limited Reading :=
  readAt (Graph.ofTree tree).1 room [] (Graph.ofTree tree).2 location

/-! ## The positions -/

section

variable {whole node : Node} {descents : List Descent}

theorem exists_of_at?_element (h : whole.at? (.element :: descents) = some node) :
    ∃ items, whole = .array (some items) ∧ items.at? descents = some node := by
  cases whole with
  | array items =>
    cases items with
    | none => simp [Node.at?] at h
    | some items => exact ⟨items, rfl, by simpa only [Node.at?] using h⟩
  | _ => simp [Node.at?] at h

theorem exists_of_at?_property {index : Nat}
    (h : whole.at? (.property index :: descents) = some node) :
    ∃ properties required name property, whole = .object properties required ∧
      properties[index]? = some (name, property) ∧ property.at? descents = some node := by
  cases whole with
  | object properties required =>
    simp only [Node.at?, Option.bind_eq_some_iff] at h
    obtain ⟨⟨name, property⟩, hproperty, hnode⟩ := h
    exact ⟨properties, required, name, property, rfl, hproperty, hnode⟩
  | _ => simp [Node.at?] at h

theorem at?_malformed (descent : Descent) : Node.malformed.at? (descent :: descents) = none := by
  simp [Node.at?]

end

theorem replaceAt_ne_null {tree new : Tree} {descents : List Descent} (htree : tree ≠ .scalar .null)
    (hnew : new ≠ .scalar .null) : tree.replaceAt descents new ≠ .scalar .null := by
  fun_cases Tree.replaceAt tree descents new with
  | case1 => exact hnew
  | case7 => exact htree
  | _ => exact nofun

/-! ## Reading trees -/

section

variable {graph : Graph} {value : Value} {tree part : Tree} {location : String}

theorem readAt_eq_readTree (h : graph.Unfolds value tree) (room : Nat) (location : String) :
    readAt graph room [] value location = readTree room tree location :=
  readAt_of_unfolds h (Graph.unfolds_ofTree tree) room location

/-- A part is read inside its mapping as it is read alone. -/
theorem readAt_inside {id : Nat} (hwhole : graph.Unfolds (.mapping id) tree)
    (h : graph.Unfolds value part) (hlt : sizeOf part < sizeOf tree) (room : Nat) (location : String) :
    readAt graph room [id] value location = readTree room part location := by
  have hout : graph.Outside part [.mapping id] :=
    (Graph.outside_nil graph tree).cons (c := .mapping id) hwhole hlt
  have hread : readAt (Graph.ofTree part).1 room [] (Graph.ofTree part).2 location =
      (readAt graph room [id] value location).map (Reading.marked .selfContained) :=
    Limited.follows_exact_iff.1 <| (isWalk_haveTree graph _ .selfContained).readAt location
      ⟨rfl, part, h, Graph.unfolds_ofTree part, hout, Graph.outside_nil _ part⟩
  rw [Reading.marked_selfContained, Except.map_id] at hread
  exact hread.symm

/-- A mapping is read by its entries, whatever graph it stands in. -/
theorem readTree_mapping {id : Nat} {trees : List (Scalar × Tree)}
    (h : graph.Unfolds (.mapping id) (.mapping trees)) (room : Nat) (location : String) :
    readTree (room + 5) (.mapping trees) location =
      readMapping graph (room + 2) (innerAt graph room [id]) (graph.entries id) location := by
  rw [← readAt_eq_readTree h, readAt_mapping _ _ _ List.not_mem_nil]

theorem exists_unfolds_mapping (trees : List (Scalar × Tree)) : ∃ (graph : Graph) (id : Nat),
    graph.Unfolds (.mapping id) (.mapping trees) ∧
      Graph.UnfoldEntries graph (graph.entries id) trees := by
  have htree := Graph.unfolds_ofTree (.mapping trees)
  obtain ⟨id, hvalue, hentries⟩ := htree.mapping
  exact ⟨_, id, hvalue ▸ htree, hentries⟩

theorem readTree_of_ne_mapping (h : ∀ trees, tree ≠ .mapping trees) (room : Nat) (location : String) :
    readTree (room + 5) tree location = .ok (.fault location (.notMapping tree.kindName)) := by
  have htree := Graph.unfolds_ofTree tree
  rw [← Graph.kindName_eq_of_unfolds htree]
  apply readAt_other
  intro id hvalue
  obtain ⟨trees, htrees⟩ := (Graph.mapping_iff_of_unfolds htree).1 ⟨id, hvalue⟩
  exact h trees htrees

end

theorem exists_mapping_of_readTree {room : Nat} {tree : Tree} {location : String} {reading : Reading}
    (h : readTree room tree location = .ok reading) (hnode : reading.node ≠ .malformed) :
    ∃ less trees, room = less + 5 ∧ tree = .mapping trees := by
  by_cases htiny : room < 5
  · rw [readTree, readAt_tiny _ room [] location _ htiny] at h
    cases h
  · refine ⟨room - 5, ?_⟩
    obtain ⟨less, rfl⟩ : ∃ less, room = less + 5 := ⟨room - 5, by omega⟩
    by_contra hother
    have hmapping : ∀ trees, tree ≠ .mapping trees := fun trees htree =>
      hother ⟨trees, by omega, htree⟩
    rw [readTree_of_ne_mapping hmapping] at h
    cases h
    exact hnode rfl

end Schema

end ApiBindings

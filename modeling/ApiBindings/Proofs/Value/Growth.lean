import ApiBindings.Proofs.Value.Unfolding

/-!
# Graphs that grow

Adding a value to a graph leaves what the graph holds as it is. What has been added for a tree can be
written out again as this tree, in every graph that comes of it.
-/

namespace ApiBindings.Graph

/-- One graph holds everything that another one holds, under the same identities. -/
structure Extends (small big : Graph) : Prop where
  lists : small.lists.toList <+: big.lists.toList
  mappings : small.mappings.toList <+: big.mappings.toList
  sets : small.sets.toList <+: big.sets.toList
  pairs : small.pairs.toList <+: big.pairs.toList

theorem getD_of_isPrefix {α : Type} {small big : Array α} (h : small.toList <+: big.toList) {id : Nat}
    (hid : id < small.size) (other : α) : big.getD id other = small.getD id other := by
  obtain ⟨more, hmore⟩ := h
  have hbig : big = small ++ more.toArray := by
    rw [← Array.toList_inj, ← hmore, Array.toList_append]
  rw [hbig, Array.getD_eq_getD_getElem?, Array.getD_eq_getD_getElem?, Array.getElem?_append_left hid]

section

variable {small big : Graph}

theorem Extends.refl (graph : Graph) : graph.Extends graph :=
  ⟨List.prefix_rfl, List.prefix_rfl, List.prefix_rfl, List.prefix_rfl⟩

theorem Extends.trans {bigger : Graph} (h : small.Extends big) (h' : big.Extends bigger) :
    small.Extends bigger :=
  ⟨h.lists.trans h'.lists, h.mappings.trans h'.mappings, h.sets.trans h'.sets,
    h.pairs.trans h'.pairs⟩

theorem Extends.items (h : small.Extends big) {id : Nat} (hid : id < small.lists.size) :
    big.items id = small.items id :=
  getD_of_isPrefix h.lists hid []

theorem Extends.entries (h : small.Extends big) {id : Nat} (hid : id < small.mappings.size) :
    big.entries id = small.entries id :=
  getD_of_isPrefix h.mappings hid []

theorem Extends.members (h : small.Extends big) {id : Nat} (hid : id < small.sets.size) :
    big.members id = small.members id :=
  getD_of_isPrefix h.sets hid []

theorem Extends.parts (h : small.Extends big) {id : Nat} (hid : id < small.pairs.size) :
    big.parts id = small.parts id :=
  getD_of_isPrefix h.pairs hid (.scalar .null, .scalar .null)

variable (graph : Graph)

theorem extends_addList (items : List Value) : graph.Extends (graph.addList items).1 :=
  ⟨by simp [addList], List.prefix_rfl, List.prefix_rfl, List.prefix_rfl⟩

theorem extends_addMapping (entries : Entries Value) : graph.Extends (graph.addMapping entries).1 :=
  ⟨List.prefix_rfl, by simp [addMapping], List.prefix_rfl, List.prefix_rfl⟩

theorem extends_addSet (members : List Scalar) : graph.Extends (graph.addSet members).1 :=
  ⟨List.prefix_rfl, List.prefix_rfl, by simp [addSet], List.prefix_rfl⟩

theorem extends_addPair (first second : Value) : graph.Extends (graph.addPair first second).1 :=
  ⟨List.prefix_rfl, List.prefix_rfl, List.prefix_rfl, by simp [addPair]⟩

variable {graph}

theorem items_of_addList {items : List Value} (h : (graph.addList items).1.Extends big) :
    big.items graph.lists.size = items := by
  rw [h.items (by simp [addList])]
  simp [addList, Graph.items, Array.getD_eq_getD_getElem?]

theorem entries_of_addMapping {entries : Entries Value}
    (h : (graph.addMapping entries).1.Extends big) :
    big.entries graph.mappings.size = entries := by
  rw [h.entries (by simp [addMapping])]
  simp [addMapping, Graph.entries, Array.getD_eq_getD_getElem?]

theorem members_of_addSet {members : List Scalar} (h : (graph.addSet members).1.Extends big) :
    big.members graph.sets.size = members := by
  rw [h.members (by simp [addSet])]
  simp [addSet, Graph.members, Array.getD_eq_getD_getElem?]

theorem parts_of_addPair {first second : Value} (h : (graph.addPair first second).1.Extends big) :
    big.parts graph.pairs.size = (first, second) := by
  rw [h.parts (by simp [addPair])]
  simp [addPair, Graph.parts, Array.getD_eq_getD_getElem?]

end

/-! ## The graph of a tree -/

mutual

theorem extends_addTree (graph : Graph) : ∀ tree : Tree, graph.Extends (graph.addTree tree).1
  | .scalar _ => .refl graph
  | .list items => (extends_addTrees graph items).trans (extends_addList _ _)
  | .mapping entries => (extends_addEntries graph entries).trans (extends_addMapping _ _)
  | .set members => extends_addSet graph members
  | .pair first second =>
    ((extends_addTree graph first).trans (extends_addTree _ second)).trans (extends_addPair _ _ _)

theorem extends_addTrees (graph : Graph) :
    ∀ trees : List Tree, graph.Extends (graph.addTrees trees).1
  | [] => .refl graph
  | tree :: rest => (extends_addTree graph tree).trans (extends_addTrees _ rest)

theorem extends_addEntries (graph : Graph) :
    ∀ entries : List (Scalar × Tree), graph.Extends (graph.addEntries entries).1
  | [] => .refl graph
  | (_, tree) :: rest => (extends_addTree graph tree).trans (extends_addEntries _ rest)

end

theorem exists_eq_add_one_of_sizeOf_le {tree : Tree} {depth : Nat} (h : sizeOf tree ≤ depth) :
    ∃ less, depth = less + 1 := by
  have hpos : 0 < sizeOf tree := by
    cases tree <;> simp only [Tree.scalar.sizeOf_spec, Tree.list.sizeOf_spec,
      Tree.mapping.sizeOf_spec, Tree.set.sizeOf_spec, Tree.pair.sizeOf_spec] <;> omega
  exact Nat.exists_eq_add_one.2 (Nat.lt_of_lt_of_le hpos h)

mutual

theorem unfoldTo_addTree (graph : Graph) : ∀ (tree : Tree) {big : Graph},
    (graph.addTree tree).1.Extends big → ∀ {depth : Nat}, sizeOf tree ≤ depth →
      big.unfoldTo depth (graph.addTree tree).2 = tree
  | .scalar value, big, _, depth, hdepth => by
    obtain ⟨less, rfl⟩ := exists_eq_add_one_of_sizeOf_le hdepth
    rfl
  | .list items, big, hbig, depth, hdepth => by
    obtain ⟨less, rfl⟩ := exists_eq_add_one_of_sizeOf_le hdepth
    have hitems := unfoldTo_addTrees graph items ((extends_addList _ _).trans hbig)
      (show _ ≤ less by simp at hdepth; omega)
    show Tree.list ((big.items _).map (big.unfoldTo less)) = .list items
    rw [items_of_addList hbig, hitems]
  | .mapping entries, big, hbig, depth, hdepth => by
    obtain ⟨less, rfl⟩ := exists_eq_add_one_of_sizeOf_le hdepth
    have hentries := unfoldTo_addEntries graph entries ((extends_addMapping _ _).trans hbig)
      (show _ ≤ less by simp at hdepth; omega)
    show Tree.mapping ((big.entries _).map _) = .mapping entries
    rw [entries_of_addMapping hbig, hentries]
  | .set members, big, hbig, depth, hdepth => by
    obtain ⟨less, rfl⟩ := exists_eq_add_one_of_sizeOf_le hdepth
    show Tree.set (big.members _) = .set members
    rw [members_of_addSet hbig]
  | .pair first second, big, hbig, depth, hdepth => by
    obtain ⟨less, rfl⟩ := exists_eq_add_one_of_sizeOf_le hdepth
    have hboth := (extends_addPair _ _ _).trans hbig
    have hfirst := unfoldTo_addTree graph first ((extends_addTree _ second).trans hboth)
      (show _ ≤ less by simp at hdepth; omega)
    have hsecond := unfoldTo_addTree _ second hboth (show _ ≤ less by simp at hdepth; omega)
    show Tree.pair (big.unfoldTo less (big.parts _).1) (big.unfoldTo less (big.parts _).2) = _
    rw [parts_of_addPair hbig, hfirst, hsecond]

theorem unfoldTo_addTrees (graph : Graph) : ∀ (trees : List Tree) {big : Graph},
    (graph.addTrees trees).1.Extends big → ∀ {depth : Nat}, sizeOf trees ≤ depth →
      (graph.addTrees trees).2.map (big.unfoldTo depth) = trees
  | [], _, _, _, _ => rfl
  | tree :: rest, big, hbig, depth, hdepth => by
    have htree := unfoldTo_addTree graph tree ((extends_addTrees _ rest).trans hbig)
      (show _ ≤ depth by simp at hdepth; omega)
    have hrest := unfoldTo_addTrees _ rest hbig (show _ ≤ depth by simp at hdepth; omega)
    show big.unfoldTo depth _ :: List.map _ _ = tree :: rest
    rw [htree, hrest]

theorem unfoldTo_addEntries (graph : Graph) : ∀ (entries : List (Scalar × Tree)) {big : Graph},
    (graph.addEntries entries).1.Extends big → ∀ {depth : Nat}, sizeOf entries ≤ depth →
      (graph.addEntries entries).2.map (fun entry => (entry.1, big.unfoldTo depth entry.2)) = entries
  | [], _, _, _, _ => rfl
  | (key, tree) :: rest, big, hbig, depth, hdepth => by
    have htree := unfoldTo_addTree graph tree ((extends_addEntries _ rest).trans hbig)
      (show _ ≤ depth by simp at hdepth; omega)
    have hrest := unfoldTo_addEntries _ rest hbig (show _ ≤ depth by simp at hdepth; omega)
    show (key, big.unfoldTo depth _) :: List.map _ _ = (key, tree) :: rest
    rw [htree, hrest]

end

theorem unfolds_ofTree (tree : Tree) : (ofTree tree).1.Unfolds (ofTree tree).2 tree :=
  ⟨sizeOf tree, fun _ hdepth => unfoldTo_addTree empty tree (.refl _) hdepth⟩

end ApiBindings.Graph

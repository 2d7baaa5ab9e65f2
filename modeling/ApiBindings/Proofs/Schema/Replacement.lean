import ApiBindings.Proofs.Schema.Position
import ApiBindings.Proofs.Schema.Shape

/-!
# Other schemas in the place of one

What is read at a position stands on its own: putting another schema there changes the reading of the whole
at this position only, in its nodes and in its issues (`readTree_replaceAt`).
-/

namespace ApiBindings.Schema

open ApiBindings.Graph (UnfoldEntries)

section

variable {graph other : Graph} {value value' : Value} {tree part : Tree} {room id : Nat}
  {location : String} {reading : Reading} {entries entries' properties : Entries Value}
  {trees : List (Scalar × Tree)}

/-! ## Changing one field -/

/-- Values in two graphs that are the same, wherever one looks at more than the schemas in them. -/
def SameField (graph other : Graph) : Scalar → Value → Value → Prop :=
  FieldAlike graph other (fun value value' => 1 = 1 ∧ Graph.HaveTree graph other [] [] value value')
    fun _ _ => True

variable {entries entries' properties : Entries Value} {value' : Value}

theorem sameField_of_unfolds (key : Scalar) (h : graph.Unfolds value part)
    (h' : other.Unfolds value' part) : SameField graph other key value value' :=
  fieldAlike_of_unfolds (fun _ _ htree => ⟨rfl, htree⟩) (fun _ _ _ => trivial) key
    (Graph.sizeOf_lt_list (List.mem_singleton_self part)) h h'

theorem alike_of_set {name : String} {old new : Tree} (h : UnfoldEntries graph entries trees)
    (h' : UnfoldEntries other entries' (Entries.set (.text name) new trees))
    (hold : Entries.field? trees name = some old)
    (hset : ∀ value value', graph.Unfolds value old → other.Unfolds value' new →
      SameField graph other (.text name) value value') :
    Entries.Alike (SameField graph other) entries entries' := by
  unfold Entries.field? at hold
  induction h generalizing entries' with
  | nil => cases hold
  | @cons entry tree entries trees hentry hentries ih =>
    obtain ⟨key, value⟩ := entry
    obtain ⟨key, tree⟩ := tree
    obtain ⟨rfl, hvalue⟩ := hentry
    rw [Entries.get?] at hold
    rw [Entries.set] at h'
    by_cases hkey : key.key = (Scalar.text name).key
    · rw [if_pos hkey] at hold h'
      cases hold
      cases h' with
      | @cons entry' _ _ _ hentry' hentries' =>
        have hfield := hset value entry'.2 hvalue hentry'.2
        rw [← Scalar.key_eq_key_text_iff.1 hkey] at hfield
        refine .cons ⟨hentry'.1.symm, hfield⟩ ?_
        refine (Graph.forall₂_join hentries hentries').imp ?_
        rintro entry entry' ⟨tree, -, ⟨hkey, htree⟩, hkey', htree'⟩
        exact ⟨hkey.trans hkey'.symm, sameField_of_unfolds entry.1 htree htree'⟩
    · rw [if_neg hkey] at hold h'
      cases h' with
      | @cons entry' _ _ _ hentry' hentries' =>
        exact .cons ⟨hentry'.1.symm, sameField_of_unfolds key hvalue hentry'.2⟩ (ih hentries' hold)

theorem IsTyped.alike (h : IsTyped entries) (halike : Entries.Alike (SameField graph other) entries entries') :
    IsTyped entries' where
  reference := none_of_rel (h.reference ▸ halike.field? "$ref")
  enumeration := none_of_rel (h.enumeration ▸ halike.field? "enum")
  composition := none_of_rel (h.composition ▸ halike.field? "allOf")

theorem kind?_of_alike (halike : Entries.Alike (SameField graph other) entries entries') :
    kind? entries = kind? entries' :=
  kind?_eq (Graph.isLikeness_haveTree graph other) Nat.one_pos halike

theorem IsArrayOf.alike {items items' : Value} (h : IsArrayOf entries items)
    (halike : Entries.Alike (SameField graph other) entries entries')
    (hitems : entries'.field? "items" = some items') (hnull : items' ≠ .scalar .null) :
    IsArrayOf entries' items' :=
  ⟨h.toIsTyped.alike halike, kind?_of_alike halike ▸ h.kind, hitems, hnull⟩

theorem IsObjectOf.alike {properties' : Entries Value} (h : IsObjectOf graph entries properties)
    (halike : Entries.Alike (SameField graph other) entries entries')
    (hproperties : propertyEntries? other entries' = some properties') :
    IsObjectOf other entries' properties' := by
  obtain ⟨kind, hkind, harray, hobject⟩ := h.kind
  have hsome : (entries.field? "properties").isSome = (entries'.field? "properties").isSome := by
    rcases cases_of_rel (halike.field? "properties") with ⟨hnone, hnone'⟩ | ⟨_, _, hsome, hsome', -⟩
    · rw [hnone, hnone']
    · rw [hsome, hsome']
      rfl
  exact ⟨h.toIsTyped.alike halike,
    ⟨kind, kind?_of_alike halike ▸ hkind, harray, hsome ▸ hobject⟩, hproperties⟩

/-! ## The element of an array -/

theorem sameField_items {old new : Tree} (hold : old ≠ .scalar .null) (hnew : new ≠ .scalar .null)
    (h : graph.Unfolds value old) (h' : other.Unfolds value' new) :
    SameField graph other (.text "items") value value' where
  element _ := ⟨trivial, iff_of_false (mt (Graph.null_iff_of_unfolds h).1 hold)
    (mt (Graph.null_iff_of_unfolds h').1 hnew)⟩
  properties hkey := nomatch hkey
  parts hkey := nomatch hkey
  plain hkey := absurd rfl hkey

/-- The element of an array is read on its own, and so is any other schema in its place. -/
theorem readTree_element {node : Node}
    (h : readTree (room + 5) (.mapping trees) location = .ok reading)
    (hnode : reading.node = .array (some node)) :
    ∃ items, Entries.field? trees "items" = some items ∧ items ≠ .scalar .null ∧
      readTree (room + 3) items (location ++ ".items") = .ok ⟨node, reading.issues⟩ ∧
      ∀ new, new ≠ .scalar .null →
        readTree (room + 5) (.mapping (Entries.set (.text "items") new trees)) location = do
          let element ← readTree (room + 3) new (location ++ ".items")
          return { element with node := .array (some element.node) } := by
  obtain ⟨graph, id, hwhole, hentries⟩ := exists_unfolds_mapping trees
  rw [readTree_mapping hwhole] at h
  obtain ⟨element, hshape, helement⟩ := (outcome_of_readMapping h).exists_of_array hnode
  obtain ⟨items, hitems, hunfolds⟩ := hentries.exists_tree hshape.element
  have hold : items ≠ .scalar .null := mt (Graph.null_iff_of_unfolds hunfolds).2 hshape.notNull
  have hread : readAt graph (room + 3) [id] element (location ++ ".items") = _ := helement
  rw [readAt_inside hwhole hunfolds (Graph.sizeOf_lt_of_field? hitems)] at hread
  refine ⟨items, hitems, hold, hread, fun new hnew => ?_⟩
  obtain ⟨other, id', hwhole', hentries'⟩ :=
    exists_unfolds_mapping (Entries.set (.text "items") new trees)
  have hset : Entries.field? (Entries.set (.text "items") new trees) "items" = some new :=
    Entries.get?_set_self (.text "items") new trees
  obtain ⟨element', helement', hunfolds'⟩ := hentries'.exists_value hset
  have halike := alike_of_set hentries hentries' hitems fun _ _ => sameField_items hold hnew
  have hshape' := hshape.alike halike helement' (mt (Graph.null_iff_of_unfolds hunfolds').1 hnew)
  rw [readTree_mapping hwhole', hshape'.readMapping,
    ← readAt_inside hwhole' hunfolds' (Graph.sizeOf_lt_of_field? hset)]
  rfl

/-! ## A property of an object -/

theorem propertyEntries?_of_mapping (h : entries.field? "properties" = some (.mapping id)) :
    propertyEntries? graph entries = some (graph.entries id) := by
  rw [propertyEntries?, h]
  show (if graph.isTruthy (.mapping id) then graph.entries? (.mapping id) else some []) = _
  rw [Graph.isTruthy, Graph.entries?]
  cases graph.entries id <;> rfl

theorem exists_of_propertyEntries? (h : propertyEntries? graph entries = some properties)
    (hne : properties ≠ []) :
    ∃ id, entries.field? "properties" = some (.mapping id) ∧ graph.entries id = properties := by
  unfold propertyEntries? at h
  split at h
  · cases h
    exact absurd rfl hne
  · next value hvalue =>
    split at h
    · cases value with
      | mapping id => exact ⟨id, hvalue, Option.some.inj h⟩
      | _ => cases h
    · cases h
      exact absurd rfl hne

theorem sameField_properties {old new : List (Scalar × Tree)}
    (hkeys : new.map Prod.fst = old.map Prod.fst) (h : graph.Unfolds value (.mapping old))
    (h' : other.Unfolds value' (.mapping new)) :
    SameField graph other (.text "properties") value value' where
  element hkey := nomatch hkey
  properties _ := by
    obtain ⟨id, rfl, hentries⟩ := h.mapping
    obtain ⟨id', rfl, hentries'⟩ := h'.mapping
    have halike : List.Forall₂ (fun entry entry' : Scalar × Value => entry.1 = entry'.1 ∧ True)
        (graph.entries id) (other.entries id') := by
      have heq : (graph.entries id).map Prod.fst = (other.entries id').map Prod.fst := by
        rw [UnfoldEntries.keys hentries, UnfoldEntries.keys hentries', hkeys]
      have hmaps := List.forall₂_eq_eq_eq ▸ heq
      rw [List.forall₂_map_left_iff, List.forall₂_map_right_iff] at hmaps
      exact hmaps.imp fun _ _ hkey => ⟨hkey, trivial⟩
    refine ⟨?_, .some halike⟩
    rw [Graph.isTruthy, Graph.isTruthy, Graph.isEmpty_of_forall₂ halike]
  parts hkey := nomatch hkey
  plain _ hkey := absurd rfl hkey

/-- Each property is read on its own. -/
def ReadsEach (room : Nat) (location : String) :
    List (Scalar × Tree) → List (String × Reading) → Prop :=
  List.Forall₂ fun property reading => property.1.checkedText = .ok reading.1 ∧
    readTree (room + 1) property.2 (propertyLocation location reading.1) = .ok reading.2

/-- A mapping that is read as an object, with the trees of its properties and the names that it requires. -/
structure IsObjectTree (graph : Graph) (id : Nat) (trees properties : List (Scalar × Tree))
    (required : List String) : Prop where
  whole : graph.Unfolds (.mapping id) (.mapping trees)
  entries : UnfoldEntries graph (graph.entries id) trees
  field : properties ≠ [] → Entries.field? trees "properties" = some (.mapping properties)
  object : ∃ values, IsObjectOf graph (graph.entries id) values ∧ UnfoldEntries graph values properties
  required : requiredNames? graph (graph.entries id) = some required

section

variable {propertyTrees : List (Scalar × Tree)} {required : List String}
  {readings : List (String × Reading)}

/-- The properties of an object are read inside it as they are read alone. -/
theorem readProperties_inside (hwhole : graph.Unfolds (.mapping id) tree)
    (hentries : UnfoldEntries graph properties trees)
    (hlt : ∀ entry ∈ trees, sizeOf entry.2 < sizeOf tree) :
    readProperties (innerAt graph room [id] .property) location properties = .ok readings ↔
      ReadsEach room location trees readings := by
  rw [readProperties_eq_ok_iff, ReadsEach]
  induction hentries generalizing readings with
  | nil => simp only [List.forall₂_nil_left_iff]
  | @cons entry tree _ _ hentry _ ih =>
    obtain ⟨hhead, htail⟩ := List.forall_mem_cons.1 hlt
    have hread : ∀ location, innerAt graph room [id] .property entry.2 location =
        readTree (room + 1) tree.2 location := fun location =>
      readAt_inside hwhole hentry.2 hhead (room + 1) location
    simp only [List.forall₂_cons_left_iff, hentry.1, hread, ih htail]

theorem IsObjectTree.sizeOf_lt (h : IsObjectTree graph id trees propertyTrees required) :
    ∀ property ∈ propertyTrees, sizeOf property.2 < sizeOf (Tree.mapping trees) := by
  intro property hproperty
  have hfield := h.field (List.ne_nil_of_mem hproperty)
  exact Nat.lt_trans (Graph.sizeOf_lt_mapping hproperty) (Graph.sizeOf_lt_of_field? hfield)

theorem IsObjectTree.readTree (h : IsObjectTree graph id trees propertyTrees required)
    (heach : ReadsEach room location propertyTrees readings) :
    Schema.readTree (room + 5) (.mapping trees) location =
      .ok (readObject location readings (some required)) := by
  obtain ⟨values, hobject, hvalues⟩ := h.object
  have hreadings := (readProperties_inside h.whole hvalues h.sizeOf_lt).2 heach
  rw [readTree_mapping h.whole, hobject.readMapping, hreadings, h.required]
  rfl

theorem exists_isObjectTree {nodes : List (String × Node)}
    (h : readTree (room + 5) (.mapping trees) location = .ok reading)
    (hnode : reading.node = .object nodes required) :
    ∃ graph id propertyTrees readings, IsObjectTree graph id trees propertyTrees required ∧
      ReadsEach room location propertyTrees readings ∧
      reading = readObject location readings (some required) := by
  obtain ⟨graph, id, hwhole, hentries⟩ := exists_unfolds_mapping trees
  rw [readTree_mapping hwhole] at h
  obtain ⟨values, readings, hobject, hrequired, hreadings, hreading⟩ :=
    (outcome_of_readMapping h).exists_of_object hnode
  obtain ⟨propertyTrees, hfield, hvalues⟩ : ∃ propertyTrees,
      (propertyTrees ≠ [] → Entries.field? trees "properties" = some (.mapping propertyTrees)) ∧
      UnfoldEntries graph values propertyTrees := by
    by_cases hne : values = []
    · exact ⟨[], fun h => absurd rfl h, hne ▸ .nil⟩
    · obtain ⟨valuesId, hfield, rfl⟩ := exists_of_propertyEntries? hobject.properties hne
      obtain ⟨tree, htree, hunfolds⟩ := hentries.exists_tree hfield
      obtain ⟨propertyTrees, rfl⟩ := hunfolds.of_mapping
      obtain ⟨_, ⟨⟩, hvalues⟩ := hunfolds.mapping
      exact ⟨propertyTrees, fun _ => htree, hvalues⟩
  have htree : IsObjectTree graph id trees propertyTrees required :=
    ⟨hwhole, hentries, hfield, ⟨values, hobject, hvalues⟩, hrequired⟩
  exact ⟨graph, id, propertyTrees, readings, htree,
    (readProperties_inside hwhole hvalues htree.sizeOf_lt).1 hreadings, hreading⟩

/-- Other properties under the same names make an object that requires the same. -/
theorem IsObjectTree.set (h : IsObjectTree graph id trees propertyTrees required)
    (hne : propertyTrees ≠ []) {more : List (Scalar × Tree)}
    (hkeys : more.map Prod.fst = propertyTrees.map Prod.fst) : ∃ other id',
      IsObjectTree other id' (Entries.set (.text "properties") (.mapping more) trees) more required := by
  obtain ⟨values, hobject, -⟩ := h.object
  obtain ⟨other, id', hwhole', hentries'⟩ :=
    exists_unfolds_mapping (Entries.set (.text "properties") (.mapping more) trees)
  have hset : Entries.field? (Entries.set (.text "properties") (.mapping more) trees) "properties" =
      some (.mapping more) := Entries.get?_set_self (.text "properties") _ trees
  obtain ⟨value', hfield', hunfolds'⟩ := hentries'.exists_value hset
  obtain ⟨valuesId', rfl, hvalues'⟩ := hunfolds'.mapping
  have halike := alike_of_set h.entries hentries' (h.field hne) fun _ _ => sameField_properties hkeys
  have hrequired' : requiredNames? other (other.entries id') = some required :=
    (requiredNames?_eq (Graph.isLikeness_haveTree _ _) Nat.one_pos halike).symm.trans h.required
  exact ⟨other, id', hwhole', hentries', fun _ => hset,
    ⟨_, hobject.alike halike (propertyEntries?_of_mapping hfield'), hvalues'⟩, hrequired'⟩

end

section

variable {readings : List (String × Reading)} {index : Nat} {key : Scalar} {name : String}

theorem ReadsEach.set (h : ReadsEach room location trees readings) {new : Tree} {newReading : Reading}
    (hname : key.checkedText = .ok name)
    (hnew : readTree (room + 1) new (propertyLocation location name) = .ok newReading) :
    ReadsEach room location (trees.set index (key, new)) (readings.set index (name, newReading)) := by
  induction h generalizing index with
  | nil => exact .nil
  | cons hentry hrest ih =>
    cases index with
    | zero => exact .cons ⟨hname, hnew⟩ hrest
    | succ index => exact .cons hentry ih

theorem ReadsEach.exists_property {inside : Reading} (h : ReadsEach room location trees readings)
    (hindex : readings[index]? = some (name, inside)) :
    ∃ key part, trees[index]? = some (key, part) ∧ key.checkedText = .ok name ∧
      readTree (room + 1) part (propertyLocation location name) = .ok inside := by
  induction h generalizing index with
  | nil => cases hindex
  | @cons tree _ _ _ htree _ ih =>
    cases index with
    | zero =>
      cases hindex
      exact ⟨tree.1, tree.2, rfl, htree⟩
    | succ index => exact ih hindex

theorem keys_set (h : trees[index]? = some (key, part)) (new : Tree) :
    (trees.set index (key, new)).map Prod.fst = trees.map Prod.fst := by
  induction trees generalizing index with
  | nil => rfl
  | cons first rest ih =>
    cases index with
    | zero =>
      cases h
      rfl
    | succ index => rw [List.set_cons_succ, List.map_cons, List.map_cons, ih h]

end

/-- A property of an object is read on its own, and so is any other schema in its place. -/
theorem readTree_property {nodes : List (String × Node)} {required : List String} {index : Nat}
    {name : String} {node : Node} (h : readTree (room + 5) (.mapping trees) location = .ok reading)
    (hnode : reading.node = .object nodes required) (hindex : nodes[index]? = some (name, node)) :
    ∃ properties key part readings inside,
      Entries.field? trees "properties" = some (.mapping properties) ∧
      properties[index]? = some (key, part) ∧ name = key.toText ∧
      reading = readObject location readings (some required) ∧
      readings[index]? = some (name, inside) ∧ inside.node = node ∧
      readTree (room + 1) part (propertyLocation location name) = .ok inside ∧
      ∀ new newReading, readTree (room + 1) new (propertyLocation location name) = .ok newReading →
        readTree (room + 5) (.mapping (Entries.set (.text "properties")
            (.mapping (properties.set index (key, new))) trees)) location =
          .ok (readObject location (readings.set index (name, newReading)) (some required)) := by
  obtain ⟨graph, id, properties, readings, hobject, heach, rfl⟩ := exists_isObjectTree h hnode
  cases hnode
  rw [List.getElem?_map, Option.map_eq_some_iff] at hindex
  obtain ⟨⟨_, inside⟩, hinside, ⟨⟩⟩ := hindex
  obtain ⟨key, part, hpart, hname, hread⟩ := heach.exists_property hinside
  have hne : properties ≠ [] := List.ne_nil_of_mem (List.mem_of_getElem? hpart)
  refine ⟨properties, key, part, readings, inside, hobject.field hne, hpart,
    Scalar.toText_of_checkedText hname, rfl, hinside, rfl, hread, ?_⟩
  intro new newReading hnew
  obtain ⟨other, id', hchanged⟩ := hobject.set hne (keys_set hpart new)
  exact hchanged.readTree (heach.set hname hnew)

end

/-! ## All the way down -/

theorem issues_set {readings : List (String × Reading)} {index : Nat} {name : String} {inside : Reading}
    (h : readings[index]? = some (name, inside)) : ∃ before after,
      readings.flatMap (·.2.issues) = before ++ inside.issues ++ after ∧
      ∀ new, (readings.set index (name, new)).flatMap (·.2.issues) = before ++ new.issues ++ after := by
  induction readings generalizing index with
  | nil => cases h
  | cons first rest ih =>
    cases index with
    | zero =>
      cases h
      exact ⟨[], _, rfl, fun new => rfl⟩
    | succ index =>
      obtain ⟨before, after, hsame, hset⟩ := ih h
      refine ⟨first.2.issues ++ before, after, ?_, fun new => ?_⟩
      · rw [List.flatMap_cons, hsame]
        simp only [List.append_assoc]
      · rw [List.set_cons_succ, List.flatMap_cons, hset new]
        simp only [List.append_assoc]

theorem readObject_set {location : String} {readings : List (String × Reading)} {required : List String}
    {index : Nat} {name : String} {front back : List Issue}
    (h : ∀ new, (readings.set index (name, new)).flatMap (·.2.issues) = front ++ new.issues ++ back)
    (new : Reading) :
    readObject location (readings.set index (name, new)) (some required) =
      ⟨.object ((readings.map fun property => (property.1, property.2.node)).set index
        (name, new.node)) required, front ++ new.issues ++ back⟩ := by
  simp only [readObject, Reading.withProperties, List.map_set, h]

/-- What is read at a position stands on its own. -/
theorem readTree_replaceAt (descents : List Descent) {room : Nat} {tree : Tree} {location : String}
    {reading : Reading} {node : Node} (h : readTree room tree location = .ok reading)
    (hnode : reading.node.at? descents = some node) :
    ∃ part place less inside before after,
      tree.reach? descents location = some (part, place) ∧
      readTree less part place = .ok inside ∧ inside.node = node ∧
      reading.issues = before ++ inside.issues ++ after ∧
      ∀ new newReading, new ≠ .scalar .null → readTree less new place = .ok newReading →
        readTree room (tree.replaceAt descents new) location =
          .ok ⟨reading.node.replaceAt descents newReading.node,
            before ++ newReading.issues ++ after⟩ := by
  induction descents generalizing room tree location reading with
  | nil =>
    cases hnode
    refine ⟨tree, location, room, reading, [], [], rfl, h, rfl, by simp, ?_⟩
    intro new newReading _ hnew
    rw [Tree.replaceAt, hnew]
    simp [Node.replaceAt]
  | cons descent descents ih =>
    have hwhole : reading.node ≠ .malformed := by
      intro heq
      rw [heq, at?_malformed] at hnode
      cases hnode
    obtain ⟨less, trees, rfl, rfl⟩ := exists_mapping_of_readTree h hwhole
    cases descent with
    | element =>
      obtain ⟨element, helement, hnode⟩ := exists_of_at?_element hnode
      obtain ⟨items, hitems, hold, hread, hreplaced⟩ := readTree_element h helement
      obtain ⟨part, place, less, inside, before, after, hreach, hinside, hsame, hissues, hnew⟩ :=
        ih hread hnode
      refine ⟨part, place, less, inside, before, after, ?_, hinside, hsame, hissues, ?_⟩
      · rw [Tree.reach?, hitems]
        exact hreach
      · intro new newReading hnull hnewReading
        have htree : (Tree.mapping trees).replaceAt (.element :: descents) new =
            .mapping (Entries.set (.text "items") (items.replaceAt descents new) trees) := by
          rw [Tree.replaceAt, hitems]
        rw [htree, hreplaced _ (replaceAt_ne_null hold hnull), hnew new newReading hnull hnewReading,
          helement, Node.replaceAt]
        rfl
    | property index =>
      obtain ⟨nodes, required, name, property, hobject, hproperty, hnode⟩ :=
        exists_of_at?_property hnode
      obtain ⟨properties, key, value, readings, own, hfield, hvalue, rfl, rfl, hown, rfl, hread,
        hreplaced⟩ := readTree_property h hobject hproperty
      obtain ⟨part, place, less, inside, before, after, hreach, hinside, hsame, hissues, hnew⟩ :=
        ih hread hnode
      obtain ⟨front, back, hfront, hset⟩ := issues_set hown
      refine ⟨part, place, less, inside, front ++ before, after ++ back, ?_, hinside, hsame, ?_, ?_⟩
      · rw [Tree.reach?, hfield]
        show properties[index]?.bind _ = _
        rw [hvalue]
        exact hreach
      · show readings.flatMap (·.2.issues) = _
        rw [hfront, hissues]
        simp only [List.append_assoc]
      · intro new newReading hnull hnewReading
        have htree : (Tree.mapping trees).replaceAt (.property index :: descents) new =
            .mapping (Entries.set (.text "properties")
              (.mapping (properties.set index (key, value.replaceAt descents new))) trees) := by
          simp only [Tree.replaceAt, hfield, hvalue]
        rw [htree, hreplaced _ _ (hnew new newReading hnull hnewReading), readObject_set hset]
        cases hobject
        simp only [readObject, Reading.withProperties, Node.replaceAt, hproperty, List.append_assoc]

end ApiBindings.Schema

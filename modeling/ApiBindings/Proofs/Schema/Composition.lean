import ApiBindings.Proofs.Assoc.Overlay
import ApiBindings.Proofs.Schema.Malformed

/-!
# Compositions

A composition accounts for each of its parts (`readAt_composition`): a reference becomes a base, an object
adds its properties and required names to those beside the parts, and of any other part exactly one issue
tells at the part's location.
-/

namespace ApiBindings

namespace Schema

namespace Node

/-- The schema that a part of a composition refers to. -/
def base? : Node → Option String
  | .reference name => some name
  | _ => none

/-- The properties that a part adds to a composition. -/
def addedProperties : Node → List (String × Node)
  | .object properties _ => properties
  | _ => []

/-- The names that a part requires of a composition. -/
def addedRequired : Node → List String
  | .object _ required => required
  | _ => []

/-- Whether a composition can use a part. -/
def isUsable : Node → Bool
  | .reference _ => true
  | .object _ _ => true
  | _ => false

end Node

/-- Things by name, each in the place where its name first comes and as it comes last. -/
structure IsMerge {α : Type} (pairs merged : List (String × α)) : Prop where
  names : merged.map Prod.fst = (pairs.map Prod.fst).eraseDups
  last : ∀ name value, (name, value) ∈ merged ↔
    ∃ before after, pairs = before ++ (name, value) :: after ∧ name ∉ after.map Prod.fst

/-- A composition at a location accounts for the names required and the properties read beside its parts and
for the parts read: what it takes over from them, and how often it tells of a part where this is. -/
structure AccountsFor (location : String) (required : List String)
    (siblings parts : List (String × Reading)) (inline : List (String × Node)) (names : List String)
    (reading : Reading) : Prop where
  node : reading.node = .composite (parts.filterMap (·.2.node.base?)) inline names
  properties : IsMerge (siblings.map (fun sibling => (sibling.1, sibling.2.node)) ++
    parts.flatMap (·.2.node.addedProperties)) inline
  required : ∀ name, name ∈ names ↔
    name ∈ required ∨ ∃ part ∈ parts, name ∈ part.2.node.addedRequired
  issues : ∀ (index : Nat) (part : String × Reading), parts[index]? = some part →
    (reading.issues.map Issue.location).count (partLocation location index) =
      if part.2.node.isUsable then 0 else 1

theorem isMerge_ofPairs {α : Type} (pairs : List (String × α)) : IsMerge pairs (Assoc.ofPairs pairs) :=
  ⟨Assoc.keys_ofPairs pairs, fun _ _ => Assoc.mem_ofPairs_iff⟩

/-! ## What the parts give -/

/-- A composition with some parts added, all at once. -/
theorem foldl_add (composition : Composition) (parts : List (String × Reading)) :
    parts.foldl (fun composition part => composition.add part.2.node) composition =
      { bases := composition.bases ++ parts.filterMap (·.2.node.base?)
        properties := composition.properties.setAll (parts.flatMap (·.2.node.addedProperties))
        required :=
          Naming.merge composition.required (parts.flatMap (·.2.node.addedRequired)) } := by
  induction parts generalizing composition with
  | nil => simp
  | cons part parts ih =>
    rw [List.foldl_cons, ih, List.flatMap_cons, List.flatMap_cons, Assoc.setAll_append,
      Naming.merge_append]
    cases hnode : part.2.node <;>
      simp [Composition.add, Node.base?, Node.addedProperties, Node.addedRequired, hnode]

section

variable {location place : String} {reading : Reading}

/-! ## Where the issues of a part are -/

/-- Whatever is told of a schema is told at a location that begins with its own. -/
theorem TellsOf.begins (h : TellsOf place reading) :
    ∀ issue ∈ reading.issues, ∃ rest, issue.location = place ++ rest := by
  have hinside : ∀ issue, IsInside place issue → ∃ rest, issue.location = place ++ rest :=
    fun _ ⟨rest, hrest⟩ => ⟨"." ++ rest, by rw [hrest, String.append_assoc]⟩
  cases h with
  | wellFormed _ h => exact fun issue hissue => hinside issue (h issue hissue)
  | malformed problem h =>
    intro issue hissue
    rcases List.mem_append.1 hissue with hissue | hown
    · exact hinside issue (h issue hissue)
    · exact ⟨"", by rw [List.mem_singleton.1 hown, String.append_empty]⟩

theorem begins_of_mem_partIssues (h : TellsOf place reading) :
    ∀ issue ∈ partIssues place reading, ∃ rest, issue.location = place ++ rest := by
  intro issue hissue
  rcases List.mem_append.1 hissue with hissue | hown
  · exact h.begins issue hissue
  · split at hown
    · exact ⟨"", by rw [List.mem_singleton.1 hown, String.append_empty]⟩
    · cases hown

/-- A part is told of at its own location once, unless a composition can use it. -/
theorem count_partIssues (h : TellsOf place reading) :
    ((partIssues place reading).map Issue.location).count place =
      if reading.node.isUsable then 0 else 1 := by
  have hinside : ∀ issues : List Issue, (∀ issue ∈ issues, IsInside place issue) →
      (issues.map Issue.location).count place = 0 := by
    intro issues h
    refine List.count_eq_zero.2 fun hmem => ?_
    obtain ⟨issue, hissue, hplace⟩ := List.mem_map.1 hmem
    exact (h issue hissue).ne hplace
  cases h with
  | @wellFormed node inside hnode h =>
    rw [partIssues, List.map_append, List.count_append, hinside inside h]
    cases node <;> simp [isUnusable, Node.isUsable] at hnode ⊢
  | @malformed inside problem h =>
    rw [partIssues, List.map_append, List.count_append, List.map_append, List.count_append,
      hinside inside h]
    simp [isUnusable, Node.isUsable]

theorem partLocation_ne_property (location name rest : String) (index : Nat) :
    partLocation location index ≠ propertyLocation location name ++ rest := by
  intro heq
  have hlists := congrArg String.toList heq
  simp only [partLocation, propertyLocation, String.toList_append, List.append_assoc] at hlists
  have htails := List.append_cancel_left hlists
  have hhead : (".allOf[".toList ++ ((toString index).toList ++ "]".toList))[1]? = some 'a' := rfl
  rw [htails] at hhead
  cases hhead

/-- No location of a part begins with that of another part. -/
theorem eq_of_partLocation_eq {index other : Nat} {rest : String}
    (h : partLocation location index = partLocation location other ++ rest) : index = other := by
  have hdigits : ∀ n, ']' ∉ Nat.toDigits 10 n := by
    intro n hmem
    exact absurd (Nat.isDigit_of_mem_toDigits (by decide) (by decide) hmem) (by decide)
  have hlists := congrArg String.toList h
  simp only [partLocation, String.toList_append, List.append_assoc, Nat.toString_eq_ofList_toDigits,
    String.toList_ofList] at hlists
  have htails := List.append_cancel_left (List.append_cancel_left hlists)
  have hnumbers := ((List.append_cons_inj_of_notMem (hdigits index) (List.not_mem_nil)).1 htails).1
  simpa using congrArg (Nat.ofDigitChars 10 · 0) hnumbers

end

/-- Only what comes of one of the items counts. -/
theorem count_flatMap {α β : Type} [DecidableEq β] {f : α → List β} {value : β} {items : List α}
    {index : Nat} {item : α} (hitem : items[index]? = some item)
    (hothers : ∀ other item, items[other]? = some item → other ≠ index → value ∉ f item) :
    (items.flatMap f).count value = (f item).count value := by
  induction items generalizing index with
  | nil => cases hitem
  | cons first rest ih =>
    rw [List.flatMap_cons, List.count_append]
    cases index with
    | zero =>
      cases hitem
      have hrest : value ∉ rest.flatMap f := by
        intro hmem
        obtain ⟨later, hlater, hvalue⟩ := List.mem_flatMap.1 hmem
        obtain ⟨other, hother⟩ := List.mem_iff_getElem?.1 hlater
        exact hothers (other + 1) later hother (Nat.succ_ne_zero other) hvalue
      rw [List.count_eq_zero.2 hrest, Nat.add_zero]
    | succ index =>
      rw [List.count_eq_zero.2 (hothers 0 first rfl (Nat.succ_ne_zero index).symm), Nat.zero_add]
      exact ih hitem fun other later hother hne =>
        hothers (other + 1) later hother fun heq => hne (Nat.succ.inj heq)

section

variable {location : String} {required : List String} {siblings parts : List (String × Reading)}

theorem node_readComposition (required : List String) (siblings parts : List (String × Reading)) :
    (readComposition required siblings parts).node =
      .composite (parts.filterMap (·.2.node.base?))
        (Assoc.ofPairs (siblings.map (fun sibling => (sibling.1, sibling.2.node)) ++
          parts.flatMap (·.2.node.addedProperties)))
        (Naming.merge required (parts.flatMap (·.2.node.addedRequired))) := by
  rw [Assoc.ofPairs, Assoc.setAll_append]
  exact congrArg Composition.toNode (foldl_add _ parts)

theorem location_of_getElem? {values : List Value} {inner : Value → String → Limited Reading}
    (h : List.Forall₂ (fun part reading => reading.1 = partLocation location part.2 ∧
      inner part.1 reading.1 = .ok reading.2) values.zipIdx parts) {index : Nat}
    {part : String × Reading} (hpart : parts[index]? = some part) :
    part.1 = partLocation location index := by
  obtain ⟨hlength, hpairs⟩ := List.forall₂_iff_get.1 h
  obtain ⟨hindex, rfl⟩ := List.getElem?_eq_some_iff.1 hpart
  have hplace := (hpairs index (hlength ▸ hindex) hindex).1
  simpa using hplace

theorem count_readComposition
    (hsiblings : ∀ property ∈ siblings, TellsOf (propertyLocation location property.1) property.2)
    (hparts : ∀ (index : Nat) (part : String × Reading), parts[index]? = some part →
      part.1 = partLocation location index ∧ TellsOf part.1 part.2)
    {index : Nat} {part : String × Reading} (hpart : parts[index]? = some part) :
    ((readComposition required siblings parts).issues.map Issue.location).count
        (partLocation location index) = if part.2.node.isUsable then 0 else 1 := by
  have hbeside : partLocation location index ∉
      (siblings.flatMap fun property => property.2.issues).map Issue.location := by
    intro hmem
    obtain ⟨issue, hissue, hplace⟩ := List.mem_map.1 hmem
    obtain ⟨property, hproperty, hissue⟩ := List.mem_flatMap.1 hissue
    obtain ⟨rest, hrest⟩ := (hsiblings property hproperty).begins issue hissue
    exact partLocation_ne_property location property.1 rest index (hplace.symm.trans hrest)
  have hothers : ∀ other later, parts[other]? = some later → other ≠ index →
      partLocation location index ∉ (partIssues later.1 later.2).map Issue.location := by
    intro other later hlater hne hmem
    obtain ⟨issue, hissue, hplace⟩ := List.mem_map.1 hmem
    obtain ⟨hlocation, htells⟩ := hparts other later hlater
    obtain ⟨rest, hrest⟩ := begins_of_mem_partIssues htells issue hissue
    rw [hlocation] at hrest
    exact hne (eq_of_partLocation_eq (hplace.symm.trans hrest)).symm
  obtain ⟨hlocation, htells⟩ := hparts index part hpart
  rw [← hlocation] at hbeside hothers ⊢
  have hissues : (readComposition required siblings parts).issues =
      (siblings.flatMap fun property => property.2.issues) ++
        parts.flatMap fun part => partIssues part.1 part.2 := rfl
  rw [hissues, List.map_append, List.count_append, List.count_eq_zero.2 hbeside, Nat.zero_add,
    List.map_flatMap, count_flatMap hpart hothers, count_partIssues htells]

end

end Schema

open Schema

/-- **Compositions.** A composition of parts, with required names and properties beside it, is read if all
the schemas in it are. Its bases are the parts that are references, in order and with repetitions; its
properties are those beside the parts and then those of the parts that are objects; and it requires what is
required beside the parts or by a part that is an object. Of each part that is neither, one issue tells at
the part's location, and none of any other part. -/
theorem readAt_composition {graph : Graph} {id : Nat} {required : List String}
    {properties : Entries Value} {parts : List Value}
    (hshape : IsComposition graph (graph.entries id) required properties parts) {path : List Nat}
    (hid : id ∉ path) (room : Nat) (location : String) :
    let inner := innerAt graph room (id :: path)
    ((∃ reading, readAt graph (room + 5) path (.mapping id) location = .ok reading) ↔
      (∀ property ∈ properties, ∃ name reading, property.1.checkedText = .ok name ∧
        inner .sibling property.2 (propertyLocation location name) = .ok reading) ∧
      ∀ part ∈ parts.zipIdx, ∃ reading,
        inner .part part.1 (partLocation location part.2) = .ok reading) ∧
    ∀ reading, readAt graph (room + 5) path (.mapping id) location = .ok reading →
      ∃ (siblings readings : List (String × Reading)) (inline : List (String × Node))
          (names : List String),
        List.Forall₂ (fun property sibling => property.1.checkedText = .ok sibling.1 ∧
          inner .sibling property.2 (propertyLocation location sibling.1) = .ok sibling.2)
          properties siblings ∧
        List.Forall₂ (fun part reading => reading.1 = partLocation location part.2 ∧
          inner .part part.1 reading.1 = .ok reading.2) parts.zipIdx readings ∧
        AccountsFor location required siblings readings inline names reading := by
  intro inner
  have hread : readAt graph (room + 5) path (.mapping id) location = do
      let siblings ← readProperties (inner .sibling) location properties
      let parts ← readParts (inner .part) location parts
      return readComposition required siblings parts := by
    rw [readAt_mapping graph room location hid]
    exact hshape.readMapping
  have hinner : InnerTells inner := innerTells_innerAt room (id :: path)
  rw [hread]
  constructor
  · rw [← exists_readProperties_eq_ok_iff, ← exists_readParts_eq_ok_iff]
    constructor
    · rintro ⟨reading, h⟩
      obtain ⟨siblings, hsiblings, h⟩ := Limited.exists_of_bind_eq_ok h
      obtain ⟨readings, hreadings, -⟩ := Limited.exists_of_bind_eq_ok h
      exact ⟨⟨siblings, hsiblings⟩, readings, hreadings⟩
    · rintro ⟨⟨siblings, hsiblings⟩, readings, hreadings⟩
      rw [hsiblings, hreadings]
      exact ⟨_, rfl⟩
  · intro reading h
    obtain ⟨siblings, hsiblings, h⟩ := Limited.exists_of_bind_eq_ok h
    obtain ⟨readings, hreadings, h⟩ := Limited.exists_of_bind_eq_ok h
    cases h
    have hparts := readParts_eq_ok_iff.1 hreadings
    have htells : ∀ index part, readings[index]? = some part →
        part.1 = partLocation location index ∧ TellsOf part.1 part.2 := fun index part hpart =>
      ⟨location_of_getElem? hparts hpart, (hinner.parts hreadings part (List.mem_of_getElem? hpart)).2⟩
    refine ⟨siblings, readings, _, _, readProperties_eq_ok_iff.1 hsiblings, hparts,
      node_readComposition required siblings readings, isMerge_ofPairs _, ?_, ?_⟩
    · intro name
      rw [Naming.mem_merge, List.mem_flatMap]
    · intro index part hpart
      exact count_readComposition (hinner.properties hsiblings) htells hpart

/-- A composition of a reference, an object, the empty mapping, a number and the reference again, with a
property beside them. -/
def mixedParts : Graph where
  lists := #[[.mapping 3, .mapping 4, .mapping 7, .scalar (.int 5), .mapping 3], [.text "id"],
    [.text "name", .text "id"]]
  mappings := #[[(.text "allOf", .list 0), (.text "required", .list 1), (.text "properties", .mapping 1)],
    [(.text "id", .mapping 2)], [(.text "type", .text "integer")],
    [(.text "$ref", .text "#/components/schemas/Base")],
    [(.text "properties", .mapping 5), (.text "required", .list 2)],
    [(.text "id", .mapping 6), (.text "name", .mapping 6)], [(.text "type", .text "string")], []]
  sets := #[]
  pairs := #[]

theorem mixedParts_accounted_for :
    IsComposition mixedParts (mixedParts.entries 0) ["id"] [(.text "id", .mapping 2)]
      [.mapping 3, .mapping 4, .mapping 7, .scalar (.int 5), .mapping 3] ∧ 0 ∉ ([] : List Nat) ∧
    ∃ reading inline names, Schema.read mixedParts (.mapping 0) "S" = .ok reading ∧
      reading.node = .composite ["Base", "Base"] inline names ∧
      IsMerge [("id", .primitive (some "integer") none), ("id", .primitive (some "string") none),
        ("name", .primitive (some "string") none)] inline ∧
      "id" ∈ names ∧ "name" ∈ names ∧
      (reading.issues.map Issue.location).count "S.allOf[1]" = 0 ∧
      (reading.issues.map Issue.location).count "S.allOf[2]" = 1 ∧
      (reading.issues.map Issue.location).count "S.allOf[3]" = 1 := by
  have hshape : IsComposition mixedParts (mixedParts.entries 0) ["id"] [(.text "id", .mapping 2)]
      [.mapping 3, .mapping 4, .mapping 7, .scalar (.int 5), .mapping 3] := ⟨rfl, rfl, rfl, rfl, rfl⟩
  obtain ⟨-, haccount⟩ := readAt_composition hshape List.not_mem_nil 987 "S"
  obtain ⟨siblings, readings, inline, names, hsiblings, hreadings, haccount⟩ := haccount _ rfl
  have hs := readProperties_eq_ok_iff.2 hsiblings
  have hr := readParts_eq_ok_iff.2 hreadings
  cases hs
  cases hr
  refine ⟨hshape, List.not_mem_nil, _, inline, names, rfl, haccount.node, haccount.properties, ?_, ?_,
    ?_, ?_, ?_⟩
  · exact (haccount.required "id").2 (.inl (.head _))
  · exact (haccount.required "name").2 (.inr ⟨_, .tail _ (.head _), .head _⟩)
  · exact haccount.issues 1 _ rfl
  · exact haccount.issues 2 _ rfl
  · exact haccount.issues 3 _ rfl

end ApiBindings

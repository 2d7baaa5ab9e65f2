import ApiBindings.Proofs.Document.Pointer
import ApiBindings.Proofs.Model.Imports
import ApiBindings.Proofs.Schema.Walk

/-!
# References by pointers

A schema of the document is referred to by a pointer to it. The pointer leads to the schema whatever its
name is (`resolve_schemaPointer`), but a schema that holds the pointer takes its last segment for the name as
it stands (`readReference_schemaPointer`). So the name is right exactly if nothing in it had to be escaped
(`encode_eq_self_iff`).
-/

namespace ApiBindings

namespace Pointer

theorem length_le_encode (key : List Char) : key.length ≤ (encode key).length := by
  induction key with
  | nil => exact Nat.le_refl 0
  | cons c rest ih =>
    have hone : 1 ≤ (escape c).length := by
      unfold escape
      split
      · decide
      · split
        · decide
        · exact Nat.le_refl 1
    rw [encode, List.flatMap_cons, ← encode, List.length_append, List.length_cons]
    omega

/-- A key is a segment as it stands exactly if it has neither of the characters that are escaped. -/
theorem encode_eq_self_iff {key : List Char} : encode key = key ↔ '~' ∉ key ∧ '/' ∉ key := by
  constructor
  · intro h
    refine ⟨fun htilde => ?_, fun hslash => slash_notMem_encode key (h.symm ▸ hslash)⟩
    obtain ⟨front, back, rfl⟩ := List.mem_iff_append.1 htilde
    have hlengths := congrArg List.length h
    have hfront := length_le_encode front
    have hback := length_le_encode back
    simp only [encode, List.flatMap_append, List.flatMap_cons, List.length_append,
      List.length_cons] at hlengths hfront hback
    have hescape : (escape '~').length = 2 := rfl
    omega
  · rintro ⟨htilde, hslash⟩
    have hself : key.flatMap escape = key.flatMap fun c => [c] := by
      refine congrArg List.flatten (List.map_congr_left fun c hc => ?_)
      have hne : c ≠ '~' := fun heq => htilde (heq ▸ hc)
      have hne' : c ≠ '/' := fun heq => hslash (heq ▸ hc)
      rw [escape, if_neg hne, if_neg hne']
    rw [encode, hself, List.flatMap_singleton']

end Pointer

namespace Schema

/-- The name that the pointer to a schema is read as: that of the schema, with its escapes. -/
def pointerName (name : String) : String :=
  .ofList (Pointer.encode name.toList)

/-- The pointer to the schema of a name. -/
def schemaPointer (name : String) : String :=
  "#/components/schemas/" ++ pointerName name

theorem toList_pointerName (name : String) :
    (pointerName name).toList = Pointer.encode name.toList :=
  String.toList_ofList

theorem toList_schemaPointer (name : String) :
    (schemaPointer name).toList = "#/components/schemas/".toList ++ Pointer.encode name.toList := by
  unfold schemaPointer
  generalize "#/components/schemas/" = front
  rw [String.toList_append, toList_pointerName]

theorem schemaPointer_eq (name : String) :
    schemaPointer name = Pointer.write ["components", "schemas", name] := by
  have hcomponents : Pointer.encode "components".toList = "components".toList := by decide
  have hschemas : Pointer.encode "schemas".toList = "schemas".toList := by decide
  have hstart : "#/components/schemas/".toList =
      '#' :: '/' :: ("components".toList ++ '/' :: ("schemas".toList ++ ['/'])) := by
    decide +kernel
  have hsegments : ['/'].intercalate (["components", "schemas", name].map fun key =>
      Pointer.encode key.toList) = Pointer.encode "components".toList ++
        '/' :: (Pointer.encode "schemas".toList ++ '/' :: Pointer.encode name.toList) := by
    simp [List.intercalate_cons_cons]
  rw [← String.toList_inj, toList_schemaPointer, hstart, Pointer.write, hsegments, hcomponents,
    hschemas, String.toList_ofList]
  simp

theorem resolve_schemaPointer {graph : Graph} {root target : Value} {name : String}
    (hleads : Pointer.LeadsTo graph root ["components", "schemas", name] target)
    (htarget : (graph.entries? target).isSome) :
    Pointer.resolve graph root (schemaPointer name) = some target := by
  rw [schemaPointer_eq, Pointer.resolve_eq_some_iff]
  exact Pointer.denotes_write (List.cons_ne_nil _ _) hleads htarget

/-! ## The name of a reference -/

/-- The name of a reference is its last segment, unless this is empty. -/
theorem referenceName_append {segment : List Char} (hne : segment ≠ []) (hslash : '/' ∉ segment)
    (front : List Char) : referenceName (front ++ '/' :: segment) = segment := by
  have hkept : ∀ c ∈ segment.reverse, decide (c ≠ '/') = true := by
    intro c hc
    exact decide_eq_true fun heq => hslash (heq ▸ List.mem_reverse.1 hc)
  have hreverse : (front ++ '/' :: segment).reverse = segment.reverse ++ '/' :: front.reverse := by
    simp
  have hdrop : (segment.reverse ++ '/' :: front.reverse).dropWhile (· = '/') =
      segment.reverse ++ '/' :: front.reverse := by
    obtain ⟨last, others, hlast⟩ := List.exists_cons_of_ne_nil (List.reverse_ne_nil_iff.2 hne)
    rw [hlast] at hkept ⊢
    have hstays : ¬ decide (last = '/') = true := by
      simpa using hkept last List.mem_cons_self
    exact List.dropWhile_cons_of_neg hstays
  rw [referenceName, hreverse, hdrop, List.takeWhile_append_of_pos hkept]
  simp

theorem encode_ne_nil {key : List Char} (h : key ≠ []) : Pointer.encode key ≠ [] := by
  intro hnil
  have hread := Pointer.decode_encode key
  rw [hnil] at hread
  exact h hread.symm

theorem readReference_schemaPointer {name : String} (h : name ≠ "") (graph : Graph) (room : Nat)
    (location : String) :
    readReference graph room (.text (schemaPointer name)) location =
      .ok (.clean (.reference (pointerName name))) := by
  have hne : Pointer.encode name.toList ≠ [] := encode_ne_nil fun hnil => h (String.toList_eq_nil_iff.1 hnil)
  have hstart : "#/components/schemas/".toList = "#/components/schemas".toList ++ ['/'] := by
    decide +kernel
  have hname : referenceName (schemaPointer name).toList = Pointer.encode name.toList := by
    rw [toList_schemaPointer, hstart, List.append_assoc]
    exact referenceName_append hne (Pointer.slash_notMem_encode name.toList) _
  rw [readReference, Value.text, Value.text?]
  dsimp only
  rw [hname]
  split
  · next hnil => exact absurd hnil hne
  · rfl

theorem pointerName_eq_self_iff {name : String} :
    pointerName name = name ↔ '~' ∉ name.toList ∧ '/' ∉ name.toList := by
  rw [← Pointer.encode_eq_self_iff, ← toList_pointerName, String.toList_inj]

/-- A mapping that holds the pointer to a schema is read as a reference, whatever else it holds. -/
theorem readAt_schemaPointer {graph : Graph} {path : List Nat} {id : Nat} {name : String}
    (hname : name ≠ "")
    (hfield : (graph.entries id).field? "$ref" = some (.text (schemaPointer name))) (hid : id ∉ path)
    (room : Nat) (location : String) :
    readAt graph (room + 5) path (.mapping id) location =
      .ok (.clean (.reference (pointerName name))) := by
  rw [readAt_mapping graph room location hid, readMapping, hfield]
  exact readReference_schemaPointer hname graph (room + 2) location

end Schema

open Schema

/-- **References.** The pointer to a schema of the document, escapes and all, is resolved to the schema. A
mapping that holds the pointer is read as a reference by the pointer's last segment. The type and the import
that come of the reference go by this segment too, so they are those of the schema exactly if its name has
neither a tilde nor a slash. -/
theorem schemaPointer_read {graph : Graph} {root target : Value} {name : String} (hname : name ≠ "")
    (hleads : Pointer.LeadsTo graph root ["components", "schemas", name] target)
    (htarget : (graph.entries? target).isSome) :
    Pointer.resolve graph root (schemaPointer name) = some target ∧
    (∀ (other : Graph) (room : Nat) (path : List Nat) (id : Nat) (location : String),
      (other.entries id).field? "$ref" = some (.text (schemaPointer name)) → id ∉ path →
      readAt other (room + 5) path (.mapping id) location =
        .ok (.clean (.reference (pointerName name)))) ∧
    (∀ owner, let node : Node := .reference (pointerName name)
      (node.resolve owner).type.text = pointerName name ∧
        (Model.ofNode owner node).imports = [pointerName name].filter (· ≠ owner)) ∧
    (pointerName name = name ↔ '~' ∉ name.toList ∧ '/' ∉ name.toList) := by
  refine ⟨resolve_schemaPointer hleads htarget, fun other room path id location hfield hid =>
    readAt_schemaPointer hname hfield hid room location, fun owner => ⟨rfl, ?_⟩,
    pointerName_eq_self_iff⟩
  rw [Model.imports_ofNode, Node.refs, othersThan]
  by_cases howner : pointerName name = owner
  · simp [howner, Naming.distinct]
  · simp [howner, Naming.distinct, Naming.addName]

/-- A document with the schemas `Pet` and `a/b`, and schemas that hold the pointers to them. -/
def pointedSchemas : Graph where
  lists := #[]
  mappings := #[[(.text "components", .mapping 1)], [(.text "schemas", .mapping 2)],
    [(.text "Pet", .mapping 3), (.text "a/b", .mapping 4), (.text "Pets", .mapping 5),
      (.text "c", .mapping 6)],
    [], [], [(.text "$ref", .text "#/components/schemas/Pet")],
    [(.text "$ref", .text "#/components/schemas/a~1b")]]
  sets := #[]
  pairs := #[]

theorem plain_pointer_agrees :
    "Pet" ≠ "" ∧
      Pointer.LeadsTo pointedSchemas (.mapping 0) ["components", "schemas", "Pet"] (.mapping 3) ∧
      Pointer.resolve pointedSchemas (.mapping 0) "#/components/schemas/Pet" = some (.mapping 3) ∧
      Schema.read pointedSchemas (.mapping 5) "Pets" = .ok (.clean (.reference "Pet")) := by
  have hname : "Pet" ≠ "" := by decide
  have hleads : Pointer.LeadsTo pointedSchemas (.mapping 0) ["components", "schemas", "Pet"]
      (.mapping 3) := .into rfl rfl (.into rfl rfl (.into rfl rfl (.here (.mapping 3))))
  have hpointer : schemaPointer "Pet" = "#/components/schemas/Pet" := by decide +kernel
  obtain ⟨hresolve, hread, -, hself⟩ := schemaPointer_read hname hleads rfl
  have hplain : pointerName "Pet" = "Pet" := hself.2 (by decide)
  have hfield : (pointedSchemas.entries 5).field? "$ref" = some (.text (schemaPointer "Pet")) := by
    rw [hpointer]
    rfl
  refine ⟨hname, hleads, hpointer ▸ hresolve, ?_⟩
  rw [Schema.read, readRoom, hread pointedSchemas 987 [] 5 "Pets" hfield List.not_mem_nil, hplain]

/-- A pointer with an escape leads to a schema, but is read as a reference to another name. -/
theorem escaped_pointer_disagrees :
    Pointer.LeadsTo pointedSchemas (.mapping 0) ["components", "schemas", "a/b"] (.mapping 4) ∧
      Pointer.resolve pointedSchemas (.mapping 0) "#/components/schemas/a~1b" = some (.mapping 4) ∧
      Schema.read pointedSchemas (.mapping 6) "c" = .ok (.clean (.reference "a~1b")) :=
  ⟨.into rfl rfl (.into rfl rfl (.into rfl rfl (.here (.mapping 4)))), by decide +kernel, rfl⟩

end ApiBindings

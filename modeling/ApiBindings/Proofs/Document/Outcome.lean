import ApiBindings.Proofs.Document.Paths
import ApiBindings.Proofs.Schema.Malformed
import ApiBindings.Proofs.Schema.Room

/-!
# What is read of an API description

An API description is unreadable only for one of three parts of the wrong kind. Otherwise each of its
entries is read on its own, whatever else is malformed.
-/

namespace ApiBindings

open Limited (exists_of_bind_eq_ok exists_of_forall₂ forall₂_of_mapM_eq_ok)

namespace Document

def namedSchemas (graph : Graph) (entries : Entries Value) : Entries Value :=
  partEntries graph (partEntries graph entries "components") "schemas"

def readNamed (graph : Graph) (entry : Scalar × Value) : Limited Schema.Reading :=
  Schema.read graph entry.2 ("components.schemas." ++ entry.1.toText)

/-- A schema with its name is what an entry of the schemas describes. -/
structure ReadsSchema (graph : Graph) (entry : Scalar × Value) (schema : String × Schema.Reading) :
    Prop where
  name : schema.1 = entry.1.toText
  reading : readNamed graph entry = .ok schema.2

section

variable {graph : Graph} {root : Value} {entries : Entries Value}

theorem readSchemas_ok {schemas : List (String × Schema.Reading)}
    (h : readSchemas graph entries = .ok schemas) :
    List.Forall₂ (ReadsSchema graph) entries schemas := by
  apply (forall₂_of_mapM_eq_ok h).imp
  intro entry schema hentry
  obtain ⟨name, hname, hrest⟩ := exists_of_bind_eq_ok hentry
  obtain ⟨reading, hreading, hresult⟩ := exists_of_bind_eq_ok hrest
  obtain rfl := Scalar.toText_of_checkedText hname
  cases hresult
  exact ⟨rfl, hreading⟩

theorem schemaEntries_eq (hcomponents : ¬ IsMisshapen graph entries "components") :
    schemaEntries graph entries = mappingField graph .schemasNotMapping
      (partEntries graph entries "components") "schemas" := by
  rw [schemaEntries, mappingField_of_not hcomponents]
  rfl

/-- The ways in which reading a document can end, within the limits. -/
inductive Outcome (graph : Graph) (root : Value) (entries : Entries Value) :
    Except ReadFailure Document → Prop where
  | paths : IsMisshapen graph entries "paths" →
      Outcome graph root entries (.error (.unreadable .pathsNotMapping))
  | components : ¬ IsMisshapen graph entries "paths" → IsMisshapen graph entries "components" →
      Outcome graph root entries (.error (.unreadable .componentsNotMapping))
  | schemas : ¬ IsMisshapen graph entries "paths" → ¬ IsMisshapen graph entries "components" →
      IsMisshapen graph (partEntries graph entries "components") "schemas" →
      Outcome graph root entries (.error (.unreadable .schemasNotMapping))
  | document {document : Document} {paths : List (String × Named Operation)}
      {schemas : List (String × Schema.Reading)} :
      ¬ IsMisshapen graph entries "paths" → ¬ IsMisshapen graph entries "components" →
      ¬ IsMisshapen graph (partEntries graph entries "components") "schemas" →
      List.Forall₂ (ReadsPath graph root)
        (mappingEntries graph (partEntries graph entries "paths")) paths →
      List.Forall₂ (ReadsSchema graph) (namedSchemas graph entries) schemas →
      document.paths = .ofPairs paths →
      document.schemas = .ofPairs (schemas.map fun schema => (schema.1, schema.2.node)) →
      document.issues = (partEntries graph entries "paths").flatMap (pathIssues graph root) ++
        schemas.flatMap (fun schema => schema.2.issues) →
      Outcome graph root entries (.ok document)

theorem outcome_ofEntries (hlimit : ∀ limit, ofEntries graph root entries ≠ .error (.exceeds limit)) :
    Outcome graph root entries (ofEntries graph root entries) := by
  unfold ofEntries at hlimit ⊢
  -- The paths are read to their end before the components are looked at.
  by_cases hpaths : IsMisshapen graph entries "paths"
  · rw [pathEntries, mappingField_of_isMisshapen hpaths]
    exact .paths hpaths
  rw [pathEntries, mappingField_of_not hpaths] at hlimit ⊢
  change ∀ limit, ((readPaths graph root (partEntries graph entries "paths") []).mapError _ >>= _) ≠ _
    at hlimit
  change Outcome graph root entries
    ((readPaths graph root (partEntries graph entries "paths") []).mapError _ >>= _)
  cases hread : readPaths graph root (partEntries graph entries "paths") [] with
  | error limit =>
    rw [hread] at hlimit
    exact absurd rfl (hlimit limit)
  | ok read =>
    obtain ⟨paths, issues⟩ := read
    rw [hread] at hlimit
    obtain ⟨⟨read, hreads, rfl⟩, rfl⟩ := readPaths_ok hread
    by_cases hcomponents : IsMisshapen graph entries "components"
    · rw [schemaEntries, mappingField_of_isMisshapen hcomponents]
      exact .components hpaths hcomponents
    rw [schemaEntries_eq hcomponents] at hlimit ⊢
    by_cases hschemas : IsMisshapen graph (partEntries graph entries "components") "schemas"
    · rw [mappingField_of_isMisshapen hschemas]
      exact .schemas hpaths hcomponents hschemas
    rw [mappingField_of_not hschemas] at hlimit ⊢
    change ∀ limit, ((readSchemas graph (namedSchemas graph entries)).mapError _ >>= _) ≠ _ at hlimit
    change Outcome graph root entries
      ((readSchemas graph (namedSchemas graph entries)).mapError _ >>= _)
    cases hschema : readSchemas graph (namedSchemas graph entries) with
    | error limit =>
      rw [hschema] at hlimit
      exact absurd rfl (hlimit limit)
    | ok schemas =>
      exact .document hpaths hcomponents hschemas hreads (readSchemas_ok hschema) rfl rfl rfl

theorem outcome_of_ok {document : Document} (h : ofEntries graph root entries = .ok document) :
    Outcome graph root entries (.ok document) := by
  have houtcome : Outcome graph root entries (ofEntries graph root entries) :=
    outcome_ofEntries (by rw [h]; exact fun _ => nofun)
  rwa [h] at houtcome

/-! ## Schemas -/

theorem keys_nodes {items : Entries Value} {schemas : List (String × Schema.Reading)}
    (h : List.Forall₂ (ReadsSchema graph) items schemas) :
    Assoc.keys (schemas.map fun schema => (schema.1, schema.2.node)) =
      items.map fun entry => entry.1.toText := by
  rw [← Assoc.keys_of_forall₂ ReadsSchema.name h]
  exact List.map_map

theorem readNamed_congr {other : Graph} {kept : Value → Prop} (hkept : graph.Keeps other kept)
    {entry : Scalar × Value} (h : kept entry.2) : readNamed other entry = readNamed graph entry :=
  Schema.readAt_congr hkept h Schema.readRoom _

theorem get?_schemas {document : Document} (h : ofEntries graph root entries = .ok document)
    (hnames : ((namedSchemas graph entries).map fun entry => entry.1.toText).Nodup)
    {entry : Scalar × Value} (hentry : entry ∈ namedSchemas graph entries) :
    ∃ reading, readNamed graph entry = .ok reading ∧
      document.schemas.get? entry.1.toText = some reading.node := by
  cases outcome_of_ok h with
  | @document _ paths schemas _ _ _ _ hschemas _ hdocument _ =>
    rw [← keys_nodes hschemas] at hnames
    rw [hdocument, Assoc.ofPairs_of_nodup hnames]
    obtain ⟨schema, hschema, hread⟩ := exists_of_forall₂ hschemas hentry
    refine ⟨schema.2, hread.reading, Assoc.get?_of_mem hnames ?_⟩
    rw [← hread.name]
    exact List.mem_map_of_mem hschema

variable (graph root entries) in
/-- A document says what its entries say one by one. -/
structure SaysAll (document : Document) : Prop where
  /-- Every named schema has a node, in order, the malformed ones too: the node of its own reading. -/
  schemas : ((namedSchemas graph entries).map fun entry => entry.1.toText).Nodup →
    List.Forall₂ (fun entry schema => schema.1 = entry.1.toText ∧
      ∃ reading, readNamed graph entry = .ok reading ∧ schema.2 = reading.node)
      (namedSchemas graph entries) document.schemas
  /-- The paths are those that are mappings. -/
  paths : document.paths.keys = ((mappingEntries graph (partEntries graph entries "paths")).map
    fun entry => entry.1.toText).eraseDups
  /-- The issues are those of the paths, one for each that is no mapping, and those of the schemas. -/
  issues : ∃ schemaIssues, document.issues =
      (partEntries graph entries "paths").flatMap (pathIssues graph root) ++ schemaIssues.flatten ∧
    List.Forall₂ (fun entry issues => ∃ reading, readNamed graph entry = .ok reading ∧
      issues = reading.issues) (namedSchemas graph entries) schemaIssues
  /-- A malformed schema leaves an issue at its location. -/
  malformed : ∀ entry ∈ namedSchemas graph entries, ∀ reading, readNamed graph entry = .ok reading →
    reading.node = .malformed → ∃ before problem,
      reading.issues = before ++ [⟨"components.schemas." ++ entry.1.toText, problem⟩]
  /-- A schema has the same node in every document that holds it, whatever else that holds. -/
  independent : ∀ other otherRoot otherEntries otherDocument kept,
    ofEntries other otherRoot otherEntries = .ok otherDocument → graph.Keeps other kept →
    ((namedSchemas graph entries).map fun entry => entry.1.toText).Nodup →
    ((namedSchemas other otherEntries).map fun entry => entry.1.toText).Nodup →
    ∀ entry ∈ namedSchemas graph entries, entry ∈ namedSchemas other otherEntries → kept entry.2 →
      document.schemas.get? entry.1.toText = otherDocument.schemas.get? entry.1.toText

theorem saysAll_of_ok {document : Document} (h : ofEntries graph root entries = .ok document) :
    SaysAll graph root entries document where
  schemas hnames := by
    cases outcome_of_ok h with
    | document _ _ _ _ hschemas _ hdocument _ =>
      rw [← keys_nodes hschemas] at hnames
      rw [hdocument, Assoc.ofPairs_of_nodup hnames, List.forall₂_map_right_iff]
      exact hschemas.imp fun entry schema hread => ⟨hread.name, schema.2, hread.reading, rfl⟩
  paths := by
    cases outcome_of_ok h with
    | document _ _ _ hpaths _ hdocument _ _ =>
      rw [hdocument, Assoc.ofPairs, Assoc.keys_setAll, Assoc.keys_of_forall₂ ReadsPath.name hpaths]
      exact Naming.distinct_eq_eraseDups _
  issues := by
    cases outcome_of_ok h with
    | @document _ _ schemas _ _ _ _ hschemas _ _ hissues =>
      refine ⟨schemas.map fun schema => schema.2.issues, ?_, ?_⟩
      · rw [hissues]
        rfl
      · rw [List.forall₂_map_right_iff]
        exact hschemas.imp fun entry schema hread => ⟨schema.2, hread.reading, rfl⟩
  malformed _ _ := Schema.tellsOfItself_readAt [] _
  independent := by
    intro other otherRoot otherEntries otherDocument kept hother hkept hnames hotherNames entry hentry
      hmem hvalue
    obtain ⟨reading, hreading, hnode⟩ := get?_schemas h hnames hentry
    obtain ⟨again, hagain, hsame⟩ := get?_schemas hother hotherNames hmem
    rw [readNamed_congr hkept hvalue, hreading] at hagain
    cases hagain
    rw [hnode, hsame]

end

end Document

open Document

/-- **What comes of a document.** Within the limits, a document is unreadable exactly if its paths, its
components or its schemas are there, count as true and are no mapping, and it fails in no other way.
Any other document is read, entry by entry, whatever is malformed in it. -/
theorem ofEntries_outcome (graph : Graph) (root : Value) (entries : Entries Value)
    (hlimit : ∀ limit, ofEntries graph root entries ≠ .error (.exceeds limit)) :
    (∀ failure, ofEntries graph root entries = .error failure ↔
      (IsMisshapen graph entries "paths" ∧ failure = .unreadable .pathsNotMapping) ∨
      (¬ IsMisshapen graph entries "paths" ∧ IsMisshapen graph entries "components" ∧
        failure = .unreadable .componentsNotMapping) ∨
      (¬ IsMisshapen graph entries "paths" ∧ ¬ IsMisshapen graph entries "components" ∧
        IsMisshapen graph (partEntries graph entries "components") "schemas" ∧
        failure = .unreadable .schemasNotMapping)) ∧
    (¬ IsMisshapen graph entries "paths" → ¬ IsMisshapen graph entries "components" →
      ¬ IsMisshapen graph (partEntries graph entries "components") "schemas" →
      ∃ document, ofEntries graph root entries = .ok document ∧ SaysAll graph root entries document) := by
  have houtcome := outcome_ofEntries hlimit
  generalize hresult : ofEntries graph root entries = result at houtcome
  cases houtcome with
  | paths hpaths =>
    refine ⟨fun failure => ?_, fun h => absurd hpaths h⟩
    simp [hpaths, eq_comm]
  | components hpaths hcomponents =>
    refine ⟨fun failure => ?_, fun _ h => absurd hcomponents h⟩
    simp [hpaths, hcomponents, eq_comm]
  | schemas hpaths hcomponents hschemas =>
    refine ⟨fun failure => ?_, fun _ _ h => absurd hschemas h⟩
    simp [hpaths, hcomponents, hschemas, eq_comm]
  | @document document _ _ hpaths hcomponents hschemas =>
    refine ⟨fun failure => ?_, fun _ _ _ => ⟨document, rfl, saysAll_of_ok hresult⟩⟩
    simp [hpaths, hcomponents, hschemas]

/-- A document with a path that is no mapping, a malformed schema and one that is not. -/
def partlyMalformed : Graph where
  lists := #[]
  mappings := #[[(.text "paths", .mapping 1), (.text "components", .mapping 2)],
    [(.text "/a", .scalar (.int 3))], [(.text "schemas", .mapping 3)],
    [(.text "A", .scalar (.int 5)), (.text "B", .mapping 4)], [(.text "type", .text "string")]]
  sets := #[]
  pairs := #[]

theorem partlyMalformed_read :
    let entries := partlyMalformed.entries 0
    (∀ limit, ofEntries partlyMalformed (.mapping 0) entries ≠ .error (.exceeds limit)) ∧
      ¬ IsMisshapen partlyMalformed entries "paths" ∧
      ¬ IsMisshapen partlyMalformed entries "components" ∧
      ¬ IsMisshapen partlyMalformed (partEntries partlyMalformed entries "components") "schemas" ∧
      ∃ document, ofEntries partlyMalformed (.mapping 0) entries = .ok document ∧
        SaysAll partlyMalformed (.mapping 0) entries document := by
  intro entries
  have hmapping : ∀ (inner : Entries Value) (name : String) (id : Nat),
      inner.field? name = some (.mapping id) → ¬ IsMisshapen partlyMalformed inner name := by
    rintro inner name id hfield ⟨value, hvalue, -, hnone⟩
    rw [hfield] at hvalue
    cases hvalue
    cases hnone
  have hlimit : ∀ limit, ofEntries partlyMalformed (.mapping 0) entries ≠ .error (.exceeds limit) :=
    fun _ => nofun
  have hpaths := hmapping entries "paths" 1 rfl
  have hcomponents := hmapping entries "components" 2 rfl
  have hschemas := hmapping (partEntries partlyMalformed entries "components") "schemas" 3 rfl
  obtain ⟨-, hread⟩ := ofEntries_outcome partlyMalformed (.mapping 0) entries hlimit
  exact ⟨hlimit, hpaths, hcomponents, hschemas, hread hpaths hcomponents hschemas⟩

end ApiBindings

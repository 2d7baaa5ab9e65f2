import ApiBindings.Client.Basic
import ApiBindings.Proofs.Document.Outcome

/-!
# A method for each operation

The methods of a client are those of the operations that its document describes, in the order of the
document: none is lost, repeated or moved on the way from the values of the document to the client.
-/

namespace ApiBindings

/-- The keys are texts, each of them once. -/
def Entries.HasNames {α : Type} (entries : Entries α) : Prop :=
  ∃ names : List String, names.Nodup ∧ entries.map Prod.fst = names.map Scalar.text

namespace Client

/-! ## Telling methods apart -/

/-- Telling methods apart changes nothing but names. -/
theorem map_distinguishFrom {β : Type} {f : Method → β}
    (hf : ∀ method name, f { method with name := name } = f method) (seen taken : List String)
    (methods : List Method) : (distinguishFrom seen taken methods).1.map f = methods.map f := by
  induction methods generalizing seen taken with
  | nil => rfl
  | cons method rest ih =>
    rw [distinguishFrom]
    split
    · exact congrArg₂ List.cons (hf method _) (ih _ _)
    · exact congrArg (f method :: ·) (ih _ _)

theorem map_distinguish {β : Type} {f : Method → β}
    (hf : ∀ method name, f { method with name := name } = f method) (methods : List Method) :
    (distinguish methods).1.map f = methods.map f :=
  map_distinguishFrom hf [] _ methods

end Client

/-! ## The operations of a document -/

namespace Document

/-- What an operation has of the entry that describes it: path, method and query parameters. -/
def outline (operation : Operation) : String × String × List String :=
  (operation.path, operation.method,
    (operation.parameters.filter (·.location = "query")).map Parameter.name)

/-- An operation as the paths of a document give it. -/
structure Described where
  path : String
  method : String
  fields : Entries Value

/-- What the paths describe: for each path that is a mapping, each of its entries that is a mapping. -/
def described (graph : Graph) (paths : Entries Value) : List Described :=
  (mappingEntries graph paths).flatMap fun item =>
    (mappingEntries graph item.2).map fun operation =>
      ⟨item.1.toText, operation.1.toText, operation.2⟩

/-- The names of the query parameters of an operation, one for each value that describes one. -/
def queryNames (graph : Graph) (root : Value) (fields : Entries Value) : List String :=
  (parameterValues graph fields).filterMap (queryName? graph root)

section

variable {graph : Graph} {root : Value} {entries : Entries Value}

theorem nodup_texts (h : entries.HasNames) (graph : Graph) :
    ((mappingEntries graph entries).map fun entry => entry.1.toText).Nodup := by
  obtain ⟨names, hnodup, hkeys⟩ := h
  have htexts : (entries.map fun entry => entry.1.toText) = names := by
    have hmap := congrArg (List.map Scalar.toText) hkeys
    rw [List.map_map, List.map_map] at hmap
    exact hmap.trans (List.map_id names)
  rw [← htexts] at hnodup
  refine List.Nodup.sublist ?_ hnodup
  clear hkeys htexts hnodup
  induction entries with
  | nil => exact List.Sublist.slnil
  | cons entry rest ih =>
    unfold mappingEntries at ih ⊢
    rw [List.filterMap_cons]
    cases graph.entries? entry.2 with
    | none => exact ih.cons _
    | some fields => exact ih.cons_cons _

theorem outline_operations {path : String} {items : List (Scalar × Entries Value)}
    {operations : List (String × Operation)}
    (h : List.Forall₂ (ReadsOperation graph root path) items operations) :
    (operations.map Prod.snd).map outline =
      items.map fun entry => (path, entry.1.toText, queryNames graph root entry.2) := by
  induction h with
  | nil => rfl
  | cons hentry _ ih =>
    refine congrArg₂ List.cons ?_ ih
    rw [outline, hentry.path, hentry.method, hentry.query]
    rfl

theorem outline_paths {items : List (Scalar × Entries Value)}
    {paths : List (String × Named Operation)}
    (h : List.Forall₂ (ReadsPath graph root) items paths)
    (hitems : ∀ item ∈ items, item.2.HasNames) :
    (paths.flatMap fun path => path.2.map Prod.snd).map outline =
      items.flatMap fun item => (mappingEntries graph item.2).map fun operation =>
        (item.1.toText, operation.1.toText, queryNames graph root operation.2) := by
  induction h with
  | nil => rfl
  | @cons item path _ _ hpath _ ih =>
    obtain ⟨hitem, hrest⟩ := List.forall_mem_cons.1 hitems
    obtain ⟨operations, hoperations, hreads⟩ := hpath.operations
    have hkeys : (Assoc.keys operations).Nodup := by
      rw [Assoc.keys_of_forall₂ ReadsOperation.name hreads]
      exact nodup_texts hitem graph
    rw [List.flatMap_cons, List.flatMap_cons, List.map_append, ih hrest, hoperations,
      Assoc.ofPairs_of_nodup hkeys, outline_operations hreads]

/-- The operations of a document are those that its paths describe. -/
theorem outline_of_ok {document : Document} (h : ofEntries graph root entries = .ok document)
    (hpaths : (partEntries graph entries "paths").HasNames)
    (hmethods : ∀ item ∈ mappingEntries graph (partEntries graph entries "paths"), item.2.HasNames) :
    document.operations.map outline =
      (described graph (partEntries graph entries "paths")).map fun operation =>
        (operation.path, operation.method, queryNames graph root operation.fields) := by
  cases outcome_of_ok h with
  | @document _ paths _ _ _ _ hreads _ hdocument _ _ =>
    have hkeys : (Assoc.keys paths).Nodup := by
      rw [Assoc.keys_of_forall₂ ReadsPath.name hreads]
      exact nodup_texts hpaths graph
    rw [operations, hdocument, Assoc.ofPairs_of_nodup hkeys, outline_paths hreads hmethods, described,
      List.map_flatMap]
    simp only [List.map_map]
    rfl

end

end Document

open Document

namespace Client

/-- What a method has of the operation that it is for. -/
def methodOutline (method : Method) : String × String × List String × List String :=
  (method.path, method.httpMethod, method.pathArguments.map PathArgument.token, method.queryParameters)

/-- What the method for an operation has to have. -/
def outlineFor (path method : String) (query : List String) :
    String × String × List String × List String :=
  (path, Text.lowerString method,
    (((Naming.segments path.toList).filterMap Naming.Segment.token?).map String.ofList).eraseDups,
    query)

theorem pathTokens_texts (path : List Char) : (Naming.pathTokens path).map String.ofList =
    (((Naming.segments path).filterMap Naming.Segment.token?).map String.ofList).eraseDups := by
  rw [← Naming.distinct_eq_eraseDups]
  exact (Naming.merge_map (fun _ _ h => String.ofList_injective h) [] _).symm

theorem methodOutline_ofOperation (operation : Operation) :
    methodOutline (.ofOperation operation) =
      outlineFor (outline operation).1 (outline operation).2.1 (outline operation).2.2 := by
  simp only [methodOutline, outlineFor, outline, Method.ofOperation, List.map_map, ← pathTokens_texts]
  rfl

theorem methodOutline_methodsOf (document : Document) :
    (methodsOf document).map methodOutline =
      ((document.operations.map outline).filter fun operation =>
        Text.lowerString operation.2.1 ∈ supportedMethods).map fun operation =>
          outlineFor operation.1 operation.2.1 operation.2.2 := by
  rw [methodsOf, List.filter_map, List.map_map, List.map_map]
  exact List.map_congr_left fun operation _ => methodOutline_ofOperation operation

end Client

/-- **One method per operation.** The methods of a client are, in the order of the document, those of the
entries of its paths that are mappings and whose key, in lower case, is a supported method. Each has the
path as it is written, the tokens of the path as they first occur, and the names of the query parameters
as they are declared. What is wrong with a parameter is told once, with the parameter's own index. -/
theorem methods_ofDocument {graph : Graph} {root : Value} {entries : Entries Value}
    {document : Document} (hdocument : ofEntries graph root entries = .ok document)
    (hpaths : (partEntries graph entries "paths").HasNames)
    (hmethods : ∀ item ∈ mappingEntries graph (partEntries graph entries "paths"), item.2.HasNames)
    (path : FilePath) :
    (Client.ofDocument document path).methods.map Client.methodOutline =
      (((described graph (partEntries graph entries "paths")).filter fun operation =>
          Text.lowerString operation.method ∈ Client.supportedMethods).map fun operation =>
        Client.outlineFor operation.path operation.method (queryNames graph root operation.fields)) ∧
    ∃ schemas, List.Forall₂ (ReadsSchema graph) (namedSchemas graph entries) schemas ∧
      document.issues = (partEntries graph entries "paths").flatMap (pathIssues graph root) ++
        schemas.flatMap fun schema => schema.2.issues := by
  constructor
  · show (Client.distinguish (Client.methodsOf document)).1.map Client.methodOutline = _
    rw [Client.map_distinguish fun _ _ => rfl, Client.methodOutline_methodsOf,
      outline_of_ok hdocument hpaths hmethods, List.filter_map, List.map_map]
    rfl
  · cases outcome_of_ok hdocument with
    | document _ _ _ _ hschemas _ _ hissues => exact ⟨_, hschemas, hissues⟩

/-- A path with an operation, one whose method is not supported, and an entry that is no operation. Of
the parameters one refers to nothing, and one has no name. -/
def mixedPath : Graph where
  lists := #[[.mapping 5, .mapping 6, .mapping 7, .mapping 5]]
  mappings := #[[(.text "paths", .mapping 1)], [(.text "/u/\x7bid\x7d", .mapping 2)],
    [(.text "summary", .text "Users"), (.text "Get", .mapping 3), (.text "head", .mapping 4)],
    [(.text "parameters", .list 0)], [], [(.text "name", .text "x"), (.text "in", .text "query")],
    [(.text "$ref", .text "#/nowhere")], [(.text "in", .text "query")]]
  sets := #[]
  pairs := #[]

theorem mixedPath_methods :
    ∃ document, ofEntries mixedPath (.mapping 0) (mixedPath.entries 0) = .ok document ∧
      (partEntries mixedPath (mixedPath.entries 0) "paths").HasNames ∧
      (∀ item ∈ mappingEntries mixedPath (partEntries mixedPath (mixedPath.entries 0) "paths"),
        item.2.HasNames) ∧
      (Client.ofDocument document (.ofString "/a.yaml")).methods.map Client.methodOutline =
        [("/u/\x7bid\x7d", "get", ["id"], ["x", "x"])] := by
  have hread : ∃ document, ofEntries mixedPath (.mapping 0) (mixedPath.entries 0) = .ok document :=
    ⟨_, rfl⟩
  obtain ⟨document, hdocument⟩ := hread
  have hpaths : (partEntries mixedPath (mixedPath.entries 0) "paths").HasNames :=
    ⟨["/u/\x7bid\x7d"], by decide, rfl⟩
  have hmethods : ∀ item ∈ mappingEntries mixedPath
      (partEntries mixedPath (mixedPath.entries 0) "paths"), item.2.HasNames := by
    intro item hitem
    have hsingle : item ∈ [(Scalar.text "/u/\x7bid\x7d", mixedPath.entries 2)] := hitem
    rw [List.mem_singleton.1 hsingle]
    exact ⟨["summary", "Get", "head"], by decide, rfl⟩
  obtain ⟨hmethods', -⟩ := methods_ofDocument hdocument hpaths hmethods (.ofString "/a.yaml")
  refine ⟨document, hdocument, hpaths, hmethods, hmethods'.trans ?_⟩
  decide +kernel

end ApiBindings

import ApiBindings.Client.Render
import ApiBindings.Document.Text
import ApiBindings.Proofs.Client.Distinct

/-!
# Members of a client

A client class declares three members of its own beside its methods. Methods never clash with one another,
and only a method for getting something called `baseUrl` clashes with a member of the class
(`nodup_members_iff`).
-/

namespace ApiBindings

/-- The text that the name of an operation's method is made of: the operation's own name or, if it has
none, the one that its path gives. -/
def Operation.nameText (operation : Operation) : List Char :=
  match operation.operationId with
  | none => Naming.operationName operation.path.toList
  | some "" => Naming.operationName operation.path.toList
  | some name => name.toList

namespace Client

/-- The members that every client class declares. -/
def ownMembers : List String := ["constructor", "baseUrl", "getBaseUrl"]

/-- The members of a client class: its own and its methods. -/
def members (client : Client) : List String :=
  ownMembers ++ client.methods.map Method.name

/-- Whether a line of a class declares a member, be it a field or a method. -/
def DeclaresMember (line name : String) : Prop :=
  ("  private " ++ name ++ ": ").toList <+: line.toList ∨
    ("  " ++ name ++ "(").toList <+: line.toList

/-! ## Declarations -/

theorem exists_line_of_mem_ownMembers {name : String} (h : name ∈ ownMembers) (client : Client) :
    ∃ line ∈ classHead client, DeclaresMember line name := by
  simp only [ownMembers, List.mem_cons, List.not_mem_nil, or_false] at h
  rcases h with rfl | rfl | rfl
  · exact ⟨"  constructor(baseUrl?: string) \x7b", by simp [classHead], .inr (by decide)⟩
  · exact ⟨"  private baseUrl: string;", by simp [classHead], .inl (by decide)⟩
  · exact ⟨"  getBaseUrl(): string \x7b", by simp [classHead], .inr (by decide)⟩

theorem exists_line_of_method (method : Method) :
    ∃ line ∈ methodLines method, DeclaresMember line method.name := by
  refine ⟨"  " ++ method.name ++ "(" ++ method.signature ++ "): string \x7b", by simp [methodLines],
    .inr ⟨(method.signature ++ "): string \x7b").toList, ?_⟩⟩
  simp only [String.toList_append, List.append_assoc]

/-- The text of a client declares all its members. -/
theorem exists_line_of_mem_members {client : Client} {name : String} (h : name ∈ client.members) :
    ∃ line ∈ classHead client ++ client.methods.flatMap methodLines, DeclaresMember line name := by
  rcases List.mem_append.1 h with hown | hname
  · obtain ⟨line, hline, hdeclares⟩ := exists_line_of_mem_ownMembers hown client
    exact ⟨line, List.mem_append_left _ hline, hdeclares⟩
  · obtain ⟨method, hmethod, rfl⟩ := List.mem_map.1 hname
    obtain ⟨line, hline, hdeclares⟩ := exists_line_of_method method
    exact ⟨line, List.mem_append_right _ (List.mem_flatMap.2 ⟨method, hmethod, hline⟩), hdeclares⟩

/-! ## Names of methods -/

theorem lower_of_mem_supportedMethods :
    ∀ httpMethod ∈ supportedMethods, Text.lower httpMethod.toList = httpMethod.toList := by
  decide +kernel

/-- The method for a supported operation is named for the method of HTTP and the operation. -/
theorem toList_name_ofOperation {operation : Operation}
    (h : Text.lowerString operation.method ∈ supportedMethods) :
    (Method.ofOperation operation).name.toList =
      (Text.lowerString operation.method).toList ++ Naming.pascalCase operation.nameText := by
  have hname : (Method.ofOperation operation).name =
      .ofList (Text.lower (Text.lowerString operation.method).toList ++
        Naming.pascalCase operation.nameText) := rfl
  rw [hname, String.toList_ofList, lower_of_mem_supportedMethods _ h]

section OfDocument

variable {document : Document} {path : FilePath} {name : String}

/-- The name of a method is that of the method for an operation, with a number or without. -/
theorem exists_operation_of_mem_names
    (h : name ∈ (ofDocument document path).methods.map Method.name) :
    ∃ operation ∈ document.operations, Text.lowerString operation.method ∈ supportedMethods ∧
      (name = (Method.ofOperation operation).name ∨
        ∃ number, name = numbered (Method.ofOperation operation).name number) := by
  obtain ⟨method, hmethod, hname⟩ := exists_of_mem_names_distinguishFrom h
  obtain ⟨operation, hoperation, rfl⟩ := List.mem_map.1 hmethod
  obtain ⟨hmem, hsupported⟩ := List.mem_filter.1 hoperation
  exact ⟨operation, hmem, of_decide_eq_true hsupported, hname⟩

theorem not_begins_ownMember : ∀ own ∈ ownMembers, own ≠ "getBaseUrl" →
    ∀ httpMethod ∈ supportedMethods, ¬ httpMethod.toList <+: own.toList := by
  decide

theorem supportedMethod_begins_name
    (h : name ∈ (ofDocument document path).methods.map Method.name) :
    ∃ httpMethod ∈ supportedMethods, httpMethod.toList <+: name.toList := by
  obtain ⟨operation, -, hsupported, hname⟩ := exists_operation_of_mem_names h
  refine ⟨_, hsupported, ?_⟩
  have hbegins := List.prefix_append (Text.lowerString operation.method).toList
    (Naming.pascalCase operation.nameText)
  rw [← toList_name_ofOperation hsupported] at hbegins
  rcases hname with rfl | ⟨number, rfl⟩
  · exact hbegins
  · rw [toList_numbered]
    exact hbegins.trans (List.prefix_append _ _)

/-- An operation's method has the name of the class's own method exactly if it gets something called
`baseUrl`. -/
theorem name_ofOperation_eq_iff {operation : Operation}
    (h : Text.lowerString operation.method ∈ supportedMethods) :
    (Method.ofOperation operation).name = "getBaseUrl" ↔
      Text.lowerString operation.method = "get" ∧
        Naming.pascalCase operation.nameText = "BaseUrl".toList := by
  have hget : ∀ httpMethod ∈ supportedMethods, httpMethod.toList <+: "getBaseUrl".toList →
      httpMethod = "get" := by
    decide
  rw [← String.toList_inj, toList_name_ofOperation h]
  constructor
  · intro heq
    have hmethod := hget _ h ⟨_, heq⟩
    rw [hmethod] at heq
    exact ⟨hmethod, List.append_cancel_left heq⟩
  · rintro ⟨hmethod, hname⟩
    rw [hmethod, hname]
    rfl

theorem getBaseUrl_mem_names_iff :
    "getBaseUrl" ∈ (ofDocument document path).methods.map Method.name ↔
      ∃ operation ∈ document.operations, Text.lowerString operation.method = "get" ∧
        Naming.pascalCase operation.nameText = "BaseUrl".toList := by
  constructor
  · intro h
    obtain ⟨operation, hoperation, hsupported, hname | ⟨number, hname⟩⟩ :=
      exists_operation_of_mem_names h
    · exact ⟨operation, hoperation, (name_ofOperation_eq_iff hsupported).1 hname.symm⟩
    · have hdigit := isDigit_getLast?_numbered (Method.ofOperation operation).name number 'l'
        (by rw [← hname]; decide)
      exact absurd hdigit (by decide)
  · rintro ⟨operation, hoperation, hget, hbase⟩
    have hsupported : Text.lowerString operation.method ∈ supportedMethods := by
      rw [hget]
      decide
    have hmethod : Method.ofOperation operation ∈ methodsOf document :=
      List.mem_map_of_mem (List.mem_filter.2 ⟨hoperation, decide_eq_true hsupported⟩)
    rw [← (name_ofOperation_eq_iff hsupported).2 ⟨hget, hbase⟩]
    exact (mem_names_distinguishFrom hmethod).resolve_left List.not_mem_nil

end OfDocument

end Client

open Client

/-- **Members.** The methods of a client have distinct names, and the text of the client declares them
beside the members of the class. All these are distinct exactly if no operation is for getting something
called `baseUrl`. -/
theorem nodup_members_iff (document : Document) (path : FilePath) :
    ((ofDocument document path).methods.map Method.name).Nodup ∧
    (∀ name ∈ (ofDocument document path).members,
      ∃ line ∈ classHead (ofDocument document path) ++
          (ofDocument document path).methods.flatMap methodLines, DeclaresMember line name) ∧
    ((ofDocument document path).members.Nodup ↔
      ∀ operation ∈ document.operations, Text.lowerString operation.method = "get" →
        Naming.pascalCase operation.nameText ≠ "BaseUrl".toList) := by
  have hnames : ((ofDocument document path).methods.map Method.name).Nodup :=
    nodup_names_distinguish _
  have hother : ∀ own ∈ ownMembers, own ≠ "getBaseUrl" →
      own ∉ (ofDocument document path).methods.map Method.name := by
    intro own hown hne hmem
    obtain ⟨httpMethod, hsupported, hbegins⟩ := supportedMethod_begins_name hmem
    exact not_begins_ownMember own hown hne httpMethod hsupported hbegins
  refine ⟨hnames, fun name hname => exists_line_of_mem_members hname, ?_⟩
  calc (ofDocument document path).members.Nodup
      ↔ "getBaseUrl" ∉ (ofDocument document path).methods.map Method.name := by
        rw [members, List.nodup_append]
        constructor
        · rintro ⟨-, -, hapart⟩ hmem
          exact hapart "getBaseUrl" (by decide) "getBaseUrl" hmem rfl
        · intro hfree
          refine ⟨by decide, hnames, ?_⟩
          rintro own hown _ hmem rfl
          by_cases hown' : own = "getBaseUrl"
          · exact hfree (hown' ▸ hmem)
          · exact hother own hown hown' hmem
    _ ↔ _ := by
        rw [getBaseUrl_mem_names_iff]
        simp only [not_exists, not_and, ne_eq]

/-- A path whose method has the name of a member of the class. -/
theorem baseUrl_path_clashes :
    ∃ document, Document.ofText "paths:\n  /baseUrl:\n    get: \x7b\x7d\n" = .ok document ∧
      ¬ (ofDocument document (.ofString "/specs/api.yaml")).members.Nodup := by
  have hnames : (Document.ofText "paths:\n  /baseUrl:\n    get: \x7b\x7d\n").toOption.map
      (fun document => (ofDocument document (.ofString "/specs/api.yaml")).members) =
        some ["constructor", "baseUrl", "getBaseUrl", "getBaseUrl"] := by
    decide +kernel
  obtain ⟨document, hread, hmembers⟩ := Document.exists_of_ofText hnames
  refine ⟨document, hread, fun hnodup => ?_⟩
  rw [hmembers] at hnodup
  exact absurd hnodup (by decide)

end ApiBindings

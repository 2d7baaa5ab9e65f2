import ApiBindings.Document.Read
import ApiBindings.Proofs.Assoc.Overlay
import ApiBindings.Proofs.Naming.Distinct
import ApiBindings.Proofs.Value.Limited

/-!
# The paths of an API description

What is read of each path, operation and parameter depends on nothing else in the document but what a
parameter refers to. So the issues are those of the entries one by one, each with its own index, and the
operations those of the mappings one by one.
-/

namespace ApiBindings.Document

open Limited (exists_of_bind_eq_ok forall₂_of_mapM_eq_ok)

/-! ## Parts that are mappings -/

/-- What a part of a document holds: nothing unless it is a mapping. -/
def partEntries (graph : Graph) (entries : Entries Value) (name : String) : Entries Value :=
  ((entries.field? name).bind graph.entries?).getD []

/-- A part of a document is there, counts as true and is no mapping. -/
def IsMisshapen (graph : Graph) (entries : Entries Value) (name : String) : Prop :=
  ∃ value, entries.field? name = some value ∧ graph.isTruthy value = true ∧
    graph.entries? value = none

section

variable {graph : Graph} {entries : Entries Value} {name : String} {fault : Fault}

theorem mappingField_of_isMisshapen (h : IsMisshapen graph entries name) :
    mappingField graph fault entries name = .error fault := by
  obtain ⟨value, hfield, htruthy, hvalue⟩ := h
  simp only [mappingField, hfield, htruthy, hvalue, if_true]

theorem mappingField_of_not (h : ¬ IsMisshapen graph entries name) :
    mappingField graph fault entries name = .ok (partEntries graph entries name) := by
  unfold mappingField partEntries
  cases hfield : entries.field? name with
  | none => rfl
  | some value =>
    rw [Option.bind_some]
    cases hvalue : graph.entries? value with
    | none =>
      have hfalse : ¬ graph.isTruthy value = true := fun htruthy => h ⟨value, hfield, htruthy, hvalue⟩
      simp only [if_neg hfalse]
      rfl
    | some inner =>
      simp only [hvalue]
      split
      · rfl
      · rename_i hempty
        cases value with
        | mapping id =>
          cases hvalue
          rw [Graph.isTruthy, Bool.not_eq_true, Bool.not_eq_false', List.isEmpty_iff] at hempty
          rw [hempty]
          rfl
        | _ => cases hvalue

end

/-! ## Parameters -/

section

variable (graph : Graph) (root : Value)

/-- What describes a parameter: the fields of the mapping that a value is or, if it makes a reference,
of the mapping that this leads to. -/
def parameterFields? (value : Value) : Option (Entries Value) :=
  match referenceOf? graph value with
  | none => graph.entries? value
  | some reference => (Pointer.resolve graph root reference).bind graph.entries?

def parameterName? (value : Value) : Option String :=
  (parameterFields? graph root value).bind fun fields => (fields.field? "name").bind Value.text?

/-- The name of the query parameter that a value describes. -/
def queryName? (value : Value) : Option String :=
  (parameterFields? graph root value).bind fun fields =>
    if fields.field? "in" = some (.text "query") then (fields.field? "name").bind Value.text? else none

/-- What is wrong with a value that describes no parameter: it refers to nothing, or has no name. -/
def parameterProblem (value : Value) : Problem :=
  match referenceOf? graph value with
  | none => .namelessParameter
  | some reference =>
    match Pointer.resolve graph root reference with
    | none => .unresolvedParameter (Text.quotedString reference)
    | some _ => .namelessParameter

def parameterValues (fields : Entries Value) : List Value :=
  ((fields.field? "parameters").bind graph.items?).getD []

/-- The issues of an operation: one for each value that describes no parameter, with its index. -/
def operationIssues (path method : String) (fields : Entries Value) : List Issue :=
  (parameterValues graph fields).zipIdx.filterMap fun value =>
    if (parameterName? graph root value.1).isSome then none
    else some ⟨"paths." ++ path ++ "." ++ method ++ ".parameters[" ++ toString value.2 ++ "]",
      parameterProblem graph root value.1⟩

/-- The issues of a path: one if it is no mapping, and else those of its operations. -/
def pathIssues (entry : Scalar × Value) : List Issue :=
  match graph.entries? entry.2 with
  | none => [⟨"paths." ++ entry.1.toText, .pathItemNotMapping⟩]
  | some fields =>
    (mappingEntries graph fields).flatMap fun operation =>
      operationIssues graph root entry.1.toText operation.1.toText operation.2

variable {graph root}

theorem textField_eq_iff {fields : Entries Value} {name text : String} (h : text ≠ "") :
    textField fields name = text ↔ fields.field? name = some (.text text) := by
  unfold textField
  constructor
  · intro heq
    cases hfield : fields.field? name with
    | none =>
      rw [hfield] at heq
      exact absurd heq.symm h
    | some value =>
      rw [hfield, Option.bind_some] at heq
      cases htext : value.text? with
      | none =>
        rw [htext] at heq
        exact absurd heq.symm h
      | some other =>
        rw [htext, Option.getD_some] at heq
        subst heq
        cases value with
        | scalar scalar =>
          cases scalar <;> cases htext
          rfl
        | _ => cases htext
  · intro heq
    rw [heq]
    rfl

theorem readParameter_eq (value : Value) : readParameter graph root value =
    match (parameterFields? graph root value).bind (parameterOf? graph) with
    | some parameter => .ok parameter
    | none => .error (parameterProblem graph root value) := by
  unfold readParameter parameterTarget parameterFields? parameterProblem
  cases referenceOf? graph value with
  | none =>
    show (match (graph.entries? value).bind (parameterOf? graph) with
      | some parameter => _
      | none => _) = _
    cases (graph.entries? value).bind (parameterOf? graph) <;> rfl
  | some reference =>
    dsimp only
    cases Pointer.resolve graph root reference with
    | none => rfl
    | some target =>
      show (match (graph.entries? target).bind (parameterOf? graph) with
        | some parameter => _
        | none => _) = _
      rw [Option.bind_some]
      cases (graph.entries? target).bind (parameterOf? graph) <;> rfl

theorem parameterOf?_fields (value : Value) :
    (parameterFields? graph root value).bind (parameterOf? graph) =
      (parameterFields? graph root value).bind fun fields =>
        (parameterName? graph root value).map fun name =>
          ⟨name, textField fields "in", (fields.field? "required").any graph.isTruthy⟩ := by
  unfold parameterName?
  cases parameterFields? graph root value <;> rfl

theorem readParameter_of_none {value : Value} (h : parameterName? graph root value = none) :
    readParameter graph root value = .error (parameterProblem graph root value) := by
  rw [readParameter_eq, parameterOf?_fields, h]
  cases parameterFields? graph root value <;> rfl

theorem readParameter_of_some {value : Value} {name : String}
    (h : parameterName? graph root value = some name) :
    ∃ parameter, readParameter graph root value = .ok parameter ∧
      (if parameter.location = "query" then some parameter.name else none) =
        queryName? graph root value := by
  rw [readParameter_eq, parameterOf?_fields, h]
  unfold parameterName? at h
  unfold queryName?
  cases hfields : parameterFields? graph root value with
  | none =>
    rw [hfields] at h
    cases h
  | some fields =>
    rw [hfields, Option.bind_some] at h
    refine ⟨_, rfl, ?_⟩
    rw [Option.bind_some, h]
    simp only [textField_eq_iff (show "query" ≠ "" by decide)]

theorem readParametersFrom_eq (location : String) (values : List Value) (index : Nat) :
    ((readParametersFrom graph root location index values).1.filter (·.location = "query")).map
        Parameter.name = values.filterMap (queryName? graph root) ∧
    (readParametersFrom graph root location index values).2 =
      (values.zipIdx index).filterMap fun value =>
        if (parameterName? graph root value.1).isSome then none
        else some ⟨location ++ "[" ++ toString value.2 ++ "]", parameterProblem graph root value.1⟩ := by
  induction values generalizing index with
  | nil => exact ⟨rfl, rfl⟩
  | cons value rest ih =>
    obtain ⟨hquery, hissues⟩ := ih (index + 1)
    rw [readParametersFrom, List.zipIdx_cons]
    cases hname : parameterName? graph root value with
    | none =>
      have hnone : queryName? graph root value = none := by
        unfold parameterName? at hname
        unfold queryName?
        cases hfields : parameterFields? graph root value with
        | none => rfl
        | some fields =>
          rw [hfields, Option.bind_some] at hname
          rw [Option.bind_some, hname, ite_self]
      rw [readParameter_of_none hname, List.filterMap_cons_none hnone]
      refine ⟨hquery, ?_⟩
      simp only [List.filterMap_cons, hname, Option.isSome_none, Bool.false_eq_true, if_false]
      rw [hissues]
    | some name =>
      obtain ⟨parameter, hread, hparameter⟩ := readParameter_of_some hname
      rw [hread]
      constructor
      · rw [List.filterMap_cons, ← hparameter, List.filter_cons]
        by_cases hlocation : parameter.location = "query"
        · simp only [hlocation, decide_true, if_true, List.map_cons, hquery]
        · simp only [hlocation, decide_false, Bool.false_eq_true, if_false, hquery]
      · simp only [List.filterMap_cons, hname, Option.isSome_some, if_true, hissues]

theorem readParameters_eq (location : String) (fields : Entries Value) :
    ((readParameters graph root location (fields.field? "parameters")).1.filter
        (·.location = "query")).map Parameter.name =
      (parameterValues graph fields).filterMap (queryName? graph root) ∧
    (readParameters graph root location (fields.field? "parameters")).2 =
      (parameterValues graph fields).zipIdx.filterMap fun value =>
        if (parameterName? graph root value.1).isSome then none
        else some ⟨location ++ "[" ++ toString value.2 ++ "]", parameterProblem graph root value.1⟩ := by
  unfold readParameters parameterValues
  cases (fields.field? "parameters").bind graph.items? with
  | none => exact ⟨rfl, rfl⟩
  | some values => exact readParametersFrom_eq location values 0

/-! ## Operations and paths -/

variable (graph root) in
/-- An operation is what an entry of a path describes. -/
structure ReadsOperation (path : String) (entry : Scalar × Entries Value)
    (operation : String × Operation) : Prop where
  name : operation.1 = entry.1.toText
  path : operation.2.path = path
  method : operation.2.method = entry.1.toText
  query : (operation.2.parameters.filter (·.location = "query")).map Parameter.name =
    (parameterValues graph entry.2).filterMap (queryName? graph root)

variable (graph root) in
/-- The operations of a path are what an entry of the paths describes. -/
structure ReadsPath (entry : Scalar × Entries Value) (named : String × Named Operation) : Prop where
  name : named.1 = entry.1.toText
  operations : ∃ operations, named.2 = Assoc.ofPairs operations ∧
    List.Forall₂ (ReadsOperation graph root entry.1.toText) (mappingEntries graph entry.2) operations

theorem readOperation_ok {path method : String} {fields : Entries Value} {operation : Operation}
    {issues : List Issue} (h : readOperation graph root path method fields = .ok (operation, issues)) :
    operation.path = path ∧ operation.method = method ∧
      (operation.parameters.filter (·.location = "query")).map Parameter.name =
        (parameterValues graph fields).filterMap (queryName? graph root) ∧
      issues = operationIssues graph root path method fields := by
  obtain ⟨operationId, -, hresult⟩ := exists_of_bind_eq_ok h
  obtain ⟨hquery, hissues⟩ :=
    readParameters_eq ("paths." ++ path ++ "." ++ method ++ ".parameters") fields
  obtain ⟨rfl, rfl⟩ := Prod.mk.inj (Except.ok.inj hresult)
  refine ⟨rfl, rfl, hquery, hissues.trans ?_⟩
  unfold operationIssues
  simp only [String.append_assoc]
  rfl

theorem readOperations_ok {path : String} {fields : Entries Value}
    {operations : List (String × Operation × List Issue)}
    (h : readOperations graph root path fields = .ok operations) :
    List.Forall₂ (ReadsOperation graph root path) (mappingEntries graph fields)
        (operations.map fun operation => (operation.1, operation.2.1)) ∧
      operations.flatMap (fun operation => operation.2.2) =
        (mappingEntries graph fields).flatMap fun entry =>
          operationIssues graph root path entry.1.toText entry.2 := by
  have hentries := forall₂_of_mapM_eq_ok h
  generalize mappingEntries graph fields = entries at hentries
  clear h
  induction hentries with
  | nil => exact ⟨.nil, rfl⟩
  | @cons entry operation entries operations hentry _ ih =>
    obtain ⟨method, hmethod, hrest⟩ := exists_of_bind_eq_ok hentry
    obtain ⟨⟨read, issues⟩, hread, hresult⟩ := exists_of_bind_eq_ok hrest
    obtain rfl := Scalar.toText_of_checkedText hmethod
    obtain ⟨hpath, hmethod, hquery, rfl⟩ := readOperation_ok hread
    cases hresult
    refine ⟨.cons ⟨rfl, hpath, hmethod, hquery⟩ ih.1, ?_⟩
    rw [List.flatMap_cons, List.flatMap_cons, ih.2]

theorem readPaths_ok {entries : Entries Value} {paths named : Named (Named Operation)}
    {issues : List Issue} (h : readPaths graph root entries paths = .ok (named, issues)) :
    (∃ read, List.Forall₂ (ReadsPath graph root) (mappingEntries graph entries) read ∧
      named = paths.setAll read) ∧ issues = entries.flatMap (pathIssues graph root) := by
  induction entries generalizing paths issues with
  | nil =>
    cases h
    exact ⟨⟨[], .nil, rfl⟩, rfl⟩
  | cons entry rest ih =>
    obtain ⟨key, value⟩ := entry
    obtain ⟨path, hpath, hentry⟩ := exists_of_bind_eq_ok h
    obtain rfl := Scalar.toText_of_checkedText hpath
    rw [List.flatMap_cons]
    cases hvalue : graph.entries? value with
    | none =>
      have hissues : pathIssues graph root (key, value) =
          [⟨"paths." ++ key.toText, .pathItemNotMapping⟩] := by
        simp only [pathIssues, hvalue]
      have hmapping : mappingEntries graph ((key, value) :: rest) = mappingEntries graph rest :=
        List.filterMap_cons_none (by rw [hvalue]; rfl)
      rw [hvalue] at hentry
      obtain ⟨⟨inner, more⟩, hrest, hresult⟩ := exists_of_bind_eq_ok hentry
      cases hresult
      obtain ⟨hread, rfl⟩ := ih hrest
      rw [hissues, hmapping]
      exact ⟨hread, rfl⟩
    | some fields =>
      have hissues : pathIssues graph root (key, value) =
          (mappingEntries graph fields).flatMap fun operation =>
            operationIssues graph root key.toText operation.1.toText operation.2 := by
        simp only [pathIssues, hvalue]
      have hmapping : mappingEntries graph ((key, value) :: rest) =
          (key, fields) :: mappingEntries graph rest :=
        List.filterMap_cons_some (by rw [hvalue]; rfl)
      rw [hvalue] at hentry
      obtain ⟨operations, hoperations, hentry⟩ := exists_of_bind_eq_ok hentry
      obtain ⟨⟨inner, more⟩, hrest, hresult⟩ := exists_of_bind_eq_ok hentry
      cases hresult
      obtain ⟨⟨read, hread, rfl⟩, rfl⟩ := ih hrest
      obtain ⟨hreads, hown⟩ := readOperations_ok hoperations
      rw [hissues, hmapping, hown]
      let own := Assoc.ofPairs (operations.map fun operation => (operation.1, operation.2.1))
      exact ⟨⟨(key.toText, own) :: read, .cons ⟨rfl, _, rfl, hreads⟩ hread, rfl⟩, rfl⟩

end

end ApiBindings.Document

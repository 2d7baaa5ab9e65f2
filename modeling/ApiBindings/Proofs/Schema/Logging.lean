import ApiBindings.Proofs.Schema.Shape
import ApiBindings.Proofs.Schema.Walk

/-!
# Reading with or without a log

A schema can be read by adding each issue to a log as it is found, or without a log. Both give the schema
that `readAt` gives, and a log ends with the issues that `readAt` gives (`readInto_eq`).
-/

namespace ApiBindings.Schema

/-- A computation that adds issues to a log, if there is one. -/
abbrev Logging := StateT (Option (List Issue)) Limited

namespace Logging

def tell (issue : Issue) : Logging Unit :=
  modify fun log => log.map (· ++ [issue])

/-- The computation with a result, some of which it returns and some of which it adds to the log. -/
def settle {α β : Type} (value : α → β) (issues : α → List Issue) (result : Limited α) : Logging β :=
  fun log => result.map fun told => (value told, log.map (· ++ issues told))

end Logging

open Logging

/-- How the schemas inside a schema are read with a log. -/
abbrev LoggingInner := Place → Value → String → Logging Node

/-- A malformed schema. -/
def faultInto (location : String) (problem : Problem) : Logging Node := do
  tell ⟨location, problem⟩
  return .malformed

def readPropertiesInto (inner : Value → String → Logging Node) (location : String)
    (properties : Entries Value) : Logging (List (String × Node)) :=
  properties.mapM fun property => do
    let name ← property.1.checkedText
    return (name, ← inner property.2 (propertyLocation location name))

def readObjectInto (graph : Graph) (inner : LoggingInner) (entries : Entries Value)
    (location : String) : Logging Node :=
  match propertyEntries? graph entries with
  | none => faultInto location .propertiesNotMapping
  | some properties => do
    let nodes ← readPropertiesInto (inner .property) location properties
    match requiredNames? graph entries with
    | some required => return .object nodes required
    | none => faultInto location .requiredNotNames

def readArrayInto (inner : LoggingInner) (entries : Entries Value) (location : String) :
    Logging Node :=
  match entries.field? "items" with
  | none => return .array none
  | some (.scalar .null) => return .array none
  | some items => return .array (some (← inner .element items (location ++ ".items")))

def readTypedInto (graph : Graph) (inner : LoggingInner) (entries : Entries Value)
    (location : String) : Logging Node :=
  match kind? entries with
  | none => return .primitive none none
  | some kind =>
    if kind = some "array" then readArrayInto inner entries location
    else if kind = some "object" ∨ (entries.field? "properties").isSome then
      readObjectInto graph inner entries location
    else return .primitive kind ((entries.field? "format").bind Value.text?)

def readPartsInto (inner : Value → String → Logging Node) (location : String) (parts : List Value) :
    Logging (List Node) :=
  parts.zipIdx.mapM fun part => do
    let node ← inner part.1 (partLocation location part.2)
    if isUnusable node then tell ⟨partLocation location part.2, .unusablePart⟩
    return node

def readAllOfInto (graph : Graph) (inner : LoggingInner) (entries : Entries Value) (allOf : Value)
    (location : String) : Logging Node :=
  match graph.items? allOf with
  | none => faultInto location .allOfNotList
  | some parts =>
    match requiredNames? graph entries, propertyEntries? graph entries with
    | none, _ => faultInto location .requiredNotNames
    | some _, none => faultInto location .propertiesNotMapping
    | some required, some properties => do
      let siblings ← readPropertiesInto (inner .sibling) location properties
      let parts ← readPartsInto (inner .part) location parts
      return (parts.foldl Composition.add ⟨[], .ofPairs siblings, required⟩).toNode

def readMappingInto (graph : Graph) (room : Nat) (inner : LoggingInner) (entries : Entries Value)
    (location : String) : Logging Node :=
  match entries.field? "$ref" with
  | some reference => settle Reading.node Reading.issues (readReference graph room reference location)
  | none =>
    match entries.field? "enum" with
    | some values => settle Reading.node Reading.issues (readEnum graph room values location)
    | none =>
      match entries.field? "allOf" with
      | some allOf => readAllOfInto graph inner entries allOf location
      | none => readTypedInto graph inner entries location

/-- The reading of a schema inside the mappings `path`, with a log or without one. -/
def readInto (graph : Graph) : (room : Nat) → (path : List Nat) → Value → String → Logging Node
  | room + 5, path, value, location =>
    match value with
    | .mapping id =>
      if id ∈ path then faultInto location .selfContained
      else
        let inner : LoggingInner
          | .element => readInto graph (room + 3) (id :: path)
          | .part => readInto graph (room + 2) (id :: path)
          | .property => readInto graph (room + 1) (id :: path)
          | .sibling => readInto graph room (id :: path)
        readMappingInto graph (room + 2) inner (graph.entries id) location
    | value => faultInto location (.notMapping value.kindName)
  | _, _, _, _ => throw .depth

/-! ## Issues told as they are found and at the end -/

namespace Logging

variable {α β γ δ ι : Type} {value : α → β} {issues : α → List Issue}

theorem map_append_append (log : Option (List Issue)) (first second : List Issue) :
    (log.map (· ++ first)).map (· ++ second) = log.map (· ++ (first ++ second)) := by
  rw [Option.map_map]
  exact congrArg (log.map ·) (funext fun told => List.append_assoc told first second)

theorem map_append_nil (log : Option (List Issue)) : log.map (· ++ []) = log := by
  cases log <;> simp

theorem pure_eq (node : Node) :
    (pure node : Logging Node) = settle Reading.node Reading.issues (.ok (.clean node)) := by
  funext log
  exact congrArg (fun log => Except.ok (node, log)) (map_append_nil log).symm

theorem settle_bind {result : Limited α} {next : β → Logging δ} {after : α → Limited γ}
    {last : γ → δ} {all : γ → List Issue}
    (h : ∀ told log, next (value told) (log.map (· ++ issues told)) = settle last all (after told) log) :
    settle value issues result >>= next = settle last all (result >>= after) := by
  funext log
  cases result with
  | error limit => rfl
  | ok told => exact h told log

theorem lift_bind {result : Limited α} {next : α → Logging δ} {after : α → Limited γ}
    {last : γ → δ} {all : γ → List Issue} (h : ∀ told, next told = settle last all (after told)) :
    (liftM result : Logging α) >>= next = settle last all (result >>= after) := by
  funext log
  cases result with
  | error limit => rfl
  | ok told => exact congrFun (h told) log

theorem mapM_settle {f : ι → Logging β} {g : ι → Limited α} (items : List ι)
    (h : ∀ item, f item = settle value issues (g item)) :
    items.mapM f = settle (List.map value) (List.flatMap issues) (items.mapM g) := by
  induction items with
  | nil =>
    funext log
    exact congrArg (fun log => Except.ok ([], log)) (map_append_nil log).symm
  | cons item items ih =>
    rw [List.mapM_cons, List.mapM_cons, h, ih]
    refine settle_bind fun first log => ?_
    cases items.mapM g with
    | error limit => rfl
    | ok more =>
      show Except.ok (_, (log.map _).map _) = Except.ok (_, log.map _)
      rw [map_append_append]
      rfl

end Logging

section

variable {graph : Graph} {room : Nat} {inner : Inner} {loggingInner : LoggingInner}
  {entries : Entries Value} {location : String}

/-- A way of reading with a log that goes with one of reading without. -/
def GoesWith (logging : Value → String → Logging Node) (plain : Value → String → Limited Reading) :
    Prop :=
  ∀ value location, logging value location = settle Reading.node Reading.issues (plain value location)

theorem readPropertiesInto_eq {logging : Value → String → Logging Node}
    {plain : Value → String → Limited Reading} (h : GoesWith logging plain)
    (properties : Entries Value) :
    readPropertiesInto logging location properties =
      settle (List.map fun property => (property.1, property.2.node))
        (List.flatMap fun property => property.2.issues)
        (readProperties plain location properties) := by
  refine mapM_settle properties fun property => lift_bind fun name => ?_
  rw [h]
  exact settle_bind fun reading log => rfl

theorem readPartsInto_eq {logging : Value → String → Logging Node}
    {plain : Value → String → Limited Reading} (h : GoesWith logging plain) (parts : List Value) :
    readPartsInto logging location parts =
      settle (List.map fun part => part.2.node) (List.flatMap fun part => partIssues part.1 part.2)
        (readParts plain location parts) := by
  refine mapM_settle parts.zipIdx fun part => ?_
  rw [h]
  refine settle_bind fun reading log => ?_
  have htold : settle (fun part : String × Reading => part.2.node)
      (fun part => partIssues part.1 part.2) (.ok (partLocation location part.2, reading)) log =
        .ok (reading.node, log.map (· ++ partIssues (partLocation location part.2) reading)) := rfl
  refine Eq.trans ?_ htold.symm
  rw [partIssues]
  split
  · exact congrArg (fun log => Except.ok (reading.node, log)) (map_append_append log _ _)
  · rw [List.append_nil]
    rfl

theorem readObjectInto_eq (h : GoesWith (loggingInner .property) (inner .property)) :
    readObjectInto graph loggingInner entries location =
      settle Reading.node Reading.issues (readObjectAt graph inner entries location) := by
  unfold readObjectInto readObjectAt
  cases propertyEntries? graph entries with
  | none => rfl
  | some properties =>
    show readPropertiesInto _ _ _ >>= _ = _
    rw [readPropertiesInto_eq h]
    refine settle_bind fun readings log => ?_
    cases requiredNames? graph entries with
    | some required => rfl
    | none => exact congrArg (fun log => Except.ok (Node.malformed, log)) (map_append_append log _ _)

theorem readArrayInto_of_field? {items : Value} (hitems : entries.field? "items" = some items)
    (hnull : items ≠ .scalar .null) :
    readArrayInto loggingInner entries location =
      return .array (some (← loggingInner .element items (location ++ ".items"))) := by
  rw [readArrayInto, hitems]
  split
  · next heq => cases heq
  · next heq => exact absurd (Option.some.inj heq) hnull
  · next heq =>
    cases heq
    rfl

theorem readArrayInto_eq (h : GoesWith (loggingInner .element) (inner .element)) :
    readArrayInto loggingInner entries location =
      settle Reading.node Reading.issues (readArrayAt inner entries location) := by
  cases hitems : entries.field? "items" with
  | none =>
    rw [readArrayInto, readArrayAt, hitems]
    exact pure_eq _
  | some items =>
    by_cases hnull : items = .scalar .null
    · rw [readArrayInto, readArrayAt, hitems, hnull]
      exact pure_eq _
    · rw [readArrayInto_of_field? hitems hnull, readArrayAt_of_field? hitems hnull, h]
      exact settle_bind fun element log => rfl

theorem readTypedInto_eq (h : ∀ place, GoesWith (loggingInner place) (inner place)) :
    readTypedInto graph loggingInner entries location =
      settle Reading.node Reading.issues (readTyped graph inner entries location) := by
  unfold readTypedInto readTyped
  cases kind? entries with
  | none => exact pure_eq _
  | some kind =>
    dsimp only
    split
    · exact readArrayInto_eq (h .element)
    · split
      · exact readObjectInto_eq (h .property)
      · exact pure_eq _

theorem readAllOfInto_eq (h : ∀ place, GoesWith (loggingInner place) (inner place)) (allOf : Value) :
    readAllOfInto graph loggingInner entries allOf location =
      settle Reading.node Reading.issues (readAllOf graph inner entries allOf location) := by
  unfold readAllOfInto readAllOf
  cases graph.items? allOf with
  | none => rfl
  | some parts =>
    cases requiredNames? graph entries with
    | none => rfl
    | some required =>
      cases propertyEntries? graph entries with
      | none => rfl
      | some properties =>
        show readPropertiesInto _ _ _ >>= _ = _
        rw [readPropertiesInto_eq (h .sibling)]
        refine settle_bind fun siblings log => ?_
        rw [readPartsInto_eq (h .part)]
        cases readParts (inner .part) location parts with
        | error limit => rfl
        | ok readings =>
          show Except.ok (Composition.toNode (List.foldl _ _ (readings.map _)), (log.map _).map _) = _
          rw [map_append_append, List.foldl_map]
          rfl

theorem readMappingInto_eq (h : ∀ place, GoesWith (loggingInner place) (inner place)) :
    readMappingInto graph room loggingInner entries location =
      settle Reading.node Reading.issues (readMapping graph room inner entries location) := by
  unfold readMappingInto readMapping
  cases entries.field? "$ref" with
  | some reference => rfl
  | none =>
    cases entries.field? "enum" with
    | some values => rfl
    | none =>
      cases entries.field? "allOf" with
      | some allOf => exact readAllOfInto_eq h allOf
      | none => exact readTypedInto_eq h

theorem readInto_tiny (graph : Graph) (path : List Nat) (value : Value) (location : String)
    (h : room < 5) : readInto graph room path value location = throw .depth := by
  match room, h with
  | 0, _ => rfl
  | 1, _ => rfl
  | 2, _ => rfl
  | 3, _ => rfl
  | 4, _ => rfl

/-- A reading ends with the same schema with a log and without one. -/
theorem readInto_eq (graph : Graph) (room : Nat) (path : List Nat) (value : Value)
    (location : String) :
    readInto graph room path value location =
      settle Reading.node Reading.issues (readAt graph room path value location) := by
  induction room using Nat.strongRecOn generalizing path value location with
  | ind room ih =>
    by_cases htiny : room < 5
    · rw [readAt_tiny graph room path location value htiny, readInto_tiny graph path value location htiny]
      rfl
    obtain ⟨room, rfl⟩ : ∃ n, room = n + 5 := ⟨room - 5, by omega⟩
    cases value with
    | mapping id =>
      rw [readInto, readAt]
      split
      · rfl
      · apply readMappingInto_eq
        intro place value location
        cases place with
        | element => exact ih (room + 3) (by omega) (id :: path) value location
        | part => exact ih (room + 2) (by omega) (id :: path) value location
        | property => exact ih (room + 1) (by omega) (id :: path) value location
        | sibling => exact ih room (by omega) (id :: path) value location
    | _ => rfl

end

end ApiBindings.Schema

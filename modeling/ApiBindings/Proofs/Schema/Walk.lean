import ApiBindings.Proofs.Value.Likeness
import ApiBindings.Schema.Read

/-!
# Reading schemas that are alike

Reading a schema is a walk through a graph. Two walks that meet the same at every step read the same,
however the graphs share their parts. One walk may also be cut off where the other one meets a mapping
that it is in; only the problem told there is then another one.
-/

namespace ApiBindings

open Limited (Tolerance Follows)

/-- The problem told instead of a schema that stands inside itself, and any other problem as it is. -/
def Problem.marked (problem mark : Problem) : Problem :=
  match problem with
  | .selfContained => mark
  | _ => problem

def Issue.marked (mark : Problem) (issue : Issue) : Issue :=
  { issue with problem := issue.problem.marked mark }

theorem Problem.marked_of_ne {mark problem : Problem} (h : problem ≠ .selfContained) :
    problem.marked mark = problem := by
  cases problem with
  | selfContained => exact absurd rfl h
  | _ => rfl

theorem Issue.marked_selfContained (issue : Issue) : issue.marked .selfContained = issue := by
  obtain ⟨location, problem⟩ := issue
  cases problem <;> rfl

namespace Schema

def Reading.marked (mark : Problem) (reading : Reading) : Reading :=
  { reading with issues := reading.issues.map (Issue.marked mark) }

theorem Reading.marked_selfContained : Reading.marked .selfContained = id := by
  funext reading
  have hissue : Issue.marked .selfContained = id := funext Issue.marked_selfContained
  rw [Reading.marked, hissue, List.map_id]
  rfl

theorem Reading.marked_fault {mark problem : Problem} (location : String)
    (h : problem ≠ .selfContained) :
    (Reading.fault location problem).marked mark = .fault location problem := by
  simp only [Reading.marked, Reading.fault, List.map_cons, List.map_nil, Issue.marked,
    Problem.marked_of_ne h]

/-! ## One step of the walk -/

/-- How a walk reads the schemas inside a mapping. -/
def innerAt (graph : Graph) (room : Nat) (path : List Nat) : Inner
  | .element => readAt graph (room + 3) path
  | .part => readAt graph (room + 2) path
  | .property => readAt graph (room + 1) path
  | .sibling => readAt graph room path

section

variable (graph : Graph) (room : Nat) (path : List Nat) (location : String)

theorem readAt_tiny (value : Value) (h : room < 5) :
    readAt graph room path value location = .error .depth := by
  match room, h with
  | 0, _ => rfl
  | 1, _ => rfl
  | 2, _ => rfl
  | 3, _ => rfl
  | 4, _ => rfl

variable {path}

theorem readAt_met {id : Nat} (h : id ∈ path) :
    readAt graph (room + 5) path (.mapping id) location = .ok (.fault location .selfContained) := by
  rw [readAt, if_pos h]

theorem readAt_mapping {id : Nat} (h : id ∉ path) :
    readAt graph (room + 5) path (.mapping id) location =
      readMapping graph (room + 2) (innerAt graph room (id :: path)) (graph.entries id) location := by
  rw [readAt, if_neg h]
  rfl

theorem readAt_other {value : Value} (h : ∀ id, value ≠ .mapping id) :
    readAt graph (room + 5) path value location =
      .ok (.fault location (.notMapping value.kindName)) := by
  cases value with
  | mapping id => exact absurd rfl (h id)
  | _ => rfl

end

/-- The values of a key in two schemas are alike. The schemas inside a schema are related by `inner`;
everything else that a schema holds is related by `shown`. -/
structure FieldAlike (graph other : Graph) (shown inner : Value → Value → Prop) (key : Scalar)
    (value value' : Value) : Prop where
  element : key = .text "items" →
    inner value value' ∧ (value = .scalar .null ↔ value' = .scalar .null)
  properties : key = .text "properties" → graph.isTruthy value = other.isTruthy value' ∧
    Option.Rel (Entries.Alike fun _ => inner) (graph.entries? value) (other.entries? value')
  parts : key = .text "allOf" →
    Option.Rel (List.Forall₂ inner) (graph.items? value) (other.items? value')
  plain : key ≠ .text "items" → key ≠ .text "properties" → key ≠ .text "allOf" →
    shown value value'

/-- Two walks in keeping with each other at a value, inside the mappings of their paths. -/
inductive Step (graph other : Graph) (mark : Problem) (shown : Value → Value → Prop)
    (inner : List Nat → List Nat → Value → Value → Prop) (path path' : List Nat) :
    Value → Value → Prop where
  /-- One walk is cut off where the other one meets a mapping that it is in. -/
  | cut {id : Nat} {value' : Value} : id ∈ path → (∀ id', value' ≠ .mapping id') →
      mark = .notMapping value'.kindName →
      Step graph other mark shown inner path path' (.mapping id) value'
  /-- Both walks meet a mapping that they are in. -/
  | met {id id' : Nat} : id ∈ path → id' ∈ path' → mark = .selfContained →
      Step graph other mark shown inner path path' (.mapping id) (.mapping id')
  /-- No walk goes on. -/
  | stop {value value' : Value} : (∀ id, value ≠ .mapping id) → (∀ id, value' ≠ .mapping id) →
      value.kindName = value'.kindName →
      Step graph other mark shown inner path path' value value'
  /-- Both walks go on. -/
  | go {id id' : Nat} : id ∉ path → id' ∉ path' →
      Entries.Alike (FieldAlike graph other shown (inner (id :: path) (id' :: path')))
        (graph.entries id) (other.entries id') →
      Step graph other mark shown inner path path' (.mapping id) (.mapping id')

/-- A relation of values, with the room and the path of each, that is kept when one reads them as
schemas. What issues show is related by a likeness. -/
structure IsWalk (tolerance : Tolerance) (graph other : Graph) (mark : Problem)
    (shown : Nat → Nat → List Graph.Container → List Graph.Container → Value → Value → Prop)
    (walk : Nat → Nat → List Nat → List Nat → Value → Value → Prop) : Prop where
  likeness : Graph.IsLikeness tolerance graph other shown
  tiny : ∀ {room room' path path' value value'}, walk room room' path path' value value' → room < 5 →
    tolerance = .deeper ∨ (tolerance = .exact ∧ room' < 5)
  step : ∀ {room room' path path' value value'}, walk (room + 5) room' path path' value value' →
    ∃ less, room' = less + 5 ∧ Step graph other mark (shown (room + 2) (less + 2) [] [])
      (fun inside inside' part part' =>
        ∀ k ≤ 3, walk (room + k) (less + k) inside inside' part part') path path' value value'

/-! ## The parts of a reading -/

section

variable {tolerance : Tolerance} {graph other : Graph} {mark : Problem}
  {shown : Nat → Nat → List Graph.Container → List Graph.Container → Value → Value → Prop}
  {room room' : Nat} {value value' : Value} {location : String}

theorem fault_follows {problem : Problem} (h : problem ≠ .selfContained) :
    Follows tolerance (Reading.marked mark) (.ok (.fault location problem))
      (.ok (.fault location problem)) :=
  congrArg Except.ok (Reading.marked_fault location h).symm

theorem faultShowing_follows (hshown : Graph.IsLikeness tolerance graph other shown)
    (h : shown room room' [] [] value value') {problem : String → Problem}
    (hproblem : ∀ text, problem text ≠ .selfContained) :
    Follows tolerance (Reading.marked mark) (Reading.faultShowing graph room value location problem)
      (Reading.faultShowing other room' value' location problem) :=
  (hshown.shownWithin h).map fun text => (Reading.marked_fault location (hproblem text)).symm

theorem readReference_follows (hshown : Graph.IsLikeness tolerance graph other shown)
    (hroom : 0 < room) (h : shown room room' [] [] value value') :
    Follows tolerance (Reading.marked mark) (readReference graph room value location)
      (readReference other room' value' location) := by
  obtain ⟨inner, halike⟩ := hshown.alike hroom h
  unfold readReference
  rw [← halike.text?_eq]
  split
  · split
    · exact faultShowing_follows hshown h fun text => nofun
    · rfl
  · exact faultShowing_follows hshown h fun text => nofun

theorem readEnumValues_follows (hshown : Graph.IsLikeness tolerance graph other shown)
    (hroom : 0 < room) {items items' : List Value}
    (h : List.Forall₂ (shown room room' [] []) items items') (values : List Scalar) :
    Follows tolerance (Reading.marked mark) (readEnumValues graph room location values items)
      (readEnumValues other room' location values items') := by
  induction h generalizing values with
  | nil => rfl
  | @cons item item' _ _ hitem _ ih =>
    obtain ⟨inner, halike⟩ := hshown.alike hroom hitem
    have hscalar : enumScalar? item = enumScalar? item' := by cases halike <;> rfl
    rw [readEnumValues, readEnumValues, ← hscalar]
    split
    · exact ih _
    · exact faultShowing_follows hshown hitem fun text => nofun

theorem readEnum_follows (hshown : Graph.IsLikeness tolerance graph other shown)
    (hroom : 0 < room) (h : shown room room' [] [] value value') :
    Follows tolerance (Reading.marked mark) (readEnum graph room value location)
      (readEnum other room' value' location) := by
  unfold readEnum
  rcases cases_of_rel (hshown.items? hroom h) with
    ⟨hnone, hnone'⟩ | ⟨items, items', hsome, hsome', hitems⟩
  · rw [hnone, hnone']
    exact fault_follows nofun
  · rw [hsome, hsome']
    exact readEnumValues_follows hshown hroom hitems []

variable {inside : Value → Value → Prop} {entries entries' : Entries Value}

/-- Fields in which no schemas stand. -/
theorem plainField (h : Entries.Alike (FieldAlike graph other (shown room room' [] []) inside)
    entries entries') {name : String} (hname : name ∉ ["items", "properties", "allOf"]) :
    Option.Rel (shown room room' [] []) (entries.field? name) (entries'.field? name) := by
  simp only [List.mem_cons, List.not_mem_nil, or_false, not_or] at hname
  rcases cases_of_rel (h.field? name) with ⟨hnone, hnone'⟩ | ⟨value, value', hsome, hsome', hfield⟩
  · rw [hnone, hnone']
    exact .none
  · rw [hsome, hsome']
    exact .some (hfield.plain (by simpa using hname.1) (by simpa using hname.2.1)
      (by simpa using hname.2.2))

theorem requiredNames?_eq (hshown : Graph.IsLikeness tolerance graph other shown) (hroom : 0 < room)
    (h : Entries.Alike (FieldAlike graph other (shown room room' [] []) inside) entries entries') :
    requiredNames? graph entries = requiredNames? other entries' := by
  have hrequired := plainField h (show "required" ∉ ["items", "properties", "allOf"] by decide)
  unfold requiredNames?
  rcases cases_of_rel hrequired with ⟨hnone, hnone'⟩ | ⟨value, value', hsome, hsome', hvalue⟩
  · rw [hnone, hnone']
  · rw [hsome, hsome']
    show (graph.items? value).bind _ = (other.items? value').bind _
    rcases cases_of_rel (hshown.items? hroom hvalue) with
      ⟨hnone, hnone'⟩ | ⟨items, items', hsome, hsome', hitems⟩
    · rw [hnone, hnone']
    · rw [hsome, hsome', Option.bind_some, Option.bind_some]
      clear hsome hsome'
      induction hitems with
      | nil => rfl
      | cons hitem _ ih =>
        obtain ⟨inner, halike⟩ := hshown.alike hroom hitem
        rw [List.mapM_cons, List.mapM_cons, halike.text?_eq, ih]

theorem propertyEntries?_alike
    (h : Entries.Alike (FieldAlike graph other (shown room room' [] []) inside) entries entries') :
    Option.Rel (Entries.Alike fun _ => inside) (propertyEntries? graph entries)
      (propertyEntries? other entries') := by
  unfold propertyEntries?
  rcases cases_of_rel (h.field? "properties") with
    ⟨hnone, hnone'⟩ | ⟨value, value', hsome, hsome', hfield⟩
  · rw [hnone, hnone']
    exact .some .nil
  · obtain ⟨htruthy, hentries⟩ := hfield.properties rfl
    simp only [hsome, hsome', ← htruthy]
    split
    · exact hentries
    · exact .some .nil

def markedNamed (mark : Problem) (named : String × Reading) : String × Reading :=
  (named.1, named.2.marked mark)

theorem readProperties_follows (location : String) {inner inner' : Value → String → Limited Reading}
    (hinner : ∀ value value' location, inside value value' →
      Follows tolerance (Reading.marked mark) (inner value location) (inner' value' location))
    (h : Entries.Alike (fun _ => inside) entries entries') :
    Follows tolerance (List.map (markedNamed mark)) (readProperties inner location entries)
      (readProperties inner' location entries') := by
  apply Follows.mapM
  apply h.imp
  intro entry entry' hentry
  rw [← hentry.1]
  have hname : entry.1.checkedText ≠ .error .depth := by
    unfold Scalar.checkedText
    split <;> simp
  exact (Follows.self hname).bind fun name => (hinner _ _ _ hentry.2).map fun reading => rfl

theorem readParts_follows (location : String) {inner inner' : Value → String → Limited Reading}
    (hinner : ∀ value value' location, inside value value' →
      Follows tolerance (Reading.marked mark) (inner value location) (inner' value' location))
    {parts parts' : List Value} (h : List.Forall₂ inside parts parts') :
    Follows tolerance (List.map (markedNamed mark)) (readParts inner location parts)
      (readParts inner' location parts') := by
  have hindexed : ∀ start, List.Forall₂ (fun part part' => inside part.1 part'.1 ∧ part.2 = part'.2)
      (parts.zipIdx start) (parts'.zipIdx start) := by
    induction h with
    | nil => exact fun _ => .nil
    | cons hpart _ ih => exact fun start => .cons ⟨hpart, rfl⟩ (ih (start + 1))
  apply Follows.mapM
  apply (hindexed 0).imp
  intro part part' hpart
  rw [← hpart.2]
  exact (hinner _ _ _ hpart.1).map fun reading => rfl

theorem issues_markedNamed (properties : List (String × Reading)) :
    (properties.map (markedNamed mark)).flatMap (fun property => property.2.issues) =
      (properties.flatMap fun property => property.2.issues).map (Issue.marked mark) := by
  rw [List.flatMap_map, List.map_flatMap]
  rfl

theorem nodes_markedNamed (properties : List (String × Reading)) :
    (properties.map (markedNamed mark)).map (fun property => (property.1, property.2.node)) =
      properties.map fun property => (property.1, property.2.node) := by
  rw [List.map_map]
  rfl

theorem readObject_marked (properties : List (String × Reading)) (required : Option (List String)) :
    readObject location (properties.map (markedNamed mark)) required =
      (readObject location properties required).marked mark := by
  cases required with
  | none =>
    simp only [readObject, Reading.withProperties, issues_markedNamed, Reading.marked,
      List.map_append, List.map_cons, List.map_nil, Issue.marked, Problem.marked]
  | some required =>
    simp only [readObject, Reading.withProperties, issues_markedNamed, nodes_markedNamed,
      Reading.marked]

theorem readComposition_marked (required : List String) (siblings parts : List (String × Reading)) :
    readComposition required (siblings.map (markedNamed mark)) (parts.map (markedNamed mark)) =
      (readComposition required siblings parts).marked mark := by
  have hpart : ∀ part : String × Reading, partIssues part.1 (part.2.marked mark) =
      (partIssues part.1 part.2).map (Issue.marked mark) := by
    intro part
    unfold partIssues
    rw [List.map_append]
    congr 1
    show (if isUnusable part.2.node = true then _ else _) = _
    split <;> rfl
  have hparts : (parts.map (markedNamed mark)).flatMap (fun part => partIssues part.1 part.2) =
      (parts.flatMap fun part => partIssues part.1 part.2).map (Issue.marked mark) := by
    rw [List.flatMap_map, List.map_flatMap]
    exact List.flatMap_congr fun part _ => hpart part
  simp only [readComposition, Reading.withProperties, issues_markedNamed, nodes_markedNamed, hparts,
    Reading.marked, List.map_append, List.foldl_map, markedNamed]

/-! ## The reading of a mapping -/

variable {inner inner' : Inner}

theorem readObjectAt_follows (hshown : Graph.IsLikeness tolerance graph other shown)
    (hroom : 0 < room)
    (hinner : ∀ value value' location, inside value value' → Follows tolerance
      (Reading.marked mark) (inner .property value location) (inner' .property value' location))
    (h : Entries.Alike (FieldAlike graph other (shown room room' [] []) inside) entries entries') :
    Follows tolerance (Reading.marked mark) (readObjectAt graph inner entries location)
      (readObjectAt other inner' entries' location) := by
  unfold readObjectAt
  rw [← requiredNames?_eq hshown hroom h]
  rcases cases_of_rel (propertyEntries?_alike h) with
    ⟨hnone, hnone'⟩ | ⟨properties, properties', hsome, hsome', hproperties⟩
  · rw [hnone, hnone']
    exact fault_follows nofun
  · rw [hsome, hsome']
    have hread := readProperties_follows location hinner hproperties
    exact hread.map fun readings => readObject_marked readings _

theorem readArrayAt_follows
    (hinner : ∀ value value' location, inside value value' → Follows tolerance
      (Reading.marked mark) (inner .element value location) (inner' .element value' location))
    (h : Entries.Alike (FieldAlike graph other (shown room room' [] []) inside) entries entries') :
    Follows tolerance (Reading.marked mark) (readArrayAt inner entries location)
      (readArrayAt inner' entries' location) := by
  unfold readArrayAt
  rcases cases_of_rel (h.field? "items") with
    ⟨hnone, hnone'⟩ | ⟨items, items', hsome, hsome', hfield⟩
  · rw [hnone, hnone']
    rfl
  · obtain ⟨hitems, hnull⟩ := hfield.element rfl
    rw [hsome, hsome']
    by_cases hitem : items = .scalar .null
    · rw [hitem, hnull.1 hitem]
      rfl
    · have hitem' : items' ≠ .scalar .null := mt hnull.2 hitem
      have hread := (hinner _ _ (location ++ ".items") hitems).map (k := Reading.marked mark)
        (f := fun element => { element with node := .array (some element.node) })
        (g := fun element => { element with node := .array (some element.node) }) fun reading => rfl
      split
      · simp_all
      · simp_all
      · rename_i heq
        cases heq
        exact hread

theorem kind?_eq (hshown : Graph.IsLikeness tolerance graph other shown) (hroom : 0 < room)
    (h : Entries.Alike (FieldAlike graph other (shown room room' [] []) inside) entries entries') :
    kind? entries = kind? entries' := by
  have hkind := plainField h (show "type" ∉ ["items", "properties", "allOf"] by decide)
  unfold kind?
  rcases cases_of_rel hkind with ⟨hnone, hnone'⟩ | ⟨value, value', hsome, hsome', hvalue⟩
  · rw [hnone, hnone']
  · obtain ⟨inner, halike⟩ := hshown.alike hroom hvalue
    rw [hsome, hsome']
    cases halike <;> rfl

theorem readTyped_follows (hshown : Graph.IsLikeness tolerance graph other shown) (hroom : 0 < room)
    (hinner : ∀ place value value' location, inside value value' → Follows tolerance
      (Reading.marked mark) (inner place value location) (inner' place value' location))
    (h : Entries.Alike (FieldAlike graph other (shown room room' [] []) inside) entries entries') :
    Follows tolerance (Reading.marked mark) (readTyped graph inner entries location)
      (readTyped other inner' entries' location) := by
  have hproperties : (entries.field? "properties").isSome = (entries'.field? "properties").isSome := by
    rcases cases_of_rel (h.field? "properties") with
      ⟨hnone, hnone'⟩ | ⟨value, value', hsome, hsome', -⟩
    · rw [hnone, hnone']
    · rw [hsome, hsome']
      rfl
  have hformat : (entries.field? "format").bind Value.text? =
      (entries'.field? "format").bind Value.text? := by
    have hformat := plainField h (show "format" ∉ ["items", "properties", "allOf"] by decide)
    rcases cases_of_rel hformat with ⟨hnone, hnone'⟩ | ⟨value, value', hsome, hsome', hvalue⟩
    · rw [hnone, hnone']
    · obtain ⟨inner, halike⟩ := hshown.alike hroom hvalue
      rw [hsome, hsome']
      exact halike.text?_eq
  unfold readTyped
  rw [← kind?_eq hshown hroom h, ← hproperties, ← hformat]
  split
  · rfl
  · split
    · exact readArrayAt_follows (hinner .element) h
    · split
      · exact readObjectAt_follows hshown hroom (hinner .property) h
      · rfl

theorem readAllOf_follows (hshown : Graph.IsLikeness tolerance graph other shown) (hroom : 0 < room)
    (hinner : ∀ place value value' location, inside value value' → Follows tolerance
      (Reading.marked mark) (inner place value location) (inner' place value' location))
    (h : Entries.Alike (FieldAlike graph other (shown room room' [] []) inside) entries entries')
    {allOf allOf' : Value}
    (hparts : Option.Rel (List.Forall₂ inside) (graph.items? allOf) (other.items? allOf')) :
    Follows tolerance (Reading.marked mark) (readAllOf graph inner entries allOf location)
      (readAllOf other inner' entries' allOf' location) := by
  unfold readAllOf
  rw [← requiredNames?_eq hshown hroom h]
  rcases cases_of_rel hparts with ⟨hnone, hnone'⟩ | ⟨parts, parts', hsome, hsome', hparts⟩
  · rw [hnone, hnone']
    exact fault_follows nofun
  rw [hsome, hsome']
  cases requiredNames? graph entries with
  | none => exact fault_follows nofun
  | some required =>
    rcases cases_of_rel (propertyEntries?_alike h) with
      ⟨hnone, hnone'⟩ | ⟨properties, properties', hsome, hsome', hproperties⟩
    · rw [hnone, hnone']
      exact fault_follows nofun
    · rw [hsome, hsome']
      have hsiblings := readProperties_follows location (hinner .sibling) hproperties
      have hread := readParts_follows location (hinner .part) hparts
      exact hsiblings.bind fun siblings => hread.map fun parts =>
        readComposition_marked required siblings parts

theorem readMapping_follows (hshown : Graph.IsLikeness tolerance graph other shown)
    (hroom : 0 < room)
    (hinner : ∀ place value value' location, inside value value' → Follows tolerance
      (Reading.marked mark) (inner place value location) (inner' place value' location))
    (h : Entries.Alike (FieldAlike graph other (shown room room' [] []) inside) entries entries') :
    Follows tolerance (Reading.marked mark) (readMapping graph room inner entries location)
      (readMapping other room' inner' entries' location) := by
  have hreference := plainField h (show "$ref" ∉ ["items", "properties", "allOf"] by decide)
  have henum := plainField h (show "enum" ∉ ["items", "properties", "allOf"] by decide)
  unfold readMapping
  rcases cases_of_rel hreference with ⟨hnone, hnone'⟩ | ⟨value, value', hsome, hsome', hvalue⟩
  · rw [hnone, hnone']
    rcases cases_of_rel henum with ⟨hnone, hnone'⟩ | ⟨value, value', hsome, hsome', hvalue⟩
    · rw [hnone, hnone']
      rcases cases_of_rel (h.field? "allOf") with
        ⟨hnone, hnone'⟩ | ⟨allOf, allOf', hsome, hsome', hallOf⟩
      · rw [hnone, hnone']
        exact readTyped_follows hshown hroom hinner h
      · rw [hsome, hsome']
        exact readAllOf_follows hshown hroom hinner h (hallOf.parts rfl)
    · rw [hsome, hsome']
      exact readEnum_follows hshown hroom hvalue
  · rw [hsome, hsome']
    exact readReference_follows hshown hroom hvalue

end

/-! ## The whole walk -/

/-- Walks in keeping with each other read the same. -/
theorem IsWalk.readAt {tolerance : Tolerance} {graph other : Graph} {mark : Problem}
    {shown : Nat → Nat → List Graph.Container → List Graph.Container → Value → Value → Prop}
    {walk : Nat → Nat → List Nat → List Nat → Value → Value → Prop}
    (hwalk : IsWalk tolerance graph other mark shown walk) {room room' : Nat}
    {path path' : List Nat} {value value' : Value} (location : String)
    (h : walk room room' path path' value value') :
    Follows tolerance (Reading.marked mark) (readAt graph room path value location)
      (readAt other room' path' value' location) := by
  induction room using Nat.strongRecOn generalizing room' path path' value value' location with
  | ind room ih =>
    by_cases htiny : room < 5
    · rw [readAt_tiny graph room path location value htiny]
      rcases hwalk.tiny h htiny with rfl | ⟨rfl, htiny'⟩
      · trivial
      · exact readAt_tiny other room' path' location value' htiny'
    obtain ⟨room, rfl⟩ : ∃ n, room = n + 5 := ⟨room - 5, by omega⟩
    obtain ⟨less, rfl, hstep⟩ := hwalk.step h
    cases hstep with
    | cut hin hvalue' hmark =>
      rw [readAt_met graph room location hin, readAt_other other less location hvalue', hmark]
      rfl
    | met hin hin' hmark =>
      rw [readAt_met graph room location hin, readAt_met other less location hin', hmark]
      rfl
    | stop hvalue hvalue' hkind =>
      rw [readAt_other graph room location hvalue, readAt_other other less location hvalue', hkind]
      rfl
    | @go id id' hin hin' hentries =>
      rw [readAt_mapping graph room location hin, readAt_mapping other less location hin']
      refine readMapping_follows hwalk.likeness (Nat.succ_pos _) ?_ hentries
      intro place part part' inside hpart
      -- A step takes five units and gives up to three back, so the room falls, but not by one each time.
      cases place with
      | element => exact ih (room + 3) (by omega) inside (hpart 3 (by omega))
      | part => exact ih (room + 2) (by omega) inside (hpart 2 (by omega))
      | property => exact ih (room + 1) (by omega) inside (hpart 1 (by omega))
      | sibling => exact ih room (by omega) inside (hpart 0 (by omega))

end Schema

end ApiBindings

import ApiBindings.Proofs.Schema.Shape
import ApiBindings.Proofs.Schema.Walk

/-!
# Where issues are

The issues of a schema are at the locations of the schemas inside it, and last, if it is malformed, there is
one at its own location (`TellsOf`). So nothing is told of a location twice, and what is malformed has been
told of.
-/

namespace ApiBindings.Schema

/-- An issue of something inside what is at a location. -/
def IsInside (location : String) (issue : Issue) : Prop :=
  ∃ rest, issue.location = location ++ "." ++ rest

/-- What is told of the schema at a location. -/
inductive TellsOf (location : String) : Reading → Prop where
  | wellFormed {node : Node} {inside : List Issue} : node ≠ .malformed →
      (∀ issue ∈ inside, IsInside location issue) → TellsOf location ⟨node, inside⟩
  | malformed {inside : List Issue} (problem : Problem) :
      (∀ issue ∈ inside, IsInside location issue) →
      TellsOf location ⟨.malformed, inside ++ [⟨location, problem⟩]⟩

/-- If a reading is malformed, its last issue is at its location. -/
def TellsOfItself (location : String) (result : Limited Reading) : Prop :=
  ∀ reading, result = .ok reading → reading.node = .malformed →
    ∃ before problem, reading.issues = before ++ [⟨location, problem⟩]

section

variable {graph : Graph} {inner : Inner} {entries : Entries Value} {location : String}
  {reading : Reading}

/-! ## Locations -/

theorem IsInside.ne {issue : Issue} (h : IsInside location issue) : issue.location ≠ location := by
  obtain ⟨rest, hrest⟩ := h
  intro heq
  have hlengths := congrArg String.length (heq.symm.trans hrest)
  simp only [String.length_append] at hlengths
  have hdot : ".".length = 1 := rfl
  omega

/-- Whatever is told of something inside a schema is told inside the schema. -/
theorem TellsOf.isInside {step : String} (h : TellsOf (location ++ "." ++ step) reading) :
    ∀ issue ∈ reading.issues, IsInside location issue := by
  have hdeeper : ∀ issue, IsInside (location ++ "." ++ step) issue → IsInside location issue := by
    rintro issue ⟨rest, hrest⟩
    exact ⟨step ++ "." ++ rest, by simp only [hrest, String.append_assoc]⟩
  cases h with
  | wellFormed _ hinside => exact fun issue hissue => hdeeper issue (hinside issue hissue)
  | malformed problem hinside =>
    intro issue hissue
    rcases List.mem_append.1 hissue with hissue | hown
    · exact hdeeper issue (hinside issue hissue)
    · exact ⟨step, by rw [List.mem_singleton.1 hown]⟩

theorem itemsLocation_eq (location : String) : location ++ ".items" = location ++ "." ++ "items" := by
  rw [String.append_assoc]
  rfl

theorem propertyLocation_eq (location name : String) :
    propertyLocation location name = location ++ "." ++ ("properties." ++ name) := by
  have hstep : ".properties." = "." ++ "properties." := rfl
  simp only [propertyLocation, hstep, String.append_assoc]

theorem partLocation_eq (location : String) (index : Nat) :
    partLocation location index = location ++ "." ++ ("allOf[" ++ toString index ++ "]") := by
  have hstep : ".allOf[" = "." ++ "allOf[" := rfl
  simp only [partLocation, hstep, String.append_assoc]

/-! ## What is told -/

theorem tellsOf_fault (problem : Problem) : TellsOf location (.fault location problem) :=
  .malformed problem (List.forall_mem_nil _)

/-- The readings of the schemas inside a mapping tell of them. -/
def InnerTells (inner : Inner) : Prop :=
  ∀ {place value location reading}, inner place value location = .ok reading →
    TellsOf location reading

section

variable {place : Place} {readings : List (String × Reading)}

theorem InnerTells.properties {properties : Entries Value} (hinner : InnerTells inner)
    (h : readProperties (inner place) location properties = .ok readings) :
    ∀ property ∈ readings, TellsOf (propertyLocation location property.1) property.2 := by
  intro property hproperty
  obtain ⟨entry, -, -, hread⟩ := Limited.exists_of_forall₂ (readProperties_eq_ok_iff.1 h).flip hproperty
  exact hinner hread

theorem InnerTells.parts {parts : List Value} (hinner : InnerTells inner)
    (h : readParts (inner place) location parts = .ok readings) :
    ∀ part ∈ readings, (∃ index, part.1 = partLocation location index) ∧ TellsOf part.1 part.2 := by
  intro part hpart
  obtain ⟨entry, -, hplace, hread⟩ := Limited.exists_of_forall₂ (readParts_eq_ok_iff.1 h).flip hpart
  exact ⟨⟨entry.2, hplace⟩, hinner hread⟩

/-- Properties are inside their object. -/
theorem isInside_of_properties
    (h : ∀ property ∈ readings, TellsOf (propertyLocation location property.1) property.2) :
    ∀ issue ∈ readings.flatMap fun property => property.2.issues, IsInside location issue := by
  intro issue hissue
  obtain ⟨property, hproperty, hissue⟩ := List.mem_flatMap.1 hissue
  have htells := h property hproperty
  rw [propertyLocation_eq] at htells
  exact htells.isInside issue hissue

/-- Parts are inside their composition, and so is what is told of parts that cannot be used. -/
theorem isInside_of_parts
    (h : ∀ part ∈ readings, (∃ index, part.1 = partLocation location index) ∧ TellsOf part.1 part.2) :
    ∀ issue ∈ readings.flatMap fun part => partIssues part.1 part.2, IsInside location issue := by
  intro issue hissue
  obtain ⟨⟨place, reading⟩, hpart, hissue⟩ := List.mem_flatMap.1 hissue
  obtain ⟨⟨index, rfl⟩, htells⟩ := h _ hpart
  rw [partLocation_eq] at htells hissue
  rcases List.mem_append.1 hissue with hissue | hissue
  · exact htells.isInside issue hissue
  · split at hissue
    · exact ⟨_, by rw [List.mem_singleton.1 hissue]⟩
    · cases hissue

end

theorem Outcome.tellsOf (hinner : InnerTells inner)
    (h : Outcome graph inner entries location reading) : TellsOf location reading := by
  cases h with
  | fault problem => exact tellsOf_fault problem
  | leaf hleaf =>
    refine .wellFormed ?_ (List.forall_mem_nil _)
    rintro rfl
    cases hleaf
  | @array items element _ helement =>
    have htells := hinner helement
    rw [itemsLocation_eq] at htells
    exact .wellFormed nofun htells.isInside
  | object _ hreadings =>
    have hinside := isInside_of_properties (hinner.properties hreadings)
    cases requiredNames? graph entries with
    | some required => exact .wellFormed nofun hinside
    | none => exact .malformed .requiredNotNames hinside
  | composition _ hsiblings hreadings =>
    refine .wellFormed nofun ?_
    intro issue hissue
    rcases List.mem_append.1 hissue with hissue | hissue
    · exact isInside_of_properties (hinner.properties hsiblings) issue hissue
    · exact isInside_of_parts (hinner.parts hreadings) issue hissue

theorem tellsOf_readAt {room : Nat} {path : List Nat} {value : Value}
    (h : readAt graph room path value location = .ok reading) : TellsOf location reading := by
  induction room using Nat.strongRecOn generalizing path value location reading with
  | ind room ih =>
    by_cases htiny : room < 5
    · rw [readAt_tiny graph room path location value htiny] at h
      cases h
    obtain ⟨room, rfl⟩ : ∃ n, room = n + 5 := ⟨room - 5, by omega⟩
    by_cases hmapping : ∃ id, value = .mapping id
    · obtain ⟨id, rfl⟩ := hmapping
      by_cases hid : id ∈ path
      · rw [readAt_met graph room location hid] at h
        cases h
        exact tellsOf_fault _
      · rw [readAt_mapping graph room location hid] at h
        refine (outcome_of_readMapping h).tellsOf ?_
        intro place value location reading hread
        cases place with
        | element => exact ih (room + 3) (by omega) hread
        | part => exact ih (room + 2) (by omega) hread
        | property => exact ih (room + 1) (by omega) hread
        | sibling => exact ih room (by omega) hread
    · rw [readAt_other graph room location fun id heq => hmapping ⟨id, heq⟩] at h
      cases h
      exact tellsOf_fault _

theorem innerTells_innerAt (room : Nat) (path : List Nat) : InnerTells (innerAt graph room path) := by
  intro place value location reading h
  cases place with
  | element => exact tellsOf_readAt h
  | part => exact tellsOf_readAt h
  | property => exact tellsOf_readAt h
  | sibling => exact tellsOf_readAt h

theorem tellsOfItself_readAt {room : Nat} (path : List Nat) (value : Value) :
    TellsOfItself location (readAt graph room path value location) := by
  intro reading hread hmalformed
  cases tellsOf_readAt hread with
  | wellFormed hnode _ => exact absurd hmalformed hnode
  | @malformed inside problem _ => exact ⟨inside, problem, rfl⟩

end

end ApiBindings.Schema

import ApiBindings.Client.Basic
import ApiBindings.Proofs.Naming.Capital

/-!
# Names that a client declares

The class is named for the file of its document, a method for what the operation calls itself or for its
path. Such a name is an identifier unless the first character of that text spoils it
(`isIdentifier_names_iff`); a path never does.
-/

namespace ApiBindings.Client

open Naming (continuesIdentifier isAlphanumeric isIdentifier operationName startsIdentifier)
open Text (asciiCapitals)

theorem isAlphanumeric_of_mem_operationName {path : List Char} {c : Char}
    (h : c ∈ operationName path) : isAlphanumeric c = true := by
  obtain ⟨segment, -, hc⟩ := List.mem_flatMap.1 h
  cases segment with
  | char d =>
    have hkept : c ∈ if isAlphanumeric d then [d] else [] := hc
    split at hkept
    · next hd =>
      rw [List.mem_singleton.1 hkept]
      exact hd
    · cases hkept
  | token name =>
    have hall : ['B', 'y'].all isAlphanumeric = true := by
      decide
    exact List.all_eq_true.1 hall c hc

theorem isIdentifier_lower {httpMethod : String} (h : Text.lowerString httpMethod ∈ supportedMethods) :
    isIdentifier (Text.lower httpMethod.toList) = true := by
  have hall : ∀ name ∈ supportedMethods, isIdentifier name.toList = true := by
    decide
  have hlower := hall _ h
  rwa [Text.lowerString, String.toList_ofList] at hlower

theorem isIdentifier_classNameFor_iff (path : FilePath) :
    isIdentifier (classNameFor path).toList = true ↔
      ∀ c ∈ path.stem.toList.head?, startsIdentifier c = true ∨ c.toNat ∈ asciiCapitals := by
  have hsuffix : "Client".toList.all continuesIdentifier = true := by
    decide
  rw [classNameFor, String.toList_append, String.toList_ofList]
  cases path.stem.toList with
  | nil =>
    refine iff_of_true (by decide) ?_
    simp
  | cons c rest =>
    simpa using Naming.isIdentifier_pascalCase_append_iff c rest (List.all_eq_true.1 hsuffix)

theorem isIdentifier_methodName_iff {httpMethod : String}
    (h : Text.lowerString httpMethod ∈ supportedMethods) (path : String) (operationId : Option String) :
    isIdentifier (methodName httpMethod path operationId).toList = true ↔
      ∀ name ∈ operationId, ∀ c ∈ name.toList.head?,
        continuesIdentifier c = true ∨ c.toNat ∈ asciiCapitals := by
  have hname := Naming.isIdentifier_append_pascalCase_iff (isIdentifier_lower h)
  have hpath : ∀ c ∈ (operationName path.toList).head?,
      continuesIdentifier c = true ∨ c.toNat ∈ asciiCapitals := by
    intro c hc
    exact .inl (Naming.continues_of_isAlphanumeric
      (isAlphanumeric_of_mem_operationName (List.mem_of_head? hc)))
  unfold methodName
  rw [String.toList_ofList, hname]
  split
  · exact iff_of_true hpath (by simp)
  · exact iff_of_true hpath (by simp)
  · simp

/-- **Names.** The name of a client's class is an identifier exactly if the document's file name begins
with a letter of ASCII, an underscore or a dollar sign, or with one of the twelve characters whose capitals
are letters of ASCII. The name of a method for a supported method of HTTP is one exactly if the operation
has no name of its own, whatever its path is, or if this name begins with such a character or with a
digit. -/
theorem isIdentifier_names_iff (document : FilePath) {httpMethod : String}
    (h : Text.lowerString httpMethod ∈ supportedMethods) (path : String) (operationId : Option String) :
    (isIdentifier (classNameFor document).toList = true ↔
      ∀ c ∈ document.stem.toList.head?, startsIdentifier c = true ∨ c.toNat ∈ asciiCapitals) ∧
    (isIdentifier (methodName httpMethod path operationId).toList = true ↔
      ∀ name ∈ operationId, ∀ c ∈ name.toList.head?,
        continuesIdentifier c = true ∨ c.toNat ∈ asciiCapitals) :=
  ⟨isIdentifier_classNameFor_iff document, isIdentifier_methodName_iff h path operationId⟩

/-- A document, and an operation that calls itself something with a ligature in front. -/
theorem ligature_begins_methodName :
    Text.lowerString "GET" ∈ supportedMethods ∧
      isIdentifier (classNameFor (.ofString "/specs/pet-store.yaml")).toList = true ∧
      isIdentifier (methodName "GET" "/pets" (some "ﬁnd-pets")).toList = true := by
  have hsupported : Text.lowerString "GET" ∈ supportedMethods := by
    decide +kernel
  obtain ⟨hclass, hmethod⟩ := isIdentifier_names_iff (.ofString "/specs/pet-store.yaml") hsupported
    "/pets" (some "ﬁnd-pets")
  have hstem : (FilePath.ofString "/specs/pet-store.yaml").stem.toList.head? = some 'p' := by
    decide +kernel
  refine ⟨hsupported, hclass.2 ?_, hmethod.2 ?_⟩
  · rw [hstem]
    rintro c ⟨⟩
    exact .inl (by decide)
  · rintro _ ⟨⟩ c ⟨⟩
    exact .inr (by decide)

/-- A document and an operation whose first characters spoil the names. -/
theorem digit_begins_className :
    classNameFor (.ofString "/specs/1api.yaml") = "1apiClient" ∧
      isIdentifier "1apiClient".toList = false ∧
      methodName "get" "/pets" (some "-pets") = "get-pets" ∧ isIdentifier "get-pets".toList = false := by
  decide +kernel

end ApiBindings.Client

import ApiBindings.Proofs.Client.Statement

/-!
# Argument lists

A method declares its arguments and, in its body, the URL. Among the names that it declares the one of the
URL and, if there are query parameters, the one of their argument are fixed; the others are made of the
tokens of the path. None is declared twice exactly if the tokens keep apart (`arguments_apart_iff`): tokens
that differ may have one name, and a token may be called as a fixed name is.
-/

namespace ApiBindings.Client

open TypeScript (codeString)
open Naming (KeepApart continuesIdentifier nameWith pathTokens toIdentifier withoutFinalLineFeed)

/-! ## Declarations -/

/-- The arguments of a method. -/
def argumentTexts (method : Method) : List String :=
  method.pathArguments.map (fun argument => argument.identifier ++ ": string | number") ++
    if method.hasQuery then [Method.queryArgument method.queryParameters] else []

/-- The lines of a method up to the one that its argument list is on. -/
def headLines (method : Method) : List String :=
  ["", "  /**"] ++ method.commentText.map ("   * " ++ ·) ++
    ["   */",
     "  " ++ method.name ++ "(" ++ method.signature ++ "): string \x7b"]

/-- The lines of a method's body. -/
def bodyLines (method : Method) : List String :=
  urlStatements method ++ (if method.hasQuery then queryLines else []) ++ ["    return url;"]

theorem signature_eq (method : Method) :
    method.signature = ", ".intercalate (argumentTexts method) :=
  rfl

theorem methodLines_eq (method : Method) :
    methodLines method = headLines method ++ bodyLines method ++ ["  \x7d"] := by
  simp [methodLines, headLines, bodyLines, urlStatements]

/-- The name that an argument begins with. -/
def argumentName (argument : String) : List Char :=
  argument.toList.takeWhile continuesIdentifier

/-- The name that a line declares in the outermost block of a body. -/
def localName? (line : String) : Option (List Char) :=
  (line.toList.dropPrefix? "    let ".toList <|> line.toList.dropPrefix? "    const ".toList).map
    (·.takeWhile continuesIdentifier)

/-- The names that a method declares for its whole body. -/
def declaredNames (method : Method) : List (List Char) :=
  (argumentTexts method).map argumentName ++ (bodyLines method).filterMap localName?

/-- The names of a method that are not made of its path. -/
def fixedNames (method : Method) : List (List Char) :=
  (if method.hasQuery then ["queryParams".toList] else []) ++ ["url".toList]

/-! ## What is declared -/

theorem localName?_replaceLine (argument : PathArgument) : localName? (replaceLine argument) = none := by
  rw [localName?, toList_replaceLine]
  rfl

theorem localName?_start (path : String) :
    localName? ("    let url = this.baseUrl + " ++ codeString path ++ ";") = some "url".toList := by
  rw [localName?, String.append_assoc, String.toList_append]
  rfl

/-- The body declares the URL and nothing else. -/
theorem filterMap_localName?_bodyLines (method : Method) :
    (bodyLines method).filterMap localName? = ["url".toList] := by
  have hreplace : (method.pathArguments.map replaceLine).filterMap localName? = [] := by
    simp [localName?_replaceLine]
  have hquery : (if method.hasQuery then queryLines else []).filterMap localName? = [] := by
    split
    · simp [queryLines, localName?, List.dropPrefix?]
    · rfl
  have hreturn : localName? "    return url;" = none := by
    decide +kernel
  rw [bodyLines, urlStatements, List.filterMap_append, List.filterMap_append,
    List.filterMap_cons_some (localName?_start method.path), hreplace, hquery,
    List.filterMap_cons_none hreturn]
  rfl

theorem argumentName_toIdentifier (token : List Char) :
    argumentName (.ofList (toIdentifier token) ++ ": string | number") =
      withoutFinalLineFeed (toIdentifier token) := by
  have hname : ∀ c ∈ withoutFinalLineFeed (toIdentifier token), continuesIdentifier c = true :=
    fun c => Naming.continues_of_isIdentifier (Naming.isBare_toIdentifier token)
  have hends : ∀ (c : Char) (rest : List Char), continuesIdentifier c = false →
      (withoutFinalLineFeed (toIdentifier token) ++ c :: rest).takeWhile continuesIdentifier =
        withoutFinalLineFeed (toIdentifier token) :=
    fun c rest hc => (TypeScript.span_append hname (by simpa using hc)).1
  rw [argumentName, String.toList_append, String.toList_ofList]
  rcases Naming.withoutFinalLineFeed_append (toIdentifier token) with heq | heq
  · nth_rewrite 1 [← heq]
    exact hends ':' _ rfl
  · nth_rewrite 1 [← heq]
    rw [List.append_assoc]
    exact hends '\n' _ rfl

theorem argumentName_queryArgument (names : List String) :
    argumentName (Method.queryArgument names) = "queryParams".toList := by
  obtain ⟨rest, hrest⟩ : ∃ rest, Method.queryArgument names = "queryParams?: \x7b " ++ rest :=
    ⟨_, String.append_assoc⟩
  rw [argumentName, hrest, String.toList_append]
  rfl

theorem declaredNames_ofOperation (operation : Operation) :
    declaredNames (.ofOperation operation) =
      (pathTokens operation.path.toList).map (nameWith withoutFinalLineFeed) ++
        fixedNames (.ofOperation operation) := by
  have htokens : ((Method.ofOperation operation).pathArguments.map
      fun argument => argument.identifier ++ ": string | number").map argumentName =
        (pathTokens operation.path.toList).map (nameWith withoutFinalLineFeed) := by
    simp [Method.ofOperation, argumentName_toIdentifier, Naming.nameWith_withoutFinalLineFeed]
  have hquery : (if (Method.ofOperation operation).hasQuery then
      [Method.queryArgument (Method.ofOperation operation).queryParameters] else []).map argumentName =
        if (Method.ofOperation operation).hasQuery then ["queryParams".toList] else [] := by
    split
    · rw [List.map_singleton, argumentName_queryArgument]
    · rfl
  rw [declaredNames, filterMap_localName?_bodyLines, argumentTexts, List.map_append, htokens, hquery,
    fixedNames, List.append_assoc]

/-! ## What is declared twice -/

theorem nodup_fixedNames (method : Method) : (fixedNames method).Nodup := by
  unfold fixedNames
  split <;> decide

theorem fixedNames_free (method : Method) :
    ∀ name ∈ fixedNames method, name.all Naming.isAlphanumeric = true ∧ Naming.guarded name = name := by
  unfold fixedNames
  split <;> decide

/-- The names of a method are told apart exactly if its path's tokens keep apart. -/
theorem nodup_declaredNames_iff (operation : Operation) :
    (declaredNames (.ofOperation operation)).Nodup ↔
      KeepApart withoutFinalLineFeed (pathTokens operation.path.toList)
        (fixedNames (.ofOperation operation)) := by
  rw [Naming.keepApart_iff (Naming.nodup_pathTokens _) (fixedNames_free _), declaredNames_ofOperation,
    List.nodup_append', and_iff_right (nodup_fixedNames _), List.disjoint_left, List.forall_mem_map]

theorem mem_fixedNames_iff {method : Method} {name : List Char} :
    name ∈ fixedNames method ↔
      name = "url".toList ∨ method.hasQuery = true ∧ name = "queryParams".toList := by
  unfold fixedNames
  split
  · next hquery => simp [hquery, or_comm]
  · next hquery => simp [hquery]

/-- The names that an operation's method gives the arguments for its path. -/
def identifiers (operation : Operation) : List String :=
  (Method.ofOperation operation).pathArguments.map PathArgument.identifier

section Identifiers

variable (operation : Operation)

theorem identifiers_eq :
    identifiers operation = ((pathTokens operation.path.toList).map (nameWith id)).map String.ofList := by
  simp [identifiers, Method.ofOperation, Naming.nameWith_id]

theorem nodup_identifiers_iff :
    (identifiers operation).Nodup ↔ ((pathTokens operation.path.toList).map (nameWith id)).Nodup := by
  rw [identifiers_eq]
  exact List.nodup_map_iff fun _ _ => String.ofList_injective

theorem notMem_identifiers_iff (name : String) :
    name ∉ identifiers operation ↔
      ∀ token ∈ pathTokens operation.path.toList, nameWith id token ≠ name.toList := by
  simp only [identifiers_eq, List.map_map, List.mem_map, Function.comp_apply, not_exists, not_and,
    ← String.toList_inj, String.toList_ofList, ne_eq]

theorem identifiers_apart_iff :
    ((identifiers operation).Nodup ∧ "url" ∉ identifiers operation ∧
        ((Method.ofOperation operation).hasQuery = true → "queryParams" ∉ identifiers operation)) ↔
      KeepApart id (pathTokens operation.path.toList) (fixedNames (.ofOperation operation)) := by
  rw [Naming.keepApart_iff (Naming.nodup_pathTokens _) (fixedNames_free _), nodup_identifiers_iff,
    notMem_identifiers_iff, notMem_identifiers_iff]
  refine and_congr_right fun _ => ?_
  simp only [mem_fixedNames_iff, not_or, not_and]
  constructor
  · rintro ⟨hurl, hquery⟩ token htoken
    exact ⟨hurl token htoken, fun h => hquery h token htoken⟩
  · intro hboth
    exact ⟨fun token htoken => (hboth token htoken).1, fun h token htoken => (hboth token htoken).2 h⟩

end Identifiers

/-- **Argument lists.** The names of the arguments for an operation's path differ from one another, from the
name of the URL and, if there are query parameters, from the name of their argument exactly if the tokens
of the path keep apart. The argument list and the body declare no name twice exactly if the tokens keep apart
with the line feed that a bare token may end with not counted. -/
theorem arguments_apart_iff (operation : Operation) :
    (((identifiers operation).Nodup ∧ "url" ∉ identifiers operation ∧
        ((Method.ofOperation operation).hasQuery = true → "queryParams" ∉ identifiers operation)) ↔
      KeepApart id (pathTokens operation.path.toList) (fixedNames (.ofOperation operation))) ∧
    ((declaredNames (.ofOperation operation)).Nodup ↔
      KeepApart withoutFinalLineFeed (pathTokens operation.path.toList)
        (fixedNames (.ofOperation operation))) ∧
    (Method.ofOperation operation).signature =
      ", ".intercalate (argumentTexts (.ofOperation operation)) ∧
    methodLines (.ofOperation operation) =
      headLines (.ofOperation operation) ++ bodyLines (.ofOperation operation) ++ ["  \x7d"] :=
  ⟨identifiers_apart_iff operation, nodup_declaredNames_iff operation, signature_eq _, methodLines_eq _⟩

/-- Two tokens with one name, a token called as the URL is, and one called as the argument of the query
parameters is. -/
theorem folded_tokens_clash :
    identifiers ⟨"/\x7buser-id\x7d/\x7buserId\x7d", "get", none, "", "", []⟩ = ["userId", "userId"] ∧
      ¬ ["userId", "userId"].Nodup ∧
      identifiers ⟨"/\x7burl\x7d", "get", none, "", "", []⟩ = ["url"] ∧
      identifiers ⟨"/\x7bquery-params\x7d", "get", none, "", "", [⟨"limit", "query", false⟩]⟩ =
        ["queryParams"] ∧
      (Method.ofOperation
        ⟨"/\x7bquery-params\x7d", "get", none, "", "", [⟨"limit", "query", false⟩]⟩).hasQuery = true := by
  decide +kernel

end ApiBindings.Client

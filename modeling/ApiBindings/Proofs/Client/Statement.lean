import ApiBindings.Client.Render
import ApiBindings.Proofs.Naming.Argument
import ApiBindings.Proofs.Naming.PathTemplate
import ApiBindings.Proofs.Text.Pieces
import ApiBindings.Proofs.TypeScript.Literal
import ApiBindings.Proofs.TypeScript.Number
import Mathlib.Data.List.Infix

/-!
# Statements that build a URL

The body of a client's method sets the URL to its path behind the base address, and then replaces every
token of the path by an argument. Here these statements are read back from the lines of a client
(`mapM_read?_urlStatements`) and carried out (`runStatements_urlStatements`).
-/

namespace ApiBindings.Client

open Text (dropPrefix?_append)
open TypeScript (codeChar codeLiteral codeString readLiteral readLiteral_codeLiteral)

/-- The lines of a method that build the URL up to its query. -/
def urlStatements (method : Method) : List String :=
  ("    let url = this.baseUrl + " ++ codeString method.path ++ ";")
    :: method.pathArguments.map replaceLine

theorem urlStatements_isInfix (method : Method) : urlStatements method <:+: methodLines method := by
  refine ⟨["", "  /**"] ++ method.commentText.map ("   * " ++ ·) ++
      ["   */", "  " ++ method.name ++ "(" ++ method.signature ++ "): string \x7b"],
    (if method.hasQuery then queryLines else []) ++ ["    return url;", "  \x7d"], ?_⟩
  simp [methodLines, urlStatements]

/-- A statement that builds a URL. -/
inductive UrlStatement where
  /-- The URL becomes the base address with a path behind it. -/
  | start (path : List Char)
  /-- In the URL an argument takes the place of a pattern wherever it occurs. -/
  | replace (pattern identifier : List Char)
  deriving DecidableEq, Repr

namespace UrlStatement

/-- The statement on a line that sets the URL. -/
def readStart? (line : List Char) : Option UrlStatement := do
  let literal ← line.dropPrefix? "    let url = this.baseUrl + '".toList
  let (path, rest) ← readLiteral literal
  guard (rest = ";".toList)
  return .start path

/-- The statement on a line that replaces a pattern. -/
def readReplace? (line : List Char) : Option UrlStatement := do
  let literal ← line.dropPrefix? "    url = url.split('".toList
  let (pattern, rest) ← readLiteral literal
  let argument ← rest.dropPrefix? ").join(String(".toList
  guard (argument.dropWhile (· ≠ ')') = "));".toList)
  return .replace pattern (argument.takeWhile (· ≠ ')'))

/-- The statement on a line. -/
def read? (line : List Char) : Option UrlStatement :=
  readStart? line <|> readReplace? line

/-- The URL after a statement, where `base` is the base address and `value` gives the arguments. -/
def run (base : List Char) (value : List Char → List Char) (url : List Char) :
    UrlStatement → List Char
  | .start path => base ++ path
  | .replace pattern identifier => Text.replaceAll pattern (value identifier) url

end UrlStatement

/-- The URL that some lines build, if each of them is a statement. -/
def runStatements (base : List Char) (value : List Char → List Char) (lines : List String) :
    Option (List Char) :=
  (lines.mapM fun line => UrlStatement.read? line.toList).map fun statements =>
    statements.foldl (UrlStatement.run base value) []

/-! ## Reading -/

/-- A line with a literal in it; what stands in front of the literal ends with its opening quote. -/
theorem toList_quoted {front opened : String} (h : opened = front ++ "'") (text rest : String) :
    (front ++ codeString text ++ rest).toList =
      opened.toList ++ (text.toList.flatMap codeChar ++ '\'' :: rest.toList) := by
  rw [h]
  simp [codeString, codeLiteral]

theorem toList_quoted_called {front opened : String} (h : opened = front ++ "'")
    (text call name last : String) :
    (front ++ codeString text ++ call ++ name ++ last).toList =
      opened.toList ++ (text.toList.flatMap codeChar ++
        '\'' :: (call.toList ++ (name.toList ++ last.toList))) := by
  have hquoted := toList_quoted h text (call ++ (name ++ last))
  simpa only [String.toList_append, List.append_assoc] using hquoted

theorem read?_start {path : String} (h : '\r' ∉ path.toList) :
    UrlStatement.read? ("    let url = this.baseUrl + " ++ codeString path ++ ";").toList =
      some (.start path.toList) := by
  have hopened : "    let url = this.baseUrl + '" = "    let url = this.baseUrl + " ++ "'" := rfl
  have hstart : UrlStatement.readStart? ("    let url = this.baseUrl + " ++ codeString path ++
      ";").toList = some (.start path.toList) := by
    rw [toList_quoted hopened, UrlStatement.readStart?, dropPrefix?_append, Option.bind_eq_bind,
      Option.bind_some, readLiteral_codeLiteral h]
    rfl
  rw [UrlStatement.read?, hstart]
  rfl

/-- A line that replaces a token does not set the URL. -/
theorem readStart?_replace (rest : List Char) :
    UrlStatement.readStart? ("    url = url.split('".toList ++ rest) = none :=
  rfl

/-- A replacement is read from its literals, whatever stands on the line around the argument. -/
theorem readReplace?_append {pattern identifier : List Char} (hpattern : '\r' ∉ pattern)
    (hidentifier : ')' ∉ identifier) :
    UrlStatement.readReplace? ("    url = url.split('".toList ++ (pattern.flatMap codeChar ++
      '\'' :: (").join(String(".toList ++ (identifier ++ "));".toList)))) =
      some (.replace pattern identifier) := by
  have hkept : ∀ c ∈ identifier, decide (c ≠ ')') = true := by
    intro c hc
    exact decide_eq_true fun heq => hidentifier (heq ▸ hc)
  have hend : ∀ c ∈ "));".toList.head?, decide (c ≠ ')') = false := by simp
  obtain ⟨htake, hdrop⟩ := TypeScript.span_append hkept hend
  unfold UrlStatement.readReplace?
  generalize "    url = url.split('".toList = front
  generalize ").join(String(".toList = call
  generalize "));".toList = last at htake hdrop ⊢
  rw [dropPrefix?_append, Option.bind_eq_bind, Option.bind_some, readLiteral_codeLiteral hpattern,
    Option.bind_eq_bind, Option.bind_some]
  dsimp only
  rw [dropPrefix?_append, Option.bind_eq_bind, Option.bind_some, hdrop, htake, guard, if_pos rfl]
  rfl

theorem toList_replaceLine (argument : PathArgument) :
    (replaceLine argument).toList = "    url = url.split('".toList ++
      (argument.placeholder.toList.flatMap codeChar ++
        '\'' :: (").join(String(".toList ++ (argument.identifier.toList ++ "));".toList))) := by
  have hopened : "    url = url.split('" = "    url = url.split(" ++ "'" := rfl
  exact toList_quoted_called hopened argument.placeholder ").join(String(" argument.identifier "));"

theorem read?_replaceLine {argument : PathArgument} (hplaceholder : '\r' ∉ argument.placeholder.toList)
    (hidentifier : ')' ∉ argument.identifier.toList) :
    UrlStatement.read? (replaceLine argument).toList =
      some (.replace argument.placeholder.toList argument.identifier.toList) := by
  rw [toList_replaceLine]
  exact (congrArg (· <|> _) (readStart?_replace _)).trans
    (readReplace?_append hplaceholder hidentifier)

/-! ## The statements of an operation -/

theorem toList_placeholder (argument : PathArgument) :
    argument.placeholder.toList = Naming.placeholder argument.token.toList := by
  simp [PathArgument.placeholder, Naming.placeholder]

theorem mapM_eq_some {α β : Type} {read : α → Option β} {value : α → β} {items : List α}
    (h : ∀ item ∈ items, read item = some (value item)) :
    items.mapM read = some (items.map value) := by
  induction items with
  | nil => rfl
  | cons item items ih =>
    obtain ⟨hitem, hitems⟩ := List.forall_mem_cons.1 h
    rw [List.mapM_cons, hitem, ih hitems]
    rfl

/-- The statements of the method for an operation: first the URL becomes the path, then every parameter
of the path is replaced. -/
theorem mapM_read?_urlStatements {operation : Operation} (h : '\r' ∉ operation.path.toList) :
    (urlStatements (.ofOperation operation)).mapM (fun line => UrlStatement.read? line.toList) =
      some (.start operation.path.toList :: (Naming.pathTokens operation.path.toList).map fun token =>
        .replace (Naming.placeholder token) (Naming.toIdentifier token)) := by
  have hreplace : ∀ token ∈ Naming.pathTokens operation.path.toList,
      UrlStatement.read? (replaceLine ⟨.ofList token, .ofList (Naming.toIdentifier token)⟩).toList =
        some (.replace (Naming.placeholder token) (Naming.toIdentifier token)) := by
    intro token htoken
    have hplaceholder : '\r' ∉ Naming.placeholder token := by
      have hreturn : '\r' ∉ token := fun hmem => h (Naming.subset_of_mem_pathTokens htoken hmem)
      simp [Naming.placeholder, hreturn]
    have hread := @read?_replaceLine ⟨.ofList token, .ofList (Naming.toIdentifier token)⟩
    simp only [toList_placeholder, String.toList_ofList] at hread
    exact hread hplaceholder (Naming.notMem_toIdentifier (by decide) (by decide) token)
  rw [urlStatements, List.mapM_cons]
  simp only [Method.ofOperation, List.mapM_map, List.map_map, Function.comp_def]
  rw [read?_start h, mapM_eq_some hreplace]
  rfl

/-- What the statements build: one parameter after another is replaced, in all of the URL so far. -/
theorem runStatements_urlStatements {operation : Operation} (h : '\r' ∉ operation.path.toList)
    (base : List Char) (value : List Char → List Char) :
    runStatements base value (urlStatements (.ofOperation operation)) =
      some ((Naming.pathTokens operation.path.toList).foldl
        (fun url token =>
          Text.replaceAll (Naming.placeholder token) (value (Naming.toIdentifier token)) url)
        (base ++ operation.path.toList)) := by
  rw [runStatements, mapM_read?_urlStatements h, Option.map_some, List.foldl_cons, List.foldl_map]
  rfl

end ApiBindings.Client

import ApiBindings.Proofs.Client.Members
import ApiBindings.Proofs.Client.Renaming
import ApiBindings.Proofs.Client.Statement
import ApiBindings.Proofs.Text.CaseMap

/-!
# Comments that are closed too early

What a client says in comments comes from the document and from its file's name, and a line that holds
the two characters that end a comment would end it there. No line does, except that the path of an
operation without a summary is shown as it is (`closesComment_iff`).
-/

namespace ApiBindings.Client

/-- Whether a line in a comment ends the comment. -/
def ClosesComment (line : String) : Prop :=
  ['*', '/'] <:+: line.toList
  deriving Decidable

/-- The lines of the comment at the head of a client. -/
def headComment (client : Client) : List String :=
  [" * API client generated for " ++ client.fileName,
   " * Base URL: " ++ commentSafeString client.baseUrl]

theorem exists_classHead_eq (client : Client) :
    ∃ code, classHead client = "/**" :: headComment client ++ " */" :: code :=
  ⟨_, rfl⟩

theorem exists_methodLines_eq (method : Method) :
    ∃ code, methodLines method =
      "" :: "  /**" :: method.commentText.map ("   * " ++ ·) ++ "   */" :: code := by
  simp [methodLines]

/-! ## Two characters next to each other -/

section

variable {front rest text : List Char}

theorem not_closes_of_notMem (h : '*' ∉ text ∨ '/' ∉ text) : ¬ ['*', '/'] <:+: text := by
  intro hcloses
  rcases h with hstar | hslash
  · exact hstar (hcloses.subset (by simp))
  · exact hslash (hcloses.subset (by simp))

/-- Nothing is closed across a blank. -/
theorem closes_append_blank_iff :
    ['*', '/'] <:+: front ++ ' ' :: rest ↔ ['*', '/'] <:+: front ∨ ['*', '/'] <:+: rest := by
  induction front with
  | nil => simp [List.infix_cons_iff, List.cons_prefix_cons]
  | cons c front ih =>
    have hbegins : ['/'] <+: front ++ ' ' :: rest ↔ ['/'] <+: front := by
      cases front <;> simp [List.cons_prefix_cons]
    rw [List.cons_append, List.infix_cons_iff, List.infix_cons_iff, ih, List.cons_prefix_cons,
      List.cons_prefix_cons, hbegins, or_assoc]

theorem closesComment_indented_iff (line : String) :
    ClosesComment ("   * " ++ line) ↔ ClosesComment line := by
  have hfront : ("   * " ++ line).toList = "   *".toList ++ ' ' :: line.toList := by
    rw [String.toList_append]
    rfl
  rw [ClosesComment, hfront, closes_append_blank_iff]
  exact or_iff_right (by decide)

theorem head?_commentSafe (text : List Char) : (commentSafe text).head? = text.head? := by
  fun_cases commentSafe text <;> rfl

theorem not_closes_commentSafe (text : List Char) : ¬ ['*', '/'] <:+: commentSafe text := by
  fun_induction commentSafe text with
  | case1 => simp
  | case2 rest ih =>
    intro hcloses
    simp [List.infix_cons_iff, List.cons_prefix_cons, ih] at hcloses
  | case3 c rest hne ih =>
    intro hcloses
    rcases List.infix_cons_iff.1 hcloses with hbegins | hlater
    · obtain ⟨rfl, hslash⟩ := List.cons_prefix_cons.1 hbegins
      -- The slash would have stood behind the star before, since the first character stays.
      have hhead : (commentSafe rest).head? = some '/' := by
        obtain ⟨more, hmore⟩ := hslash
        rw [← hmore]
        rfl
      rw [head?_commentSafe] at hhead
      obtain ⟨more, rfl⟩ := List.head?_eq_some_iff.1 hhead
      exact hne more rfl rfl
    · exact ih hlater

end

/-! ## What a comment is put together from -/

theorem not_closesComment_of_mem_commentLines {text line : String} (h : line ∈ commentLines text) :
    ¬ ClosesComment line := by
  obtain ⟨chars, -, rfl⟩ := List.mem_map.1 h
  rw [ClosesComment, String.toList_ofList]
  exact not_closes_commentSafe chars

theorem slash_notMem_name (path : String) : '/' ∉ (FilePath.ofString path).name.toList := by
  unfold FilePath.name
  cases hlast : (FilePath.ofString path).names.getLast? with
  | none => simp
  | some name =>
    obtain ⟨component, hcomponent, rfl⟩ := List.mem_map.1 (List.mem_of_getLast? hlast)
    rw [Option.getD_some, String.toList_ofList]
    exact Text.notMem_of_mem_splitOn (List.mem_filter.1 hcomponent).1

theorem splitSuffix_subset (name : List Char) : (FilePath.splitSuffix name).1 ⊆ name := by
  unfold FilePath.splitSuffix
  dsimp only
  split
  · next base hdrop =>
    split
    · exact List.Subset.refl name
    · intro c hc
      have hbase : c ∈ '.' :: base := List.mem_cons_of_mem _ (List.mem_reverse.1 hc)
      rw [← hdrop] at hbase
      exact List.mem_reverse.1 (List.mem_of_mem_drop hbase)
  · exact List.Subset.refl name

theorem slash_notMem_stem (path : String) : '/' ∉ (FilePath.ofString path).stem.toList := by
  intro h
  rw [FilePath.stem, String.toList_ofList] at h
  exact slash_notMem_name path (splitSuffix_subset _ h)

theorem not_closesComment_headComment (document : Document) (path : String) :
    ∀ line ∈ headComment (ofDocument document (.ofString path)), ¬ ClosesComment line := by
  have hstem : ¬ ['*', '/'] <:+: (FilePath.ofString path).stem.toList :=
    not_closes_of_notMem (.inr (slash_notMem_stem path))
  have hbase := not_closes_commentSafe document.baseUrl.toList
  simp only [headComment, List.forall_mem_cons, ClosesComment, String.toList_append]
  refine ⟨?_, ?_, nofun⟩
  · have hfront : " * API client generated for ".toList = " * API client generated for".toList ++ [' '] :=
      rfl
    rw [hfront, List.append_assoc, List.singleton_append, closes_append_blank_iff, not_or]
    exact ⟨by decide, hstem⟩
  · have hfront : " * Base URL: ".toList = " * Base URL:".toList ++ [' '] := rfl
    rw [hfront, List.append_assoc, List.singleton_append, closes_append_blank_iff, not_or]
    refine ⟨by decide, ?_⟩
    rw [commentSafeString, String.toList_ofList]
    exact hbase

/-- A sign in the name of a method is the first character of what the name is made of. -/
theorem mem_splitFirst_of_mem_pascalCase {c : Char} {text : List Char}
    (hc : Text.isCaseImage c = false) (halphanumeric : Naming.isAlphanumeric c = false)
    (h : c ∈ Naming.pascalCase text) : c ∈ (Text.splitFirst text).1 := by
  have hcamel : c ∈ Naming.camelCase text := by
    unfold Naming.pascalCase at h
    split at h
    · cases h
    · next d rest hcamel =>
      rw [hcamel]
      rcases List.mem_append.1 h with hfirst | hrest
      · rcases Text.mem_upperOf hfirst with rfl | himage
        · exact List.mem_cons_self
        · exact absurd himage (by simp [hc])
      · exact List.mem_cons_of_mem d hrest
  unfold Naming.camelCase at hcamel
  rcases List.mem_append.1 hcamel with hfirst | hrest
  · obtain ⟨d, hd, hlower⟩ := List.mem_flatMap.1 hfirst
    rcases Text.mem_lowerOf hlower with rfl | himage
    · exact hd
    · exact absurd himage (by simp [hc])
  · exact absurd (List.mem_filter.1 hrest).2 (by simp [halphanumeric])

/-- The first code point of a text is one character, or a mark and another one. -/
theorem notMem_splitFirst {c d : Char} (hne : c ≠ d) (hc : c.toNat ≠ Text.markCode)
    (hd : d.toNat ≠ Text.markCode) (text : List Char) :
    c ∉ (Text.splitFirst text).1 ∨ d ∉ (Text.splitFirst text).1 := by
  rw [← not_and_or]
  fun_cases Text.splitFirst text with
  | case1 => simp
  | case2 e =>
    simp only [List.mem_singleton]
    rintro ⟨rfl, rfl⟩
    exact hne rfl
  | case3 e f rest hmark =>
    simp only [List.mem_cons, List.not_mem_nil, or_false]
    rintro ⟨rfl | rfl, rfl | rfl⟩
    · exact hne rfl
    · exact hc hmark
    · exact hd hmark
    · exact hne rfl
  | case4 e f rest hmark =>
    simp only [List.mem_singleton]
    rintro ⟨rfl, rfl⟩
    exact hne rfl

/-! ## The methods of a document -/

section OfDocument

variable {document : Document} {path : FilePath} {method : Method}

theorem exists_operation_of_mem (h : method ∈ (ofDocument document path).methods) :
    ∃ operation, Text.lowerString operation.method ∈ supportedMethods ∧
      method = { Method.ofOperation operation with name := method.name } := by
  obtain ⟨original, horiginal, hname⟩ := exists_of_mem_distinguish h
  obtain ⟨operation, hoperation, rfl⟩ := List.mem_map.1 horiginal
  exact ⟨operation, of_decide_eq_true (List.mem_filter.1 hoperation).2, hname⟩

theorem not_closesComment_name (h : method ∈ (ofDocument document path).methods) :
    ¬ ClosesComment method.name := by
  obtain ⟨operation, -, hsupported, hname⟩ :=
    exists_operation_of_mem_names (List.mem_map_of_mem h)
  have hbase := toList_name_ofOperation hsupported
  -- A sign that the first character of the operation's name is not is nowhere in the method's name.
  have hfree : ∀ c, (∀ httpMethod ∈ supportedMethods, c ∉ httpMethod.toList) →
      Text.isCaseImage c = false → Naming.isAlphanumeric c = false → c.isDigit = false →
      c ∉ (Text.splitFirst operation.nameText).1 → c ∉ method.name.toList := by
    intro c hmethods himage halphanumeric hdigit hfirst
    have hown : c ∉ (Method.ofOperation operation).name.toList := by
      rw [hbase, List.mem_append, not_or]
      exact ⟨hmethods _ hsupported,
        fun h => hfirst (mem_splitFirst_of_mem_pascalCase himage halphanumeric h)⟩
    rcases hname with heq | ⟨number, heq⟩
    · rwa [heq]
    · rw [heq, toList_numbered, List.mem_append, not_or]
      refine ⟨hown, fun hmem => ?_⟩
      have hisDigit := Nat.isDigit_of_mem_toDigits (by decide) (by decide) hmem
      rw [hdigit] at hisDigit
      cases hisDigit
  have hstar := hfree '*' (by decide) (by decide) (by decide) (by decide)
  have hslash := hfree '/' (by decide) (by decide) (by decide) (by decide)
  have honce := notMem_splitFirst (c := '*') (d := '/') (by decide) (by decide) (by decide)
    operation.nameText
  exact not_closes_of_notMem (honce.imp hstar hslash)

theorem closesComment_operation_iff {httpMethod : String} (h : httpMethod ∈ supportedMethods)
    (path : String) :
    ClosesComment (Text.upperString httpMethod ++ " " ++ path) ↔ ClosesComment path := by
  have hmethods : ∀ httpMethod ∈ supportedMethods, ¬ ClosesComment (Text.upperString httpMethod) := by
    decide +kernel
  have hupper := hmethods httpMethod h
  unfold ClosesComment at hupper ⊢
  rw [String.toList_append, String.toList_append, List.append_assoc]
  exact closes_append_blank_iff.trans (or_iff_right hupper)

theorem not_closesComment_argument (token : List Char) :
    ¬ ClosesComment ("@param " ++ .ofList (Naming.toIdentifier token) ++ " Path parameter") := by
  apply not_closes_of_notMem
  right
  simp only [String.toList_append, String.toList_ofList, List.mem_append, not_or]
  exact ⟨⟨by decide, Naming.notMem_toIdentifier (by decide) (by decide) token⟩, by decide⟩

theorem not_closesComment_result {name : String} (h : ¬ ClosesComment name) :
    ¬ ClosesComment ("@returns URL for the " ++ name ++ " endpoint") := by
  have hline : ("@returns URL for the " ++ name ++ " endpoint").toList =
      "@returns URL for the".toList ++ ' ' :: (name.toList ++ ' ' :: "endpoint".toList) := by
    simp only [String.toList_append, List.append_assoc]
    rfl
  rw [ClosesComment, hline, closes_append_blank_iff, closes_append_blank_iff, not_or, not_or]
  exact ⟨by decide, h, by decide⟩

/-- Only the line that shows an operation without a summary can close the comment of its method. -/
theorem closesComment_of_mem_commentText (h : method ∈ (ofDocument document path).methods)
    {line : String} (hline : line ∈ method.commentText) (hcloses : ClosesComment line) :
    commentLines method.summary = [] ∧
      line = Text.upperString method.httpMethod ++ " " ++ method.path := by
  obtain ⟨operation, -, hmethod⟩ := exists_operation_of_mem h
  have harguments : method.pathArguments = (Method.ofOperation operation).pathArguments := by
    rw [hmethod]
  simp only [Method.commentText, List.mem_append, or_assoc] at hline
  rcases hline with hhead | hdescription | hargument | hquery | hresult
  · unfold Method.headline at hhead
    split at hhead
    · next hsummary => exact ⟨hsummary, List.mem_singleton.1 hhead⟩
    · exact absurd hcloses (not_closesComment_of_mem_commentLines hhead)
  · exact absurd hcloses (not_closesComment_of_mem_commentLines hdescription)
  · obtain ⟨argument, hmem, rfl⟩ := List.mem_map.1 hargument
    rw [harguments] at hmem
    obtain ⟨token, -, rfl⟩ := List.mem_map.1 hmem
    exact absurd hcloses (not_closesComment_argument token)
  · split at hquery
    · rw [List.mem_singleton.1 hquery] at hcloses
      exact absurd hcloses (by decide)
    · cases hquery
  · rw [List.mem_singleton.1 hresult] at hcloses
    exact absurd hcloses (not_closesComment_result (not_closesComment_name h))

end OfDocument

end Client

open Client

/-- **Comments.** What a client says in a comment stands between the comment's own first and last line. No
line at the head of a client closes the comment there. A line of a method's comment closes it exactly if
the operation has no summary and its path holds the two characters that do so, and then it is the line that
shows the path. -/
theorem closesComment_iff (document : Document) (path : String) :
    let client := ofDocument document (.ofString path)
    (∃ code, classHead client = "/**" :: headComment client ++ " */" :: code) ∧
    (∀ line ∈ headComment client, ¬ ClosesComment line) ∧
    ∀ method ∈ client.methods,
      (∃ code, methodLines method =
        "" :: "  /**" :: method.commentText.map ("   * " ++ ·) ++ "   */" :: code) ∧
      (∀ line ∈ method.commentText, ClosesComment ("   * " ++ line) ↔ ClosesComment line) ∧
      (∀ line ∈ method.commentText, ClosesComment line →
        line = Text.upperString method.httpMethod ++ " " ++ method.path) ∧
      ((∃ line ∈ method.commentText, ClosesComment line) ↔
        commentLines method.summary = [] ∧ ClosesComment method.path) := by
  intro client
  refine ⟨exists_classHead_eq client, not_closesComment_headComment document path, ?_⟩
  intro method hmethod
  have honly := @closesComment_of_mem_commentText document (.ofString path) method hmethod
  obtain ⟨operation, hsupported, heq⟩ := exists_operation_of_mem hmethod
  have hoperation : ClosesComment (Text.upperString method.httpMethod ++ " " ++ method.path) ↔
      ClosesComment method.path := by
    apply closesComment_operation_iff
    rw [heq]
    exact hsupported
  refine ⟨exists_methodLines_eq method, fun line _ => closesComment_indented_iff line,
    fun line hline hcloses => (honly hline hcloses).2, ?_, ?_⟩
  · rintro ⟨line, hline, hcloses⟩
    obtain ⟨hsummary, rfl⟩ := honly hline hcloses
    exact ⟨hsummary, hoperation.1 hcloses⟩
  · rintro ⟨hsummary, hcloses⟩
    refine ⟨_, ?_, hoperation.2 hcloses⟩
    simp [Method.commentText, Method.headline, hsummary]

/-- A path that closes the comment in which it is shown. -/
theorem starred_path_closes_comment :
    ∃ document, Document.ofText "paths:\n  /a*/b:\n    get: \x7b\x7d\n" = .ok document ∧
      ∃ method ∈ (ofDocument document (.ofString "/specs/api.yaml")).methods,
        ∃ line ∈ method.commentText, ClosesComment line := by
  have hlines : (Document.ofText "paths:\n  /a*/b:\n    get: \x7b\x7d\n").toOption.map
      (fun document => (ofDocument document (.ofString "/specs/api.yaml")).methods.map
        Method.commentText) = some [["GET /a*/b", "@returns URL for the getAb endpoint"]] := by
    decide +kernel
  obtain ⟨document, hread, hmethods⟩ := Document.exists_of_ofText hlines
  obtain ⟨method, hmethod, hcomment⟩ := List.mem_map.1 (hmethods ▸ List.mem_cons_self)
  refine ⟨document, hread, method, hmethod, "GET /a*/b", ?_, by decide⟩
  rw [hcomment]
  exact List.mem_cons_self

end ApiBindings

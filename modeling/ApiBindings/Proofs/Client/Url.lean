import ApiBindings.Document.Text
import ApiBindings.Proofs.Client.Methods
import ApiBindings.Proofs.Client.Statement

/-!
# URLs

The statements of a method replace one parameter after another, each in all of the URL so far. A URL gets
its arguments all at once as long as the base address, the arguments and what is left of the path do not
show a parameter where the path has none (`Undisturbed`, `urlStatements_fill_at_once`).
-/

namespace ApiBindings

open Naming (Segment placeholder segments pathTokens)

/-! ## Templates in pieces -/

theorem infix_intercalate {α : Type} {separator piece : List α} {parts : List (List α)}
    (h : piece ∈ parts) : piece <:+: separator.intercalate parts := by
  induction parts with
  | nil => cases h
  | cons part parts ih =>
    cases parts with
    | nil =>
      rw [List.mem_singleton.1 h, List.intercalate_singleton]
    | cons next parts =>
      rw [List.intercalate_cons_cons]
      rcases List.mem_cons.1 h with rfl | hrest
      · exact ((List.prefix_append piece _).trans (List.prefix_append _ _)).isInfix
      · exact (ih hrest).trans (List.suffix_append _ _).isInfix

theorem flatMap_intercalate {α β : Type} (f : α → List β) (separator : List α)
    (parts : List (List α)) :
    (separator.intercalate parts).flatMap f =
      (separator.flatMap f).intercalate (parts.map (List.flatMap f)) := by
  induction parts with
  | nil => rfl
  | cons part parts ih =>
    cases parts with
    | nil => simp
    | cons next parts =>
      rw [List.intercalate_cons_cons, List.flatMap_append, List.flatMap_append, ih]
      exact (List.intercalate_cons_cons ..).symm

namespace Client

/-- An element of a URL after the parameters `filled` have got their values. -/
def shown (filled : List (List Char)) (value : List Char → List Char) : Segment → List Char
  | .char c => [c]
  | .token name => if name ∈ filled then value name else placeholder name

/-- What stands around a parameter in a template, the other elements as `text` gives them. -/
def surroundings (text : Segment → List Char) (token : List Char) (template : List Segment) :
    List (List Char) :=
  (template.splitOn (.token token)).map (List.flatMap text)

/-- Whether each of some parameters, at its turn, occurs only where the template has it. The parameters
`filled` have got their values before. -/
def Undisturbed (value : List Char → List Char) (template : List Segment) :
    List (List Char) → List (List Char) → Prop
  | _, [] => True
  | filled, token :: tokens =>
    (∀ piece ∈ surroundings (shown filled value) token template, ¬ placeholder token <:+: piece) ∧
      Undisturbed value template (filled ++ [token]) tokens

instance Undisturbed.decidable (value : List Char → List Char) (template : List Segment) :
    (filled tokens : List (List Char)) → Decidable (Undisturbed value template filled tokens)
  | _, [] => .isTrue trivial
  | filled, token :: tokens =>
    have := Undisturbed.decidable value template (filled ++ [token]) tokens
    inferInstanceAs (Decidable (_ ∧ _))

/-- An element of a path with its argument. -/
def filledBy (value : List Char → List Char) : Segment → List Char
  | .char c => [c]
  | .token name => value name

/-- The elements of a URL that begins with a base address, which has no parameters. -/
def urlTemplate (base path : List Char) : List Segment :=
  base.map .char ++ segments path

section

variable {value : List Char → List Char} {template : List Segment} {filled : List (List Char)}

/-! ## One parameter -/

theorem intercalate_surroundings (text : Segment → List Char) (token : List Char)
    (template : List Segment) :
    (text (.token token)).intercalate (surroundings text token template) = template.flatMap text := by
  have hcut : template.flatMap text =
      ([Segment.token token].intercalate (template.splitOn (.token token))).flatMap text := by
    rw [List.intercalate_splitOn]
  rw [hcut, flatMap_intercalate, List.flatMap_singleton]
  rfl

theorem surroundings_congr {text other : Segment → List Char} {token : List Char}
    (h : ∀ segment, segment ≠ .token token → text segment = other segment) (template : List Segment) :
    surroundings text token template = surroundings other token template := by
  refine List.map_congr_left fun piece hpiece => ?_
  refine congrArg List.flatten (List.map_congr_left fun segment hsegment => h segment ?_)
  rintro rfl
  exact Text.notMem_of_mem_splitOn hpiece hsegment

theorem shown_of_ne {token : List Char} {segment : Segment} (h : segment ≠ .token token) :
    shown filled value segment = shown (filled ++ [token]) value segment := by
  cases segment with
  | char c => rfl
  | token name =>
    have hname : name ≠ token := fun heq => h (congrArg Segment.token heq)
    simp [shown, hname]

/-- A parameter that occurs only where the template has it is replaced there and nowhere else. -/
theorem replaceAll_shown {token : List Char} (hbrace : '\x7d' ∉ token) (hnew : token ∉ filled)
    (h : ∀ piece ∈ surroundings (shown filled value) token template,
      ¬ placeholder token <:+: piece) :
    Text.replaceAll (placeholder token) (value token) (template.flatMap (shown filled value)) =
      template.flatMap (shown (filled ++ [token]) value) := by
  have hne : placeholder token ≠ [] := List.cons_ne_nil _ _
  have hborder : Text.IsUnbordered (placeholder token) :=
    @Text.isUnbordered_concat ('\x7b' :: token) '\x7d' (by simp [hbrace])
  have hparts : surroundings (shown filled value) token template ≠ [] := by
    simp [surroundings]
  have hnow : shown filled value (.token token) = placeholder token := if_neg hnew
  have hthen : shown (filled ++ [token]) value (.token token) = value token := if_pos (by simp)
  rw [← intercalate_surroundings _ token template, hnow, Text.replaceAll,
    Text.pieces_intercalate hne hborder hparts h,
    surroundings_congr (fun _ => shown_of_ne) template, ← hthen, intercalate_surroundings]

/-! ## All parameters -/

theorem foldl_replaceAll {tokens : List (List Char)} (hbrace : ∀ token ∈ tokens, '\x7d' ∉ token)
    (hnodup : (filled ++ tokens).Nodup) (h : Undisturbed value template filled tokens) :
    tokens.foldl (fun url token => Text.replaceAll (placeholder token) (value token) url)
      (template.flatMap (shown filled value)) = template.flatMap (shown (filled ++ tokens) value) := by
  -- What is replaced moves from `tokens` to `filled`, and the URL stays the template as shown.
  induction tokens generalizing filled with
  | nil => rw [List.foldl_nil, List.append_nil]
  | cons token tokens ih =>
    obtain ⟨hhead, htail⟩ := h
    obtain ⟨htoken, htokens⟩ := List.forall_mem_cons.1 hbrace
    have hnew : token ∉ filled := by
      intro hmem
      exact (List.nodup_append.1 hnodup).2.2 token hmem token List.mem_cons_self rfl
    rw [List.append_cons] at hnodup ⊢
    rw [List.foldl_cons, replaceAll_shown htoken hnew hhead, ih htokens hnodup htail]

/-! ## Without braces -/

theorem infix_of_infix_append {c : Char} {pattern front rest : List Char} (h : c ∉ front)
    (hoccurs : c :: pattern <:+: front ++ rest) : c :: pattern <:+: rest := by
  induction front with
  | nil => exact hoccurs
  | cons d front ih =>
    obtain ⟨hd, hfront⟩ := not_or.1 fun hor => h (List.mem_cons.2 hor)
    rcases List.infix_cons_iff.1 hoccurs with hbegins | hlater
    · exact absurd (List.cons_prefix_cons.1 hbegins).1 hd
    · exact ih hfront hlater

/-- A text up to its closing brace is the same whatever follows the brace. -/
theorem eq_of_concat_prefix {name other rest : List Char} (hname : '\x7d' ∉ name)
    (hother : '\x7d' ∉ other) (h : name ++ ['\x7d'] <+: other ++ ['\x7d'] ++ rest) :
    name = other := by
  obtain ⟨back, hback⟩ := h
  rw [List.append_assoc, List.append_assoc, List.singleton_append, List.singleton_append] at hback
  have hkept : ∀ {text : List Char}, '\x7d' ∉ text → ∀ c ∈ text, decide (c ≠ '\x7d') = true := by
    intro text htext c hc
    exact decide_eq_true fun heq => htext (heq ▸ hc)
  have hend : ∀ back : List Char, ∀ c ∈ ('\x7d' :: back).head?, decide (c ≠ '\x7d') = false := by
    simp
  have htake := congrArg (List.takeWhile fun c => decide (c ≠ '\x7d')) hback
  rwa [(TypeScript.span_append (hkept hname) (hend back)).1,
    (TypeScript.span_append (hkept hother) (hend rest)).1] at htake

/-- A parameter does not occur among elements that lack it if each of them that shows an opening brace is
another parameter, or begins nothing. -/
theorem placeholder_not_isInfix {text : Segment → List Char} {token : List Char} {piece : List Segment}
    (hne : token ≠ []) (hbrace : '\x7d' ∉ token) (htoken : .token token ∉ piece)
    (hopens : Naming.OpensNothing piece) (hchar : ∀ c, text (.char c) = [c])
    (hname : ∀ name, .token name ∈ piece → '\x7b' ∉ text (.token name) ∨
      ('\x7b' ∉ name ∧ '\x7d' ∉ name ∧ text (.token name) = placeholder name)) :
    ¬ placeholder token <:+: piece.flatMap text := by
  induction piece with
  | nil =>
    intro hoccurs
    exact List.cons_ne_nil _ _ (List.infix_nil.1 hoccurs)
  | cons segment piece ih =>
    have hlater := ih (fun hmem => htoken (List.mem_cons_of_mem segment hmem)) hopens.2
      fun name hmem => hname name (List.mem_cons_of_mem segment hmem)
    rw [List.flatMap_cons]
    intro hoccurs
    cases segment with
    | char c =>
      -- An opening brace on its own is followed by a closing one, or by none at all.
      rw [hchar, List.singleton_append] at hoccurs
      rcases List.infix_cons_iff.1 hoccurs with hbegins | hrest
      · obtain ⟨rfl, hclose⟩ := List.cons_prefix_cons.1 hbegins
        rcases hopens.1 rfl with hhead | hchars
        · obtain ⟨more, rfl⟩ := List.head?_eq_some_iff.1 hhead
          rw [List.flatMap_cons, hchar] at hclose
          obtain ⟨first, rest, rfl⟩ := List.exists_cons_of_ne_nil hne
          have hfirst := (List.cons_prefix_cons.1 hclose).1
          exact hbrace (hfirst ▸ List.mem_cons_self)
        · have hmem : '\x7d' ∈ piece.flatMap text := hclose.subset (by simp)
          obtain ⟨next, hnext, hin⟩ := List.mem_flatMap.1 hmem
          obtain ⟨d, hd, rfl⟩ := hchars next hnext
          rw [hchar, List.mem_singleton] at hin
          exact hd hin.symm
      · exact hlater hrest
    | token name =>
      rcases hname name List.mem_cons_self with hfree | ⟨hopen, hclose, hshown⟩
      · exact hlater (infix_of_infix_append hfree hoccurs)
      · rw [hshown] at hoccurs
        rcases List.infix_cons_iff.1 hoccurs with hbegins | hrest
        · have heq := eq_of_concat_prefix hbrace hclose (List.cons_prefix_cons.1 hbegins).2
          exact htoken (heq ▸ List.mem_cons_self)
        · exact hlater (infix_of_infix_append (by simp [hopen]) hrest)

/-- Nothing is disturbed if neither parameters nor arguments have an opening brace, and no other opening
brace begins a parameter. -/
theorem undisturbed_of_notMem {tokens : List (List Char)} (hopens : Naming.OpensNothing template)
    (hclose : ∀ name, .token name ∈ template → '\x7d' ∉ name)
    (hopen : ∀ name, .token name ∈ template → '\x7b' ∉ name ∧ '\x7b' ∉ value name)
    (htokens : ∀ token ∈ tokens, token ≠ [] ∧ '\x7d' ∉ token) :
    Undisturbed value template filled tokens := by
  induction tokens generalizing filled with
  | nil => trivial
  | cons token tokens ih =>
    obtain ⟨⟨hne, hbrace⟩, hrest⟩ := List.forall_mem_cons.1 htokens
    refine ⟨fun piece hpiece => ?_, ih hrest⟩
    obtain ⟨elements, helements, rfl⟩ := List.mem_map.1 hpiece
    have hoccurs : elements <:+: template := by
      have hparts := @infix_intercalate _ [Segment.token token] _ _ helements
      rwa [List.intercalate_splitOn] at hparts
    refine placeholder_not_isInfix hne hbrace (Text.notMem_of_mem_splitOn helements)
      (Naming.opensNothing_of_isInfix hoccurs hopens) (fun c => rfl) fun name hmem => ?_
    obtain ⟨hname, hvalue⟩ := hopen name (hoccurs.subset hmem)
    rw [shown]
    split
    · exact .inl hvalue
    · exact .inr ⟨hname, hclose name (hoccurs.subset hmem), rfl⟩

end

/-! ## The URLs of a client -/

/-- A method of a client has the statements of the method for an operation. -/
theorem exists_operation_of_mem_methods {document : Document} {path : FilePath} {method : Method}
    (h : method ∈ (ofDocument document path).methods) :
    ∃ operation ∈ document.operations, method.path = operation.path ∧
      urlStatements method = urlStatements (.ofOperation operation) := by
  have hkept : (ofDocument document path).methods.map (fun method =>
      (method.path, urlStatements method)) =
        (methodsOf document).map fun method => (method.path, urlStatements method) :=
    map_distinguish (fun _ _ => rfl) (methodsOf document)
  have hmem : (method.path, urlStatements method) ∈
      (methodsOf document).map fun method => (method.path, urlStatements method) := by
    rw [← hkept]
    exact List.mem_map.2 ⟨method, h, rfl⟩
  obtain ⟨original, horiginal, hpair⟩ := List.mem_map.1 hmem
  obtain ⟨operation, hoperation, rfl⟩ := List.mem_map.1 horiginal
  obtain ⟨hpath, hstatements⟩ := Prod.mk.inj hpair
  exact ⟨operation, (List.mem_filter.1 hoperation).1, hpath.symm, hstatements.symm⟩

theorem flatMap_shown_urlTemplate (base path : List Char) (value : List Char → List Char) :
    (urlTemplate base path).flatMap (shown [] value) = base ++ path := by
  have hshown : shown [] value = Segment.written := by
    funext segment
    cases segment <;> rfl
  rw [urlTemplate, List.flatMap_append, hshown, Naming.flatMap_written_char,
    Naming.flatMap_written_segments]

theorem flatMap_shown_pathTokens (base path : List Char) (value : List Char → List Char) :
    (urlTemplate base path).flatMap (shown (pathTokens path) value) =
      base ++ (segments path).flatMap (filledBy value) := by
  have hbase : (base.map Segment.char).flatMap (shown (pathTokens path) value) = base := by
    rw [List.flatMap_map]
    exact List.flatMap_singleton' base
  rw [urlTemplate, List.flatMap_append, hbase]
  refine congrArg (base ++ ·) (congrArg List.flatten (List.map_congr_left fun segment hsegment => ?_))
  cases segment with
  | char c => rfl
  | token name => exact if_pos (Naming.mem_pathTokens.2 hsegment)

end Client

open Client

/-- **URLs.** Behind the base address `base`, which may be any text, the statements of a method replace
the parameters of its path in turn by the arguments; `argument` gives the text of the argument for an
identifier. If this never disturbs another place, then the URL is the base address and the path with all
its parameters replaced at once. Nothing is disturbed if the base address, the parameters and the
arguments are without opening braces. -/
theorem urlStatements_fill_at_once {document : Document} {path : FilePath} {method : Method}
    (hmethod : method ∈ (ofDocument document path).methods) (hpath : '\r' ∉ method.path.toList)
    (base : List Char) (argument : List Char → List Char) :
    urlStatements method <:+: (ofDocument document path).methods.flatMap methodLines ∧
    (Undisturbed (argument ∘ Naming.toIdentifier) (urlTemplate base method.path.toList) []
        (pathTokens method.path.toList) →
      runStatements base argument (urlStatements method) =
        some (base ++
          (segments method.path.toList).flatMap (filledBy (argument ∘ Naming.toIdentifier)))) ∧
    ('\x7b' ∉ base →
      (∀ token ∈ pathTokens method.path.toList,
        '\x7b' ∉ token ∧ '\x7b' ∉ argument (Naming.toIdentifier token)) →
      Undisturbed (argument ∘ Naming.toIdentifier) (urlTemplate base method.path.toList) []
        (pathTokens method.path.toList)) := by
  obtain ⟨operation, -, hsame, hstatements⟩ := exists_operation_of_mem_methods hmethod
  refine ⟨?_, fun hundisturbed => ?_, fun hbase htokens => ?_⟩
  · exact (urlStatements_isInfix method).trans (List.infix_of_mem_flatten (List.mem_map_of_mem hmethod))
  · rw [hsame] at hpath hundisturbed ⊢
    have hfold := foldl_replaceAll (fun token htoken => Naming.closingBrace_notMem htoken)
      (Naming.nodup_pathTokens _) hundisturbed
    rw [flatMap_shown_urlTemplate, List.nil_append, flatMap_shown_pathTokens] at hfold
    rw [hstatements, runStatements_urlStatements hpath, ← hfold]
    rfl
  · have hmem : ∀ name, .token name ∈ urlTemplate base method.path.toList →
        name ∈ pathTokens method.path.toList := by
      intro name hname
      rcases List.mem_append.1 hname with hchar | hsegment
      · obtain ⟨c, -, heq⟩ := List.mem_map.1 hchar
        cases heq
      · exact Naming.mem_pathTokens.2 hsegment
    refine undisturbed_of_notMem
      (Naming.opensNothing_char_append hbase (Naming.opensNothing_segments _))
      (fun name hname => Naming.closingBrace_notMem (hmem name hname))
      (fun name hname => htokens name (hmem name hname))
      fun token htoken => ⟨Naming.ne_nil_of_mem_pathTokens htoken, Naming.closingBrace_notMem htoken⟩

/-- A description with one operation. -/
def oneOperation (path : String) : String :=
  "paths:\n  " ++ path ++ ":\n    get: \x7b\x7d\n"

/-- Braces in the base address, and in arguments that come too late to be replaced. -/
theorem late_arguments_kept :
    ∃ document, Document.ofText (oneOperation "/u/\x7bid\x7d/\x7bp-q\x7d/\x7bid\x7d") = .ok document ∧
      ∃ method ∈ (ofDocument document (.ofString "/specs/api.yaml")).methods,
        '\r' ∉ method.path.toList ∧
        runStatements "https://\x7bhost\x7d".toList
          (fun identifier =>
            if identifier = "pQ".toList then placeholder "id".toList else placeholder "b".toList)
          (urlStatements method) =
            some "https://\x7bhost\x7d/u/\x7bb\x7d/\x7bid\x7d/\x7bb\x7d".toList := by
  have hpaths : (Document.ofText (oneOperation "/u/\x7bid\x7d/\x7bp-q\x7d/\x7bid\x7d")).toOption.map
      (fun document =>
        (ofDocument document (.ofString "/specs/api.yaml")).methods.map Method.path) =
      some ["/u/\x7bid\x7d/\x7bp-q\x7d/\x7bid\x7d"] := by
    decide +kernel
  obtain ⟨document, hread, hmethods⟩ := Document.exists_of_ofText hpaths
  obtain ⟨method, hmethod, hpath⟩ := List.mem_map.1 (hmethods ▸ List.mem_singleton_self _)
  have hreturn : '\r' ∉ method.path.toList := by
    rw [hpath]
    decide
  refine ⟨document, hread, method, hmethod, hreturn, ?_⟩
  rw [(urlStatements_fill_at_once hmethod hreturn _ _).2.1 (by rw [hpath]; decide +kernel), hpath]
  decide +kernel

/-- Arguments of which the one for `a` looks like the parameter `b`. -/
def lookalike (identifier : List Char) : List Char :=
  if identifier = "a".toList then placeholder "b".toList else "x".toList

/-- An argument that looks like a later parameter is taken for it. -/
theorem early_argument_replaced :
    ∃ document, Document.ofText (oneOperation "/\x7ba\x7d/\x7bb\x7d") = .ok document ∧
      ∃ method ∈ (ofDocument document (.ofString "/specs/api.yaml")).methods,
        runStatements [] lookalike (urlStatements method) = some "/x/x".toList ∧
        (segments method.path.toList).flatMap (filledBy (lookalike ∘ Naming.toIdentifier)) =
          "/\x7bb\x7d/x".toList := by
  have hurls : (Document.ofText (oneOperation "/\x7ba\x7d/\x7bb\x7d")).toOption.map
      (fun document =>
        (ofDocument document (.ofString "/specs/api.yaml")).methods.map fun method =>
          (runStatements [] lookalike (urlStatements method),
            (segments method.path.toList).flatMap (filledBy (lookalike ∘ Naming.toIdentifier)))) =
      some [(some "/x/x".toList, "/\x7bb\x7d/x".toList)] := by
    decide +kernel
  obtain ⟨document, hread, hmethods⟩ := Document.exists_of_ofText hurls
  obtain ⟨method, hmethod, hurl⟩ := List.mem_map.1 (hmethods ▸ List.mem_singleton_self _)
  obtain ⟨hbuilt, hfilled⟩ := Prod.mk.inj hurl
  exact ⟨document, hread, method, hmethod, hbuilt, hfilled⟩

end ApiBindings

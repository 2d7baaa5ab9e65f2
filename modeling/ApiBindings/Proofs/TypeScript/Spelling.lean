import ApiBindings.Proofs.TypeScript.Grammar
import ApiBindings.TypeScript.TypeExpr

/-!
# Texts of tokens

Which tokens the texts of types consist of, for every way in which the text of a type is put together from
those of others. A text counts in front of anything that cannot go on its last word.
-/

namespace ApiBindings.TypeScript

/-- A text consists of some tokens, whatever follows that cannot go on its last word. -/
def Spells (text : String) (written : List Token) : Prop :=
  ∀ rest, endsWord rest = true →
    tokens (text.toList ++ rest) = (tokens rest).map (written ++ ·)

/-- The token of a property's name. -/
def keyToken (name : String) : Token :=
  if Naming.isIdentifier name.toList then .word name else .literal name

/-- The token of a scalar's literal. -/
def literalToken : Scalar → Token
  | .text value => .literal value
  | value => .word (literal value)

/-- Whether a scalar has a literal type on one line: it is null, a truth value, a number or a text without
line breaks. -/
def hasLiteral : Scalar → Bool
  | .text value => isOneLine value.toList
  | .bytes _ => false
  | .date _ => false
  | .instant _ => false
  | _ => true

theorem spells_word {text : String} (h : isWord text = true) : Spells text [.word text] :=
  fun _ hrest => tokens_append_of_isWord h hrest

theorem spells_literal {text : String} (h : isOneLine text.toList = true) :
    Spells (.ofList (typeLiteral text.toList)) [.literal text] := by
  intro rest _
  rw [String.toList_ofList, tokens_literal h, String.ofList_toList]
  rfl

theorem isWord_of_isNumber {text : String} (h : isNumber text.toList = true) :
    isWord text = true := by
  rw [isWord, h, Bool.or_true]

theorem isWord_literal {value : Scalar} (h : hasLiteral value = true)
    (htext : ∀ text, value ≠ .text text) : isWord (literal value) = true := by
  cases value with
  | null => decide +kernel
  | bool value => cases value <;> decide +kernel
  | int value => exact isWord_of_isNumber (isNumber_toString value)
  | float value =>
    by_cases hnan : value = .nan
    · subst hnan
      decide +kernel
    · exact isWord_of_isNumber (isNumber_text hnan)
  | nan id =>
    show isWord Binary64.nan.text = true
    decide +kernel
  | text value => exact absurd rfl (htext value)
  | bytes value => cases h
  | date value => cases h
  | instant value => cases h

theorem spells_literal_scalar {value : Scalar} (h : hasLiteral value = true) :
    Spells (literal value) [literalToken value] := by
  by_cases htext : ∃ text, value = .text text
  · obtain ⟨text, rfl⟩ := htext
    exact spells_literal h
  · have hword := spells_word (isWord_literal h fun text heq => htext ⟨text, heq⟩)
    have htoken : literalToken value = .word (literal value) := by
      unfold literalToken
      split
      · exact absurd ⟨_, rfl⟩ htext
      · rfl
    rwa [htoken]

theorem spells_key {name : String} (h : isOneLine name.toList = true) :
    Spells (key name) [keyToken name] := by
  have hline : '\n' ∉ name.toList := by
    intro hmem
    simpa using List.all_eq_true.1 h _ hmem
  have hbare : Naming.isBare name.toList = Naming.isIdentifier name.toList := by
    rw [Naming.isBare, Naming.withoutFinalLineFeed_of_notMem hline]
  unfold key keyToken
  rw [hbare]
  split
  · rename_i hname
    exact spells_word (by rw [isWord, hname, Bool.true_or])
  · exact spells_literal h

/-! ## Texts put together -/

/-- A sign behind a text ends its last word. -/
theorem Spells.sign {text : String} {written : List Token} (h : Spells text written) {c : Char}
    (hc : c ∈ signs) (rest : List Char) :
    tokens (text.toList ++ c :: rest) =
      (tokens rest).map fun after => written ++ .sign c :: after := by
  have hends : endsWord (c :: rest) = true := by
    simp [endsWord, (kind_of_mem_signs hc).2.2]
  rw [h _ hends, tokens_sign hc, Option.map_map]
  rfl

/-- A blank behind a text ends its last word. -/
theorem Spells.blank {text : String} {written : List Token} (h : Spells text written)
    (rest : List Char) :
    tokens (text.toList ++ ' ' :: rest) = (tokens rest).map (written ++ ·) := by
  rw [h (' ' :: rest) rfl, tokens_blank]

theorem spells_record : Spells "Record<string, any>" recordTokens := by
  intro rest _
  have hrecord := (spells_word (show isWord "Record" = true by decide +kernel)).sign
    (show '<' ∈ signs by decide)
  have hstring := (spells_word (show isWord "string" = true by decide +kernel)).sign
    (show ',' ∈ signs by decide)
  have hany := (spells_word (show isWord "any" = true by decide +kernel)).sign
    (show '>' ∈ signs by decide)
  have htext : "Record<string, any>".toList ++ rest =
      "Record".toList ++ '<' :: ("string".toList ++ ',' :: ' ' :: ("any".toList ++ '>' :: rest)) := by
    rfl
  rw [htext, hrecord, hstring, tokens_blank, hany, Option.map_map, Option.map_map]
  rfl

theorem Spells.array {text : String} {written : List Token} (h : Spells text written) :
    Spells (text ++ "[]") (written ++ [.sign '[', .sign ']']) := by
  intro rest _
  have htext : (text ++ "[]").toList ++ rest = text.toList ++ '[' :: ']' :: rest := by
    rw [String.toList_append, List.append_assoc]
    rfl
  rw [htext, h.sign (by decide), tokens_sign (by decide), Option.map_map]
  congr 1
  funext after
  simp

theorem Spells.parentheses {text : String} {written : List Token} (h : Spells text written) :
    Spells ("(" ++ text ++ ")") (.sign '(' :: written ++ [.sign ')']) := by
  intro rest _
  have htext : ("(" ++ text ++ ")").toList ++ rest = '(' :: (text.toList ++ ')' :: rest) := by
    simp
  rw [htext, tokens_sign (by decide), h.sign (by decide), Option.map_map]
  congr 1
  funext after
  simp

theorem Spells.member {text name : String} {written : List Token} (h : Spells text written)
    (hname : isOneLine name.toList = true) :
    Spells (key name ++ ": " ++ text) (keyToken name :: .sign ':' :: written) := by
  intro rest hrest
  have htext : (key name ++ ": " ++ text).toList ++ rest =
      (key name).toList ++ ':' :: ' ' :: (text.toList ++ rest) := by
    simp
  rw [htext, (spells_key hname).sign (by decide), tokens_blank, h rest hrest, Option.map_map]
  rfl

section Joined

variable {β : Type} {text : β → String} {written : β → List Token}

/-- Texts with a sign between them, behind which or around which there is a blank. -/
theorem spells_intercalate {separator : String} {sign : Char}
    (hseparator : ∀ {text : String} {written : List Token}, Spells text written → ∀ rest,
      tokens (text.toList ++ (separator.toList ++ rest)) =
        (tokens rest).map fun after => written ++ .sign sign :: after)
    {items : List β} (hne : items ≠ []) (hitem : ∀ x ∈ items, Spells (text x) (written x)) :
    Spells (separator.intercalate (items.map text)) (joinedTokens sign (items.map written)) := by
  induction items with
  | nil => exact absurd rfl hne
  | cons x items ih =>
    have hx := hitem x List.mem_cons_self
    cases items with
    | nil =>
      rw [List.map_singleton, List.map_singleton, joinedTokens_singleton]
      simpa using hx
    | cons y items =>
      intro rest hrest
      have hmore := ih (List.cons_ne_nil y items) fun z hz => hitem z (List.mem_cons_of_mem x hz)
      have htext : (separator.intercalate ((x :: y :: items).map text)).toList ++ rest =
          (text x).toList ++ (separator.toList ++
            ((separator.intercalate ((y :: items).map text)).toList ++ rest)) := by
        simp only [List.map_cons, String.intercalate_cons_cons, String.toList_append,
          List.append_assoc]
      have htokens : joinedTokens sign ((x :: y :: items).map written) =
          written x ++ .sign sign :: joinedTokens sign ((y :: items).map written) :=
        joinedTokens_cons_cons sign (written x) (written y) (items.map written)
      rw [htext, hseparator hx, hmore rest hrest, Option.map_map, htokens]
      congr 1
      funext after
      simp

theorem spells_union {items : List β} (hne : items ≠ [])
    (hitem : ∀ x ∈ items, Spells (text x) (written x)) :
    Spells (" | ".intercalate (items.map text)) (joinedTokens '|' (items.map written)) := by
  apply spells_intercalate _ hne hitem
  intro text written h rest
  have hblank := h.blank ('|' :: ' ' :: rest)
  rw [tokens_sign (by decide), tokens_blank, Option.map_map] at hblank
  exact hblank

theorem spells_intersection {items : List β} (hne : items ≠ [])
    (hitem : ∀ x ∈ items, Spells (text x) (written x)) :
    Spells (" & ".intercalate (items.map text)) (joinedTokens '&' (items.map written)) := by
  apply spells_intercalate _ hne hitem
  intro text written h rest
  have hblank := h.blank ('&' :: ' ' :: rest)
  rw [tokens_sign (by decide), tokens_blank, Option.map_map] at hblank
  exact hblank

theorem spells_object {items : List β} (hne : items ≠ [])
    (hitem : ∀ x ∈ items, Spells (text x) (written x)) :
    Spells (objectText (items.map text))
      (.sign '\x7b' :: joinedTokens ';' (items.map written) ++ [.sign '\x7d']) := by
  have hmembers : Spells ("; ".intercalate (items.map text)) (joinedTokens ';' (items.map written)) := by
    apply spells_intercalate _ hne hitem
    intro text written h rest
    have hsign := h.sign (show ';' ∈ signs by decide) (' ' :: rest)
    rw [tokens_blank] at hsign
    exact hsign
  intro rest _
  have htext : (objectText (items.map text)).toList ++ rest =
      '\x7b' :: ' ' :: (("; ".intercalate (items.map text)).toList ++ ' ' :: '\x7d' :: rest) := by
    simp [objectText]
  rw [htext, tokens_sign (by decide), tokens_blank, hmembers.blank, tokens_sign (by decide),
    Option.map_map, Option.map_map]
  congr 1
  funext after
  simp

end Joined

end ApiBindings.TypeScript

import ApiBindings.Proofs.TypeScript.Literal
import ApiBindings.Proofs.TypeScript.Number

/-!
# Tokens of types

The text of a type as tokens: words, which are names, keywords and numbers, quoted literals, and signs.
Blanks only separate tokens, and a word goes as far as it can. One lemma for each kind of token says what
the text of the token contributes in front of any other text.
-/

namespace ApiBindings.TypeScript

/-- A token of a type. -/
inductive Token where
  /-- A name, a keyword or a number. -/
  | word (text : String)
  /-- A quoted literal, by the text that it stands for. -/
  | literal (text : String)
  | sign (char : Char)
  deriving DecidableEq, Repr

/-- Whether a character can stand in a word. -/
def isWordChar (c : Char) : Bool :=
  Naming.continuesIdentifier c || c == '.' || c == '+' || c == '-'

/-- The characters that are tokens of their own. -/
def signs : List Char :=
  ['(', ')', '\x7b', '\x7d', '[', ']', '<', '>', ',', ':', ';', '&', '|']

/-- The tokens of a text, none if it holds a character that no token can have or a literal that does not
end. -/
def tokens : List Char → Option (List Token)
  | [] => some []
  | c :: rest =>
    if c = ' ' then tokens rest
    else if c = '\'' then
      match h : readLiteral rest with
      | some (text, tail) =>
        have := length_lt_of_readLiteral h
        (tokens tail).map (.literal (.ofList text) :: ·)
      | none => none
    else if isWordChar c then
      have := (List.dropWhile_suffix isWordChar (l := rest)).length_le
      (tokens (rest.dropWhile isWordChar)).map
        (.word (.ofList (c :: rest.takeWhile isWordChar)) :: ·)
    else if c ∈ signs then (tokens rest).map (.sign c :: ·)
    else none
  termination_by text => text.length
  decreasing_by all_goals simp only [List.length_cons]; omega

/-- Whether a text cannot go on a word in front of it. -/
def endsWord (text : List Char) : Bool :=
  text.head?.all fun c => !isWordChar c

theorem tokens_nil : tokens [] = some [] := by
  rw [tokens]

theorem tokens_blank (rest : List Char) : tokens (' ' :: rest) = tokens rest := by
  rw [tokens, if_pos rfl]

theorem kind_of_mem_signs {c : Char} (hc : c ∈ signs) :
    c ≠ ' ' ∧ c ≠ '\'' ∧ isWordChar c = false := by
  have hall : (signs.all fun d => d != ' ' && d != '\'' && !isWordChar d) = true := by decide
  simpa [and_assoc] using List.all_eq_true.1 hall c hc

theorem tokens_sign {c : Char} (hc : c ∈ signs) (rest : List Char) :
    tokens (c :: rest) = (tokens rest).map (.sign c :: ·) := by
  obtain ⟨hblank, hquote, hword⟩ := kind_of_mem_signs hc
  rw [tokens, if_neg hblank, if_neg hquote, if_neg (by simp [hword]), if_pos hc]

theorem tokens_literal {text : List Char} (hline : isOneLine text = true) (rest : List Char) :
    tokens (typeLiteral text ++ rest) = (tokens rest).map (.literal (.ofList text) :: ·) := by
  have hread := readLiteral_typeLiteral hline rest
  have hshape : typeLiteral text ++ rest = '\'' :: (text.flatMap typeChar ++ '\'' :: rest) := by
    simp [typeLiteral]
  rw [hshape, tokens, if_neg (by decide), if_pos rfl]
  split
  · rename_i value tail hvalue
    rw [hread] at hvalue
    cases hvalue
    rfl
  · rename_i hnone
    rw [hread] at hnone
    cases hnone

theorem tokens_word {text rest : List Char} (hne : text ≠ [])
    (hword : ∀ c ∈ text, isWordChar c = true) (hrest : endsWord rest = true) :
    tokens (text ++ rest) = (tokens rest).map (.word (.ofList text) :: ·) := by
  cases text with
  | nil => exact absurd rfl hne
  | cons c text =>
    have hc := hword c List.mem_cons_self
    have hblank : c ≠ ' ' := by rintro rfl; exact absurd hc (by decide)
    have hquote : c ≠ '\'' := by rintro rfl; exact absurd hc (by decide)
    have hstop : ∀ d ∈ rest.head?, isWordChar d = false := by
      intro d hd
      rw [endsWord, Option.mem_def.1 hd] at hrest
      simpa using hrest
    obtain ⟨htake, hdrop⟩ :=
      span_append (fun d hd => hword d (List.mem_cons_of_mem c hd)) hstop
    rw [List.cons_append, tokens, if_neg hblank, if_neg hquote, if_pos hc]
    simp only [htake, hdrop]

/-! ## Words -/

/-- Whether a text is a word: a name, a keyword or a number. -/
def isWord (text : String) : Bool :=
  Naming.isIdentifier text.toList || isNumber text.toList

theorem isWordChar_of_continues {c : Char} (h : Naming.continuesIdentifier c = true) :
    isWordChar c = true := by
  simp [isWordChar, h]

theorem isWordChar_of_isDigit {c : Char} (h : c.isDigit = true) : isWordChar c = true := by
  apply isWordChar_of_continues
  simp [Naming.continuesIdentifier, Naming.isAlphanumeric, Char.isAlphanum, h]

theorem isWordChar_of_isIdentifier {text : List Char} (h : Naming.isIdentifier text = true) :
    ∀ c ∈ text, isWordChar c = true := by
  intro c hc
  apply isWordChar_of_continues
  cases text with
  | nil => cases hc
  | cons first rest =>
    obtain ⟨hfirst, hrest⟩ := Bool.and_eq_true_iff.1 h
    rcases List.mem_cons.1 hc with rfl | hc
    · simp only [Naming.startsIdentifier, Bool.or_eq_true] at hfirst
      simp only [Naming.continuesIdentifier, Naming.isAlphanumeric, Char.isAlphanum, Bool.or_eq_true]
      rcases hfirst with (halpha | hline) | hdollar
      · exact .inl (.inl (.inl halpha))
      · exact .inl (.inr hline)
      · exact .inr hdollar
    · exact List.all_eq_true.1 hrest c hc

theorem isWordChar_of_isDigits {text : List Char} (h : isDigits text = true) :
    ∀ c ∈ text, isWordChar c = true :=
  fun c hc => isWordChar_of_isDigit ((isDigits_iff.1 h).2 c hc)

theorem isWordChar_of_isFraction {text : List Char} (h : isFraction text = true) :
    ∀ c ∈ text, isWordChar c = true := by
  unfold isFraction at h
  split at h
  · exact fun c hc => absurd hc List.not_mem_nil
  · exact List.forall_mem_cons.2 ⟨rfl, isWordChar_of_isDigits h⟩
  · cases h

theorem isWordChar_of_isExponent {text : List Char} (h : isExponent text = true) :
    ∀ c ∈ text, isWordChar c = true := by
  unfold isExponent at h
  split at h
  · exact fun c hc => absurd hc List.not_mem_nil
  · exact List.forall_mem_cons.2 ⟨rfl, List.forall_mem_cons.2 ⟨rfl, isWordChar_of_isDigits h⟩⟩
  · exact List.forall_mem_cons.2 ⟨rfl, List.forall_mem_cons.2 ⟨rfl, isWordChar_of_isDigits h⟩⟩
  · exact List.forall_mem_cons.2 ⟨rfl, isWordChar_of_isDigits h⟩
  · cases h

theorem isWordChar_of_isMagnitude {text : List Char} (h : isMagnitude text = true) :
    ∀ c ∈ text, isWordChar c = true := by
  intro c hc
  rcases Bool.or_eq_true_iff.1 h with hinf | hdecimal
  · have hall : "inf".toList.all isWordChar = true := by decide
    rw [beq_iff_eq.1 hinf] at hc
    exact List.all_eq_true.1 hall c hc
  · obtain ⟨hparts, hexponent⟩ := Bool.and_eq_true_iff.1 hdecimal
    obtain ⟨hwhole, hfraction⟩ := Bool.and_eq_true_iff.1 hparts
    rw [← List.takeWhile_append_dropWhile (p := Char.isDigit) (l := text),
      ← List.takeWhile_append_dropWhile (p := fun c => decide (c ≠ 'e'))
        (l := text.dropWhile Char.isDigit)] at hc
    rcases List.mem_append.1 hc with hc | hc
    · exact isWordChar_of_isDigits hwhole c hc
    · rcases List.mem_append.1 hc with hc | hc
      · exact isWordChar_of_isFraction hfraction c hc
      · exact isWordChar_of_isExponent hexponent c hc

theorem isWordChar_of_isNumber {text : List Char} (h : isNumber text = true) :
    ∀ c ∈ text, isWordChar c = true := by
  unfold isNumber at h
  split at h
  · exact List.forall_mem_cons.2 ⟨rfl, isWordChar_of_isMagnitude h⟩
  · exact isWordChar_of_isMagnitude h

theorem ne_nil_of_isWord {text : String} (h : isWord text = true) : text.toList ≠ [] := by
  intro hnil
  rw [isWord, hnil] at h
  cases h

theorem isWordChar_of_isWord {text : String} (h : isWord text = true) :
    ∀ c ∈ text.toList, isWordChar c = true := by
  rcases Bool.or_eq_true_iff.1 h with hname | hnumber
  · exact isWordChar_of_isIdentifier hname
  · exact isWordChar_of_isNumber hnumber

/-- A word in front of a text that cannot go on it is one token. -/
theorem tokens_append_of_isWord {text : String} (h : isWord text = true) {rest : List Char}
    (hrest : endsWord rest = true) :
    tokens (text.toList ++ rest) = (tokens rest).map (.word text :: ·) := by
  rw [tokens_word (ne_nil_of_isWord h) (isWordChar_of_isWord h) hrest, String.ofList_toList]

end ApiBindings.TypeScript

import ApiBindings.Naming.Case
import ApiBindings.Proofs.Naming.Identifier
import Mathlib.Data.List.Nodup

/-!
# Names of arguments

A token that is written bare is the name of its argument. Any other goes by the letters and digits of its
camel case, with an underscore in front where these are no identifier (`toIdentifier_of_not_isBare`). So a name
is an identifier unless the token ends its line, and it is its own name (`toIdentifier_stable`). The
underscore never hides a clash (`guarded_inj`), but the camel case does not tell all tokens apart. What has to
hold for the names to differ, from one another and from names that are taken already, is `KeepApart`
(`keepApart_iff`).
-/

namespace ApiBindings.Naming

/-- The letters and digits of ASCII in the camel case of a text. -/
def letters (text : List Char) : List Char :=
  (camelCase text).filter isAlphanumeric

/-- Letters and digits, with an underscore in front if they are no identifier. -/
def guarded : List Char → List Char
  | [] => ['_']
  | c :: rest => if c.isDigit then '_' :: c :: rest else c :: rest

theorem toIdentifier_of_isBare {text : List Char} (h : isBare text = true) :
    toIdentifier text = text :=
  if_pos h

theorem toIdentifier_of_not_isBare {text : List Char} (h : isBare text ≠ true) :
    toIdentifier text = guarded (letters text) := by
  rw [toIdentifier, if_neg h, letters]
  cases (camelCase text).filter isAlphanumeric <;> rfl

/-! ## Letters and digits -/

section Letters

theorem all_letters (text : List Char) : (letters text).all isAlphanumeric = true :=
  List.all_eq_true.2 fun _ hc => (List.mem_filter.1 hc).2

variable {text other : List Char}

theorem isIdentifier_guarded (h : text.all isAlphanumeric = true) :
    isIdentifier (guarded text) = true := by
  have hrest : text.all continuesIdentifier = true :=
    List.all_eq_true.2 fun c hc => continues_of_isAlphanumeric (List.all_eq_true.1 h c hc)
  unfold guarded
  split
  · decide
  · next c rest =>
    split
    · exact hrest
    · next hdigit =>
      rw [List.all_cons, Bool.and_eq_true] at h hrest
      have halpha : c.isAlpha = true := by
        simpa [isAlphanumeric, Char.isAlphanum, hdigit] using h.1
      simp [isIdentifier, startsIdentifier, halpha, hrest.2]

/-- The letters and digits are what they were before the underscore. -/
theorem filter_guarded (h : text.all isAlphanumeric = true) :
    (guarded text).filter isAlphanumeric = text := by
  have hself : text.filter isAlphanumeric = text := List.filter_eq_self.2 (List.all_eq_true.1 h)
  unfold guarded
  split
  · rfl
  · split
    · exact hself
    · exact hself

theorem guarded_inj (h : text.all isAlphanumeric = true) (hother : other.all isAlphanumeric = true) :
    guarded text = guarded other ↔ text = other := by
  refine ⟨fun heq => ?_, congrArg guarded⟩
  rw [← filter_guarded h, heq, filter_guarded hother]

end Letters

/-! ## Characters -/

theorem withoutFinalLineFeed_append (text : List Char) :
    withoutFinalLineFeed text = text ∨ withoutFinalLineFeed text ++ ['\n'] = text := by
  fun_induction withoutFinalLineFeed text with
  | case1 => exact .inl rfl
  | case2 => exact .inr rfl
  | case3 c rest _ ih => exact ih.imp (congrArg (c :: ·)) (congrArg (c :: ·))

theorem withoutFinalLineFeed_concat (front : List Char) :
    withoutFinalLineFeed (front ++ ['\n']) = front := by
  induction front with
  | nil => rfl
  | cons c front ih =>
    rw [List.cons_append, withoutFinalLineFeed, ih]
    simp

/-- A text is written bare exactly if it is an identifier, or one with a line feed behind it. -/
theorem isBare_iff {text : List Char} :
    isBare text = true ↔
      isIdentifier text = true ∨ ∃ front, isIdentifier front = true ∧ text = front ++ ['\n'] := by
  constructor
  · intro h
    rcases withoutFinalLineFeed_append text with heq | heq
    · rw [isBare, heq] at h
      exact .inl h
    · exact .inr ⟨_, h, heq.symm⟩
  · rintro (h | ⟨front, hfront, rfl⟩)
    · exact isBare_of_isIdentifier h
    · rw [isBare, withoutFinalLineFeed_concat, hfront]

/-- The name of an argument is an identifier, apart from a line feed at its end. -/
theorem isBare_toIdentifier (text : List Char) : isBare (toIdentifier text) = true := by
  by_cases hbare : isBare text = true
  · rwa [toIdentifier_of_isBare hbare]
  · rw [toIdentifier_of_not_isBare hbare]
    exact isBare_of_isIdentifier (isIdentifier_guarded (all_letters text))

theorem notMem_toIdentifier {c : Char} (hc : continuesIdentifier c = false) (hline : c ≠ '\n')
    (text : List Char) : c ∉ toIdentifier text := by
  have hname : c ∉ withoutFinalLineFeed (toIdentifier text) := by
    intro hmem
    have hcontinues := continues_of_isIdentifier (isBare_toIdentifier text) hmem
    exact absurd hcontinues (by simp [hc])
  rcases withoutFinalLineFeed_append (toIdentifier text) with heq | heq
  · rwa [heq] at hname
  · rw [← heq, List.mem_append, List.mem_singleton]
    exact not_or.2 ⟨hname, hline⟩

/-! ## Names that stay -/

/-- An identifier with a line feed behind it is none. -/
theorem not_isIdentifier_concat (front : List Char) : isIdentifier (front ++ ['\n']) ≠ true := by
  intro h
  exact lineFeed_notMem_of_isIdentifier h (List.mem_append_right front (List.mem_singleton.2 rfl))

/-- **Names of arguments.** The name for a token is an identifier unless the token is one with a line feed
behind it, which is left as it is. An identifier is its own name, and naming a name again does not change it. -/
theorem toIdentifier_stable (text : List Char) :
    (isIdentifier (toIdentifier text) = true ↔
      ¬ ∃ front, isIdentifier front = true ∧ text = front ++ ['\n']) ∧
    (isIdentifier text = true → toIdentifier text = text) ∧
    toIdentifier (toIdentifier text) = toIdentifier text := by
  refine ⟨?_, fun h => toIdentifier_of_isBare (isBare_of_isIdentifier h),
    toIdentifier_of_isBare (isBare_toIdentifier text)⟩
  by_cases hbare : isBare text = true
  · rw [toIdentifier_of_isBare hbare]
    constructor
    · rintro hname ⟨front, -, rfl⟩
      exact not_isIdentifier_concat front hname
    · exact fun hline => (isBare_iff.1 hbare).resolve_right hline
  · rw [toIdentifier_of_not_isBare hbare]
    exact iff_of_true (isIdentifier_guarded (all_letters text)) fun hline => hbare (isBare_iff.2 (.inr hline))

/-- A token whose name ends in the line feed that it ends in. -/
theorem lineFeed_stays_in_name :
    toIdentifier "a\n".toList = "a\n".toList ∧ isIdentifier (toIdentifier "a\n".toList) = false := by
  decide

/-! ## Names that differ -/

/-- The name for a token, where `bare` gives the name of one that is written bare. -/
def nameWith (bare : List Char → List Char) (token : List Char) : List Char :=
  if isBare token then bare token else guarded (letters token)

section NameWith

variable {bare : List Char → List Char} {token : List Char}

theorem nameWith_of_isBare (h : isBare token = true) : nameWith bare token = bare token :=
  if_pos h

theorem nameWith_of_not_isBare (h : isBare token ≠ true) :
    nameWith bare token = guarded (letters token) :=
  if_neg h

theorem nameWith_id (token : List Char) : nameWith id token = toIdentifier token := by
  by_cases hbare : isBare token = true
  · rw [nameWith_of_isBare hbare, toIdentifier_of_isBare hbare, id_eq]
  · rw [nameWith_of_not_isBare hbare, toIdentifier_of_not_isBare hbare]

theorem nameWith_withoutFinalLineFeed (token : List Char) :
    nameWith withoutFinalLineFeed token = withoutFinalLineFeed (toIdentifier token) := by
  by_cases hbare : isBare token = true
  · rw [nameWith_of_isBare hbare, toIdentifier_of_isBare hbare]
  · have hname := isIdentifier_guarded (all_letters token)
    rw [nameWith_of_not_isBare hbare, toIdentifier_of_not_isBare hbare,
      withoutFinalLineFeed_of_notMem (lineFeed_notMem_of_isIdentifier hname)]

end NameWith

/-- What keeps the names of tokens apart from one another and from some names that are taken. -/
structure KeepApart (bare : List Char → List Char) (tokens taken : List (List Char)) : Prop where
  /-- Tokens that are written bare are told apart. -/
  bare_inj : ∀ token ∈ tokens, isBare token = true → ∀ other ∈ tokens, isBare other = true →
    bare token = bare other → token = other
  /-- Any others differ in their letters and digits in camel case. -/
  letters_inj : ∀ token ∈ tokens, isBare token ≠ true → ∀ other ∈ tokens, isBare other ≠ true →
    letters token = letters other → token = other
  /-- No token is written bare as another one is called. -/
  bare_ne : ∀ token ∈ tokens, isBare token = true → ∀ other ∈ tokens, isBare other ≠ true →
    bare token ≠ guarded (letters other)
  bare_free : ∀ token ∈ tokens, isBare token = true → bare token ∉ taken
  letters_free : ∀ token ∈ tokens, isBare token ≠ true → letters token ∉ taken

section KeepApart

variable {bare : List Char → List Char} {tokens taken : List (List Char)}

theorem KeepApart.nameWith_inj (h : KeepApart bare tokens taken) {token other : List Char}
    (htoken : token ∈ tokens) (hother : other ∈ tokens)
    (heq : nameWith bare token = nameWith bare other) : token = other := by
  by_cases hbare : isBare token = true <;> by_cases hbare' : isBare other = true
  · rw [nameWith_of_isBare hbare, nameWith_of_isBare hbare'] at heq
    exact h.bare_inj token htoken hbare other hother hbare' heq
  · rw [nameWith_of_isBare hbare, nameWith_of_not_isBare hbare'] at heq
    exact absurd heq (h.bare_ne token htoken hbare other hother hbare')
  · rw [nameWith_of_not_isBare hbare, nameWith_of_isBare hbare'] at heq
    exact absurd heq.symm (h.bare_ne other hother hbare' token htoken hbare)
  · rw [nameWith_of_not_isBare hbare, nameWith_of_not_isBare hbare',
      guarded_inj (all_letters token) (all_letters other)] at heq
    exact h.letters_inj token htoken hbare other hother hbare' heq

/-- A name is taken with its underscore only if it is without: the names that are taken have none. -/
theorem guarded_mem_iff {text : List Char} (h : text.all isAlphanumeric = true)
    (htaken : ∀ name ∈ taken, name.all isAlphanumeric = true ∧ guarded name = name) :
    guarded text ∈ taken ↔ text ∈ taken := by
  constructor
  · intro hmem
    obtain ⟨hall, hguarded⟩ := htaken _ hmem
    rwa [(guarded_inj hall h).1 hguarded] at hmem
  · intro hmem
    rwa [(htaken _ hmem).2]

/-- The names of different tokens are different and free exactly if the tokens keep apart. -/
theorem keepApart_iff (htokens : tokens.Nodup)
    (htaken : ∀ name ∈ taken, name.all isAlphanumeric = true ∧ guarded name = name) :
    KeepApart bare tokens taken ↔
      (tokens.map (nameWith bare)).Nodup ∧ ∀ token ∈ tokens, nameWith bare token ∉ taken := by
  rw [List.nodup_map_iff_inj_on htokens]
  constructor
  · intro h
    refine ⟨fun token htoken other hother => h.nameWith_inj htoken hother, fun token htoken => ?_⟩
    by_cases hbare : isBare token = true
    · rw [nameWith_of_isBare hbare]
      exact h.bare_free token htoken hbare
    · rw [nameWith_of_not_isBare hbare, guarded_mem_iff (all_letters token) htaken]
      exact h.letters_free token htoken hbare
  · rintro ⟨hinj, hfree⟩
    constructor
    case bare_inj =>
      intro token htoken hbare other hother hbare' heq
      refine hinj token htoken other hother ?_
      rw [nameWith_of_isBare hbare, nameWith_of_isBare hbare', heq]
    case letters_inj =>
      intro token htoken hbare other hother hbare' heq
      refine hinj token htoken other hother ?_
      rw [nameWith_of_not_isBare hbare, nameWith_of_not_isBare hbare', heq]
    case bare_ne =>
      intro token htoken hbare other hother hbare' heq
      have hsame : token = other := by
        refine hinj token htoken other hother ?_
        rw [nameWith_of_isBare hbare, nameWith_of_not_isBare hbare', heq]
      exact hbare' (hsame ▸ hbare)
    case bare_free =>
      intro token htoken hbare
      have hname := hfree token htoken
      rwa [nameWith_of_isBare hbare] at hname
    case letters_free =>
      intro token htoken hbare
      have hname := hfree token htoken
      rwa [nameWith_of_not_isBare hbare, guarded_mem_iff (all_letters token) htaken] at hname

end KeepApart

end ApiBindings.Naming

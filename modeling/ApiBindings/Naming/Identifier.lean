/-!
# Identifiers

The names that a TypeScript declaration, parameter or bare key may have: an ASCII letter, `_` or `$`
followed by such characters and digits.
-/

namespace ApiBindings.Naming

/-- Whether a character is an ASCII letter or digit. -/
def isAlphanumeric (c : Char) : Bool :=
  c.isAlphanum

/-- Whether an identifier may begin with the character. -/
def startsIdentifier (c : Char) : Bool :=
  c.isAlpha || c == '_' || c == '$'

/-- Whether an identifier may go on with the character. -/
def continuesIdentifier (c : Char) : Bool :=
  isAlphanumeric c || c == '_' || c == '$'

/-- Whether the text as a whole is an identifier. -/
def isIdentifier : List Char → Bool
  | [] => false
  | c :: rest => startsIdentifier c && rest.all continuesIdentifier

/-- The text without one line feed at its end. -/
def withoutFinalLineFeed : List Char → List Char
  | [] => []
  | ['\n'] => []
  | c :: rest => c :: withoutFinalLineFeed rest

/-- Whether a text is written bare: it is an identifier, one line feed at its end not counted. -/
def isBare (text : List Char) : Bool :=
  isIdentifier (withoutFinalLineFeed text)

theorem withoutFinalLineFeed_of_notMem {text : List Char} (h : '\n' ∉ text) :
    withoutFinalLineFeed text = text := by
  fun_induction withoutFinalLineFeed text with
  | case1 => rfl
  | case2 => simp at h
  | case3 c rest hne ih =>
    rw [ih fun hmem => h (List.mem_cons_of_mem c hmem)]

theorem lineFeed_notMem_of_isIdentifier {text : List Char} (h : isIdentifier text = true) :
    '\n' ∉ text := by
  cases text with
  | nil => simp
  | cons c rest =>
    simp only [isIdentifier, Bool.and_eq_true, List.all_eq_true] at h
    intro hmem
    rcases List.mem_cons.1 hmem with rfl | hmem
    · exact absurd h.1 (by decide)
    · exact absurd (h.2 _ hmem) (by decide)

/-- Every identifier is written bare. -/
theorem isBare_of_isIdentifier {text : List Char} (h : isIdentifier text = true) :
    isBare text = true := by
  rw [isBare, withoutFinalLineFeed_of_notMem (lineFeed_notMem_of_isIdentifier h), h]

end ApiBindings.Naming

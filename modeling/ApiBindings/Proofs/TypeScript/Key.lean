import ApiBindings.Proofs.Naming.Argument
import ApiBindings.Proofs.TypeScript.Literal

/-!
# Keys of members

What the key of a member stands for: `readKey` takes an identifier for itself and a literal for its text.
Different names have different keys, however they are written (`key_inj`). Only a line break in a name keeps
its key from being read: literals of types leave every line break as it is, and a name that is written bare
may end in a line feed (`literal_key_faithful`).
-/

namespace ApiBindings.TypeScript

open Naming (isBare isBare_iff isIdentifier)

/-- What a key stands for. -/
def readKey : List Char → Option (List Char)
  | '\'' :: rest => (readLiteral rest).bind fun read => if read.2 = [] then some read.1 else none
  | name => if isIdentifier name then some name else none

/-! ## Bare names -/

theorem ne_quote_of_isBare {name : List Char} (h : isBare name = true) (rest : List Char) :
    name ≠ '\'' :: rest := by
  have hquote : ∀ back, isIdentifier ('\'' :: back) = false := fun _ => rfl
  rintro rfl
  rcases isBare_iff.1 h with hname | ⟨front, hfront, heq⟩
  · rw [hquote] at hname
    cases hname
  · cases front with
    | nil => cases hfront
    | cons c front =>
      obtain ⟨rfl, -⟩ := List.cons.inj heq
      rw [hquote] at hfront
      cases hfront

theorem isOneLine_of_isIdentifier {name : List Char} (h : isIdentifier name = true) :
    isOneLine name = true := by
  refine isOneLine_iff.2 ⟨Naming.lineFeed_notMem_of_isIdentifier h, fun hmem => ?_⟩
  exact absurd (Naming.continues_of_isIdentifier h hmem) (by decide)

/-- A name that is written bare is an identifier unless it ends its line. -/
theorem isIdentifier_iff_of_isBare {name : List Char} (h : isBare name = true) :
    isIdentifier name = true ↔ isOneLine name = true := by
  refine ⟨isOneLine_of_isIdentifier, fun hline => ?_⟩
  rwa [isBare, Naming.withoutFinalLineFeed_of_notMem (isOneLine_iff.1 hline).1] at h

/-! ## Keys -/

theorem key_of_isBare {name : String} (h : isBare name.toList = true) : key name = name :=
  if_pos h

theorem toList_key_of_not_isBare {name : String} (h : isBare name.toList ≠ true) :
    (key name).toList = '\'' :: (name.toList.flatMap typeChar ++ ['\'']) := by
  rw [key, if_neg h, String.toList_ofList]
  rfl

theorem readKey_of_isBare {name : List Char} (h : isBare name = true) :
    readKey name = if isIdentifier name then some name else none :=
  readKey.eq_2 name (ne_quote_of_isBare h)

/-- A key is read back as its name exactly if the name stands on one line. -/
theorem readKey_key_iff (name : String) :
    readKey (key name).toList = some name.toList ↔ isOneLine name.toList = true := by
  by_cases hbare : isBare name.toList = true
  · rw [key_of_isBare hbare, readKey_of_isBare hbare, ← isIdentifier_iff_of_isBare hbare]
    simp
  · have hread := readLiteral_of_readBody (readBody_flatMap readBody_typeChar name.toList) []
    have hline := @isOneLine_flatMap_typeChar name.toList
    rw [toList_key_of_not_isBare hbare, readKey, hread, ← hline]
    split <;> simp [*]

theorem flatMap_typeChar_inj {text other : List Char}
    (h : text.flatMap typeChar = other.flatMap typeChar) : text = other := by
  have hread := readBody_flatMap readBody_typeChar text
  rw [h, readBody_flatMap readBody_typeChar other] at hread
  exact (Option.some.inj hread).symm

/-- Different names have different keys. -/
theorem key_inj {name other : String} : key name = key other ↔ name = other := by
  refine ⟨fun h => ?_, congrArg key⟩
  by_cases hbare : isBare name.toList = true <;> by_cases hbare' : isBare other.toList = true
  · rwa [key_of_isBare hbare, key_of_isBare hbare'] at h
  · rw [key_of_isBare hbare] at h
    rw [h] at hbare
    exact absurd (toList_key_of_not_isBare hbare') (ne_quote_of_isBare hbare _)
  · rw [key_of_isBare hbare'] at h
    rw [← h] at hbare'
    exact absurd (toList_key_of_not_isBare hbare) (ne_quote_of_isBare hbare' _)
  · have hlists := congrArg String.toList h
    rw [toList_key_of_not_isBare hbare, toList_key_of_not_isBare hbare'] at hlists
    have hbodies := List.append_left_injective ['\''] (List.cons.inj hlists).2
    exact String.toList_inj.1 (flatMap_typeChar_inj hbodies)

/-! ## Literals of types -/

/-- **Literals of types and keys.** A text of an enumeration becomes a literal between two apostrophes, in
which backslashes and apostrophes are replaced one after the other. What stands between the apostrophes has
no apostrophe that is not escaped, and reads back as the text. It stays on its line, and is read as a literal
up to the closing apostrophe, exactly if the text stands on one line. The key of a property is the name itself
if this is an identifier, or one with a line feed behind it, and such a literal if not. It reads back as the
name exactly if the name stands on one line, and different names have different keys. -/
theorem literal_key_faithful (text : String) :
    (∃ body, (literal (.text text)).toList = '\'' :: (body ++ ['\'']) ∧
      body = Text.replaceAll ['\''] ['\\', '\''] (Text.replaceAll ['\\'] ['\\', '\\'] text.toList) ∧
      readBody body = some text.toList ∧
      (isOneLine body = true ↔ isOneLine text.toList = true) ∧
      (readLiteral (body ++ ['\'']) = some (text.toList, []) ↔ isOneLine text.toList = true)) ∧
    (key text = text ∧ (isIdentifier text.toList = true ∨
        ∃ front, isIdentifier front = true ∧ text.toList = front ++ ['\n']) ∨
      key text = literal (.text text) ∧ ¬ (isIdentifier text.toList = true ∨
        ∃ front, isIdentifier front = true ∧ text.toList = front ++ ['\n'])) ∧
    (readKey (key text).toList = some text.toList ↔ isOneLine text.toList = true) ∧
    ∀ other, key text = key other → text = other := by
  have hread := readBody_flatMap readBody_typeChar text.toList
  have hline := @isOneLine_flatMap_typeChar text.toList
  refine ⟨⟨text.toList.flatMap typeChar, by simp [literal, typeLiteral],
    flatMap_typeChar_eq_replaceAll text.toList, hread, hline, ?_⟩, ?_, readKey_key_iff text,
    fun other => key_inj.1⟩
  · rw [readLiteral_of_readBody hread, ← hline]
    simp
  · rw [← isBare_iff]
    by_cases hbare : isBare text.toList = true
    · exact .inl ⟨key_of_isBare hbare, hbare⟩
    · exact .inr ⟨if_neg hbare, hbare⟩

/-- A text with a line feed, whose literal is broken by it, and a name that is written bare with one. -/
theorem lineFeed_breaks_literal :
    (literal (.text "a\nb")).toList = "'a\nb'".toList ∧ readLiteral "a\nb'".toList = none ∧
      key "a\n" = "a\n" ∧ readKey "a\n".toList = none := by
  decide +kernel

end ApiBindings.TypeScript

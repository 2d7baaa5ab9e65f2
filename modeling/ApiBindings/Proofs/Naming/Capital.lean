import ApiBindings.Naming.Case
import ApiBindings.Proofs.Naming.Identifier
import ApiBindings.Proofs.Text.CaseMap

/-!
# Names in Pascal case

All of a name in Pascal case are letters and digits of ASCII, except perhaps what its first character
gives. Whether the name is an identifier, or can go on with one, is therefore settled by that character
alone (`isIdentifier_pascalCase_append_iff`, `isIdentifier_append_pascalCase_iff`).
-/

namespace ApiBindings.Naming

open Text (asciiCapitals capitalOf capitalized isAscii lowerOf markCode splitFirst upperOf)

/-! ## Capitals -/

section CapitalOf

variable {c : Char}

theorem isAscii_of_continues {text : List Char} (h : ∀ c ∈ text, continuesIdentifier c = true) :
    isAscii text = true :=
  List.all_eq_true.2 fun c hc => decide_eq_true (ascii_of_continues (h c hc))

/-- What a capital is like: up to the end of ASCII it is looked up, beyond it few are of ASCII at all. -/
theorem capitalOf_iff {holds : List Char → Bool} {allowed : Char → Bool}
    (hascii : ∀ n < 0x80, holds (capitalOf (.ofNat n)) = allowed (.ofNat n))
    (hlisted : ∀ n ∈ asciiCapitals, holds (capitalOf (.ofNat n)) = true)
    (hholds : ∀ text, holds text = true → isAscii text = true)
    (hallowed : ∀ c, allowed c = true → c.toNat < 0x80) :
    holds (capitalOf c) = true ↔ allowed c = true ∨ c.toNat ∈ asciiCapitals := by
  have hself : Char.ofNat c.toNat = c := Char.ofNat_toNat c
  have houtside : ∀ n ∈ asciiCapitals, 0x80 ≤ n := by
    decide
  by_cases hc : c.toNat < 0x80
  · have hsame := hascii c.toNat hc
    rw [hself] at hsame
    rw [hsame, or_iff_left fun h => absurd (houtside _ h) (by omega)]
  · rw [or_iff_right fun h => hc (hallowed c h)]
    constructor
    · exact fun h => Text.mem_asciiCapitals_of_isAscii (by omega) (hholds _ h)
    · intro h
      have hcapital := hlisted c.toNat h
      rwa [hself] at hcapital

theorem isIdentifier_capitalOf_iff :
    isIdentifier (capitalOf c) = true ↔ startsIdentifier c = true ∨ c.toNat ∈ asciiCapitals :=
  capitalOf_iff (by decide +kernel) (by decide +kernel)
    (fun _ h => isAscii_of_continues fun _ => continues_of_isIdentifier h)
    (fun _ h => ascii_of_continues (continues_of_starts h))

theorem continues_capitalOf_iff :
    (capitalOf c).all continuesIdentifier = true ↔
      continuesIdentifier c = true ∨ c.toNat ∈ asciiCapitals :=
  @capitalOf_iff c (List.all · continuesIdentifier) continuesIdentifier (by decide +kernel)
    (by decide +kernel) (fun _ h => isAscii_of_continues (List.all_eq_true.1 h))
    (fun _ h => ascii_of_continues h)

end CapitalOf

/-! ## Names -/

theorem pascalCase_eq (text : List Char) : pascalCase text = capitalized (camelCase text) := by
  rw [pascalCase]
  cases camelCase text <;> rfl

theorem exists_splitFirst_eq (c : Char) (rest : List Char) :
    ∃ more others, splitFirst (c :: rest) = (c :: more, others) ∧
      (c.toNat ≠ markCode → more = []) := by
  by_cases hc : c.toNat = markCode
  · cases rest with
    | nil => exact ⟨[], [], rfl, fun _ => rfl⟩
    | cons d rest => exact ⟨[d], rest, if_pos hc, fun h => absurd hc h⟩
  · exact ⟨[], rest, Text.splitFirst_cons hc rest, fun _ => rfl⟩

/-- A name begins with the capital of its first character. Letters and digits of ASCII follow, unless
this character is the mark, which belongs to the next one. -/
theorem exists_pascalCase_eq (c : Char) (rest : List Char) :
    ∃ tail, pascalCase (c :: rest) = capitalOf c ++ tail ∧
      (c.toNat ≠ markCode → ∀ d ∈ tail, isAlphanumeric d = true) := by
  obtain ⟨more, others, hsplit, hmore⟩ := exists_splitFirst_eq c rest
  obtain ⟨first, lowered, hlower⟩ := List.exists_cons_of_ne_nil (Text.lowerOf_ne_nil c)
  refine ⟨more.flatMap lowerOf ++ (foldSeparators false others).filter isAlphanumeric, ?_, ?_⟩
  · rw [pascalCase_eq, camelCase, hsplit]
    simp [capitalOf, hlower, capitalized]
  · intro hc d hd
    rw [hmore hc] at hd
    exact (List.mem_filter.1 hd).2

theorem ne_markCode {c : Char} (h : continuesIdentifier c = true ∨ c.toNat ∈ asciiCapitals) :
    c.toNat ≠ markCode := by
  have hlisted : markCode ∉ asciiCapitals := by
    decide
  rintro heq
  rcases h with hcontinues | hcapital
  · have hascii := ascii_of_continues hcontinues
    rw [heq] at hascii
    exact absurd hascii (by decide)
  · exact hlisted (heq ▸ hcapital)

/-- A name in Pascal case, with more behind it, is an identifier exactly if its first character begins
one or has a capital that is of ASCII. -/
theorem isIdentifier_pascalCase_append_iff (c : Char) (rest : List Char) {back : List Char}
    (hback : ∀ d ∈ back, continuesIdentifier d = true) :
    isIdentifier (pascalCase (c :: rest) ++ back) = true ↔
      startsIdentifier c = true ∨ c.toNat ∈ asciiCapitals := by
  obtain ⟨tail, heq, htail⟩ := exists_pascalCase_eq c rest
  rw [heq, List.append_assoc, isIdentifier_append (Text.capitalOf_ne_nil c), isIdentifier_capitalOf_iff]
  refine and_iff_left_of_imp fun h => List.all_eq_true.2 fun d hd => ?_
  rcases List.mem_append.1 hd with hd | hd
  · exact continues_of_isAlphanumeric (htail (ne_markCode (h.imp_left continues_of_starts)) d hd)
  · exact hback d hd

/-- An identifier with a name in Pascal case behind it is one exactly if the first character of the name
goes on with an identifier or has a capital that is of ASCII. -/
theorem isIdentifier_append_pascalCase_iff {front : List Char} (hfront : isIdentifier front = true)
    (text : List Char) :
    isIdentifier (front ++ pascalCase text) = true ↔
      ∀ c ∈ text.head?, continuesIdentifier c = true ∨ c.toNat ∈ asciiCapitals := by
  have hne : front ≠ [] := by
    rintro rfl
    cases hfront
  rw [isIdentifier_append hne, and_iff_right hfront]
  cases text with
  | nil => simp
  | cons c rest =>
    obtain ⟨tail, heq, htail⟩ := exists_pascalCase_eq c rest
    rw [heq, List.all_append, Bool.and_eq_true, continues_capitalOf_iff]
    simp only [List.head?_cons, Option.mem_def, Option.some.injEq, forall_eq']
    refine and_iff_left_of_imp fun h => List.all_eq_true.2 fun d hd => ?_
    exact continues_of_isAlphanumeric (htail (ne_markCode h) d hd)

end ApiBindings.Naming

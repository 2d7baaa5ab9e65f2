import ApiBindings.Proofs.Text.Pieces
import ApiBindings.TypeScript.Literal

/-!
# Reading literals

What a quoted literal stands for: `readLiteral` reads behind the opening quote up to the closing one and
undoes the escapes. A literal ends on the line on which it begins. Reading inverts the writing of literal
types (`readLiteral_typeLiteral`) and of literals in code (`readLiteral_codeLiteral`): what stands between
the quotes always reads back as the text (`readBody_flatMap`), so a literal fails only by its lines
(`codeString_faithful`).
-/

namespace ApiBindings.TypeScript

/-- Whether a text stands on one line. -/
def isOneLine (text : List Char) : Bool :=
  text.all fun c => c ≠ '\n' && c ≠ '\r'

/-- The character that a backslash and a character stand for. -/
def unescape? : Char → Option Char
  | '\\' => some '\\'
  | '\'' => some '\''
  | 'n' => some '\n'
  | 'r' => some '\r'
  | _ => none

/-- What a literal holds whose opening quote has been read, and what follows its closing quote. -/
def readLiteral : List Char → Option (List Char × List Char)
  | [] => none
  | '\'' :: rest => some ([], rest)
  | '\\' :: c :: rest =>
    match unescape? c with
    | some first => (readLiteral rest).map fun read => (first :: read.1, read.2)
    | none => none
  | c :: rest =>
    if c = '\\' ∨ c = '\n' ∨ c = '\r' then none
    else (readLiteral rest).map fun read => (c :: read.1, read.2)

/-- What the characters between the quotes of a literal stand for, on however many lines they are: each
escape for its character, any other character for itself. There is nothing to read if an apostrophe
among them is not escaped, or if a backslash begins no escape. -/
def readBody : List Char → Option (List Char)
  | [] => some []
  | '\'' :: _ => none
  | '\\' :: c :: rest =>
    match unescape? c with
    | some first => (readBody rest).map (first :: ·)
    | none => none
  | c :: rest => if c = '\\' then none else (readBody rest).map (c :: ·)

theorem isOneLine_cons {c : Char} {text : List Char} :
    isOneLine (c :: text) = true ↔ (c ≠ '\n' ∧ c ≠ '\r') ∧ isOneLine text = true := by
  simp [isOneLine]

theorem length_lt_of_readLiteral {text value rest : List Char}
    (h : readLiteral text = some (value, rest)) : rest.length < text.length := by
  fun_induction readLiteral text generalizing value rest with
  | case1 => cases h
  | case2 tail =>
    cases h
    exact Nat.lt_succ_self _
  | case3 c tail first hfirst ih =>
    obtain ⟨⟨inner, after⟩, hinner, hpair⟩ := Option.map_eq_some_iff.1 h
    cases hpair
    have hlt := ih hinner
    simp only [List.length_cons]
    omega
  | case4 => cases h
  | case5 => cases h
  | case6 c tail _ _ _ ih =>
    obtain ⟨⟨inner, after⟩, hinner, hpair⟩ := Option.map_eq_some_iff.1 h
    cases hpair
    have hlt := ih hinner
    simp only [List.length_cons]
    omega

/-! ## Between the quotes -/

theorem readBody_cons {c : Char} (hquote : c ≠ '\'') (hescape : c ≠ '\\') (rest : List Char) :
    readBody (c :: rest) = (readBody rest).map (c :: ·) := by
  rw [readBody.eq_4 c rest hquote fun d tail heq => absurd heq hescape, if_neg hescape]

/-- A character of a literal is read back whether it is escaped or not. -/
theorem readBody_typeChar (c : Char) (rest : List Char) :
    readBody (typeChar c ++ rest) = (readBody rest).map (c :: ·) := by
  by_cases hescaped : c = '\\' ∨ c = '\''
  · have hchar : unescape? c = some c := by
      rcases hescaped with rfl | rfl <;> rfl
    rw [typeChar, if_pos hescaped, List.cons_append, List.cons_append, List.nil_append, readBody,
      hchar]
  · obtain ⟨hbackslash, hquote⟩ := not_or.1 hescaped
    rw [typeChar, if_neg hescaped]
    exact readBody_cons hquote hbackslash rest

theorem readBody_codeChar (c : Char) (rest : List Char) :
    readBody (codeChar c ++ rest) = (readBody rest).map (c :: ·) := by
  by_cases hline : c = '\n'
  · rw [codeChar, if_pos hline, hline]
    rfl
  · rw [codeChar, if_neg hline]
    exact readBody_typeChar c rest

/-- A text is read back if each of its characters is. -/
theorem readBody_flatMap {write : Char → List Char}
    (h : ∀ c rest, readBody (write c ++ rest) = (readBody rest).map (c :: ·)) (text : List Char) :
    readBody (text.flatMap write) = some text := by
  induction text with
  | nil => rfl
  | cons c text ih =>
    rw [List.flatMap_cons, h, ih]
    rfl

/-! ## Lines -/

theorem ne_lineEnd_of_unescape? {c first : Char} (h : unescape? c = some first) :
    c ≠ '\n' ∧ c ≠ '\r' := by
  constructor <;> rintro rfl <;> simp [unescape?] at h

theorem isOneLine_cons_eq {c : Char} (hc : c ≠ '\n' ∧ c ≠ '\r') (text : List Char) :
    isOneLine (c :: text) = isOneLine text := by
  simp [isOneLine, hc]

/-- A literal is read up to its closing quote as long as it stays on its line. -/
theorem readLiteral_of_readBody {body text : List Char} (h : readBody body = some text)
    (rest : List Char) :
    readLiteral (body ++ '\'' :: rest) = if isOneLine body then some (text, rest) else none := by
  fun_induction readBody body generalizing text with
  | case1 =>
    cases h
    rfl
  | case2 => cases h
  | case3 c body first hfirst ih =>
    obtain ⟨inner, hinner, rfl⟩ := Option.map_eq_some_iff.1 h
    have hread : readLiteral ('\\' :: c :: (body ++ '\'' :: rest)) =
        (readLiteral (body ++ '\'' :: rest)).map fun read => (first :: read.1, read.2) := by
      rw [readLiteral, hfirst]
    rw [List.cons_append, List.cons_append, hread, ih hinner, apply_ite (Option.map _),
      isOneLine_cons_eq (by decide), isOneLine_cons_eq (ne_lineEnd_of_unescape? hfirst)]
    rfl
  | case4 => cases h
  | case5 => cases h
  | case6 c body hquote hescape hne ih =>
    obtain ⟨inner, hinner, rfl⟩ := Option.map_eq_some_iff.1 h
    rw [List.cons_append, readLiteral.eq_4 c _ hquote fun d tail heq => absurd heq hne, ih hinner]
    by_cases hline : c = '\n' ∨ c = '\r'
    · have hone : ¬ isOneLine (c :: body) = true := fun hone =>
        not_or.2 (isOneLine_cons.1 hone).1 hline
      rw [if_pos (.inr hline), if_neg hone]
    · rw [if_neg (not_or.2 ⟨hne, hline⟩), apply_ite (Option.map _),
        isOneLine_cons_eq (not_or.1 hline)]
      rfl

theorem isOneLine_iff {text : List Char} : isOneLine text = true ↔ '\n' ∉ text ∧ '\r' ∉ text := by
  simp only [isOneLine, List.all_eq_true, Bool.and_eq_true, decide_eq_true_eq]
  constructor
  · intro h
    exact ⟨fun hmem => (h _ hmem).1 rfl, fun hmem => (h _ hmem).2 rfl⟩
  · rintro ⟨hfeed, hreturn⟩ c hc
    exact ⟨fun heq => hfeed (heq ▸ hc), fun heq => hreturn (heq ▸ hc)⟩

theorem mem_typeChar {c d : Char} (h : d ∈ typeChar c) : d = c ∨ d = '\\' := by
  unfold typeChar at h
  split at h
  · simpa [or_comm] using h
  · exact .inl (List.mem_singleton.1 h)

theorem mem_codeChar {c d : Char} (h : d ∈ codeChar c) :
    (d = c ∧ c ≠ '\n') ∨ d = '\\' ∨ d = 'n' := by
  unfold codeChar at h
  split at h
  · exact .inr (by simpa using h)
  · next hline => exact (mem_typeChar h).imp (fun heq => ⟨heq, hline⟩) .inl

theorem self_mem_typeChar (c : Char) : c ∈ typeChar c := by
  unfold typeChar
  split <;> simp

theorem mem_flatMap_typeChar {text : List Char} {d : Char} (hd : d ≠ '\\') :
    d ∈ text.flatMap typeChar ↔ d ∈ text := by
  constructor
  · intro h
    obtain ⟨c, hmem, hc⟩ := List.mem_flatMap.1 h
    rcases mem_typeChar hc with rfl | heq
    · exact hmem
    · exact absurd heq hd
  · exact fun h => List.mem_flatMap.2 ⟨d, h, self_mem_typeChar d⟩

/-- Escaping quotes and backslashes leaves a text on the lines on which it was. -/
theorem isOneLine_flatMap_typeChar {text : List Char} :
    isOneLine (text.flatMap typeChar) = true ↔ isOneLine text = true := by
  rw [isOneLine_iff, isOneLine_iff, mem_flatMap_typeChar (by decide), mem_flatMap_typeChar (by decide)]

theorem lineFeed_notMem_flatMap_codeChar (text : List Char) : '\n' ∉ text.flatMap codeChar := by
  intro h
  obtain ⟨c, -, hc⟩ := List.mem_flatMap.1 h
  rcases mem_codeChar hc with ⟨rfl, hne⟩ | heq | heq
  · exact hne rfl
  · exact absurd heq (by decide)
  · exact absurd heq (by decide)

/-- A carriage return of a text is written as it is. -/
theorem carriageReturn_mem_flatMap_codeChar {text : List Char} :
    '\r' ∈ text.flatMap codeChar ↔ '\r' ∈ text := by
  constructor
  · intro h
    obtain ⟨c, hmem, hc⟩ := List.mem_flatMap.1 h
    rcases mem_codeChar hc with ⟨rfl, -⟩ | heq | heq
    · exact hmem
    · exact absurd heq (by decide)
    · exact absurd heq (by decide)
  · exact fun h => List.mem_flatMap.2 ⟨'\r', h, by decide⟩

theorem isOneLine_flatMap_codeChar_iff {text : List Char} :
    isOneLine (text.flatMap codeChar) = true ↔ '\r' ∉ text := by
  rw [isOneLine_iff, carriageReturn_mem_flatMap_codeChar]
  exact and_iff_right (lineFeed_notMem_flatMap_codeChar text)

/-! ## Whole literals -/

/-- Reading a literal gives the text that was written, and stops behind its closing quote. -/
theorem readLiteral_typeLiteral {text : List Char} (hline : isOneLine text = true)
    (rest : List Char) :
    readLiteral (text.flatMap typeChar ++ '\'' :: rest) = some (text, rest) := by
  rw [readLiteral_of_readBody (readBody_flatMap readBody_typeChar text),
    if_pos (isOneLine_flatMap_typeChar.2 hline)]

/-- A literal of code may hold line feeds, but a carriage return is written as it is. -/
theorem readLiteral_codeLiteral {text : List Char} (h : '\r' ∉ text) (rest : List Char) :
    readLiteral (text.flatMap codeChar ++ '\'' :: rest) = some (text, rest) := by
  rw [readLiteral_of_readBody (readBody_flatMap readBody_codeChar text),
    if_pos (isOneLine_flatMap_codeChar_iff.2 h)]

/-- Escaping character by character is replacing backslashes and then apostrophes. -/
theorem flatMap_typeChar_eq_replaceAll (text : List Char) :
    text.flatMap typeChar =
      Text.replaceAll ['\''] ['\\', '\''] (Text.replaceAll ['\\'] ['\\', '\\'] text) := by
  simp only [Text.replaceAll_singleton, List.flatMap_assoc]
  refine congrArg List.flatten (List.map_congr_left fun c _ => ?_)
  by_cases hbackslash : c = '\\'
  · rw [hbackslash]
    rfl
  · by_cases hquote : c = '\''
    · rw [hquote]
      rfl
    · simp [typeChar, hbackslash, hquote]

/-- Escaping character by character is replacing backslashes, then apostrophes, then line feeds: none
of these is put in after its own turn, and backslashes are put in only after theirs. -/
theorem flatMap_codeChar_eq_replaceAll (text : List Char) :
    text.flatMap codeChar =
      Text.replaceAll ['\n'] ['\\', 'n'] (Text.replaceAll ['\''] ['\\', '\'']
        (Text.replaceAll ['\\'] ['\\', '\\'] text)) := by
  rw [← flatMap_typeChar_eq_replaceAll, Text.replaceAll_singleton, List.flatMap_assoc]
  refine congrArg List.flatten (List.map_congr_left fun c _ => ?_)
  by_cases hline : c = '\n'
  · rw [hline]
    rfl
  · by_cases hescaped : c = '\\' ∨ c = '\''
    · rcases hescaped with rfl | rfl <;> rfl
    · simp [codeChar, typeChar, hline, hescaped]

/-- **Literals in code.** A text becomes a literal between two apostrophes, in which backslashes,
apostrophes and line feeds are replaced one after the other. What stands between the apostrophes has no
apostrophe that is not escaped and no line feed, and reads back as the text. It stays on its line, and is
read as a literal up to the closing apostrophe, exactly if the text has no carriage return. -/
theorem codeString_faithful (text : String) :
    ∃ body, (codeString text).toList = '\'' :: (body ++ ['\'']) ∧
      body = Text.replaceAll ['\n'] ['\\', 'n'] (Text.replaceAll ['\''] ['\\', '\'']
        (Text.replaceAll ['\\'] ['\\', '\\'] text.toList)) ∧
      readBody body = some text.toList ∧
      '\n' ∉ body ∧
      (isOneLine body = true ↔ '\r' ∉ text.toList) ∧
      (readLiteral (body ++ ['\'']) = some (text.toList, []) ↔ '\r' ∉ text.toList) := by
  have hread := readBody_flatMap readBody_codeChar text.toList
  have hline := @isOneLine_flatMap_codeChar_iff text.toList
  refine ⟨text.toList.flatMap codeChar, by simp [codeString, codeLiteral],
    flatMap_codeChar_eq_replaceAll text.toList, hread,
    lineFeed_notMem_flatMap_codeChar text.toList, hline, ?_⟩
  rw [readLiteral_of_readBody hread, ← hline]
  simp

/-- A text whose literal is broken by the end of a line. -/
theorem carriageReturn_breaks_literal :
    (codeString "a\rb").toList = "'a\rb'".toList ∧ readLiteral "a\rb'".toList = none := by
  decide +kernel

end ApiBindings.TypeScript

import Mathlib.Data.List.Infix

/-!
# Texts in pieces

Cutting a text at every occurrence of a pattern, and putting something else into the gaps. Pieces that
are put together with a pattern between them are found again if the pattern occurs in none of them
(`pieces_intercalate`), as long as the pattern has no border: then it cannot reach from a piece into an
occurrence between two pieces.
-/

namespace ApiBindings.Text

/-- The pieces of a text around the occurrences of a pattern, which is not empty. The first `skipped`
characters belong to an occurrence that has been found. -/
def piecesFrom (pattern : List Char) : Nat → List Char → List (List Char)
  | _, [] => [[]]
  | skipped + 1, _ :: rest => piecesFrom pattern skipped rest
  | 0, c :: rest =>
    if pattern <+: c :: rest then [] :: piecesFrom pattern (pattern.length - 1) rest
    else (piecesFrom pattern 0 rest).modifyHead (c :: ·)

/-- The pieces of a text around the occurrences of a pattern, from left to right. -/
def pieces (pattern text : List Char) : List (List Char) :=
  piecesFrom pattern 0 text

/-- The text with every occurrence of a pattern replaced, from left to right. -/
def replaceAll (pattern replacement text : List Char) : List Char :=
  replacement.intercalate (pieces pattern text)

/-- Whether a pattern neither begins nor ends with an end or a beginning of its own. -/
def IsUnbordered (pattern : List Char) : Prop :=
  ∀ border, border <+: pattern → border <:+ pattern → border = [] ∨ border = pattern

/-! ## Ends -/

theorem dropPrefix?_append {α : Type} [BEq α] [ReflBEq α] (front rest : List α) :
    (front ++ rest).dropPrefix? front = some rest :=
  List.dropPrefix?_append_of_beq rest (beq_self_eq_true front)

theorem dropSuffix?_append {α : Type} [BEq α] [ReflBEq α] (rest back : List α) :
    (rest ++ back).dropSuffix? back = some rest :=
  List.dropSuffix?_eq_some_iff.2 ⟨back, rfl, beq_self_eq_true back⟩

/-! ## Around a single character -/

theorem notMem_of_mem_splitOn {α : Type} [DecidableEq α] {a : α} {items piece : List α}
    (h : piece ∈ items.splitOn a) : a ∉ piece := by
  induction items generalizing piece with
  | nil =>
    rw [List.splitOn_nil, List.mem_singleton] at h
    rw [h]
    exact List.not_mem_nil
  | cons item items ih =>
    rw [List.splitOn_cons_eq_if_modifyHead] at h
    split at h
    · rcases List.mem_cons.1 h with rfl | hrest
      · exact List.not_mem_nil
      · exact ih hrest
    · next hne =>
      cases hsplit : items.splitOn a with
      | nil => exact absurd hsplit (List.splitOn_ne_nil a items)
      | cons first others =>
        rw [hsplit, List.modifyHead_cons] at h
        rw [hsplit] at ih
        rcases List.mem_cons.1 h with rfl | hrest
        · have hitem : item ≠ a := by simpa using hne
          exact List.not_mem_cons_of_ne_of_not_mem (Ne.symm hitem) (ih List.mem_cons_self)
        · exact ih (List.mem_cons_of_mem first hrest)

/-! ## Borders -/

/-- A pattern whose last character stands nowhere else in it has no border. -/
theorem isUnbordered_concat {body : List Char} {last : Char} (h : last ∉ body) :
    IsUnbordered (body ++ [last]) := by
  intro border hprefix hsuffix
  rcases List.eq_nil_or_concat' border with rfl | ⟨init, c, rfl⟩
  · exact .inl rfl
  · obtain ⟨front, hfront⟩ := hsuffix
    rw [← List.append_assoc] at hfront
    obtain ⟨-, hlast⟩ := List.append_inj' hfront rfl
    cases hlast
    rcases List.prefix_concat_iff.1 hprefix with heq | hbody
    · exact .inr heq
    · exact absurd (hbody.subset (by simp)) h

section Unbordered

variable {pattern : List Char} (hborder : IsUnbordered pattern)

include hborder

/-- A pattern that begins in a piece and goes on into what follows lies in the piece. -/
theorem begins_piece {piece rest : List Char} (hpiece : piece ≠ [])
    (hrest : rest = [] ∨ pattern <+: rest) (h : pattern <+: piece ++ rest) : pattern <+: piece := by
  -- What reached beyond the piece would begin the pattern that follows, and end the one that began.
  rcases List.prefix_or_prefix_of_prefix h (List.prefix_append piece rest) with hwithin | hbeyond
  · exact hwithin
  · obtain ⟨border, rfl⟩ := hbeyond
    have hborderRest : border <+: rest := (List.prefix_append_right_inj piece).1 h
    have hempty : border = [] := by
      rcases hrest with rfl | hpattern
      · exact List.prefix_nil.1 hborderRest
      · have hbegins : border <+: piece ++ border :=
          List.prefix_of_prefix_length_le hborderRest hpattern (by simp)
        refine (hborder border hbegins (List.suffix_append piece border)).resolve_right fun heq => ?_
        exact hpiece (List.append_left_eq_self.1 heq.symm)
    rw [hempty, List.append_nil]

end Unbordered

/-! ## Cutting -/

theorem piecesFrom_append (pattern : List Char) (skipped rest : List Char) :
    piecesFrom pattern skipped.length (skipped ++ rest) = pieces pattern rest := by
  induction skipped with
  | nil => rfl
  | cons c skipped ih => exact ih

theorem pieces_append_self {pattern : List Char} (hne : pattern ≠ []) (rest : List Char) :
    pieces pattern (pattern ++ rest) = [] :: pieces pattern rest := by
  cases pattern with
  | nil => exact absurd rfl hne
  | cons c body =>
    have hbegins : c :: body <+: c :: (body ++ rest) := List.prefix_append (c :: body) rest
    rw [pieces, List.cons_append, piecesFrom, if_pos hbegins]
    exact congrArg _ (piecesFrom_append (c :: body) body rest)

theorem pieces_cons {pattern : List Char} {c : Char} {rest : List Char}
    (h : ¬ pattern <+: c :: rest) :
    pieces pattern (c :: rest) = (pieces pattern rest).modifyHead (c :: ·) := by
  rw [pieces, piecesFrom, if_neg h]
  rfl

theorem pieces_piece_append {pattern : List Char} (hborder : IsUnbordered pattern)
    {piece rest : List Char} (hpiece : ¬ pattern <:+: piece) (hrest : rest = [] ∨ pattern <+: rest) :
    pieces pattern (piece ++ rest) = (pieces pattern rest).modifyHead (piece ++ ·) := by
  induction piece with
  | nil => exact congrFun List.modifyHead_id.symm (pieces pattern rest)
  | cons c piece ih =>
    have hbegins : ¬ pattern <+: c :: (piece ++ rest) := fun h =>
      hpiece (begins_piece hborder (List.cons_ne_nil c piece) hrest h).isInfix
    rw [List.cons_append, pieces_cons hbegins, ih fun h => hpiece (h.trans (List.suffix_cons c _).isInfix),
      List.modifyHead_modifyHead]
    rfl

/-- Pieces in which a pattern does not occur are found again when it is put between them. -/
theorem pieces_intercalate {pattern : List Char} (hne : pattern ≠ [])
    (hborder : IsUnbordered pattern) {parts : List (List Char)} (hparts : parts ≠ [])
    (h : ∀ piece ∈ parts, ¬ pattern <:+: piece) :
    pieces pattern (pattern.intercalate parts) = parts := by
  induction parts with
  | nil => exact absurd rfl hparts
  | cons piece parts ih =>
    obtain ⟨hpiece, hrest⟩ := List.forall_mem_cons.1 h
    cases parts with
    | nil =>
      have hsingle := pieces_piece_append hborder hpiece (.inl rfl)
      rw [List.append_nil] at hsingle
      rw [List.intercalate_singleton, hsingle]
      exact congrArg (fun text => [text]) (List.append_nil piece)
    | cons next parts =>
      rw [List.intercalate_cons_cons, List.append_assoc,
        pieces_piece_append hborder hpiece (.inr (List.prefix_append _ _)),
        pieces_append_self hne, ih (List.cons_ne_nil _ _) hrest]
      exact congrArg (· :: next :: parts) (List.append_nil piece)

/-! ## Replacing -/

theorem pieces_ne_nil (pattern text : List Char) : pieces pattern text ≠ [] := by
  unfold pieces
  fun_induction piecesFrom pattern 0 text with
  | case1 => exact List.cons_ne_nil _ _
  | case2 _ _ _ ih => exact ih
  | case3 => exact List.cons_ne_nil _ _
  | case4 c rest _ ih => simpa using ih

@[simp] theorem replaceAll_nil (pattern replacement : List Char) :
    replaceAll pattern replacement [] = [] := by
  simp [replaceAll, pieces, piecesFrom]

theorem replaceAll_append_self {pattern : List Char} (hne : pattern ≠ [])
    (replacement rest : List Char) :
    replaceAll pattern replacement (pattern ++ rest) =
      replacement ++ replaceAll pattern replacement rest := by
  rw [replaceAll, pieces_append_self hne, List.intercalate_cons_of_ne_nil (pieces_ne_nil pattern rest)]
  rfl

theorem replaceAll_cons {pattern : List Char} {c : Char} {rest : List Char}
    (h : ¬ pattern <+: c :: rest) (replacement : List Char) :
    replaceAll pattern replacement (c :: rest) = c :: replaceAll pattern replacement rest := by
  rw [replaceAll, pieces_cons h, replaceAll]
  cases hpieces : pieces pattern rest with
  | nil => exact absurd hpieces (pieces_ne_nil pattern rest)
  | cons piece others =>
    cases others with
    | nil => simp
    | cons next others => simp [List.intercalate_cons_cons]

/-- Replacing a single character is done character by character. -/
theorem replaceAll_singleton (c : Char) (replacement text : List Char) :
    replaceAll [c] replacement text = text.flatMap fun d => if d = c then replacement else [d] := by
  induction text with
  | nil => simp
  | cons d rest ih =>
    rw [List.flatMap_cons, ← ih]
    split
    · next heq =>
      rw [heq]
      exact replaceAll_append_self (List.cons_ne_nil c []) replacement rest
    · next hne => exact replaceAll_cons (by simp [Ne.symm hne]) replacement

end ApiBindings.Text

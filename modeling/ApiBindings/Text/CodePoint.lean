import ApiBindings.Sorting

/-!
# Code points

A text may hold half of a surrogate pair, which an escape can write though it is no character. Such a
half is held as a character for private use, its stand-in; a character that is a stand-in itself is
held behind a mark. Main statement: reading back the code points of a text gives those it was made of.
-/

namespace ApiBindings.Text

/-- Whether a code point is half of a surrogate pair. -/
def isHalf (code : Nat) : Bool :=
  0xD800 ≤ code && code < 0xE000

/-- The distance from a half to its stand-in. -/
def standInShift : Nat := 0x100000

/-- The code point of the mark; the stand-ins follow it. -/
def markCode : Nat := 0x10D7FF

/-- Whether a code point is that of the mark or of a stand-in. -/
def isReserved (code : Nat) : Bool :=
  markCode ≤ code && code < 0x10E000

/-- The characters that hold a code point. -/
def ofCode (code : Nat) : List Char :=
  if isHalf code then [Char.ofNat (code + standInShift)]
  else if isReserved code then [Char.ofNat markCode, Char.ofNat code]
  else [Char.ofNat code]

/-- The text of code points. -/
def ofCodes (codes : List Nat) : List Char :=
  codes.flatMap ofCode

/-- The text that holds characters as they are. -/
def ofCharacters (characters : List Char) : List Char :=
  ofCodes (characters.map Char.toNat)

/-- The code point that a character holds without a mark in front of it. -/
def codeOf (c : Char) : Nat :=
  if isReserved c.toNat then c.toNat - standInShift else c.toNat

/-- The code points of a text. -/
def codes : List Char → List Nat
  | [] => []
  | [c] => [codeOf c]
  | c :: d :: rest =>
    if c.toNat = markCode then d.toNat :: codes rest else codeOf c :: codes (d :: rest)

/-- A text split behind its first code point. -/
def splitFirst : List Char → List Char × List Char
  | [] => ([], [])
  | [c] => ([c], [])
  | c :: d :: rest => if c.toNat = markCode then ([c, d], rest) else ([c], d :: rest)

/-- Whether a text holds half of a surrogate pair. -/
def hasHalf (text : List Char) : Bool :=
  (codes text).any isHalf

/-- Texts ordered by code points. -/
def precedes (a b : String) : Bool :=
  Sorting.lexicographic (fun m n => decide (m ≤ n)) (codes a.toList) (codes b.toList)

theorem isOrder_precedes : Sorting.IsOrder precedes := by
  have horder : Sorting.IsOrder fun m n : Nat => decide (m ≤ n) :=
    ⟨by simpa using Nat.le_total, by simpa using fun _ _ _ => Nat.le_trans⟩
  exact horder.lexicographic.comap fun text : String => codes text.toList

theorem toNat_ofNat {code : Nat} (hcode : code < 0x110000) (hhalf : isHalf code = false) :
    (Char.ofNat code).toNat = code := by
  have hvalid : code.isValidChar := by
    simp only [isHalf, Bool.and_eq_false_iff, decide_eq_false_iff_not] at hhalf
    unfold Nat.isValidChar
    omega
  rw [Char.ofNat, dif_pos hvalid]
  rfl

theorem codes_cons {c : Char} (hc : c.toNat ≠ markCode) (text : List Char) :
    codes (c :: text) = codeOf c :: codes text := by
  cases text with
  | nil => rfl
  | cons d rest => simp [codes, hc]

theorem splitFirst_append (text : List Char) : (splitFirst text).1 ++ (splitFirst text).2 = text := by
  fun_cases splitFirst text <;> simp_all

theorem splitFirst_cons {c : Char} (hc : c.toNat ≠ markCode) (text : List Char) :
    splitFirst (c :: text) = ([c], text) := by
  cases text with
  | nil => rfl
  | cons d rest => simp [splitFirst, hc]

theorem isHalf_iff {code : Nat} : isHalf code = true ↔ 0xD800 ≤ code ∧ code < 0xE000 := by
  simp [isHalf]

theorem isReserved_iff {code : Nat} :
    isReserved code = true ↔ markCode ≤ code ∧ code < 0x10E000 := by
  simp [isReserved]

theorem codes_half {code : Nat} (hhalf : isHalf code = true) (text : List Char) :
    codes (Char.ofNat (code + standInShift) :: text) = code :: codes text := by
  have hbounds := isHalf_iff.1 hhalf
  have hshift : standInShift = 0x100000 := rfl
  have hmark : markCode = 0x10D7FF := rfl
  have hstand : (Char.ofNat (code + standInShift)).toNat = code + standInShift := by
    refine toNat_ofNat (by omega) (Bool.eq_false_iff.2 fun h => ?_)
    have := isHalf_iff.1 h
    omega
  have hreserved : isReserved (code + standInShift) = true := isReserved_iff.2 (by omega)
  rw [codes_cons (by omega), codeOf, hstand, if_pos hreserved, Nat.add_sub_cancel]

theorem codes_ofCode_append {code : Nat} (hcode : code < 0x110000) (text : List Char) :
    codes (ofCode code ++ text) = code :: codes text := by
  by_cases hhalf : isHalf code = true
  · simp only [ofCode, hhalf, if_true, List.singleton_append, codes_half hhalf]
  · have hself := toNat_ofNat hcode (Bool.eq_false_iff.2 hhalf)
    by_cases hreserved : isReserved code = true
    · have hmark : (Char.ofNat markCode).toNat = markCode := toNat_ofNat (by decide) (by decide)
      simp [ofCode, hhalf, hreserved, codes, hmark, hself]
    · have hne : (Char.ofNat code).toNat ≠ markCode := by
        rw [hself]
        rintro rfl
        exact hreserved (by decide)
      simp [ofCode, hhalf, hreserved, codes_cons hne, codeOf, hself]

theorem codes_ofCodes {list : List Nat} (h : ∀ code ∈ list, code < 0x110000) :
    codes (ofCodes list) = list := by
  induction list with
  | nil => rfl
  | cons code rest ih =>
    rw [ofCodes, List.flatMap_cons, codes_ofCode_append (h code (by simp))]
    congr 1
    exact ih fun code hmem => h code (by simp [hmem])

end ApiBindings.Text

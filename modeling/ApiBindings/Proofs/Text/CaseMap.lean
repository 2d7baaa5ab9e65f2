import ApiBindings.Text.CaseMap
import ApiBindings.Text.CodePoint

/-!
# What case mapping gives

A character that case mapping changes becomes letters of ASCII and characters beyond ASCII, so that
signs, digits and blanks of ASCII only ever come from themselves. Of the characters beyond ASCII, twelve
are written as letters of ASCII where a word begins with a capital (`mem_asciiCapitals_of_isAscii`).
-/

namespace ApiBindings.Text

/-- Whether a character is a letter of ASCII or lies beyond ASCII. -/
def isCaseImage (c : Char) : Bool :=
  c.isAlpha || 0x80 ≤ c.toNat

/-! ## The tables -/

/-- Whether the characters that a run is mapped to all lie beyond ASCII, or the run is a single one of
the code points that are excepted. -/
def CaseRun.staysBeyond (excepted : List Nat) (run : CaseRun) : Bool :=
  (run.first = run.last && excepted.contains run.first) ||
    (0x80 ≤ run.first + run.offset && (run.last + run.offset < 0xD800 ||
      (0xE000 ≤ run.first + run.offset && run.last + run.offset < 0x110000)))

theorem CaseRun.mem_or_beyond_of_map? {excepted : List Nat} {run : CaseRun}
    (h : run.staysBeyond excepted = true) {code image : Nat} (hmap : run.map? code = some image) :
    code ∈ excepted ∨ (0x80 ≤ image ∧ (Char.ofNat image).toNat = image) := by
  unfold CaseRun.map? at hmap
  split at hmap
  · next hcode =>
    cases hmap
    simp only [staysBeyond, Bool.or_eq_true, Bool.and_eq_true, decide_eq_true_eq,
      List.contains_iff_mem] at h
    rcases h with ⟨hsingle, hexcepted⟩ | hbounds
    · have heq : code = run.first := by omega
      exact .inl (heq ▸ hexcepted)
    · have hself : (Char.ofNat (code + run.offset).toNat).toNat = (code + run.offset).toNat := by
        apply toNat_ofNat
        · omega
        · rw [Bool.eq_false_iff, Ne, isHalf_iff]
          omega
      exact .inr ⟨by omega, hself⟩
  · cases hmap

/-- Only one code point is mapped to a given one by a run. -/
theorem CaseRun.eq_of_map? {run : CaseRun} {code image : Nat} (himage : image ≠ 0)
    (hmap : run.map? code = some image) : code = (image - run.offset).toNat := by
  unfold CaseRun.map? at hmap
  split at hmap
  · cases hmap
    omega
  · cases hmap

/-- A character is mapped to several by the first table, or to one by the second, or to itself. -/
theorem mapCase_cases (expansions : List (Nat × List Nat)) (runs : List CaseRun) (c : Char) :
    (∃ entry ∈ expansions, entry.1 = c.toNat ∧
      mapCase expansions runs c = entry.2.map Char.ofNat) ∨
    (∃ run ∈ runs, ∃ image, run.map? c.toNat = some image ∧
      mapCase expansions runs c = [Char.ofNat image]) ∨
    mapCase expansions runs c = [c] := by
  unfold mapCase
  split
  · next codes hlookup =>
    obtain ⟨before, after, hentries, -⟩ := List.lookup_eq_some_iff.1 hlookup
    exact .inl ⟨(c.toNat, codes), by simp [hentries], rfl, rfl⟩
  · split
    · next image himage =>
      obtain ⟨run, hrun, hmap⟩ := List.exists_of_findSome?_eq_some himage
      exact .inr (.inl ⟨run, hrun, image, hmap, rfl⟩)
    · exact .inr (.inr rfl)

/-- The code points beyond ASCII that a run maps to a letter of ASCII in upper case. -/
def upperExcepted : List Nat := [0x131, 0x17F]

/-- The code points beyond ASCII that a run maps to a letter of ASCII in lower case. -/
def lowerExcepted : List Nat := [0x212A]

/-- What holds of the tables of a case mapping: each character becomes letters of ASCII or characters beyond
ASCII, and only those from the excepted code points are not beyond it. -/
structure AreSound (expansions : List (Nat × List Nat)) (runs : List CaseRun) (excepted : List Nat) :
    Prop where
  expansion_ne_nil : ∀ entry ∈ expansions, entry.2 ≠ []
  expansion : ∀ entry ∈ expansions, ∀ code ∈ entry.2, isCaseImage (.ofNat code) = true
  run : ∀ run ∈ runs, run.staysBeyond excepted = true
  exception : ∀ run ∈ runs, ∀ code ∈ excepted, ∀ image ∈ run.map? code,
    isCaseImage (.ofNat image) = true

theorem areSound_upper : AreSound upperExpansions upperRuns upperExcepted where
  expansion_ne_nil := by decide +kernel
  expansion := by decide +kernel
  run := by decide +kernel
  exception := by decide +kernel

theorem areSound_lower : AreSound lowerExpansions lowerRuns lowerExcepted where
  expansion_ne_nil := by decide +kernel
  expansion := by decide +kernel
  run := by decide +kernel
  exception := by decide +kernel

section AreSound

variable {expansions : List (Nat × List Nat)} {runs : List CaseRun} {excepted : List Nat}
  (hsound : AreSound expansions runs excepted)

include hsound

theorem AreSound.isCaseImage_of_mem {c d : Char} (hc : 0x80 ≤ c.toNat) (h : d ∈ mapCase expansions runs c) :
    isCaseImage d = true := by
  have hbeyond : ∀ e : Char, 0x80 ≤ e.toNat → isCaseImage e = true := by
    intro e he
    simp [isCaseImage, he]
  rcases mapCase_cases expansions runs c with
    ⟨entry, hentry, -, hmap⟩ | ⟨run, hrun, image, himage, hmap⟩ |
    hmap
  · rw [hmap] at h
    obtain ⟨code, hcode, rfl⟩ := List.mem_map.1 h
    exact hsound.expansion entry hentry code hcode
  · rw [hmap, List.mem_singleton] at h
    rw [h]
    rcases CaseRun.mem_or_beyond_of_map? (hsound.run run hrun) himage with hmem | ⟨hout, hself⟩
    · exact hsound.exception run hrun c.toNat hmem image himage
    · exact hbeyond _ (by omega)
  · rw [hmap, List.mem_singleton] at h
    rw [h]
    exact hbeyond c hc

theorem AreSound.mapCase_ne_nil (c : Char) : mapCase expansions runs c ≠ [] := by
  rcases mapCase_cases expansions runs c with ⟨entry, hentry, -, hmap⟩ | ⟨run, -, image, -, hmap⟩ | hmap
  · rw [hmap, ne_eq, List.map_eq_nil_iff]
    exact hsound.expansion_ne_nil entry hentry
  · rw [hmap]
    exact List.cons_ne_nil _ _
  · rw [hmap]
    exact List.cons_ne_nil _ _

end AreSound

/-! ## Letters and signs -/

theorem ascii_case {c : Char} (hc : c.toNat < 0x80) :
    (c.toUpper = c ∨ isCaseImage c.toUpper = true) ∧
      (c.toLower = c ∨ isCaseImage c.toLower = true) := by
  have hall : ∀ n < 0x80, ((Char.ofNat n).toUpper = .ofNat n ∨
      isCaseImage (Char.ofNat n).toUpper = true) ∧ ((Char.ofNat n).toLower = .ofNat n ∨
      isCaseImage (Char.ofNat n).toLower = true) := by
    decide
  have hself := hall c.toNat hc
  rwa [Char.ofNat_toNat] at hself

theorem mem_upperOf {c d : Char} (h : d ∈ upperOf c) : d = c ∨ isCaseImage d = true := by
  unfold upperOf at h
  split at h
  · next hc =>
    rw [List.mem_singleton.1 h]
    exact (ascii_case hc).1
  · exact .inr (areSound_upper.isCaseImage_of_mem (by omega) h)

theorem mem_lowerOf {c d : Char} (h : d ∈ lowerOf c) : d = c ∨ isCaseImage d = true := by
  unfold lowerOf at h
  split at h
  · next hc =>
    rw [List.mem_singleton.1 h]
    exact (ascii_case hc).2
  · exact .inr (areSound_lower.isCaseImage_of_mem (by omega) h)

/-! ## Capitals -/

/-- The text with its first character in upper case. -/
def capitalized : List Char → List Char
  | [] => []
  | c :: rest => upperOf c ++ rest

/-- A character in lower case, the first character of that in upper case again: what a text in Pascal
case begins with. -/
def capitalOf (c : Char) : List Char :=
  capitalized (lowerOf c)

theorem upperOf_ne_nil (c : Char) : upperOf c ≠ [] := by
  unfold upperOf
  split
  · exact List.cons_ne_nil _ _
  · exact areSound_upper.mapCase_ne_nil c

theorem lowerOf_ne_nil (c : Char) : lowerOf c ≠ [] := by
  unfold lowerOf
  split
  · exact List.cons_ne_nil _ _
  · exact areSound_lower.mapCase_ne_nil c

theorem capitalOf_ne_nil (c : Char) : capitalOf c ≠ [] := by
  obtain ⟨first, rest, hlower⟩ := List.exists_cons_of_ne_nil (lowerOf_ne_nil c)
  rw [capitalOf, hlower]
  exact List.append_ne_nil_of_left_ne_nil (upperOf_ne_nil first) rest

/-- The code points beyond ASCII whose capitals are letters of ASCII: sharp s, dotless i, long s, capital
sharp s, the Kelvin sign, and the seven Latin ligatures of f, i, l, s and t. -/
def asciiCapitals : List Nat :=
  [0xDF, 0x131, 0x17F, 0x1E9E, 0x212A, 0xFB00, 0xFB01, 0xFB02, 0xFB03, 0xFB04, 0xFB05, 0xFB06]

/-- Those of them that upper case alone makes letters of ASCII. -/
def asciiUppers : List Nat :=
  [0xDF, 0x131, 0x17F, 0xFB00, 0xFB01, 0xFB02, 0xFB03, 0xFB04, 0xFB05, 0xFB06]

/-- Whether all characters of a text are of ASCII. -/
def isAscii (text : List Char) : Bool :=
  text.all fun c => c.toNat < 0x80

theorem isAscii_singleton {c : Char} : isAscii [c] = true ↔ c.toNat < 0x80 := by
  simp [isAscii]

theorem mem_asciiUppers_of_isAscii {c : Char} (hc : 0x80 ≤ c.toNat) (h : isAscii (upperOf c) = true) :
    c.toNat ∈ asciiUppers := by
  have hexpansions : ∀ entry ∈ upperExpansions, isAscii (entry.2.map Char.ofNat) = true →
      entry.1 ∈ asciiUppers := by
    decide +kernel
  have hexcepted : upperExcepted ⊆ asciiUppers := by
    decide
  rw [upperOf, if_neg (by omega)] at h
  rcases mapCase_cases upperExpansions upperRuns c with ⟨entry, hentry, hcode, hmap⟩ |
    ⟨run, hrun, image, himage, hmap⟩ | hmap
  · rw [hmap] at h
    exact hcode ▸ hexpansions entry hentry h
  · rw [hmap, isAscii_singleton] at h
    rcases CaseRun.mem_or_beyond_of_map? (areSound_upper.run run hrun) himage with
      hmem | ⟨hbeyond, hself⟩
    · exact hexcepted hmem
    · omega
  · rw [hmap, isAscii_singleton] at h
    omega

theorem mem_asciiCapitals_of_isAscii {c : Char} (hc : 0x80 ≤ c.toNat)
    (h : isAscii (capitalOf c) = true) : c.toNat ∈ asciiCapitals := by
  have hexpansions : ∀ entry ∈ lowerExpansions,
      isAscii (capitalized (entry.2.map Char.ofNat)) = false := by
    decide +kernel
  have hexcepted : lowerExcepted ⊆ asciiCapitals := by
    decide
  have huppers : asciiUppers ⊆ asciiCapitals := by
    decide
  -- The only character whose lower case is another one of these is the capital sharp s.
  have hruns : ∀ run ∈ lowerRuns, ∀ code ∈ asciiUppers,
      run.map? (code - run.offset).toNat = some code → (code - run.offset).toNat ∈ asciiCapitals := by
    decide +kernel
  have hsingle : ∀ d, capitalized [d] = upperOf d := fun d => List.append_nil _
  rw [capitalOf, lowerOf, if_neg (by omega)] at h
  rcases mapCase_cases lowerExpansions lowerRuns c with ⟨entry, hentry, -, hmap⟩ |
    ⟨run, hrun, image, himage, hmap⟩ | hmap
  · rw [hmap, hexpansions entry hentry] at h
    cases h
  · rw [hmap, hsingle] at h
    rcases CaseRun.mem_or_beyond_of_map? (areSound_lower.run run hrun) himage with
      hmem | ⟨hbeyond, hself⟩
    · exact hexcepted hmem
    · have hupper := mem_asciiUppers_of_isAscii (by omega) h
      rw [hself] at hupper
      have hcode := CaseRun.eq_of_map? (by omega) himage
      rw [hcode] at himage ⊢
      exact hruns run hrun image hupper himage
  · rw [hmap, hsingle] at h
    exact huppers (mem_asciiUppers_of_isAscii hc h)

end ApiBindings.Text

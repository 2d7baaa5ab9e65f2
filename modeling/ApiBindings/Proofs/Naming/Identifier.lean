import ApiBindings.Naming.Identifier

/-!
# Characters of identifiers

An identifier is a beginning of one and characters that go on with it (`isIdentifier_append`), all of them
characters of ASCII.
-/

namespace ApiBindings.Naming

theorem continues_of_starts {c : Char} (h : startsIdentifier c = true) :
    continuesIdentifier c = true := by
  simp only [startsIdentifier, Bool.or_eq_true] at h
  rcases h with (h | h) | h <;> simp [continuesIdentifier, isAlphanumeric, Char.isAlphanum, h]

theorem continues_of_isIdentifier {text : List Char} {c : Char} (h : isIdentifier text = true)
    (hc : c ∈ text) : continuesIdentifier c = true := by
  cases text with
  | nil => cases hc
  | cons first rest =>
    simp only [isIdentifier, Bool.and_eq_true, List.all_eq_true] at h
    rcases List.mem_cons.1 hc with rfl | hrest
    · exact continues_of_starts h.1
    · exact h.2 c hrest

theorem isIdentifier_append {front : List Char} (h : front ≠ []) (back : List Char) :
    isIdentifier (front ++ back) = true ↔
      isIdentifier front = true ∧ back.all continuesIdentifier = true := by
  cases front with
  | nil => exact absurd rfl h
  | cons c rest => simp [isIdentifier, and_assoc]

theorem ascii_of_continues {c : Char} (h : continuesIdentifier c = true) : c.toNat < 0x80 := by
  have hkinds : isAlphanumeric c = (decide (c.val ≥ 'A'.val ∧ c.val ≤ 'Z'.val) ||
      (c.val ≥ 'a'.val && c.val ≤ 'z'.val) || (c.val ≥ '0'.val && c.val ≤ '9'.val)) := rfl
  simp only [continuesIdentifier, hkinds, Bool.or_eq_true, Bool.and_eq_true, decide_eq_true_eq,
    beq_iff_eq, ge_iff_le, UInt32.le_iff_toNat_le] at h
  rcases h with (hword | rfl) | rfl
  · have hself : c.toNat = c.val.toNat := rfl
    have hupper : 'Z'.val.toNat = 90 := rfl
    have hlower : 'z'.val.toNat = 122 := rfl
    have hdigit : '9'.val.toNat = 57 := rfl
    omega
  · decide
  · decide

theorem continues_of_isAlphanumeric {c : Char} (h : isAlphanumeric c = true) :
    continuesIdentifier c = true := by
  simp [continuesIdentifier, h]

end ApiBindings.Naming

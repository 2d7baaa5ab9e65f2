import ApiBindings.Proofs.Schema.References
import ApiBindings.Proofs.Schema.TypeText

/-!
# Types on one line

The text of a type has a line feed only where the schema has one: in the name of a property, in a text of an
enumeration, or in the name of a reference (`lineFeed_notMem_typeText`). What is not text is written without
any, numbers, days, times and bytes alike (`lineFeed_notMem_literal`).
-/

namespace ApiBindings

/-! ## Scalars -/

section

open TypeScript

theorem lineFeed_notMem_of_isDigits {text : List Char} (h : ∀ c ∈ text, c.isDigit = true) :
    '\n' ∉ text :=
  fun hmem => absurd (h _ hmem) (by decide)

theorem lineFeed_notMem_padded (width n : Nat) : '\n' ∉ (padded width n).toList := by
  rw [padded, String.toList_ofList]
  refine lineFeed_notMem_of_isDigits fun c hc => ?_
  rcases List.mem_append.1 hc with hc | hc
  · exact isDigit_of_mem_replicate hc
  · exact (isDigits_iff.1 (isDigits_toDigits n)).2 c hc

theorem lineFeed_notMem_date (date : Date) : '\n' ∉ date.text.toList := by
  simp [Date.text, ToString.toString, lineFeed_notMem_padded]

theorem lineFeed_notMem_offsetText (minutes : Int) : '\n' ∉ (Instant.offsetText minutes).toList := by
  unfold Instant.offsetText
  split <;> simp [ToString.toString, lineFeed_notMem_padded]

theorem lineFeed_notMem_instant (time : Instant) : '\n' ∉ time.text.toList := by
  have hfraction : '\n' ∉
      (if time.microsecond = 0 then "" else "." ++ padded 6 time.microsecond).toList := by
    split <;> simp [lineFeed_notMem_padded]
  have hzone : '\n' ∉ ((time.offset.map Instant.offsetText).getD "").toList := by
    cases time.offset with
    | none => simp
    | some minutes => exact lineFeed_notMem_offsetText minutes
  simp only [Instant.text]
  simp [ToString.toString, lineFeed_notMem_padded, lineFeed_notMem_date, hfraction, hzone]

theorem lineFeed_notMem_toDigits {base : Nat} (hbase : 1 < base) (n : Nat) :
    '\n' ∉ Nat.toDigits base n := by
  induction n using Nat.strongRecOn with
  | ind n ih =>
    rw [Nat.toDigits_eq_if hbase]
    split
    · simp
    · next hlt =>
      have hrest := ih (n / base) (Nat.div_lt_self (by omega) hbase)
      simp [hrest]

theorem lineFeed_notMem_numbered (code : Nat) : '\n' ∉ Text.numbered code := by
  have hhex : ∀ width, '\n' ∉ Text.hex width code := by
    intro width hmem
    rcases List.mem_append.1 hmem with hmem | hmem
    · exact absurd (List.eq_of_mem_replicate hmem) (by decide)
    · exact lineFeed_notMem_toDigits (by decide) code hmem
  unfold Text.numbered
  split_ifs <;> simp [hhex]

theorem lineFeed_notMem_quotedCode {quote : Char} (hquote : quote ≠ '\n') (code : Nat) :
    '\n' ∉ Text.quotedCode quote code := by
  simp only [Text.quotedCode]
  split
  · next hescape => rcases hescape with hescape | hescape <;> simp [hescape, hquote.symm]
  split
  · decide
  split
  · decide
  · next hline =>
    split
    · decide
    split
    · simpa using Ne.symm hline
    · exact lineFeed_notMem_numbered code

theorem quoteFor_ne_lineFeed (text : List Char) : Text.quoteFor text ≠ '\n' := by
  unfold Text.quoteFor
  split <;> decide

theorem lineFeed_notMem_quotedBytes (bytes : List UInt8) : '\n' ∉ Text.quotedBytes bytes := by
  have hquote := quoteFor_ne_lineFeed (bytes.map fun byte => Char.ofNat byte.toNat)
  simp only [Text.quotedBytes]
  generalize Text.quoteFor (bytes.map fun byte => Char.ofNat byte.toNat) = quote at hquote
  have hbytes : '\n' ∉ bytes.flatMap (Text.quotedByte quote) := by
    intro hmem
    obtain ⟨byte, -, hbyte⟩ := List.mem_flatMap.1 hmem
    unfold Text.quotedByte at hbyte
    split at hbyte
    · exact lineFeed_notMem_quotedCode hquote _ hbyte
    · exact lineFeed_notMem_numbered _ hbyte
  simp [hbytes, hquote.symm]

theorem lineFeed_notMem_of_isWord {text : String} (h : isWord text = true) : '\n' ∉ text.toList :=
  fun hmem => absurd (isWordChar_of_isWord h _ hmem) (by decide)

/-- Whether a scalar is written without a line feed: only a text can have one. -/
def Scalar.isUnbroken : Scalar → Bool
  | .text value => !value.toList.contains '\n'
  | _ => true

/-- The literal of a scalar has a line feed only if the scalar is a text that has one. -/
theorem lineFeed_notMem_literal {value : Scalar} (h : value.isUnbroken = true) :
    '\n' ∉ (literal value).toList := by
  have hnumber : ∀ {value : Scalar}, hasLiteral value = true → (∀ text, value ≠ .text text) →
      '\n' ∉ (literal value).toList :=
    fun hvalue htext => lineFeed_notMem_of_isWord (isWord_literal hvalue htext)
  cases value with
  | text value =>
    have hvalue : '\n' ∉ value.toList := by simpa [Scalar.isUnbroken] using h
    rw [literal, String.toList_ofList]
    simpa [typeLiteral] using mt (mem_flatMap_typeChar (by decide)).1 hvalue
  | bytes value =>
    show '\n' ∉ (String.ofList (Text.quotedBytes value)).toList
    rw [String.toList_ofList]
    exact lineFeed_notMem_quotedBytes value
  | date value => exact lineFeed_notMem_date value
  | instant value => exact lineFeed_notMem_instant value
  | null => exact hnumber rfl (by simp)
  | bool value => exact hnumber rfl (by simp)
  | int value => exact hnumber rfl (by simp)
  | float value => exact hnumber rfl (by simp)
  | nan id => exact hnumber rfl (by simp)

end

namespace TypeScript

/-! ## Parts of types -/

theorem lineFeed_notMem_key {name : String} (h : '\n' ∉ name.toList) : '\n' ∉ (key name).toList := by
  by_cases hbare : Naming.isBare name.toList = true
  · rwa [key, if_pos hbare]
  · have hname : (Scalar.text name).isUnbroken = true := by simpa [Scalar.isUnbroken] using h
    have hkey : key name = literal (.text name) := if_neg hbare
    rw [hkey]
    exact lineFeed_notMem_literal hname

theorem lineFeed_notMem_intercalate {separator : String} (hseparator : '\n' ∉ separator.toList)
    {texts : List String} (h : ∀ text ∈ texts, '\n' ∉ text.toList) :
    '\n' ∉ (separator.intercalate texts).toList := by
  induction texts with
  | nil => simp
  | cons first texts ih =>
    obtain ⟨hfirst, hrest⟩ := List.forall_mem_cons.1 h
    cases texts with
    | nil => rwa [String.intercalate_singleton]
    | cons second more =>
      rw [toList_intercalate_cons_cons]
      exact List.not_mem_append hfirst (List.not_mem_append hseparator (ih hrest))

theorem lineFeed_notMem_arrayText {element : String} (h : '\n' ∉ element.toList) :
    '\n' ∉ (arrayText element).toList := by
  unfold arrayText
  split <;> simp [h]

theorem lineFeed_notMem_objectText {members : List String}
    (h : ∀ member ∈ members, '\n' ∉ member.toList) : '\n' ∉ (objectText members).toList := by
  have hmembers := lineFeed_notMem_intercalate (show '\n' ∉ "; ".toList by decide) h
  simp only [objectText, String.toList_append, List.mem_append, not_or]
  exact ⟨⟨by decide, hmembers⟩, by decide⟩

end TypeScript

namespace Schema.Node

open TypeScript

mutual

/-- Whether the type of a schema is written without a line feed: references have identifiers for names, and
neither a name of a property nor a text of an enumeration has a line feed. -/
def isUnbroken : Node → Bool
  | .array (some items) => items.isUnbroken
  | .object properties _ => areUnbroken properties
  | .reference name => Naming.isIdentifier name.toList
  | .enumeration values => values.all Scalar.isUnbroken
  | .composite bases properties _ =>
    (bases.all fun name => Naming.isIdentifier name.toList) && areUnbroken properties
  | _ => true

def areUnbroken : List (String × Node) → Bool
  | [] => true
  | (name, property) :: rest =>
    !name.toList.contains '\n' && property.isUnbroken && areUnbroken rest

end

/-! ## References -/

mutual

theorem isIdentifier_of_mem_refs : ∀ node : Node, node.isUnbroken = true →
    ∀ name ∈ node.refs, Naming.isIdentifier name.toList = true
  | .malformed, _ => nofun
  | .primitive _ _, _ => nofun
  | .array none, _ => nofun
  | .array (some items), h => by
    rw [isUnbroken] at h
    exact isIdentifier_of_mem_refs items h
  | .object properties _, h => by
    rw [isUnbroken] at h
    exact isIdentifier_of_mem_refsOf properties h
  | .reference name, h => by
    rw [isUnbroken] at h
    exact List.forall_mem_singleton.2 h
  | .enumeration _, _ => nofun
  | .composite bases properties _, h => by
    rw [isUnbroken, Bool.and_eq_true, List.all_eq_true] at h
    exact List.forall_mem_append.2 ⟨h.1, isIdentifier_of_mem_refsOf properties h.2⟩

theorem isIdentifier_of_mem_refsOf : ∀ properties : List (String × Node),
    areUnbroken properties = true →
    ∀ name ∈ refsOf properties, Naming.isIdentifier name.toList = true
  | [], _ => nofun
  | (_, property) :: rest, h => by
    rw [areUnbroken, Bool.and_eq_true, Bool.and_eq_true] at h
    exact List.forall_mem_append.2
      ⟨isIdentifier_of_mem_refs property h.1.2, isIdentifier_of_mem_refsOf rest h.2⟩

end

/-! ## Types -/

section

variable (owner : String)

theorem lineFeed_notMem_properties {properties : List (String × Node)} (required : List String)
    (h : ∀ property ∈ properties, '\n' ∉ property.1.toList ∧
      '\n' ∉ (property.2.typeText owner).toList) :
    '\n' ∉ (typeText owner (.object properties required)).toList := by
  cases properties with
  | nil =>
    rw [typeText_object_nil]
    decide
  | cons property rest =>
    rw [typeText_object_cons]
    refine lineFeed_notMem_objectText fun member hmember => ?_
    obtain ⟨property, hproperty, rfl⟩ := List.mem_map.1 hmember
    obtain ⟨hname, htype⟩ := h property hproperty
    simp [lineFeed_notMem_key hname, htype]

mutual

/-- A type is written on one line. -/
theorem lineFeed_notMem_typeText : ∀ node : Node, node.isUnbroken = true →
    '\n' ∉ (node.typeText owner).toList
  | .malformed, _ => by
    rw [typeText, resolve]
    decide
  | .primitive kind format, _ => by
    rw [typeText, resolve]
    generalize primitiveType kind format = word
    cases word <;> decide
  | .array none, _ => by
    rw [typeText_array_none]
    decide
  | .array (some items), h => by
    rw [isUnbroken] at h
    rw [typeText_array_some]
    exact lineFeed_notMem_arrayText (lineFeed_notMem_typeText items h)
  | .object properties required, h => by
    rw [isUnbroken] at h
    exact lineFeed_notMem_properties owner required (lineFeed_notMem_propertyTexts properties h)
  | .reference name, h => by
    rw [isUnbroken] at h
    exact Naming.lineFeed_notMem_of_isIdentifier h
  | .enumeration [], _ => by
    rw [typeText, resolve]
    decide
  | .enumeration (value :: values), h => by
    rw [isUnbroken, List.all_eq_true] at h
    refine lineFeed_notMem_intercalate (show '\n' ∉ " | ".toList by decide) fun text htext => ?_
    obtain ⟨scalar, hscalar, rfl⟩ := List.mem_map.1 htext
    exact lineFeed_notMem_literal (h scalar hscalar)
  | .composite bases properties required, h => by
    rw [isUnbroken, Bool.and_eq_true, List.all_eq_true] at h
    rw [typeText_composite]
    refine lineFeed_notMem_intercalate (show '\n' ∉ " & ".toList by decide) fun text htext => ?_
    obtain ⟨part, hpart, rfl⟩ := List.mem_map.1 htext
    rcases mem_compositeParts hpart with ⟨name, hname, rfl⟩ | rfl
    · exact Naming.lineFeed_notMem_of_isIdentifier (h.1 name hname)
    · exact lineFeed_notMem_properties owner required (lineFeed_notMem_propertyTexts properties h.2)

theorem lineFeed_notMem_propertyTexts : ∀ properties : List (String × Node),
    areUnbroken properties = true →
    ∀ property ∈ properties, '\n' ∉ property.1.toList ∧
      '\n' ∉ (property.2.typeText owner).toList
  | [], _ => nofun
  | (name, property) :: rest, h => by
    rw [areUnbroken, Bool.and_eq_true, Bool.and_eq_true] at h
    have hname : '\n' ∉ name.toList := by simpa using h.1.1
    exact List.forall_mem_cons.2
      ⟨⟨hname, lineFeed_notMem_typeText property h.1.2⟩, lineFeed_notMem_propertyTexts rest h.2⟩

end

end

end Schema.Node

end ApiBindings

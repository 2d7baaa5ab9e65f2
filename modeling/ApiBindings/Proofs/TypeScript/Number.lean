import ApiBindings.Value.Scalar
import Mathlib.Data.List.TakeWhile

/-!
# Numbers in types

The notation of numbers among the words of a type: a sign, digits with an optional fraction and an
optional exponent, or the word for an infinite number. Every number is written in it
(`isNumber_toString`, `isNumber_text`).
-/

namespace ApiBindings.TypeScript

/-- Whether a text consists of digits, at least one. -/
def isDigits (text : List Char) : Bool :=
  !text.isEmpty && text.all Char.isDigit

/-- Whether a text is empty or a fraction. -/
def isFraction : List Char → Bool
  | [] => true
  | '.' :: digits => isDigits digits
  | _ => false

/-- Whether a text is empty or an exponent. -/
def isExponent : List Char → Bool
  | [] => true
  | 'e' :: '+' :: digits => isDigits digits
  | 'e' :: '-' :: digits => isDigits digits
  | 'e' :: digits => isDigits digits
  | _ => false

/-- Whether a text is a finite number without a sign. -/
def isDecimal (text : List Char) : Bool :=
  let fraction := text.dropWhile Char.isDigit
  isDigits (text.takeWhile Char.isDigit) && isFraction (fraction.takeWhile (· ≠ 'e'))
    && isExponent (fraction.dropWhile (· ≠ 'e'))

/-- Whether a text is a number without a sign. -/
def isMagnitude (text : List Char) : Bool :=
  text == "inf".toList || isDecimal text

/-- Whether a text is a number. -/
def isNumber : List Char → Bool
  | '-' :: text => isMagnitude text
  | text => isMagnitude text

/-! ## Parts of numbers -/

/-- A run of characters of a kind ends where the next character is of another kind. -/
theorem span_append {p : Char → Bool} {run rest : List Char} (hrun : ∀ c ∈ run, p c = true)
    (hrest : ∀ c ∈ rest.head?, p c = false) :
    (run ++ rest).takeWhile p = run ∧ (run ++ rest).dropWhile p = rest := by
  rw [List.takeWhile_append_of_pos hrun, List.dropWhile_append_of_pos hrun]
  cases rest with
  | nil => exact ⟨List.append_nil run, rfl⟩
  | cons c rest =>
    have hc := hrest c rfl
    rw [List.takeWhile_cons_of_neg (by simp [hc]), List.dropWhile_cons_of_neg (by simp [hc])]
    exact ⟨List.append_nil run, rfl⟩

theorem isDigits_iff {text : List Char} :
    isDigits text = true ↔ text ≠ [] ∧ ∀ c ∈ text, c.isDigit = true := by
  simp [isDigits]

theorem isDigits_append {text more : List Char} (htext : isDigits text = true)
    (hmore : ∀ c ∈ more, c.isDigit = true) : isDigits (text ++ more) = true := by
  obtain ⟨hne, hall⟩ := isDigits_iff.1 htext
  refine isDigits_iff.2 ⟨by simp [hne], fun c hc => ?_⟩
  rcases List.mem_append.1 hc with hc | hc
  · exact hall c hc
  · exact hmore c hc

theorem isDigit_of_mem_replicate {count : Nat} {c : Char} (hc : c ∈ List.replicate count '0') :
    c.isDigit = true := by
  rw [List.eq_of_mem_replicate hc]
  rfl

theorem isDigits_toDigits (value : Nat) : isDigits (Nat.toDigits 10 value) = true :=
  isDigits_iff.2
    ⟨Nat.toDigits_ne_nil, fun _ hc => Nat.isDigit_of_mem_toDigits (by decide) (by decide) hc⟩

theorem ne_of_isDigit {c d : Char} (hc : c.isDigit = true) (hd : d.isDigit = false) : c ≠ d := by
  rintro rfl
  rw [hc] at hd
  cases hd

theorem notMem_of_isFraction {fraction : List Char} (h : isFraction fraction = true) :
    'e' ∉ fraction := by
  unfold isFraction at h
  split at h
  · exact List.not_mem_nil
  · rename_i digits
    intro hmem
    rcases List.mem_cons.1 hmem with hmark | hmem
    · cases hmark
    · exact ne_of_isDigit ((isDigits_iff.1 h).2 _ hmem) rfl rfl
  · cases h

theorem head?_of_isFraction {fraction : List Char} (h : isFraction fraction = true) :
    ∀ c ∈ fraction.head?, c = '.' := by
  unfold isFraction at h
  split at h
  · exact fun c hc => by cases hc
  · exact fun c hc => by cases hc; rfl
  · cases h

theorem head?_of_isExponent {exponent : List Char} (h : isExponent exponent = true) :
    ∀ c ∈ exponent.head?, c = 'e' := by
  unfold isExponent at h
  split at h
  · exact fun c hc => by cases hc
  · exact fun c hc => by cases hc; rfl
  · exact fun c hc => by cases hc; rfl
  · exact fun c hc => by cases hc; rfl
  · cases h

/-- The parts of a number, put together. -/
theorem isDecimal_append {whole fraction exponent : List Char} (hwhole : isDigits whole = true)
    (hfraction : isFraction fraction = true) (hexponent : isExponent exponent = true) :
    isDecimal (whole ++ (fraction ++ exponent)) = true := by
  have hbehind : ∀ c ∈ (fraction ++ exponent).head?, c.isDigit = false := by
    intro c hc
    rw [List.head?_append] at hc
    cases hhead : fraction.head? with
    | some d =>
      rw [hhead] at hc
      cases hc
      rw [head?_of_isFraction hfraction c hhead]
      rfl
    | none =>
      rw [hhead] at hc
      rw [head?_of_isExponent hexponent c hc]
      rfl
  have hdigits := span_append (isDigits_iff.1 hwhole).2 hbehind
  have hmark : ∀ c ∈ fraction, decide (c ≠ 'e') = true := by
    intro c hc
    rw [decide_eq_true_eq]
    rintro rfl
    exact notMem_of_isFraction hfraction hc
  have hparts := span_append hmark fun c hc => by
    rw [head?_of_isExponent hexponent c hc]
    rfl
  unfold isDecimal
  simp only [hdigits.1, hdigits.2, hparts.1, hparts.2, hwhole, hfraction, hexponent, Bool.and_self]

theorem isDecimal_point {whole behind exponent : List Char} (hwhole : isDigits whole = true)
    (hbehind : isDigits behind = true) (hexponent : isExponent exponent = true) :
    isDecimal (whole ++ '.' :: (behind ++ exponent)) = true :=
  isDecimal_append hwhole (show isFraction ('.' :: behind) = true from hbehind) hexponent

theorem isDecimal_pointless {whole exponent : List Char} (hwhole : isDigits whole = true)
    (hexponent : isExponent exponent = true) : isDecimal (whole ++ exponent) = true :=
  isDecimal_append hwhole (show isFraction [] = true from rfl) hexponent

theorem isDecimal_of_isDigits {text : List Char} (h : isDigits text = true) :
    isDecimal text = true := by
  rw [← List.append_nil text]
  exact isDecimal_pointless h rfl

theorem isMagnitude_of_isDecimal {text : List Char} (h : isDecimal text = true) :
    isMagnitude text = true := by
  rw [isMagnitude, h, Bool.or_true]

theorem isNumber_of_isMagnitude {text : List Char} (h : isMagnitude text = true) :
    isNumber text = true := by
  unfold isNumber
  split
  · -- A number without a sign does not begin with one.
    rename_i rest
    revert h
    simp [isMagnitude, isDecimal, isDigits, List.takeWhile]
  · exact h

/-! ## Whole numbers -/

theorem isNumber_toString (value : Int) : isNumber (toString value).toList = true := by
  have hmagnitude : ∀ n : Nat, isMagnitude n.repr.toList = true := by
    intro n
    rw [Nat.repr, String.toList_ofList]
    exact isMagnitude_of_isDecimal (isDecimal_of_isDigits (isDigits_toDigits n))
  cases value with
  | ofNat n => exact isNumber_of_isMagnitude (hmagnitude n)
  | negSucc n =>
    have hsign : (toString (Int.negSucc n)).toList = '-' :: (n + 1).repr.toList := by
      show ("-" ++ (n + 1).repr).toList = _
      rw [String.toList_append]
      rfl
    rw [hsign]
    exact hmagnitude (n + 1)

/-! ## Floating-point numbers -/

theorem foldl_zeros (count : Nat) : Nat.ofDigitChars 10 (List.replicate count '0') 0 = 0 := by
  induction count with
  | zero => rfl
  | succ count ih => exact ih

/-- A positive number has a digit other than zero. -/
theorem normal_ne_nil {value : Nat} (hvalue : value ≠ 0) :
    Decimal.normal (Nat.toDigits 10 value) ≠ [] := by
  intro hnil
  have hzeros : ∀ c ∈ (Nat.toDigits 10 value).reverse, decide (c = '0') = true :=
    List.dropWhile_eq_nil_iff.1 (List.reverse_eq_nil_iff.1 hnil)
  have hreplicate : Nat.toDigits 10 value = List.replicate (Nat.toDigits 10 value).length '0' :=
    List.eq_replicate_iff.2 ⟨rfl, fun c hc => of_decide_eq_true (hzeros c (List.mem_reverse.2 hc))⟩
  have hback := Nat.ofDigitChars_toDigits (b := 10) (n := value) (by decide) (by decide)
  rw [hreplicate, foldl_zeros] at hback
  exact hvalue hback.symm

theorem isDigits_normal {value : Nat} (hvalue : value ≠ 0) :
    isDigits (Decimal.normal (Nat.toDigits 10 value)) = true := by
  refine isDigits_iff.2 ⟨normal_ne_nil hvalue, fun c hc => ?_⟩
  have hmem : c ∈ (Nat.toDigits 10 value).reverse :=
    (List.dropWhile_suffix _).subset (List.mem_reverse.1 hc)
  exact (isDigits_iff.1 (isDigits_toDigits value)).2 c (List.mem_reverse.1 hmem)

theorem isDecimal_write (style : FloatStyle) {value : Decimal} (hvalue : value.digits ≠ 0) :
    isDecimal (style.write value) = true := by
  unfold FloatStyle.write
  extract_lets written digits lead whole fraction power mantissa
  have hdigits : isDigits digits = true := isDigits_normal hvalue
  obtain ⟨hne, hall⟩ := isDigits_iff.1 hdigits
  clear_value digits
  split
  · split
    · have hzeros : isDigits (List.replicate (-lead - 1).toNat '0' ++ digits) = true := by
        refine isDigits_iff.2 ⟨by simp [hne], fun c hc => ?_⟩
        rcases List.mem_append.1 hc with hc | hc
        · exact isDigit_of_mem_replicate hc
        · exact hall c hc
      have hparts := isDecimal_point (show isDigits ['0'] = true from rfl) hzeros
        (show isExponent [] = true from rfl)
      rwa [List.append_nil] at hparts
    · have hwhole : whole ≠ 0 := by omega
      have hfront : isDigits (digits.take whole ++ List.replicate (whole - digits.length) '0') =
          true := by
        refine isDigits_append (isDigits_iff.2 ⟨?_, fun c hc => hall c (List.mem_of_mem_take hc)⟩)
          fun c hc => isDigit_of_mem_replicate hc
        rw [Ne, List.take_eq_nil_iff]
        exact not_or.2 ⟨hwhole, hne⟩
      have hbehind : isDigits (if fraction.isEmpty then ['0'] else fraction) = true := by
        cases hfraction : fraction.isEmpty with
        | true => rfl
        | false =>
          refine isDigits_iff.2 ⟨?_, fun c hc => hall c (List.mem_of_mem_drop hc)⟩
          intro hnil
          rw [if_neg Bool.false_ne_true] at hnil
          rw [hnil] at hfraction
          cases hfraction
      have hparts := isDecimal_point hfront hbehind (show isExponent [] = true from rfl)
      rwa [List.append_nil] at hparts
  · have hpower : isDigits (List.replicate (style.exponentDigits - power.length) '0' ++ power) =
        true := by
      refine isDigits_iff.2 ⟨by simp [power], fun c hc => ?_⟩
      rcases List.mem_append.1 hc with hc | hc
      · exact isDigit_of_mem_replicate hc
      · exact (isDigits_iff.1 (isDigits_toDigits lead.natAbs)).2 c hc
    have hexponent : isExponent ('e' :: (if lead < 0 then '-' else '+') ::
        (List.replicate (style.exponentDigits - power.length) '0' ++ power)) = true := by
      split
      · exact hpower
      · exact hpower
    simp only [mantissa]
    split
    · rename_i first second rest
      have hfirst : isDigits [first] = true :=
        isDigits_iff.2 ⟨by simp, fun c hc => hall c (by simp_all)⟩
      have hrest : isDigits (second :: rest) = true :=
        isDigits_iff.2 ⟨by simp, fun c hc => hall c (List.mem_cons_of_mem _ hc)⟩
      exact isDecimal_point hfirst hrest hexponent
    · exact isDecimal_pointless hdigits hexponent

theorem powerFraction_pos (base : Nat) (hbase : 0 < base) (exponent : Int) :
    0 < (Binary64.powerFraction base exponent).1 ∧ 0 < (Binary64.powerFraction base exponent).2 := by
  unfold Binary64.powerFraction
  split
  · exact ⟨Nat.one_pos, Nat.pow_pos hbase⟩
  · exact ⟨Nat.pow_pos hbase, Nat.one_pos⟩

/-- Zero reads back as no positive number, so no decimal of one is zero. -/
theorem digits_decimalAt?_ne_zero {m : Nat} (hm : m ≠ 0) {q exponent : Int} {value : Decimal}
    (h : Binary64.decimalAt? m q exponent = some value) : value.digits ≠ 0 := by
  obtain ⟨htwo, -⟩ := powerFraction_pos 2 (by decide) (q - 2)
  obtain ⟨-, hten⟩ := powerFraction_pos 10 (by decide) exponent
  unfold Binary64.decimalAt? at h
  extract_lets low high at h
  have hlow : 0 < low := by
    simp only [low]
    split <;> omega
  obtain ⟨⟨up, down⟩, hup⟩ : ∃ fraction, Binary64.powerFraction 2 (q - 2) = fraction := ⟨_, rfl⟩
  obtain ⟨⟨upTen, downTen⟩, hupTen⟩ : ∃ fraction, Binary64.powerFraction 10 exponent = fraction :=
    ⟨_, rfl⟩
  rw [hup] at h htwo
  rw [hupTen] at h hten
  dsimp -zeta only at h
  extract_lets unit grid readsBack number below above belowGap aboveGap at h
  have hunit : 0 < low * unit := Nat.mul_pos hlow (Nat.mul_pos htwo hten)
  have hzero : readsBack 0 = false := by
    simp only [readsBack, Nat.zero_mul]
    split
    · rw [decide_eq_false (by omega), Bool.false_and]
    · rw [decide_eq_false (by omega), Bool.false_and]
  split at h
  · rename_i hbelow
    split at h
    · cases h
      exact Nat.succ_ne_zero below
    · cases h
      intro hnone
      have hnone : below = 0 := hnone
      rw [hnone, hzero] at hbelow
      cases hbelow
  · split at h
    · cases h
      exact Nat.succ_ne_zero below
    · cases h

theorem digits_shortest_ne_zero {m : Nat} (hm : m ≠ 0) (q : Int) :
    (Binary64.shortest m q).digits ≠ 0 := by
  unfold Binary64.shortest
  cases hfound : (List.range 17).findSome? fun n => Binary64.decimalWith? m q (n + 1) with
  | none => exact hm
  | some value =>
    obtain ⟨n, -, hvalue⟩ := List.exists_of_findSome?_eq_some hfound
    exact digits_decimalAt?_ne_zero hm hvalue

/-- Every floating-point number but the one that is none is written as a number. -/
theorem isNumber_text {x : Binary64} (hx : x ≠ .nan) : isNumber x.text.toList = true := by
  cases x with
  | nan => exact absurd rfl hx
  | infinite negative => cases negative <;> rfl
  | finite negative m q =>
    have hmagnitude : ∀ text : String, isMagnitude text.toList = true →
        isNumber ((if negative then "-" else "") ++ text).toList = true := by
      intro text htext
      cases negative with
      | true =>
        rw [String.toList_append]
        exact htext
      | false =>
        rw [String.toList_append]
        exact isNumber_of_isMagnitude htext
    simp only [Binary64.text]
    split
    · exact hmagnitude "0.0" (by decide)
    · rename_i hm
      refine hmagnitude _ (isMagnitude_of_isDecimal ?_)
      rw [String.toList_ofList]
      exact isDecimal_write _ (digits_shortest_ne_zero hm q)

end ApiBindings.TypeScript

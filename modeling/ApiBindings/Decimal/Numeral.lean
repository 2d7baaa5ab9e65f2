import ApiBindings.Decimal.Binary64
import ApiBindings.Text.Blank
import ApiBindings.Text.Digit

/-!
# Numerals

Reading whole and floating-point numbers from free text: blanks around the numeral are skipped, one
sign may lead it, and decimal digits of any script count.
-/

namespace ApiBindings.Numeral

open Text

/-- Blanks around a numeral; the information separators are none. -/
def isNumeralBlank (c : Char) : Bool :=
  isBlank c && !(0x1C ≤ c.toNat && c.toNat ≤ 0x1F)

/-- The text without the blanks around it. -/
def strip (text : List Char) : List Char :=
  ((text.dropWhile isNumeralBlank).reverse.dropWhile isNumeralBlank).reverse

/-- Splits one sign off; `true` stands for minus. -/
def splitSign : List Char → Bool × List Char
  | '-' :: rest => (true, rest)
  | '+' :: rest => (false, rest)
  | text => (false, text)

/-- The value of a digit in a base up to sixteen. -/
def digitValue? (base : Nat) (c : Char) : Option Nat :=
  ((decimalValue? c).or (hexValue? c)).filter (· < base)

/-- The number written by digits alone, with `value` read before them. -/
def readDigits? (base value : Nat) : List Char → Option Nat
  | [] => some value
  | c :: rest =>
    match digitValue? base c with
    | some digit => readDigits? base (value * base + digit) rest
    | none => none

/-- The number written by at least one digit. -/
def readNatural? (base : Nat) : List Char → Option Nat
  | [] => none
  | c :: rest => readDigits? base 0 (c :: rest)

/-- The letters that may announce a base after a leading zero. -/
def baseMarks : Nat → List Char
  | 2 => ['b', 'B']
  | 8 => ['o', 'O']
  | 16 => ['x', 'X']
  | _ => []

/-- The digits without the announcement of their base, whose zero may be that of any script. -/
def dropBaseMark (base : Nat) : List Char → List Char
  | zero :: mark :: rest =>
    if decimalValue? zero = some 0 ∧ mark ∈ baseMarks base then rest else zero :: mark :: rest
  | text => text

/-- The most digits that a decimal numeral of a whole number may have. -/
def digitLimit : Nat := 4300

/-- Whether a whole number has a decimal numeral. -/
def isWritable (value : Int) : Bool :=
  value.natAbs < Nat.pow 10 digitLimit

/-- The whole number that a text writes in a base. -/
def readInt? (base : Nat) (text : List Char) : Option Int :=
  let (negative, digits) := splitSign (strip text)
  if base = 10 ∧ digitLimit < digits.length then none
  else
    (readNatural? base (dropBaseMark base digits)).map fun value =>
      if negative then -(value : Int) else value

/-- The power of ten that a numeral ends in: nothing, or `e` with a signed number. -/
def readExponent? : List Char → Option Int
  | [] => some 0
  | c :: rest =>
    if c = 'e' ∨ c = 'E' then
      let (negative, digits) := splitSign rest
      (readNatural? 10 digits).map fun value => if negative then -(value : Int) else value
    else none

/-- Whether a character is a decimal digit of some script. -/
def isDecimal (c : Char) : Bool :=
  (decimalValue? c).isSome

/-- The number written without a sign: digits with an optional point and exponent, or a word for a
number that is infinite or none. -/
def readUnsigned? (negative : Bool) (text : List Char) : Option Binary64 :=
  let word := text.map Char.toLower
  if word = "inf".toList ∨ word = "infinity".toList then some (.infinite negative)
  else if word = "nan".toList then some .nan
  else
    let whole := text.takeWhile isDecimal
    let rest := text.drop whole.length
    let (fraction, rest) :=
      match rest with
      | '.' :: rest => (rest.takeWhile isDecimal, rest.dropWhile isDecimal)
      | rest => ([], rest)
    match readNatural? 10 (whole ++ fraction), readExponent? rest with
    | some digits, some exponent =>
      some (.ofDecimal negative digits (exponent - fraction.length))
    | _, _ => none

/-- The floating-point number that a text writes. -/
def readFloat? (text : List Char) : Option Binary64 :=
  let (negative, digits) := splitSign (strip text)
  readUnsigned? negative digits

example : readInt? 10 " -42\n".toList = some (-42) := by decide +kernel

example : readInt? 16 "0xFf".toList = some 255 := by decide +kernel

example : readInt? 2 "０b１０".toList = some 2 := by decide +kernel

example : readFloat? "1.".toList = some (.finite false (2 ^ 52) (-52)) := by decide +kernel

end ApiBindings.Numeral

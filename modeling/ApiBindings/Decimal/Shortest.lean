import ApiBindings.Decimal.Binary64

/-!
# Shortest decimal text

A floating-point number is written with the fewest digits that read back as it; of several such
decimals the nearest is taken, and of two equally near the even one. Where the digits stand is a
separate decision, made by a `FloatStyle`.
-/

namespace ApiBindings

/-- The value `digits · 10^exponent`. -/
structure Decimal where
  digits : Nat
  exponent : Int
  deriving DecidableEq, Repr

/-- How the digits of a number are laid out. -/
structure FloatStyle where
  /-- The least power of ten of the first digit that is written without an exponent. -/
  leastPositional : Int
  /-- The least power of ten of the first digit that is written with an exponent again. -/
  greatestPositional : Int
  /-- The least number of digits of an exponent. -/
  exponentDigits : Nat

namespace Binary64

/-- The number of decimal digits before the point of `m · 2^q`; for a value below one, minus the
number of zeros after the point. Every positive value of the format is at least `10^-340`. -/
def integerDigits (m : Nat) (q : Int) : Int :=
  let (up, down) := powerFraction 2 q
  ((Nat.toDigits 10 (m * up * Nat.pow 10 340 / down)).length : Int) - 340

/-- The decimal on the grid of a power of ten that reads back as `m · 2^q`, if there is one. Everything
is counted in quarters of the significand's unit: the reals between `low` and `high` round to the number,
the ends too if the significand is even. -/
def decimalAt? (m : Nat) (q exponent : Int) : Option Decimal :=
  let low := 4 * m - (if m = leadingBit ∧ q > leastExponent then 1 else 2)
  let high := 4 * m + 2
  let (up, down) := powerFraction 2 (q - 2)
  let (upTen, downTen) := powerFraction 10 exponent
  let unit := up * downTen
  let grid := down * upTen
  let readsBack (digits : Nat) : Bool :=
    if m % 2 = 0 then low * unit ≤ digits * grid && digits * grid ≤ high * unit
    else low * unit < digits * grid && digits * grid < high * unit
  let value := 4 * m * unit
  let below := value / grid
  let above := below + 1
  let belowGap := value - below * grid
  let aboveGap := above * grid - value
  if readsBack below then
    if readsBack above && (aboveGap < belowGap || (aboveGap == belowGap && below % 2 == 1)) then
      some ⟨above, exponent⟩
    else some ⟨below, exponent⟩
  else if readsBack above then some ⟨above, exponent⟩
  else none

/-- The decimal with `count` digits that reads back as `m · 2^q`, if there is one. -/
def decimalWith? (m : Nat) (q : Int) (count : Nat) : Option Decimal :=
  decimalAt? m q (integerDigits m q - count)

/-- The shortest decimal that reads back as the positive number `m · 2^q`; seventeen digits always
do. -/
def shortest (m : Nat) (q : Int) : Decimal :=
  ((List.range 17).findSome? fun n => decimalWith? m q (n + 1)).getD ⟨m, 0⟩

end Binary64

/-- The decimal without the zeros at the end of its digits. -/
def Decimal.normal (digits : List Char) : List Char :=
  (digits.reverse.dropWhile (· = '0')).reverse

/-- The text of a positive decimal in a style. -/
def FloatStyle.write (style : FloatStyle) (value : Decimal) : List Char :=
  let written := Nat.toDigits 10 value.digits
  let digits := Decimal.normal written
  let lead : Int := value.exponent + written.length - 1
  if style.leastPositional ≤ lead ∧ lead < style.greatestPositional then
    if lead < 0 then '0' :: '.' :: List.replicate (-lead - 1).toNat '0' ++ digits
    else
      let whole := (lead + 1).toNat
      let fraction := digits.drop whole
      digits.take whole ++ List.replicate (whole - digits.length) '0' ++ '.' ::
        (if fraction.isEmpty then ['0'] else fraction)
  else
    let power := Nat.toDigits 10 lead.natAbs
    let mantissa :=
      match digits with
      | first :: second :: rest => first :: '.' :: second :: rest
      | digits => digits
    mantissa ++ 'e' :: (if lead < 0 then '-' else '+') ::
      (List.replicate (style.exponentDigits - power.length) '0' ++ power)

/-- Numbers from `0.0001` to below `10^16` are written positionally, with at least one decimal; an
exponent has its sign and two digits. -/
def FloatStyle.standard : FloatStyle := ⟨-4, 16, 2⟩

/-- The text of a floating-point number. -/
def Binary64.text (x : Binary64) : String :=
  match x with
  | .nan => "nan"
  | .infinite negative => if negative then "-inf" else "inf"
  | .finite negative m q =>
    let sign := if negative then "-" else ""
    if m = 0 then sign ++ "0.0"
    else sign ++ .ofList (FloatStyle.standard.write (Binary64.shortest m q))

example : (Binary64.ofDecimal false 1 (-1)).text = "0.1" := by decide +kernel

example : (Binary64.ofDecimal false 5 (-324)).text = "5e-324" := by decide +kernel

example : (Binary64.ofDecimal true 123456789 8).text = "-1.23456789e+16" := by decide +kernel

end ApiBindings

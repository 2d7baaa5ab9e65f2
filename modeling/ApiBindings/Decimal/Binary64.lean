/-!
# Binary floating-point numbers

The numbers of the 64-bit binary format as exact values: a significand below 2^53 times a power of
two. Arithmetic is done in whole numbers and rounded once, to the nearest number of the format, a tie
going to the even significand.
-/

namespace ApiBindings

/-- A number of the 64-bit binary format; `finite s m q` is `m · 2^q` with its sign. -/
inductive Binary64 where
  | nan
  | infinite (negative : Bool)
  | finite (negative : Bool) (significand : Nat) (exponent : Int)
  deriving DecidableEq, Repr

namespace Binary64

/-- The least exponent of the format, that of the numbers closest to zero. -/
def leastExponent : Int := -1074

/-- The greatest exponent of the format. -/
def greatestExponent : Int := 971

/-- Zero with a sign. -/
def zero (negative : Bool) : Binary64 :=
  .finite negative 0 leastExponent

/-- `num / den` rounded to a whole number, a tie to the even one. -/
def roundHalfEven (num den : Nat) : Nat :=
  let quotient := num / den
  let twice := 2 * (num % den)
  if twice < den then quotient
  else if den < twice then quotient + 1
  else quotient + quotient % 2

/-- The greatest power of two that a significand can hold. -/
def leadingBit : Nat := Nat.pow 2 52

/-- A power of a base as a fraction. -/
def powerFraction (base : Nat) (exponent : Int) : Nat × Nat :=
  if exponent < 0 then (1, Nat.pow base (-exponent).toNat) else (Nat.pow base exponent.toNat, 1)

/-- The largest `e` with `2^e ≤ num / den`, for positive `num` and `den`. -/
def binaryLog (num den : Nat) : Int :=
  let guess : Int := (num.log2 : Int) - (den.log2 : Int)
  let (up, down) := powerFraction 2 guess
  if den * up ≤ num * down then guess else guess - 1

/-- The number of the format that is nearest to a fraction. -/
def ofFraction (negative : Bool) (num den : Nat) : Binary64 :=
  if num = 0 then zero negative
  else
    let exponent := max (binaryLog num den - 52) leastExponent
    let (up, down) := powerFraction 2 exponent
    let significand := roundHalfEven (num * down) (den * up)
    let (significand, exponent) :=
      if significand = 2 * leadingBit then (leadingBit, exponent + 1) else (significand, exponent)
    if exponent > greatestExponent then .infinite negative
    else .finite negative significand exponent

/-- The number nearest to `digits · 10^exponent`. Exponents far outside the format are answered
without computing the power. -/
def ofDecimal (negative : Bool) (digits : Nat) (exponent : Int) : Binary64 :=
  let size := exponent + ((Nat.toDigits 10 digits).length : Int)
  if digits = 0 ∨ size < -400 then zero negative
  else if size > 400 then .infinite negative
  else
    let (up, down) := powerFraction 10 exponent
    ofFraction negative (digits * up) down

/-- Whether the sign of a number is minus; a number that is none has no sign. -/
def isNegative : Binary64 → Bool
  | .nan => false
  | .infinite negative => negative
  | .finite negative _ _ => negative

/-- The number with the opposite sign. -/
def neg : Binary64 → Binary64
  | .nan => .nan
  | .infinite negative => .infinite !negative
  | .finite negative m q => .finite (!negative) m q

/-- A product, rounded once. -/
def mul : Binary64 → Binary64 → Binary64
  | .nan, _ => .nan
  | _, .nan => .nan
  | .infinite s, .infinite t => .infinite (s ^^ t)
  | .infinite s, .finite t m _ => if m = 0 then .nan else .infinite (s ^^ t)
  | .finite s m _, .infinite t => if m = 0 then .nan else .infinite (s ^^ t)
  | .finite s m q, .finite t n r =>
    let (up, down) := powerFraction 2 (q + r)
    ofFraction (s ^^ t) (m * n * up) down

/-- A sum, rounded once; numbers that cancel give plus zero. -/
def add : Binary64 → Binary64 → Binary64
  | .nan, _ => .nan
  | _, .nan => .nan
  | .infinite s, .infinite t => if s = t then .infinite s else .nan
  | .infinite s, .finite .. => .infinite s
  | .finite .., .infinite t => .infinite t
  | .finite s m q, .finite t n r =>
    let least := min q r
    let (up, down) := powerFraction 2 least
    let signed (negative : Bool) (value : Nat) : Int := if negative then -value else value
    let sum := signed s (m * Nat.pow 2 (q - least).toNat) + signed t (n * Nat.pow 2 (r - least).toNat)
    if sum = 0 then zero (s && t) else ofFraction (sum < 0) (sum.natAbs * up) down

/-- The whole number that a finite value without fraction is. -/
def toInt? : Binary64 → Option Int
  | .finite negative m q =>
    let (up, down) := powerFraction 2 q
    if (m * up) % down = 0 then
      let value : Int := m * up / down
      some (if negative then -value else value)
    else none
  | _ => none

example : ofDecimal false 1 (-1) = .finite false 0x1999999999999A (-56) := by decide +kernel

example : ofDecimal false 17976931348623159 292 = .infinite false := by decide +kernel

example : ofDecimal false 24703282292062328 (-340) = .finite false 1 (-1074) := by decide +kernel

end Binary64

end ApiBindings

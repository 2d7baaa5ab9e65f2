import ApiBindings.Decimal.Numeral
import ApiBindings.Text.Base64
import ApiBindings.Text.CaseMap
import ApiBindings.Naming.Identifier
import ApiBindings.Value.Scalar
import ApiBindings.Yaml.Tag
import ApiBindings.Yaml.Fault

/-!
# Values of scalar nodes

What the text of a scalar denotes under its type. Underscores in numbers count for nothing, and digits
joined by colons are read to the base sixty.
-/

namespace ApiBindings.Yaml

/-- A result, or the fault of having none. -/
def orFault {α : Type} (fault : Fault) : Option α → Except Fault α
  | some value => .ok value
  | none => .error fault

/-- The truth value of a word, in any case. -/
def truthOf (text : List Char) : Except Fault Bool :=
  let word := Text.lower text
  if ["yes", "true", "on"].any (·.toList == word) then .ok true
  else if ["no", "false", "off"].any (·.toList == word) then .ok false
  else .error .noSuchTruth

/-- The whole number that an unsigned text writes, by the notation that its beginning announces. -/
def unsignedInt (text : List Char) : Except Fault Int :=
  match text with
  | [] => .error .emptyNumber
  | ['0'] => .ok 0
  | '0' :: 'b' :: digits => orFault .noSuchNumber (Numeral.readInt? 2 digits)
  | '0' :: 'x' :: digits => orFault .noSuchNumber (Numeral.readInt? 16 digits)
  | '0' :: _ => orFault .noSuchNumber (Numeral.readInt? 8 text)
  | _ =>
    if text.contains ':' then do
      let parts ← (text.splitOn ':').mapM fun part => orFault .noSuchNumber (Numeral.readInt? 10 part)
      return parts.foldl (fun sum part => sum * 60 + part) 0
    else orFault .noSuchNumber (Numeral.readInt? 10 text)

/-- The whole number that a text writes. -/
def intOf (text : List Char) : Except Fault Int := do
  let digits := text.filter (· ≠ '_')
  if digits.isEmpty then throw .emptyNumber
  let value ← unsignedInt (Tag.dropSign digits)
  return if digits.head? == some '-' then -value else value

/-- A number written to the base sixty, the parts given from the last on: each is added times its
weight. -/
def sexagesimal (sum : Binary64) (weight : Nat) : List Binary64 → Except Fault Binary64
  | [] => .ok sum
  | part :: rest =>
    match Binary64.ofFraction false weight 1 with
    | .infinite _ => .error .weightTooLarge
    | factor => sexagesimal (Binary64.add sum (Binary64.mul part factor)) (weight * 60) rest

/-- The floating-point number that an unsigned text writes. -/
def unsignedFloat (text : List Char) : Except Fault Binary64 :=
  if text == ".inf".toList then .ok (.infinite false)
  else if text == ".nan".toList then .ok .nan
  else if text.contains ':' then do
    let parts ← (text.splitOn ':').mapM fun part => orFault .noSuchNumber (Numeral.readFloat? part)
    sexagesimal (.zero false) 1 parts.reverse
  else orFault .noSuchNumber (Numeral.readFloat? text)

/-- The notation of a floating-point number: underscores and case count for nothing. -/
def floatNotation (text : List Char) : List Char :=
  Text.lower (text.filter (· ≠ '_'))

/-- The floating-point number that a text writes. -/
def floatOf (text : List Char) : Except Fault Binary64 := do
  let digits := floatNotation text
  if digits.isEmpty then throw .emptyNumber
  let value ← unsignedFloat (Tag.dropSign digits)
  return if digits.head? == some '-' then value.neg else value

/-- The scalar that the text of a node with the given number writes. What is no number is one and the
same in all nodes that use the notation for it, and one of its own in any other node. -/
def floatScalar (node : Nat) (text : List Char) : Except Fault Scalar := do
  match ← floatOf text with
  | .nan =>
    return if Tag.dropSign (floatNotation text) == ".nan".toList then .float .nan else .nan node
  | value => return .float value

/-- The number that decimal digits write. -/
def number (digits : List Char) : Nat :=
  digits.foldl (fun sum c => sum * 10 + (c.toNat - '0'.toNat)) 0

/-- The offset from universal time in minutes that a text writes, none if it is empty. -/
def offsetOf : List Char → Option Int
  | [] => none
  | ['Z'] => some 0
  | sign :: digits =>
    let minutes : Int :=
      match digits.splitOn ':' with
      | [hour, minute] => number hour * 60 + number minute
      | _ => number digits * 60
    some (if sign == '-' then -minutes else minutes)

/-- The microseconds of a fraction: its first six digits, filled up with zeros. -/
def microseconds (fraction : List Char) : Nat :=
  let digits := fraction.take 6
  number (digits ++ List.replicate (6 - digits.length) '0')

/-- The day, or the time, that a text writes. -/
def timestampOf (text : List Char) : Except Fault Scalar :=
  match Tag.splitDay (Naming.withoutFinalLineFeed text) with
  | none => .error .noTimestamp
  | some (year, month, day, rest) =>
    if !(Tag.isCount [4] year && Tag.isCount [1, 2] month && Tag.isCount [1, 2] day) then
      .error .noTimestamp
    else
      let date : Date := ⟨number year, number month, number day⟩
      if rest.isEmpty then
        if date.isValid then .ok (.date date) else .error .noSuchMoment
      else
        match Tag.splitClock rest with
        | none => .error .noTimestamp
        | some clock =>
          let time : Instant :=
            ⟨date, number clock.hour, number clock.minute, number clock.second,
              microseconds clock.fraction, offsetOf clock.offset⟩
          if time.isValid then .ok (.instant time) else .error .noSuchMoment

/-- What the node with the given number denotes under a type that is one of scalars. -/
def scalarOf (node : Nat) (tag : Tag) (text : String) : Except Fault Scalar :=
  match tag with
  | .null => .ok .null
  | .bool => Scalar.bool <$> truthOf text.toList
  | .int => Scalar.int <$> intOf text.toList
  | .float => floatScalar node text.toList
  | .timestamp => timestampOf text.toList
  | .binary =>
    if text.toList.all (·.toNat < 0x80) then
      Scalar.bytes <$> orFault .malformed (Text.base64? text.toList)
    else .error .malformed
  | .str => .ok (.text text)
  | _ => .error .malformed

end ApiBindings.Yaml

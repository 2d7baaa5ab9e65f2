/-!
# Base 64

Bytes written with 64 ASCII characters, four for three bytes. Characters outside the alphabet are
skipped; the last group may be short if padding completes it, and nothing after complete padding
counts.
-/

namespace ApiBindings.Text

/-- The value of a character of the alphabet. -/
def base64Value? (c : Char) : Option Nat :=
  if 'A' ≤ c ∧ c ≤ 'Z' then some (c.toNat - 'A'.toNat)
  else if 'a' ≤ c ∧ c ≤ 'z' then some (c.toNat - 'a'.toNat + 26)
  else if '0' ≤ c ∧ c ≤ '9' then some (c.toNat - '0'.toNat + 52)
  else if c = '+' then some 62
  else if c = '/' then some 63
  else none

/-- The bytes that the rest of a text adds. `group` holds the values of the current group, `pads` the
padding signs that directly precede. -/
def base64From (group : List Nat) (pads : Nat) : List Char → Option (List UInt8)
  | [] => if group.isEmpty then some [] else none
  | c :: rest =>
    if c = '=' then
      if 2 ≤ group.length then
        if 4 ≤ group.length + pads + 1 then some [] else base64From group (pads + 1) rest
      else base64From group pads rest
    else
      match base64Value? c, group with
      | none, group => base64From group pads rest
      | some v, [] => base64From [v] 0 rest
      | some v, [a] => (base64From [a, v] 0 rest).map (UInt8.ofNat (a * 4 + v / 16) :: ·)
      | some v, [a, b] =>
        (base64From [a, b, v] 0 rest).map (UInt8.ofNat (b % 16 * 16 + v / 4) :: ·)
      | some v, _ :: _ :: c :: _ => (base64From [] 0 rest).map (UInt8.ofNat (c % 4 * 64 + v) :: ·)

/-- The bytes that a text writes, none if its last group is incomplete. -/
def base64? (text : List Char) : Option (List UInt8) :=
  base64From [] 0 text

/-- The character of the alphabet with a value. -/
def base64Char (value : Nat) : Char :=
  if value < 26 then Char.ofNat ('A'.toNat + value)
  else if value < 52 then Char.ofNat ('a'.toNat + (value - 26))
  else if value < 62 then Char.ofNat ('0'.toNat + (value - 52))
  else if value = 62 then '+'
  else '/'

/-- The text that writes bytes, its last group padded to four characters. -/
def base64 : List UInt8 → List Char
  | [] => []
  | [a] => [base64Char (a.toNat / 4), base64Char (a.toNat % 4 * 16), '=', '=']
  | [a, b] =>
    [base64Char (a.toNat / 4), base64Char (a.toNat % 4 * 16 + b.toNat / 16),
      base64Char (b.toNat % 16 * 4), '=']
  | a :: b :: c :: rest =>
    base64Char (a.toNat / 4) :: base64Char (a.toNat % 4 * 16 + b.toNat / 16)
      :: base64Char (b.toNat % 16 * 4 + c.toNat / 64) :: base64Char (c.toNat % 64) :: base64 rest

example : base64 [104, 101, 108, 108, 111] = "aGVsbG8=".toList := by decide

example : base64? "aGVsbG8=\n".toList = some ("hello".toList.map fun c => UInt8.ofNat c.toNat) := by
  decide

end ApiBindings.Text

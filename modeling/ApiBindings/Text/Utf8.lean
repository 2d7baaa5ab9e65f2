import ApiBindings.Text.CodePoint

/-!
# Text as bytes

The contents of files are texts in UTF-8, in which half of a surrogate pair cannot be written. The
names of files are bytes: those that are no UTF-8 are held as halves, one for each byte, and so only
these halves can stand in a name.
-/

namespace ApiBindings.Text

/-- The text that bytes write, none if they are no UTF-8. -/
def ofUtf8? (bytes : ByteArray) : Option (List Char) :=
  (String.fromUTF8? bytes).map fun text => ofCharacters text.toList

/-- The bytes that write a text, none if it holds half of a surrogate pair. -/
def toUtf8? (text : List Char) : Option ByteArray :=
  if hasHalf text then none else some (String.ofList ((codes text).map Char.ofNat)).toUTF8

/-- A string of characters as a text holds it. -/
def held (characters : String) : String :=
  .ofList (ofCharacters characters.toList)

/-- The characters of a text; half of a surrogate pair is left out. -/
def released (text : String) : String :=
  .ofList (((codes text.toList).filter fun code => !isHalf code).map Char.ofNat)

/-- Whether a code point stands for a byte of a name that is no UTF-8. -/
def isNameByte (code : Nat) : Bool :=
  0xDC80 ≤ code && code < 0xDD00

/-- Whether a text can be the name of a file. -/
def isFileName (text : List Char) : Bool :=
  (codes text).all fun code => !isHalf code || isNameByte code

/-- The number of bytes that a code point takes in a name. -/
def nameBytes (code : Nat) : Nat :=
  if code < 0x80 ∨ isNameByte code then 1
  else if code < 0x800 then 2
  else if code < 0x10000 then 3
  else 4

/-- The number of bytes that a name takes. -/
def nameSize (text : List Char) : Nat :=
  (codes text).foldl (fun size code => size + nameBytes code) 0

example : nameSize "aé€".toList = 6 := by decide

end ApiBindings.Text

import ApiBindings.Text.CodePoint
import ApiBindings.Text.Digit
import ApiBindings.Text.Printable

/-!
# Quoted text in messages

How a message shows a text or a byte string: between apostrophes, or between quotation marks when
only apostrophes occur inside; a character that cannot be printed is shown by its number.
-/

namespace ApiBindings.Text

/-- The quote put around a text: an apostrophe unless the text has apostrophes and no quotation
mark. -/
def quoteFor (text : List Char) : Char :=
  if text.contains '\'' && !text.contains '"' then '"' else '\''

/-- A code point shown by its number, in the shortest of the three notations. -/
def numbered (code : Nat) : List Char :=
  if code < 0x100 then '\\' :: 'x' :: hex 2 code
  else if code < 0x10000 then '\\' :: 'u' :: hex 4 code
  else '\\' :: 'U' :: hex 8 code

/-- A code point inside quoted text. -/
def quotedCode (quote : Char) (code : Nat) : List Char :=
  let c := Char.ofNat code
  if c = quote ∨ c = '\\' then ['\\', c]
  else if c = '\t' then ['\\', 't']
  else if c = '\n' then ['\\', 'n']
  else if c = '\r' then ['\\', 'r']
  else if isPrintable code then [c]
  else numbered code

/-- A text as a message shows it. -/
def quoted (text : List Char) : List Char :=
  let quote := quoteFor text
  quote :: (codes text).flatMap (quotedCode quote) ++ [quote]

/-- A byte inside a quoted byte string: as the ASCII character it is, or by its number. -/
def quotedByte (quote : Char) (byte : UInt8) : List Char :=
  if byte < 0x80 then quotedCode quote byte.toNat else numbered byte.toNat

/-- A byte string as a message shows it: marked with a `b`, all bytes beyond ASCII by number. -/
def quotedBytes (bytes : List UInt8) : List Char :=
  let quote := quoteFor (bytes.map fun byte => Char.ofNat byte.toNat)
  'b' :: quote :: bytes.flatMap (quotedByte quote) ++ [quote]

/-- A string as a message shows it. -/
def quotedString (text : String) : String :=
  .ofList (quoted text.toList)

example : quotedString "it's" = "\"it's\"" := by decide

example : quotedString "a'b\"\n" = "'a\\'b\"\\n'" := by decide

end ApiBindings.Text

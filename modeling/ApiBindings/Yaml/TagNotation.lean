import ApiBindings.Decimal.Numeral
import ApiBindings.Text.Digit
import ApiBindings.Yaml.Cursor

/-!
# Tags, anchors and directives

The notations that begin with `!`, `&`, `*` and `%`. A tag is a handle and a suffix, or a suffix alone
when it is written verbatim or is the lone exclamation mark.
-/

namespace ApiBindings.Yaml

/-- What a directive line says. -/
inductive Directive where
  | version (major : Nat)
  | handle (handle : String) (meaning : String)
  | other
  deriving DecidableEq, Repr

/-- Whether a character may stand in the suffix of a tag as itself. -/
def isUriChar (c : Char) : Bool :=
  c.isAlphanum || "-;/?:@&=+$,_.!~*'()[]".toList.contains c

namespace Scan

/-- Reads a non-empty word. -/
def word : Scan (List Char) := do
  match ← takeWhile isWordChar with
  | [] => malformed
  | read => return read

/-- The characters that may directly follow the name of an anchor or an alias, blanks apart. -/
def anchorEnds : List Char :=
  ['?', ':', ',', ']', '}', '%', '@', '\x60']

/-- Reads the name of an anchor or an alias after its indicator. -/
def anchorName : Scan String := do
  skip 1
  let name ← word
  require fun next => endsWord next || next.any anchorEnds.contains
  return .ofList name

/-- Reads the bytes of percent escapes that stand side by side. -/
def percentBytes : Nat → List UInt8 → Scan (List UInt8)
  | 0, read => return read
  | fuel + 1, read => do
    if (← peek) == some '%' then
      skip 1
      match (← take 2).map Text.hexValue? with
      | [some high, some low] => percentBytes fuel (read ++ [UInt8.ofNat (high * 16 + low)])
      | _ => malformed
    else
      return read

/-- Reads characters and percent escapes as long as they may stand in a tag. -/
def uriText : Nat → List Char → Scan (List Char)
  | 0, read => return read
  | fuel + 1, read => do
    let read := read ++ (← takeWhile isUriChar)
    if (← peek) == some '%' then
      let bytes ← percentBytes (← get).fuel []
      match String.fromUTF8? ⟨bytes.toArray⟩ with
      | some text => uriText fuel (read ++ text.toList)
      | none => malformed
    else
      return read

/-- Reads the suffix of a tag, which is not empty. -/
def uri : Scan String := do
  let start := (← get).index
  let read ← uriText (← get).fuel []
  if (← get).index == start then malformed
  return .ofList read

/-- Reads a tag handle: `!`, `!!` or a word between two exclamation marks. -/
def tagHandle : Scan String := do
  require (· == some '!')
  skip 1
  if (← peek) == some ' ' then return "!"
  let name ← takeWhile isWordChar
  require (· == some '!')
  skip 1
  return .ofList ('!' :: name ++ ['!'])

/-- Whether a tag has a second exclamation mark before the next blank. -/
def hasHandle (rest : List Char) : Bool :=
  (rest.takeWhile fun c => !endsField (some c)).contains '!'

/-- Reads a tag: its handle, unless it needs none, and its suffix. -/
def tag : Scan (Option String × String) := do
  let value : Option String × String ← match ← peekAt 1 with
    | some '<' => do
      skip 2
      let suffix ← uri
      require (· == some '>')
      skip 1
      pure (none, suffix)
    | next =>
      if endsWord next then do
        skip 1
        pure (none, "!")
      else if hasHandle ((← get).rest.drop 1) then do
        let handle ← tagHandle
        pure (some handle, ← uri)
      else do
        skip 1
        pure (some "!", ← uri)
  require endsField
  return value

/-- Reads a decimal number, which must not have too many digits. -/
def decimal : Scan Nat := do
  match ← takeWhile Char.isDigit with
  | [] => malformed
  | digits =>
    if Numeral.digitLimit < digits.length then throw .noSuchNumber
    return digits.foldl (fun sum c => sum * 10 + (c.toNat - '0'.toNat)) 0

/-- Reads a version number and gives its first part. -/
def version : Scan Nat := do
  skipWhile (· == ' ')
  let major ← decimal
  require (· == some '.')
  skip 1
  let _ ← decimal
  require endsField
  return major

/-- Reads a handle and what it stands for. -/
def handleMeaning : Scan Directive := do
  skipWhile (· == ' ')
  let handle ← tagHandle
  require (· == some ' ')
  skipWhile (· == ' ')
  let meaning ← uri
  require endsField
  return .handle handle meaning

/-- Reads a directive line from its percent sign on. -/
def directive : Scan Directive := do
  skip 1
  let name ← word
  require endsField
  let read ←
    if name == "YAML".toList then do
      pure (Directive.version (← version))
    else if name == "TAG".toList then
      handleMeaning
    else do
      skipWhile (!isBreak ·)
      pure .other
  restOfLine
  return read

end Scan

end ApiBindings.Yaml

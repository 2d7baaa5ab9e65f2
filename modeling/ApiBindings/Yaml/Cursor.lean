import ApiBindings.Yaml.Fault

/-!
# Places in a YAML text

A cursor is a place in a text: what is still to be read, how many characters were read, and the line
and column, which indentation and simple keys depend on. A `Scan` reads from a cursor and may fail.
-/

namespace ApiBindings.Yaml

/-- Whether a character ends a line. -/
def isBreak (c : Char) : Bool :=
  c == '\n' || c == '\r' || c == '\x85' || c == '\u2028' || c == '\u2029'

/-- Whether a line ends before the given next character, `none` being the end of the text. -/
def endsLine : Option Char → Bool
  | none => true
  | some c => isBreak c

/-- Whether the next character is a space or the end of a line. -/
def endsField : Option Char → Bool
  | some ' ' => true
  | next => endsLine next

/-- Whether the next character is a blank or the end of a line. -/
def endsWord : Option Char → Bool
  | some '\t' => true
  | next => endsField next

/-- Whether a character may stand in the name of an anchor, a directive or a tag handle. -/
def isWordChar (c : Char) : Bool :=
  c.isAlphanum || c == '-' || c == '_'

/-- A place in a text of `size` characters. -/
structure Cursor where
  rest : List Char
  size : Nat
  index : Nat
  line : Nat
  column : Nat

namespace Cursor

/-- The start of a text. -/
def ofText (text : List Char) : Cursor := ⟨text, text.length, 0, 0, 0⟩

/-- The next character. -/
def peek (cursor : Cursor) : Option Char :=
  cursor.rest.head?

/-- The character `offset` places ahead. -/
def peekAt (cursor : Cursor) (offset : Nat) : Option Char :=
  (cursor.rest.drop offset).head?

/-- The place one character on. A carriage return ends a line unless a line feed follows; a byte order
mark takes no column. -/
def next (cursor : Cursor) : Cursor :=
  match cursor.rest with
  | [] => cursor
  | c :: rest =>
    if isBreak c && !(c == '\r' && rest.head? == some '\n') then
      ⟨rest, cursor.size, cursor.index + 1, cursor.line + 1, 0⟩
    else
      let column := if c = '\uFEFF' then cursor.column else cursor.column + 1
      ⟨rest, cursor.size, cursor.index + 1, cursor.line, column⟩

/-- The place some characters on. -/
def advance (cursor : Cursor) : Nat → Cursor
  | 0 => cursor
  | n + 1 => cursor.next.advance n

/-- Whether a document marker stands here: three hyphens or three dots, then a blank or the end of the
line. -/
def atDocumentMarker (cursor : Cursor) : Bool :=
  let mark := cursor.rest.take 3
  (mark == ['-', '-', '-'] || mark == ['.', '.', '.']) && endsWord (cursor.peekAt 3)

/-- More steps than a loop that reads at least one character each time can take. -/
def fuel (cursor : Cursor) : Nat :=
  cursor.size - cursor.index + 1

end Cursor

/-- A reading of a text from a place on. -/
abbrev Scan := StateT Cursor (Except Fault)

namespace Scan

/-- The text is not well-formed here. -/
def malformed {α : Type} : Scan α :=
  throw .malformed

/-- The next character, which stays unread. -/
def peek : Scan (Option Char) := do
  return (← get).peek

/-- The character some places ahead, which stays unread. -/
def peekAt (offset : Nat) : Scan (Option Char) := do
  return (← get).peekAt offset

/-- Skips some characters. -/
def skip (count : Nat) : Scan Unit :=
  modify (·.advance count)

def take (count : Nat) : Scan (List Char) := do
  let read := (← get).rest.take count
  skip count
  return read

/-- Reads characters as long as they are of a class. -/
def takeWhile (p : Char → Bool) : Scan (List Char) := do
  let read := (← get).rest.takeWhile p
  skip read.length
  return read

/-- Skips characters as long as they are of a class. -/
def skipWhile (p : Char → Bool) : Scan Unit := do
  let _ ← takeWhile p

/-- Fails unless the next character is as required. -/
def require (p : Option Char → Bool) : Scan Unit := do
  unless p (← peek) do malformed

/-- Reads a line break, if one stands here: all breaks read as line feeds but the two Unicode
separators. -/
def lineBreak : Scan (List Char) := do
  match (← get).rest with
  | '\r' :: '\n' :: _ =>
    skip 2
    return ['\n']
  | c :: _ =>
    if c == '\u2028' || c == '\u2029' then
      skip 1
      return [c]
    else if isBreak c then
      skip 1
      return ['\n']
    else
      return []
  | [] => return []

/-- Skips a comment up to the end of its line, if one starts here. -/
def comment : Scan Unit := do
  if (← peek) == some '#' then skipWhile (!isBreak ·)

/-- Skips what may follow a header on its line: spaces, a comment and the line break. -/
def restOfLine : Scan Unit := do
  skipWhile (· == ' ')
  comment
  require endsLine
  let _ ← lineBreak

end Scan

end ApiBindings.Yaml

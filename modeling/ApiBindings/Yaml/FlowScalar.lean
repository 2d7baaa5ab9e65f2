import ApiBindings.Text.CodePoint
import ApiBindings.Text.Digit
import ApiBindings.Yaml.Cursor

/-!
# Plain and quoted scalars

Scalars that flow over lines: a single line break between their words is read as a space, further ones
are kept. Plain scalars end at an indicator, a comment or a smaller indentation; quoted ones at their
quote.
-/

namespace ApiBindings.Yaml

/-- Whether a character is an indicator inside flow collections. -/
def isFlowIndicator (c : Char) : Bool :=
  c == ',' || c == '[' || c == ']' || c == '{' || c == '}'

/-- Whether a colon before the given next character ends a plain scalar. -/
def colonEnds (inFlow : Bool) (next : Option Char) : Bool :=
  endsWord next || (inFlow && next.any isFlowIndicator)

/-- The length of the first word of a plain scalar. -/
def plainLength (inFlow : Bool) : List Char → Nat
  | [] => 0
  | c :: rest =>
    if endsWord (some c) || (c == ':' && colonEnds inFlow rest.head?)
        || (inFlow && (c == '?' || isFlowIndicator c)) then 0
    else plainLength inFlow rest + 1

namespace Scan

/-- Reads the line breaks that follow one inside a plain scalar, skipping indentation; `none` if a
document marker comes first. -/
def plainBreaks : Nat → List Char → Scan (Option (List Char))
  | 0, read => return some read
  | fuel + 1, read => do
    skipWhile (· == ' ')
    match ← lineBreak with
    | [] => return some read
    | broken =>
      if (← get).atDocumentMarker then return none
      plainBreaks fuel (read ++ broken)

/-- What a line break and the breaks after it stand for: alone it is a space. -/
def folded (first further : List Char) : List Char :=
  if first ≠ ['\n'] then first ++ further
  else if further.isEmpty then [' ']
  else further

/-- Reads the space between two words of a plain scalar; tells also whether it held a line break. -/
def plainSpace : Scan (List Char × Bool) := do
  let spaces ← takeWhile (· == ' ')
  match ← lineBreak with
  | [] => return (spaces, false)
  | first =>
    if (← get).atDocumentMarker then return ([], true)
    match ← plainBreaks (← get).fuel [] with
    | none => return ([], true)
    | some further => return (folded first further, true)

/-- Reads further words of a plain scalar whose text so far is `read`, followed by `space`. -/
def plainWords (inFlow : Bool) (indent : Int) :
    Nat → List Char → List Char → Bool → Scan (List Char × Bool)
  | 0, read, _, broken => return (read, broken)
  | fuel + 1, read, space, broken => do
    let length := plainLength inFlow (← get).rest
    if (← peek) == some '#' || length == 0 then
      return (read, broken)
    let read := read ++ space ++ (← take length)
    let (space, broken) ← plainSpace
    let column : Int := (← get).column
    if space.isEmpty || (!inFlow && column < indent) then
      return (read, broken)
    plainWords inFlow indent fuel read space broken

/-- Reads a plain scalar; tells also whether the reading ended after a line break. Outside flow
collections its lines stand at `indent` or deeper. -/
def plain (inFlow : Bool) (indent : Int) : Scan (List Char × Bool) := do
  plainWords inFlow indent (← get).fuel [] [] false

/-- Reads the line breaks inside a quoted scalar, skipping blanks; a document marker must not come
first. -/
def quotedBreaks : Nat → List Char → Scan (List Char)
  | 0, read => return read
  | fuel + 1, read => do
    if (← get).atDocumentMarker then malformed
    skipWhile fun c => c == ' ' || c == '\t'
    match ← lineBreak with
    | [] => return read
    | broken => quotedBreaks fuel (read ++ broken)

/-- Reads the space between two words of a quoted scalar. -/
def quotedSpace : Scan (List Char) := do
  let spaces ← takeWhile fun c => c == ' ' || c == '\t'
  if (← peek).isNone then malformed
  match ← lineBreak with
  | [] => return spaces
  | first => return folded first (← quotedBreaks (← get).fuel [])

/-- The character that an escape of one letter stands for. -/
def escaped? : Char → Option Char
  | '0' => some '\x00'
  | 'a' => some '\x07'
  | 'b' => some '\x08'
  | 't' => some '\t'
  | '\t' => some '\t'
  | 'n' => some '\n'
  | 'v' => some '\x0b'
  | 'f' => some '\x0c'
  | 'r' => some '\r'
  | 'e' => some '\x1b'
  | ' ' => some ' '
  | '"' => some '"'
  | '\\' => some '\\'
  | '/' => some '/'
  | 'N' => some '\x85'
  | '_' => some '\xa0'
  | 'L' => some '\u2028'
  | 'P' => some '\u2029'
  | _ => none

/-- The number of digits that follow an escape letter. -/
def escapeWidth? : Char → Option Nat
  | 'x' => some 2
  | 'u' => some 4
  | 'U' => some 8
  | _ => none

/-- Reads a number of hexadecimal digits. -/
def hexNumber (width : Nat) : Scan Nat := do
  let digits ← take width
  if digits.length < width then malformed
  match digits.mapM Text.hexValue? with
  | some values => return values.foldl (fun sum value => sum * 16 + value) 0
  | none => malformed

/-- Reads an escape sequence after its backslash. One that gives a number can write half of a surrogate
pair. -/
def escapeSequence : Scan (List Char) := do
  match ← peek with
  | none => malformed
  | some c =>
    if let some plain := escaped? c then
      skip 1
      return [plain]
    else if let some width := escapeWidth? c then
      skip 1
      let code ← hexNumber width
      if 0x10FFFF < code then throw (.noSuchCharacter code)
      return Text.ofCode code
    else if isBreak c then
      let _ ← lineBreak
      quotedBreaks (← get).fuel []
    else
      malformed

/-- Whether a character can stand in a word of a quoted scalar as itself. -/
def isQuotedWordChar (c : Char) : Bool :=
  !(c == '\'' || c == '"' || c == '\\' || endsWord (some c))

/-- Reads a word of a quoted scalar, as a text that may hold what escapes write. -/
def quotedWord (double : Bool) : Nat → List Char → Scan (List Char)
  | 0, read => return read
  | fuel + 1, read => do
    let read := read ++ Text.ofCharacters (← takeWhile isQuotedWordChar)
    match ← peek with
    | some '\'' =>
      if double then
        skip 1
        quotedWord double fuel (read ++ ['\''])
      else if (← peekAt 1) == some '\'' then
        skip 2
        quotedWord double fuel (read ++ ['\''])
      else
        return read
    | some '"' =>
      if double then
        return read
      else
        skip 1
        quotedWord double fuel (read ++ ['"'])
    | some '\\' =>
      skip 1
      if double then
        quotedWord double fuel (read ++ (← escapeSequence))
      else
        quotedWord double fuel (read ++ ['\\'])
    | _ => return read

/-- Reads a quoted scalar up to its closing quote. -/
def quotedWords (double : Bool) : Nat → List Char → Scan (List Char)
  | 0, _ => malformed
  | fuel + 1, read => do
    let read := read ++ (← quotedWord double (← get).fuel [])
    let quote := if double then '"' else '\''
    if (← peek) == some quote then
      skip 1
      return read
    quotedWords double fuel (read ++ (← quotedSpace))

/-- Reads a quoted scalar from its opening quote on. -/
def quoted (double : Bool) : Scan (List Char) := do
  skip 1
  quotedWords double (← get).fuel []

end Scan

end ApiBindings.Yaml

import ApiBindings.Yaml.BlockScalar
import ApiBindings.Yaml.FlowScalar
import ApiBindings.Yaml.TagNotation

/-!
# Tokens

The tokens of a YAML text. Indentation becomes tokens of its own: a block collection opens where a
line stands deeper than the collection around it and closes where one stands less deep. What turns out
to be a key only at the colon after it, a simple key, has its key token put in front of it then; it
must stand on one line and within 1024 characters.
-/

namespace ApiBindings.Yaml

/-- One token of a text. -/
inductive Token where
  | directive (value : Directive)
  | documentStart
  | documentEnd
  | blockSequenceStart
  | blockMappingStart
  | blockEnd
  | flowSequenceStart
  | flowSequenceEnd
  | flowMappingStart
  | flowMappingEnd
  | blockEntry
  | flowEntry
  | key
  | value
  | alias (name : String)
  | anchor (name : String)
  | tag (handle : Option String) (suffix : String)
  /-- A scalar, whose text may hold half of a surrogate pair; a plain one is not quoted. -/
  | scalar (text : String) (plain : Bool)
  | streamEnd
  deriving DecidableEq, Repr

/-- The tokens read from a text, up to its end or to the fault that stopped the reading. A token counts
as read when it is known whether it begins a simple key. -/
structure Tokens where
  list : List Token
  fault : Option Fault

/-- A place where a simple key may begin. -/
structure SimpleKey where
  /-- The number of tokens in front of it. -/
  tokensBefore : Nat
  /-- Whether a mapping entry must begin there. -/
  required : Bool
  index : Nat
  line : Nat
  column : Nat

/-- Whether a simple key may no longer have begun at the place noted: the line has ended or there is too
much in between. -/
def SimpleKey.isStale (key : SimpleKey) (cursor : Cursor) : Bool :=
  key.line ≠ cursor.line || cursor.index - key.index > 1024

/-- How far the reading of tokens has come. -/
structure TokenReader where
  cursor : Cursor
  /-- The tokens read, latest first. -/
  tokens : List Token
  count : Nat
  /-- The number of flow collections that are open. -/
  flowDepth : Nat
  /-- The indentation of the innermost block collection, `-1` outside of all. -/
  indent : Int
  outerIndents : List Int
  mayStartKey : Bool
  /-- Possible simple keys by the flow depth that they stand in. -/
  simpleKeys : List (Nat × SimpleKey)

/-- A step of the reading of tokens. -/
abbrev ReadTokens := StateT TokenReader (Except Fault)

namespace TokenReader

/-- The reading at the start of a text. -/
def ofText (text : List Char) : TokenReader :=
  ⟨.ofText text, [], 0, 0, -1, [], true, []⟩

end TokenReader

namespace ReadTokens

/-- The text is not well-formed here. -/
def malformed {α : Type} : ReadTokens α :=
  throw .malformed

/-- Reads characters at the place reached. -/
def scan {α : Type} (read : Scan α) : ReadTokens α := do
  let reader ← get
  let (value, cursor) ← (read.run reader.cursor : Except Fault (α × Cursor))
  set { reader with cursor }
  return value

/-- Adds a token at the end. -/
def emit (token : Token) : ReadTokens Unit :=
  modify fun reader => { reader with tokens := token :: reader.tokens, count := reader.count + 1 }

/-- Puts a token behind the first `tokensBefore` ones. -/
def insert (tokensBefore : Nat) (token : Token) : ReadTokens Unit :=
  modify fun reader =>
    let after := reader.count - tokensBefore
    { reader with
      tokens := reader.tokens.take after ++ token :: reader.tokens.drop after
      count := reader.count + 1 }

/-- Whether the reading is inside a flow collection. -/
def inFlow : ReadTokens Bool := do
  return 0 < (← get).flowDepth

/-- Allows or forbids that a simple key begins next. -/
def allowKey (allowed : Bool) : ReadTokens Unit :=
  modify fun reader => { reader with mayStartKey := allowed }

/-- Gives up the possible simple keys that span lines or have become too long. -/
def dropStaleKeys : ReadTokens Unit := do
  let reader ← get
  if reader.simpleKeys.any fun entry => entry.2.isStale reader.cursor && entry.2.required then
    malformed
  set { reader with
    simpleKeys := reader.simpleKeys.filter fun entry => !entry.2.isStale reader.cursor }

/-- Gives up the possible simple key of the current flow depth. -/
def dropKey : ReadTokens Unit := do
  let reader ← get
  if let some key := reader.simpleKeys.lookup reader.flowDepth then
    if key.required then malformed
    set { reader with simpleKeys := reader.simpleKeys.filter fun entry => entry.1 ≠ reader.flowDepth }

/-- Notes that a simple key may begin here. -/
def noteKey : ReadTokens Unit := do
  let reader ← get
  if reader.mayStartKey then
    dropKey
    let column : Int := reader.cursor.column
    let key : SimpleKey := {
      tokensBefore := reader.count
      required := reader.flowDepth == 0 && reader.indent == column
      index := reader.cursor.index
      line := reader.cursor.line
      column := reader.cursor.column }
    modify fun reader => { reader with simpleKeys := (reader.flowDepth, key) :: reader.simpleKeys }

/-- Closes the block collections that are indented deeper than a column. -/
def closeBlocks (column : Int) : ReadTokens Unit :=
  modify fun reader =>
    if 0 < reader.flowDepth then reader
    else
      let indents := reader.indent :: reader.outerIndents
      let closed := (indents.takeWhile (column < ·)).length
      let left := indents.drop closed
      { reader with
        tokens := List.replicate closed .blockEnd ++ reader.tokens
        count := reader.count + closed
        indent := left.headD (-1)
        outerIndents := left.tail }

/-- Opens a block collection at a column if none is that deep yet; tells whether it did. -/
def openBlock (column : Nat) : ReadTokens Bool := do
  let reader ← get
  if reader.indent < column then
    set { reader with indent := column, outerIndents := reader.indent :: reader.outerIndents }
    return true
  return false

/-- Skips spaces, comments and line breaks; after a break outside flow collections a simple key may
begin. -/
def skipBlank : Nat → ReadTokens Unit
  | 0 => return
  | fuel + 1 => do
    scan (Scan.skipWhile (· == ' '))
    scan Scan.comment
    match ← scan Scan.lineBreak with
    | [] => return
    | _ =>
      unless ← inFlow do allowKey true
      skipBlank fuel

def endOfText : ReadTokens Unit := do
  closeBlocks (-1)
  dropKey
  emit .streamEnd

/-- Reads a directive or a document marker; block collections do not go on across it. -/
def documentLevel (read : Scan Token) : ReadTokens Unit := do
  closeBlocks (-1)
  dropKey
  allowKey false
  emit (← scan read)

/-- Opens a flow collection, which may as a whole be a simple key. -/
def openFlow (token : Token) : ReadTokens Unit := do
  noteKey
  modify fun reader => { reader with flowDepth := reader.flowDepth + 1 }
  allowKey true
  scan (Scan.skip 1)
  emit token

/-- Closes a flow collection. -/
def closeFlow (token : Token) : ReadTokens Unit := do
  dropKey
  modify fun reader => { reader with flowDepth := reader.flowDepth - 1 }
  allowKey false
  scan (Scan.skip 1)
  emit token

/-- Reads the comma of a flow collection. -/
def flowComma : ReadTokens Unit := do
  allowKey true
  dropKey
  scan (Scan.skip 1)
  emit .flowEntry

/-- Opens a block collection with an indicator at the current column, which must be one where a key
may begin. -/
def openAtIndicator (token : Token) : ReadTokens Unit := do
  unless ← inFlow do
    unless (← get).mayStartKey do malformed
    if ← openBlock (← get).cursor.column then emit token

/-- Reads the hyphen of a sequence entry. -/
def sequenceEntry : ReadTokens Unit := do
  openAtIndicator .blockSequenceStart
  allowKey true
  dropKey
  scan (Scan.skip 1)
  emit .blockEntry

/-- Reads the question mark of a mapping key. -/
def explicitKey : ReadTokens Unit := do
  openAtIndicator .blockMappingStart
  allowKey !(← inFlow)
  dropKey
  scan (Scan.skip 1)
  emit .key

/-- Reads the colon of a mapping value. If a simple key was possible, it is one, and its tokens are put
in front of it. -/
def mappingValue : ReadTokens Unit := do
  let reader ← get
  match reader.simpleKeys.lookup reader.flowDepth with
  | some key =>
    set { reader with simpleKeys := reader.simpleKeys.filter fun entry => entry.1 ≠ reader.flowDepth }
    insert key.tokensBefore .key
    unless ← inFlow do
      if ← openBlock key.column then insert key.tokensBefore .blockMappingStart
    allowKey false
  | none =>
    openAtIndicator .blockMappingStart
    allowKey !(← inFlow)
    dropKey
  scan (Scan.skip 1)
  emit .value

/-- Reads a token that may begin a simple key. -/
def keyStart (read : Scan Token) : ReadTokens Unit := do
  noteKey
  allowKey false
  emit (← scan read)

def plainScalar : ReadTokens Unit := do
  noteKey
  let reader ← get
  let (text, broken) ← scan (Scan.plain (0 < reader.flowDepth) (reader.indent + 1))
  allowKey broken
  emit (.scalar (.ofList (Text.ofCharacters text)) true)

def blockScalar (fold : Bool) : ReadTokens Unit := do
  allowKey true
  dropKey
  let text ← scan (Scan.block fold (← get).indent)
  emit (.scalar (.ofList (Text.ofCharacters text)) false)

/-- The characters with a meaning of their own at the beginning of a token. -/
def indicators : List Char :=
  ['-', '?', ':', ',', '[', ']', '{', '}', '#', '&', '*', '!', '|', '>', '\'', '"', '%', '@', '\x60']

/-- Whether a plain scalar may begin with the character before the given next one. -/
def startsPlain (inFlow : Bool) (c : Char) (next : Option Char) : Bool :=
  !(endsWord (some c) || indicators.contains c)
    || (!endsWord next && (c == '-' || (!inFlow && (c == '?' || c == ':'))))

/-- Reads the next tokens; tells whether the text goes on. -/
def step : ReadTokens Bool := do
  if (← get).cursor.index == 0 && (← get).cursor.peek == some '\uFEFF' then scan (Scan.skip 1)
  skipBlank (← get).cursor.fuel
  dropStaleKeys
  closeBlocks (← get).cursor.column
  let cursor := (← get).cursor
  let flow ← inFlow
  let next := cursor.peekAt 1
  match cursor.peek with
  | none =>
    endOfText
    return false
  | some c =>
    if c == '%' && cursor.column == 0 then
      documentLevel (Token.directive <$> Scan.directive)
    else if cursor.column == 0 && cursor.atDocumentMarker then
      documentLevel do
        Scan.skip 3
        return if c == '-' then .documentStart else .documentEnd
    else if c == '[' then openFlow .flowSequenceStart
    else if c == '{' then openFlow .flowMappingStart
    else if c == ']' then closeFlow .flowSequenceEnd
    else if c == '}' then closeFlow .flowMappingEnd
    else if c == ',' then flowComma
    else if c == '-' && endsWord next then sequenceEntry
    else if c == '?' && (flow || endsWord next) then explicitKey
    else if c == ':' && (flow || endsWord next) then mappingValue
    else if c == '*' then keyStart (Token.alias <$> Scan.anchorName)
    else if c == '&' then keyStart (Token.anchor <$> Scan.anchorName)
    else if c == '!' then keyStart ((fun read => Token.tag read.1 read.2) <$> Scan.tag)
    else if c == '|' && !flow then blockScalar false
    else if c == '>' && !flow then blockScalar true
    else if c == '\'' || c == '"' then
      keyStart ((fun read => Token.scalar (.ofList read) false) <$> Scan.quoted (c == '"'))
    else if startsPlain flow c next then plainScalar
    else malformed
    return true

end ReadTokens

/-- The number of tokens in front of the first that may still begin a simple key. -/
def TokenReader.settled (reader : TokenReader) : Nat :=
  reader.simpleKeys.foldl
    (fun settled entry =>
      if entry.2.isStale reader.cursor then settled else min settled entry.2.tokensBefore)
    reader.count

/-- Reads tokens to the end of the text or to a fault. -/
def TokenReader.finish : Nat → TokenReader → Tokens
  | 0, reader => ⟨reader.tokens.reverse, some .malformed⟩
  | fuel + 1, reader =>
    match ReadTokens.step.run reader with
    | .ok (true, reader) => finish fuel reader
    | .ok (false, reader) => ⟨reader.tokens.reverse, none⟩
    | .error fault => ⟨reader.tokens.reverse.take reader.settled, some fault⟩

/-- The tokens of a text. Every step but the last reads a character. -/
def Tokens.ofText (text : List Char) : Tokens :=
  (TokenReader.ofText text).finish (text.length + 2)

end ApiBindings.Yaml

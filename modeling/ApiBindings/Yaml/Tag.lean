import ApiBindings.Naming.Identifier

/-!
# Tags and implicit types

The types that a node can have. A plain scalar without a tag has the type that its text looks like:
a truth value, a number, null, a time, the merge key, the default key, a lone indicator, or else text.
-/

namespace ApiBindings.Yaml

/-- The type of a node. -/
inductive Tag where
  | null
  | bool
  | int
  | float
  | binary
  | timestamp
  | orderedMap
  | pairs
  | set
  | str
  | seq
  | map
  | merge
  | default
  | unknown
  deriving DecidableEq, Repr

namespace Tag

/-- The common beginning of the names of the known types. -/
def namespaceText : String := "tag:yaml.org,2002:"

/-- The known types by the last part of their names. -/
def known : List (String × Tag) :=
  [("null", .null), ("bool", .bool), ("int", .int), ("float", .float), ("binary", .binary),
   ("timestamp", .timestamp), ("omap", .orderedMap), ("pairs", .pairs), ("set", .set),
   ("str", .str), ("seq", .seq), ("map", .map), ("merge", .merge), ("value", .default)]

/-- The type with a full name. -/
def ofName (name : String) : Tag :=
  ((known.find? fun entry => namespaceText ++ entry.1 == name).map Prod.snd).getD .unknown

/-- The words for truth values, in the spellings that need no tag. -/
def boolWords : List String :=
  ["yes", "Yes", "YES", "no", "No", "NO", "true", "True", "TRUE", "false", "False", "FALSE",
   "on", "On", "ON", "off", "Off", "OFF"]

def nullWords : List String :=
  ["~", "null", "Null", "NULL"]

/-- The texts of the type that YAML's own indicators have, which has no values. -/
def indicatorWords : List String :=
  ["!", "&", "*"]

/-- The text without one sign in front. -/
def dropSign : List Char → List Char
  | '+' :: rest => rest
  | '-' :: rest => rest
  | text => text

/-- Whether a character is a decimal digit or an underscore. -/
def isDigitOrBar (c : Char) : Bool :=
  c.isDigit || c == '_'

/-- Whether a text is a digit followed by digits and underscores. -/
def isDigits : List Char → Bool
  | [] => false
  | c :: rest => c.isDigit && rest.all isDigitOrBar

/-- Whether a text is a non-empty run of a class of characters and underscores. -/
def isRun (p : Char → Bool) (text : List Char) : Bool :=
  !text.isEmpty && text.all fun c => p c || c == '_'

/-- Whether a text is empty or an exponent, which needs a sign and digits. -/
def isExponent : List Char → Bool
  | [] => true
  | e :: sign :: digits =>
    (e == 'e' || e == 'E') && (sign == '+' || sign == '-') && !digits.isEmpty
      && digits.all Char.isDigit
  | _ => false

/-- Whether a text is one or two digits below sixty. -/
def isSixtieth : List Char → Bool
  | [c] => c.isDigit
  | [c, d] => '0' ≤ c && c ≤ '5' && d.isDigit
  | _ => false

/-- Whether a text is digits followed by one or more sixtieths, joined by colons; the digits begin
with a digit of the given class. -/
def isSexagesimal (leads : Char → Bool) (text : List Char) : Bool :=
  match text.splitOn ':' with
  | whole :: part :: parts =>
    isDigits whole && whole.head?.any leads && (part :: parts).all isSixtieth
  | _ => false

/-- Whether a text is a whole number in one of the notations: binary, octal, decimal, hexadecimal or
sexagesimal. -/
def looksInt (text : List Char) : Bool :=
  match dropSign text with
  | ['0'] => true
  | '0' :: 'b' :: digits => isRun (fun c => c == '0' || c == '1') digits
  | '0' :: 'x' :: digits => isRun (fun c => c.isDigit || ('a' ≤ c && c ≤ 'f') || ('A' ≤ c && c ≤ 'F')) digits
  | '0' :: digits => isRun (fun c => '0' ≤ c && c ≤ '7') digits
  | digits => isDigits digits || isSexagesimal (fun c => c ≠ '0') digits

/-- Whether a text is a number with a point: decimal with an optional exponent, sexagesimal, infinite
or none. A sign needs a digit in front of the point. -/
def looksFloat (text : List Char) : Bool :=
  let unsigned := dropSign text
  let whole := unsigned.takeWhile (· ≠ '.')
  match unsigned.drop whole.length with
  | [] => false
  | _ :: after =>
    let digits := after.takeWhile isDigitOrBar
    let rest := after.drop digits.length
    let isPlainDecimal :=
      if whole.isEmpty then unsigned == text && isDigits digits else isDigits whole
    (isPlainDecimal && isExponent rest)
      || (isSexagesimal (fun _ => true) whole && rest.isEmpty)
      || (whole.isEmpty && ["inf", "Inf", "INF"].any fun word => word.toList == after)
      || (text.head? == some '.' && ["nan", "NaN", "NAN"].any fun word => word.toList == after)

/-- Whether a text consists of digits, of one of the given counts. -/
def isCount (counts : List Nat) (text : List Char) : Bool :=
  counts.contains text.length && text.all Char.isDigit

/-- Whether a text is an offset from universal time: `Z` or a signed hour with optional minutes. -/
def looksOffset : List Char → Bool
  | ['Z'] => true
  | sign :: rest =>
    (sign == '+' || sign == '-') &&
      match rest.splitOn ':' with
      | [hour] => isCount [1, 2] hour
      | [hour, minute] => isCount [1, 2] hour && isCount [2] minute
      | _ => false
  | [] => false

/-- The three numbers of a day and what follows them. -/
def splitDay (text : List Char) : Option (List Char × List Char × List Char × List Char) :=
  match text.splitOn '-' with
  | year :: month :: day :: more =>
    let rest := List.intercalate ['-'] (day :: more)
    let day := rest.takeWhile Char.isDigit
    some (year, month, day, rest.drop day.length)
  | _ => none

/-- A time of day with its offset, as the texts of its parts. -/
structure ClockText where
  hour : List Char
  minute : List Char
  second : List Char
  fraction : List Char
  offset : List Char

/-- The parts of a time of day, which follows a `T` or blanks. -/
def splitClock (text : List Char) : Option ClockText :=
  let isGap (c : Char) : Bool := c == ' ' || c == '\t'
  let start? :=
    match text with
    | c :: rest => if c == 'T' || c == 't' then some rest
      else if isGap c then some (rest.dropWhile isGap) else none
    | [] => none
  match start? with
  | none => none
  | some start =>
    let hour := start.takeWhile Char.isDigit
    match start.drop hour.length with
    | ':' :: m₁ :: m₂ :: ':' :: s₁ :: s₂ :: rest =>
      let (fraction, rest) :=
        match rest with
        | '.' :: rest => (rest.takeWhile Char.isDigit, rest.dropWhile Char.isDigit)
        | rest => ([], rest)
      let offset := rest.dropWhile isGap
      if isCount [1, 2] hour && isCount [2] [m₁, m₂] && isCount [2] [s₁, s₂]
          && (rest.isEmpty || looksOffset offset) then
        some ⟨hour, [m₁, m₂], [s₁, s₂], fraction, offset⟩
      else none
    | _ => none

/-- Whether a text is a day in full digits, or a day with a time. -/
def looksTimestamp (text : List Char) : Bool :=
  match splitDay text with
  | none => false
  | some (year, month, day, rest) =>
    isCount [4] year &&
      if rest.isEmpty then isCount [2] month && isCount [2] day
      else isCount [1, 2] month && isCount [1, 2] day && (splitClock rest).isSome

/-- The type of a scalar that has the type that its text looks like. One line feed at its end does not
count, unless it is all that there is. -/
def ofPlain (text : String) : Tag :=
  let chars := Naming.withoutFinalLineFeed text.toList
  let word := String.ofList chars
  if chars.isEmpty then (if text.isEmpty then .null else .str)
  else if boolWords.contains word then .bool
  else if looksFloat chars then .float
  else if looksInt chars then .int
  else if word == "<<" then .merge
  else if nullWords.contains word then .null
  else if looksTimestamp chars then .timestamp
  else if word == "=" then .default
  else if indicatorWords.contains word then .unknown
  else .str

end Tag

end ApiBindings.Yaml

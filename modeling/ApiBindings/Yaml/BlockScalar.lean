import ApiBindings.Yaml.Cursor

/-!
# Block scalars

Scalars whose lines stand deeper than their surroundings: literal ones keep their line breaks, folded
ones read a break between two unindented lines as a space. The header may fix the indentation and say
which breaks at the end stay.
-/

namespace ApiBindings.Yaml

/-- Which line breaks at the end of a block scalar stay. -/
inductive Chomping where
  | one
  | all
  | none
  deriving DecidableEq, Repr

namespace Scan

/-- Reads a chomping sign, if one stands here. -/
def chomping? : Scan (Option Chomping) := do
  match ← peek with
  | some '+' =>
    skip 1
    return some .all
  | some '-' =>
    skip 1
    return some .none
  | _ => return Option.none

/-- Reads an indentation digit, if one stands here. -/
def indentation? : Scan (Option Nat) := do
  match ← peek with
  | some c =>
    if c.isDigit then
      if c == '0' then malformed
      skip 1
      return some (c.toNat - '0'.toNat)
    else
      return Option.none
  | Option.none => return Option.none

/-- Reads the signs of a block scalar's header, in either order. -/
def blockHeader : Scan (Chomping × Option Nat) := do
  match ← chomping? with
  | some chomping =>
    let indentation ← indentation?
    require endsField
    return (chomping, indentation)
  | Option.none =>
    let indentation ← indentation?
    let chomping ← if indentation.isSome then chomping? else pure Option.none
    require endsField
    return (chomping.getD .one, indentation)

/-- Skips spaces up to a column. -/
def indentTo (column : Nat) : Scan Unit := do
  let cursor ← get
  skip ((cursor.rest.take (column - cursor.column)).takeWhile (· == ' ')).length

/-- Reads blank lines in front of a block scalar and finds the deepest column that they reach. -/
def leadingBreaks : Nat → List Char → Nat → Scan (List Char × Nat)
  | 0, read, deepest => return (read, deepest)
  | fuel + 1, read, deepest => do
    skipWhile (· == ' ')
    let deepest := max deepest (← get).column
    match ← lineBreak with
    | [] => return (read, deepest)
    | broken => leadingBreaks fuel (read ++ broken) deepest

/-- Reads blank lines inside a block scalar, and the indentation after them. -/
def innerBreaks (indent : Nat) : Nat → List Char → Scan (List Char)
  | 0, read => return read
  | fuel + 1, read => do
    indentTo indent
    match ← lineBreak with
    | [] => return read
    | broken => innerBreaks indent fuel (read ++ broken)

/-- Whether a line goes on here: the indentation is reached and the text has not ended. -/
def atBlockLine (indent : Nat) : Scan Bool := do
  let cursor ← get
  return cursor.column == indent && cursor.peek.isSome

/-- Whether the next character is a blank. -/
def atBlank : Scan Bool := do
  let next ← peek
  return next == some ' ' || next == some '\t'

/-- Reads the lines of a block scalar; `breaks` are the blank lines before the next one. The result
is the text without the final break, that break, and the blank lines after it. -/
def blockLines (fold : Bool) (indent : Nat) :
    Nat → List Char → List Char → Scan (List Char × List Char × List Char)
  | 0, read, breaks => return (read, [], breaks)
  | fuel + 1, read, breaks => do
    let startsIndented ← atBlank
    let read := read ++ breaks ++ (← takeWhile (!isBreak ·))
    let lineEnd ← lineBreak
    let breaks ← innerBreaks indent (← get).fuel []
    if ← atBlockLine indent then
      if fold && lineEnd == ['\n'] && !startsIndented && !(← atBlank) then
        blockLines fold indent fuel (if breaks.isEmpty then read ++ [' '] else read) breaks
      else
        blockLines fold indent fuel (read ++ lineEnd) breaks
    else
      return (read, lineEnd, breaks)

/-- Reads a block scalar from its indicator on; `around` is the indentation of the surroundings. -/
def block (fold : Bool) (around : Int) : Scan (List Char) := do
  skip 1
  let (chomping, indentation) ← blockHeader
  restOfLine
  let least := (max (around + 1) 1).toNat
  let (breaks, indent) ← match indentation with
    | some increment => do
      let indent := least + increment - 1
      let breaks ← innerBreaks indent (← get).fuel []
      pure (breaks, indent)
    | Option.none => do
      let (breaks, deepest) ← leadingBreaks (← get).fuel [] 0
      pure (breaks, max least deepest)
  let (read, lineEnd, breaks) ←
    if ← atBlockLine indent then blockLines fold indent (← get).fuel [] breaks
    else pure ([], [], breaks)
  match chomping with
  | .none => return read
  | .one => return read ++ lineEnd
  | .all => return read ++ lineEnd ++ breaks

end Scan

end ApiBindings.Yaml

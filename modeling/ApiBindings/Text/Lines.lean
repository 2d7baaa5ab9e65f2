import ApiBindings.Text.Ranges

/-!
# Lines of free text

A line ends at one of ten characters or at a carriage return with its line feed; the end of the text
ends the last line, and no empty line stands after a final boundary.
-/

namespace ApiBindings.Text

/-- Line feed to carriage return, three information separators, next line, and the two Unicode
separators. -/
def lineBoundaryRanges : List (Nat × Nat) :=
  [(0x0A, 0x0D), (0x1C, 0x1E), (0x85, 0x85), (0x2028, 0x2029)]

/-- Whether a character ends a line. -/
def isLineBoundary (c : Char) : Bool :=
  inRanges lineBoundaryRanges c.toNat

/-- The lines of `text` when the characters `line` (latest first) of the first line are already
read. -/
def linesFrom (line : List Char) : List Char → List (List Char)
  | [] => if line.isEmpty then [] else [line.reverse]
  | '\r' :: '\n' :: rest => line.reverse :: linesFrom [] rest
  | c :: rest =>
    if isLineBoundary c then line.reverse :: linesFrom [] rest else linesFrom (c :: line) rest

/-- The lines of a text, without their boundaries. -/
def lines (text : List Char) : List (List Char) :=
  linesFrom [] text

/-- A text in which a line feed ends every line, where a carriage return, with or without a line feed
behind it, did so before. -/
def withLineFeeds : List Char → List Char
  | [] => []
  | '\r' :: '\n' :: rest => '\n' :: withLineFeeds rest
  | c :: rest => (if c = '\r' then '\n' else c) :: withLineFeeds rest

example : lines "a\r\nb\n\n c\x0c".toList = ["a", "b", "", " c"].map String.toList := by decide

example : withLineFeeds "a\r\nb\rc\n".toList = "a\nb\nc\n".toList := by decide

end ApiBindings.Text

import ApiBindings.Text.CodePoint
import ApiBindings.Text.PrintableTable
import ApiBindings.Text.Ranges

/-!
# Printable characters

Which code points are shown as themselves in quoted text: in ASCII all from the space to the tilde,
beyond it all but halves of surrogate pairs and those that a table of unprintable ranges holds.
-/

namespace ApiBindings.Text

/-- Whether a code point is shown as itself. -/
def isPrintable (code : Nat) : Bool :=
  if code < 0x80 then 0x20 ≤ code && code < 0x7F
  else !isHalf code && !inRanges unprintableRanges code

end ApiBindings.Text

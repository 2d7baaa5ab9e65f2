import ApiBindings.Text.CodePoint

/-!
# File paths

A path is where it starts from and the names that lead on from there. Reading a path drops empty and
`.` components and keeps `..`; a path that begins with exactly two slashes has a root of its own.
Nothing here looks at a disk.
-/

namespace ApiBindings

/-- What a path starts from. -/
inductive Anchor where
  | relative
  | root
  | doubleRoot
  deriving DecidableEq, Repr

/-- The text in front of a path's first name. -/
def Anchor.text : Anchor → String
  | .relative => ""
  | .root => "/"
  | .doubleRoot => "//"

/-- A path: where it starts, and the names to follow. -/
structure FilePath where
  anchor : Anchor
  names : List String
  deriving DecidableEq, Repr

namespace FilePath

/-- What a written path starts from: one slash or three and more are the root, two are not. -/
def anchorOf (text : List Char) : Anchor :=
  match (text.takeWhile (· = '/')).length with
  | 0 => .relative
  | 2 => .doubleRoot
  | _ => .root

/-- Whether a component names something: it is not empty and not the dot that stays in place. -/
def isName (component : List Char) : Bool :=
  !component.isEmpty && component ≠ ['.']

def ofString (text : String) : FilePath :=
  let chars := text.toList
  ⟨anchorOf chars, ((chars.splitOn '/').filter isName).map String.ofList⟩

/-- Writes a path; the empty relative path is the dot. -/
def toString (path : FilePath) : String :=
  match path.anchor, path.names with
  | .relative, [] => "."
  | anchor, names => anchor.text ++ "/".intercalate names

instance : ToString FilePath := ⟨FilePath.toString⟩

/-- The path without its last name; a bare root, like the empty path, is its own parent. -/
def parent (path : FilePath) : FilePath :=
  ⟨path.anchor, path.names.dropLast⟩

/-- The last name, empty when there is none. -/
def name (path : FilePath) : String :=
  path.names.getLast?.getD ""

/-- A name cut before its last dot, unless that dot is the first or the last character; the second
part is the suffix with its dot. -/
def splitSuffix (name : List Char) : List Char × List Char :=
  let tail := name.reverse.takeWhile (· ≠ '.')
  match name.reverse.drop tail.length with
  | '.' :: base => if base.isEmpty || tail.isEmpty then (name, []) else (base.reverse, '.' :: tail.reverse)
  | _ => (name, [])

/-- The last name without its suffix. -/
def stem (path : FilePath) : String :=
  .ofList (splitSuffix path.name.toList).1

/-- The suffix of the last name, with its dot, or the empty text. -/
def suffix (path : FilePath) : String :=
  .ofList (splitSuffix path.name.toList).2

/-- The path followed by another, written one. An absolute one takes its place. -/
def join (path : FilePath) (text : String) : FilePath :=
  let next := ofString text
  match next.anchor with
  | .relative => ⟨path.anchor, path.names ++ next.names⟩
  | _ => next

instance : HDiv FilePath String FilePath := ⟨join⟩

/-- The path of an entry of the directory. -/
def child (path : FilePath) (name : String) : FilePath :=
  ⟨path.anchor, path.names ++ [name]⟩

/-- Whether the first path is the second or leads to it. -/
def covers (outer inner : FilePath) : Bool :=
  outer.anchor = inner.anchor && outer.names.isPrefixOf inner.names

/-- Whether the first path properly leads to the second. -/
def isAncestorOf (outer inner : FilePath) : Bool :=
  outer.covers inner && outer ≠ inner

/-- The components by which paths are ordered: the anchor counts as the first of an absolute path. -/
def components (path : FilePath) : List String :=
  match path.anchor with
  | .relative => path.names
  | anchor => anchor.text :: path.names

/-- Paths ordered component by component, each by code points. -/
def precedes (a b : FilePath) : Bool :=
  Sorting.lexicographic Text.precedes a.components b.components

theorem isOrder_precedes : Sorting.IsOrder precedes :=
  Text.isOrder_precedes.lexicographic.comap components

/-- Paths ordered as one written text, by code points. -/
def textPrecedes (a b : FilePath) : Bool :=
  Text.precedes a.toString b.toString

@[simp] theorem components_inj {a b : FilePath} (h : a.anchor = b.anchor) :
    a.components = b.components ↔ a = b := by
  obtain ⟨anchor, names⟩ := a
  obtain ⟨anchor', names'⟩ := b
  cases h
  cases anchor <;> simp [components]

end FilePath

end ApiBindings

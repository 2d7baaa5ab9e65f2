import ApiBindings.Value.Graph

/-!
# Pointers

A pointer into the same document: `#/` and the keys to follow from the root, joined by slashes. Inside
a key `~1` stands for a slash and `~0` for a tilde.
-/

namespace ApiBindings.Pointer

/-- The key that a segment of a pointer stands for. -/
def decode : List Char → List Char
  | [] => []
  | '~' :: '1' :: rest => '/' :: decode rest
  | '~' :: '0' :: rest => '~' :: decode rest
  | c :: rest => c :: decode rest

/-- The keys that a pointer follows, none if the text is no pointer into the same document. -/
def keys? : List Char → Option (List (List Char))
  | '#' :: '/' :: rest => some ((rest.splitOn '/').map decode)
  | _ => none

/-- The value that keys lead to, mapping by mapping. -/
def follow (graph : Graph) : Value → List (List Char) → Option Value
  | value, [] => some value
  | value, key :: rest =>
    match (graph.entries? value).bind (Entries.field? · (.ofList key)) with
    | some next => follow graph next rest
    | none => none

/-- The mapping that a pointer leads to from the root of a document. -/
def resolve (graph : Graph) (root : Value) (pointer : String) : Option Value :=
  match keys? pointer.toList with
  | none => none
  | some keys => (follow graph root keys).filter fun value => (graph.entries? value).isSome

example : decode "a~01~1b~".toList = "a~1/b~".toList := by decide

end ApiBindings.Pointer

import ApiBindings.Yaml.Node

/-!
# Documents

A text holds at most one document: directives and the marker that begins it may be missing, and only
the marker that ends it may follow. How deep collections nest is limited. Code points that cannot be
printed make the text malformed as a whole.
-/

namespace ApiBindings.Yaml

/-- The nodes of a document; `root` is the number of its topmost node, none if the text is empty. -/
structure NodeDocument where
  nodes : Nodes
  root : Option Nat

/-- Whether a code point may occur in a text. -/
def isTextCode (code : Nat) : Bool :=
  code == 0x09 || code == 0x0A || code == 0x0D || (0x20 ≤ code && code ≤ 0x7E) || code == 0x85
    || (0xA0 ≤ code && code ≤ 0xD7FF) || (0xE000 ≤ code && code ≤ 0xFFFD) || 0x10000 ≤ code

/-- The tag handles that need no directive. -/
def usualHandles : List (String × String) :=
  [("!", "!"), ("!!", Tag.namespaceText)]

namespace ReadNodes

/-- Reads the directives of a document: at most one version, which must be 1, and each handle once. -/
def directives : Nat → Bool → List (String × String) → ReadNodes (List (String × String))
  | 0, _, _ => malformed
  | fuel + 1, versioned, handles => do
    match ← peek with
    | .directive (.version major) =>
      skip
      if versioned || major ≠ 1 then malformed
      directives fuel true handles
    | .directive (.handle handle meaning) =>
      skip
      if (handles.lookup handle).isSome then malformed
      directives fuel versioned ((handle, meaning) :: handles)
    | .directive .other =>
      skip
      directives fuel versioned handles
    | _ => return handles

/-- Passes over markers that end a document. -/
def documentEnds : Nat → ReadNodes Unit
  | 0 => return
  | fuel + 1 => do
    if ← accept .documentEnd then documentEnds fuel

/-- Reads a document that begins with directives or a marker. -/
def explicitDocument (fuel : Nat) : ReadNodes Nat := do
  let handles ← directives fuel false []
  expect .documentStart
  modify fun reader => { reader with handles := handles ++ usualHandles }
  match ← peek with
  | .directive _ => addEmpty
  | .documentStart => addEmpty
  | .documentEnd => addEmpty
  | .streamEnd => addEmpty
  | _ => node .block fuel

/-- Reads the only document of a text. -/
def onlyDocument (fuel : Nat) : ReadNodes (Option Nat) := do
  let root ← match ← peek with
    | .streamEnd => return none
    | .directive _ => explicitDocument fuel
    | .documentStart => explicitDocument fuel
    | _ => node .block fuel
  documentEnds fuel
  match ← peek with
  | .streamEnd => return some root
  | _ =>
    let _ ← directives fuel false []
    malformed

end ReadNodes

/-- How many collections may stand inside each other. -/
def nestingLimit : Nat := 488

/-- The document that a text holds. -/
def NodeDocument.ofText (text : List Char) : Except Fault NodeDocument := do
  let codes := Text.codes text
  unless codes.all isTextCode do throw .malformed
  let tokens := Tokens.ofText (codes.map Char.ofNat)
  let reader : NodeReader := ⟨tokens.list, nestingLimit, tokens.fault, #[], [], usualHandles⟩
  let (root, reader) ← (ReadNodes.onlyDocument (4 * tokens.list.length + 8)).run reader
  return ⟨reader.nodes, root⟩

end ApiBindings.Yaml

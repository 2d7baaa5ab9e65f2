import ApiBindings.Client.Method
import ApiBindings.FilePath

/-!
# Clients

The client class of a document: one method per supported operation, in document order. Methods that
would have the same name are told apart by numbers, and each such change is noted.
-/

namespace ApiBindings

/-- A method that got another name. -/
structure Client.Rename where
  httpMethod : String
  path : String
  name : String
  newName : String
  deriving DecidableEq, Repr

/-- A client class. -/
structure Client where
  className : String
  fileName : String
  baseUrl : String
  methods : List Client.Method
  renames : List Client.Rename

namespace Client

/-- The change of a name, in words. -/
def Rename.message (rename : Rename) : String :=
  Text.upperString rename.httpMethod ++ " " ++ rename.path ++ ": method " ++ rename.name
    ++ " renamed to " ++ rename.newName

def numbered (name : String) (number : Nat) : String :=
  name ++ toString number

/-- The least number from `number` on with which a name is not taken; among as many numbers as there
are taken names, and one more, there is one. -/
def freeNumber (taken : List String) (name : String) : Nat → Nat → Nat
  | 0, number => number
  | fuel + 1, number =>
    if numbered name number ∈ taken then freeNumber taken name fuel (number + 1) else number

/-- Tells methods apart, where the names `seen` have been given and the names `taken` must not be given
anew. -/
def distinguishFrom (seen taken : List String) : List Method → List Method × List Rename
  | [] => ([], [])
  | method :: rest =>
    if method.name ∈ seen then
      let newName := numbered method.name (freeNumber taken method.name (taken.length + 1) 2)
      let (methods, renames) := distinguishFrom (newName :: seen) (newName :: taken) rest
      ({ method with name := newName } :: methods,
        ⟨method.httpMethod, method.path, method.name, newName⟩ :: renames)
    else
      let (methods, renames) := distinguishFrom (method.name :: seen) taken rest
      (method :: methods, renames)

/-- The methods with distinct names: the first of a name keeps it, a later one gets the least number
from 2 on that gives a new name. -/
def distinguish (methods : List Method) : List Method × List Rename :=
  distinguishFrom [] (methods.map Method.name) methods

/-- The methods for the supported operations of a document. -/
def methodsOf (document : Document) : List Method :=
  (document.operations.filter fun operation =>
    Text.lowerString operation.method ∈ supportedMethods).map Method.ofOperation

/-- The name of the client class for a document's file. -/
def classNameFor (path : FilePath) : String :=
  .ofList (Naming.pascalCase path.stem.toList) ++ "Client"

def ofDocument (document : Document) (path : FilePath) : Client :=
  let (methods, renames) := distinguish (methodsOf document)
  ⟨classNameFor path, path.stem, document.baseUrl, methods, renames⟩

end Client

end ApiBindings

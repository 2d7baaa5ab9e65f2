import ApiBindings.Output
import ApiBindings.Text.Quoted

/-!
# File systems

What the generator needs of the place where documents are read and generated files are written, and
the ways in which this can fail. A write that fails can still have changed something, so it always
ends in a state.
-/

namespace ApiBindings

/-- An error of the operating system: its number and its words. -/
structure SystemError where
  number : Nat
  words : String
  deriving DecidableEq, Repr

namespace SystemError

def noSuchFile : SystemError := ⟨2, "No such file or directory"⟩

def fileExists : SystemError := ⟨17, "File exists"⟩

def notDirectory : SystemError := ⟨20, "Not a directory"⟩

def isDirectory : SystemError := ⟨21, "Is a directory"⟩

def nameTooLong : SystemError := ⟨36, "File name too long"⟩

def tooManyLinks : SystemError := ⟨40, "Too many levels of symbolic links"⟩

/-- Whether an error says that a path leads to nothing. -/
def meansAbsent (error : SystemError) : Bool :=
  error = noSuchFile || error = notDirectory || error = tooManyLinks

end SystemError

/-- Why an operation on files fails. -/
inductive FileFault where
  /-- A store has no such directory. -/
  | noDirectory (path : FilePath)
  /-- A store has no such file. -/
  | noFile (path : FilePath)
  /-- A store keeps the path as it is. -/
  | locked (path : FilePath)
  /-- The operating system refuses. -/
  | system (error : SystemError) (path : FilePath)
  /-- The bytes of a file are no text. -/
  | notText
  /-- No file can have such a name: it holds the character 0. -/
  | unusableName
  /-- A text or a name cannot be written in bytes: it holds half of a surrogate pair. -/
  | notEncodable
  /-- Too many directories stand inside each other where files are looked for, or are missing on the way
  to one. -/
  | tooDeep
  deriving DecidableEq, Repr

/-- Why an operation on files fails, in words. -/
def FileFault.message : FileFault → String
  | .noDirectory path => "No such directory: " ++ path.toString
  | .noFile path => "No such file: " ++ path.toString
  | .locked path => "Permission denied: " ++ path.toString
  | .system error path =>
    "[Errno " ++ toString error.number ++ "] " ++ error.words ++ ": " ++ Text.quotedString path.toString
  | .notText => "not UTF-8"
  | .unusableName => "unusable name"
  | .notEncodable => "half of a surrogate pair"
  | .tooDeep => "too many directories inside each other"

/-- A place with files. -/
class FileSystem (σ : Type) where
  /-- The files beneath a directory, in a fixed order. -/
  walk : σ → FilePath → Except FileFault (List FilePath)
  /-- The text of a file. -/
  readText : σ → FilePath → Except FileFault String
  /-- Gives a file a text, whether it exists or not. -/
  writeText : FilePath → String → EStateM FileFault σ Unit
  /-- Makes a directory, unless there is one. -/
  makeDirectory : FilePath → EStateM FileFault σ Unit

namespace Output

variable {σ : Type} [FileSystem σ]

/-- Writes files in order, each after its directory has been made, up to the first failure. -/
def write : Output → EStateM FileFault σ Unit
  | [] => pure ()
  | (path, text) :: rest => do
    FileSystem.makeDirectory path.parent
    FileSystem.writeText path text
    write rest

end Output

end ApiBindings

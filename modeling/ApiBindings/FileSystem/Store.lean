import ApiBindings.FileSystem.Basic
import ApiBindings.Sorting

/-!
# Stores

Files kept in memory. A store knows the directories that have been made, holds a directory also for
being on the way to a file, and keeps every path as it is that a lock covers. Paths are compared as
they are written: `..` names a component like any other.
-/

namespace ApiBindings

/-- Files in memory. -/
structure Store where
  files : Assoc FilePath String := []
  /-- The directories that have been made, each once. -/
  directories : List FilePath := []
  /-- What must stay as it is, together with all beneath it. -/
  locks : List FilePath := []
  deriving DecidableEq, Repr

namespace Store

/-- The store with the text of a file set, whatever is locked. -/
def put (store : Store) (path : FilePath) (text : String) : Store :=
  { store with files := store.files.set path text }

/-- The store without a file. -/
def remove (store : Store) (path : FilePath) : Store :=
  { store with files := store.files.filter (·.1 ≠ path) }

/-- The store with a path locked. -/
def lock (store : Store) (path : FilePath) : Store :=
  { store with locks := store.locks.insert path }

/-- The store with a lock taken off. -/
def unlock (store : Store) (path : FilePath) : Store :=
  { store with locks := store.locks.filter (· ≠ path) }

/-- Whether a path must stay as it is. -/
def isLocked (store : Store) (path : FilePath) : Bool :=
  store.locks.any (·.covers path)

/-- Whether a directory has been made or is on the way to a file. -/
def isDirectory (store : Store) (path : FilePath) : Bool :=
  store.directories.contains path || store.files.keys.any (path.isAncestorOf ·)

/-- The files beneath a directory, ordered component by component. -/
def filesBeneath (store : Store) (directory : FilePath) : List FilePath :=
  Sorting.sorted FilePath.precedes (store.files.keys.filter directory.isAncestorOf)

/-- Changes a store unless a path is locked. -/
def guarded (path : FilePath) (change : Store → Store) : EStateM FileFault Store Unit := do
  if (← get).isLocked path then throw (.locked path)
  modify change

instance : FileSystem Store where
  walk store directory :=
    if store.isDirectory directory then .ok (store.filesBeneath directory)
    else .error (.noDirectory directory)
  readText store path :=
    match store.files.get? path with
    | some text => .ok text
    | none => .error (.noFile path)
  writeText path text := guarded path (·.put path text)
  makeDirectory path :=
    guarded path fun store => { store with directories := store.directories.insert path }

end Store

end ApiBindings

import ApiBindings.FileSystem.Basic
import ApiBindings.Sorting
import ApiBindings.Text.Lines
import ApiBindings.Text.Utf8

/-!
# Disks

A directory tree with files and symbolic links, as an operating system shows it: a path is followed
name by name through the links on its way, and each operation fails with the error that the system
would give. On top of that stands the file system that the generator works on.
-/

namespace ApiBindings

namespace Disk

/-- What a name in a directory stands for. -/
inductive Entry where
  | file (bytes : ByteArray)
  | link (target : String)
  | directory (entries : List (String × Entry))

namespace Entry

/-- The entry that names lead to, links not followed. -/
def at? : List String → Entry → Option Entry
  | [], entry => some entry
  | name :: rest, .directory entries => (Assoc.get? name entries).bind (at? rest)
  | _ :: _, _ => none

/-- The tree with an entry put at the end of the names, if all names before the last are those of
directories. -/
def putAt (new : Entry) : List String → Entry → Entry
  | [], _ => new
  | [name], .directory entries => .directory (Assoc.set name new entries)
  | name :: rest, .directory entries =>
    match Assoc.get? name entries with
    | some inner => .directory (Assoc.set name (putAt new rest inner) entries)
    | none => .directory entries
  | _ :: _, entry => entry

mutual

/-- Everything beneath an entry, with its path, links not followed. -/
def contents (path : FilePath) : Entry → List (FilePath × Entry)
  | .directory entries => contentsOfAll path entries
  | _ => []

/-- The entries of a directory and everything beneath them. -/
def contentsOfAll (path : FilePath) : List (String × Entry) → List (FilePath × Entry)
  | [] => []
  | (name, entry) :: rest =>
    (path.child name, entry) :: entry.contents (path.child name) ++ contentsOfAll path rest

end

end Entry

/-- How many links are followed on the way along one path. -/
def linkLimit : Nat := 40

/-- The greatest length of a name, in bytes. -/
def nameLimit : Nat := 255

/-- The length that a path must stay below, in bytes. -/
def pathLimit : Nat := 4096

/-- How many missing directories are made on the way to one. -/
def missingLimit : Nat := 980

/-- Where a path leads. -/
inductive Place where
  /-- To an entry, given with the names that lead to it from the root. -/
  | entry (location : List String) (entry : Entry)
  /-- To a name that the directory before it does not have. -/
  | vacant (location : List String)

/-- The directory in which the target of a link starts, for a link in the directory `here`. -/
def startOf (target : String) (here : List String) : List String :=
  if target.startsWith "/" then [] else here

/-- The components of a link's target. -/
def componentsOf (target : String) : List String :=
  (target.toList.splitOn '/').map String.ofList

/-- What a path is followed for. -/
inductive Purpose where
  /-- To look at what it leads to. -/
  | look
  /-- To write a file, which is made if there is none; what ends in a slash is none. -/
  | write
  /-- To make an entry, so that a link is not followed if it is the last name. -/
  | make
  deriving DecidableEq

/-- Follows components from a directory. Empty components and dots stay where they are, but only a
directory has anything after it. `links` tells how many links may be followed still. -/
def follow (root : Entry) (purpose : Purpose) (links : Nat) (here : List String) :
    List String → Except SystemError Place
  | [] =>
    match root.at? here with
    | some entry => .ok (.entry here entry)
    | none => .error .noSuchFile
  | name :: rest =>
    if name = "" ∨ name = "." then follow root purpose links here rest
    else if name = ".." then follow root purpose links here.dropLast rest
    else if purpose = .write ∧ !rest.isEmpty ∧ rest.all (·.isEmpty) then .error .isDirectory
    else
      let next := here ++ [name]
      match root.at? next with
      | none =>
        if nameLimit < Text.nameSize name.toList then .error .nameTooLong
        else if rest.isEmpty then .ok (.vacant next)
        else .error .noSuchFile
      | some (.directory _) => follow root purpose links next rest
      | some (.file bytes) =>
        if rest.isEmpty then .ok (.entry next (.file bytes)) else .error .notDirectory
      | some (.link target) =>
        if rest.isEmpty && purpose = .make then .ok (.entry next (.link target))
        else
          match links with
          | 0 => .error .tooManyLinks
          | links + 1 =>
            follow root purpose links (startOf target here) (componentsOf target ++ rest)
  termination_by components => (links, components.length)

end Disk

/-- A directory tree and the place in it where relative paths start. -/
structure Disk where
  root : Disk.Entry
  /-- The names that lead from the root to the working directory. -/
  working : List String := []

namespace Disk

/-- What keeps a text from being a path at all: it cannot be written in bytes, or it holds the character
0, which ends what the system reads. -/
def obstacle? (text : List Char) : Option FileFault :=
  if !Text.isFileName text then some .notEncodable
  else if text.contains '\x00' then some .unusableName
  else none

/-- Where a path leads on a disk. -/
def locate (disk : Disk) (purpose : Purpose) (path : FilePath) : Except FileFault Place :=
  let text := path.toString.toList
  match obstacle? text with
  | some fault => .error fault
  | none =>
    if pathLimit ≤ Text.nameSize text then .error (.system .nameTooLong path)
    else
      let start := if path.anchor = .relative then disk.working else []
      (follow disk.root purpose linkLimit start path.names).mapError (.system · path)

/-- Everything beneath the working directory, with relative paths, links not followed. -/
def contents (disk : Disk) : List (FilePath × Entry) :=
  match disk.root.at? disk.working with
  | some entry => entry.contents ⟨.relative, []⟩
  | none => []

/-- The names in a directory, in order. -/
def namesIn (disk : Disk) (path : FilePath) : Except FileFault (List String) := do
  match ← disk.locate .look path with
  | .entry _ (.directory entries) =>
    return Sorting.sorted Text.precedes (Assoc.keys entries)
  | .entry _ _ => throw (.system .notDirectory path)
  | .vacant _ => throw (.system .noSuchFile path)

/-- What a path leads to: a directory, a file or nothing. -/
inductive Kind where
  | directory
  | file
  | absent
  deriving DecidableEq, Repr

/-- What a path leads to. A name that leads to nothing is no failure, nor is one that no file can have;
one that is too long is. -/
def kind (disk : Disk) (path : FilePath) : Except FileFault Kind :=
  match disk.locate .look path with
  | .ok (.entry _ (.directory _)) => .ok .directory
  | .ok (.entry _ _) => .ok .file
  | .ok (.vacant _) => .ok .absent
  | .error .unusableName => .ok .absent
  | .error .notEncodable => .ok .absent
  | .error (.system error path) =>
    if error.meansAbsent then .ok .absent else .error (.system error path)
  | .error fault => .error fault

def readBytes (disk : Disk) (path : FilePath) : Except FileFault ByteArray := do
  match ← disk.locate .look path with
  | .entry _ (.file bytes) => return bytes
  | .entry _ _ => throw (.system .isDirectory path)
  | .vacant _ => throw (.system .noSuchFile path)

/-- Where a path that is to be changed leads. -/
def target (purpose : Purpose) (path : FilePath) : EStateM FileFault Disk Place := do
  match (← get).locate purpose path with
  | .error fault => throw fault
  | .ok place => return place

/-- Puts an entry at a place. -/
def put (location : List String) (entry : Entry) : EStateM FileFault Disk Unit :=
  modify fun disk => { disk with root := .putAt entry location disk.root }

/-- Gives a file its bytes, whether it exists or not. -/
def writeBytes (path : FilePath) (bytes : ByteArray) : EStateM FileFault Disk Unit := do
  match ← target .write path with
  | .vacant location => put location (.file bytes)
  | .entry location (.file _) => put location (.file bytes)
  | .entry _ _ => throw (.system .isDirectory path)

/-- Makes an entry where there is none. -/
def create (path : FilePath) (entry : Entry) : EStateM FileFault Disk Unit := do
  match ← target .make path with
  | .vacant location => put location entry
  | .entry _ _ => throw (.system .fileExists path)

/-- Goes on if a directory could not be made because there is one already. -/
def unlessDirectory (path : FilePath) (fault : FileFault) : EStateM FileFault Disk Unit := do
  match (← get).kind path with
  | .ok .directory => return
  | .ok _ => throw fault
  | .error other => throw other

/-- Makes a directory in one that exists, unless there is one. -/
def makeOne (path : FilePath) (ifParentMissing : EStateM FileFault Disk Unit) :
    EStateM FileFault Disk Unit := do
  match (create path (.directory [])).run (← get) with
  | .ok () disk => set disk
  | .error .unusableName _ => throw .unusableName
  | .error .notEncodable _ => throw .notEncodable
  | .error fault _ =>
    if fault = .system .noSuchFile path then ifParentMissing else unlessDirectory path fault

/-- Makes a directory, unless there is one, and first those on the way to it, at most `missing` of them.
The names that lead to it are given from the last on. -/
def makeAll (anchor : Anchor) (missing : Nat) : List String → EStateM FileFault Disk Unit
  | [] => makeOne ⟨anchor, []⟩ (throw (.system .noSuchFile ⟨anchor, []⟩))
  | name :: rest =>
    let path : FilePath := ⟨anchor, (name :: rest).reverse⟩
    makeOne path do
      match missing with
      | 0 => throw .tooDeep
      | missing + 1 => makeAll anchor missing rest
      makeOne path (throw (.system .noSuchFile path))

/-- How many directories may stand inside each other where files are looked for. -/
def walkLimit : Nat := 982

/-- The files beneath a directory, through links, in the order of the names in each directory. Only so
many directories may stand inside each other. -/
def filesBeneath (disk : Disk) : (depth : Nat) → FilePath → Except FileFault (List FilePath)
  | 0, _ => .error .tooDeep
  | depth + 1, path => do
    let names ← disk.namesIn path
    let groups ← names.mapM fun name => do
      match ← disk.kind (path.child name) with
      | .directory => disk.filesBeneath depth (path.child name)
      | .file => return [path.child name]
      | .absent => return []
    return groups.flatten

instance : FileSystem Disk where
  walk disk directory := disk.filesBeneath walkLimit directory
  readText disk path := do
    match Text.ofUtf8? (← disk.readBytes path) with
    | some text => return .ofList (Text.withLineFeeds text)
    | none => throw .notText
  writeText path text := do
    match Text.toUtf8? text.toList with
    | some bytes => writeBytes path bytes
    | none =>
      writeBytes path .empty
      throw .notEncodable
  makeDirectory path := makeAll path.anchor missingLimit path.names.reverse

end Disk

end ApiBindings

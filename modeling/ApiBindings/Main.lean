import ApiBindings.CommandLine

/-!
# The command

Loads a disk, carries out the call on it and writes back what it has changed. The files to load are
named on standard input, one path a line, so a listing of the source directory is what the command
reads; a path that is no file counts as a directory. Links are followed where they are named.
-/

namespace ApiBindings.CommandLine

/-- Puts a named file or directory of the real disk onto a disk. -/
def load (disk : Disk) (name : String) : IO Disk := do
  let path := FilePath.ofString (Text.held name)
  let put : EStateM FileFault Disk Unit ←
    try
      let bytes ← IO.FS.readBinFile name
      pure do
        FileSystem.makeDirectory path.parent
        Disk.writeBytes path bytes
    catch _ => pure (FileSystem.makeDirectory path)
  match put.run disk with
  | .ok () disk => return disk
  | .error fault _ => throw (IO.userError fault.message)

/-- Writes the files and directories of a disk that it did not have before. -/
def save (before after : Disk) : IO Unit := do
  for (path, entry) in after.root.contents ⟨.root, []⟩ do
    match entry with
    | .directory _ =>
      if (before.root.at? path.names).isNone then IO.FS.createDirAll (Text.released path.toString)
    | .file bytes =>
      let isNew := match before.root.at? path.names with
        | some (.file old) => old.data != bytes.data
        | _ => true
      if isNew then IO.FS.writeBinFile (Text.released path.toString) bytes
    | .link _ => pure ()

/-- Writes to the two streams. -/
def Printed.print (printed : Printed) : IO Unit := do
  IO.print (Text.released printed.output)
  IO.eprint (Text.released printed.errors)

/-- Says how a call has ended. -/
def Ending.print : Ending → IO Unit
  | .misused misuse => IO.eprint (usage ++ "\nError: " ++ misuse.message ++ "\n")
  | .helped => IO.print (usage ++ "\nThe paths of the files to look at are read from standard input.\n")
  | .finished printed _ => printed.print
  | .escaped printed escape => do
    printed.print
    IO.eprint ("Error: " ++ escape.message ++ "\n")

/-- Carries out a call on the real disk; the result is the number that it ends with. -/
def execute (arguments : List String) : IO UInt32 := do
  let source ← IO.getEnv sourceVariable
  let environment := source.toList.map fun source => (sourceVariable, Text.held source)
  let here := toString (← IO.currentDir)
  let mut before : Disk := ⟨.directory [], (FilePath.ofString (Text.held here)).names⟩
  for name in here :: (← (← IO.getStdin).lines).toList do
    if !name.isEmpty then before ← load before name
  let (ending, after) := run (arguments.map Text.held) environment before
  save before after
  ending.print
  return UInt32.ofNat ending.code

end ApiBindings.CommandLine

/-- The command itself. -/
def main (arguments : List String) : IO UInt32 :=
  ApiBindings.CommandLine.execute arguments

import ApiBindings.FileSystem.Disk
import ApiBindings.Generation.Run
import ApiBindings.Text.Styled

/-!
# Command line

The command takes the directory whose documents it reads, as its argument or else from the
environment, and one option that leaves out what is merely progress. It says what went wrong on the
stream for errors and ends with 0 only if nothing went wrong.
-/

namespace ApiBindings

namespace CommandLine

/-- Why a call of the command makes no sense. -/
inductive Misuse where
  | unknownOption (word : String)
  /-- An option that is on or off has been given a value. -/
  | unexpectedValue (word : String)
  | noSource
  | extraArgument (word : String)
  | sourceIsFile (path : String)
  deriving DecidableEq, Repr

/-- Why a call of the command makes no sense, in words. -/
def Misuse.message : Misuse → String
  | .unknownOption word => "No such option: " ++ word
  | .unexpectedValue word => "Option does not take a value: " ++ word
  | .noSource => "Missing the source directory."
  | .extraArgument word => "Got unexpected extra argument: " ++ word
  | .sourceIsFile path => "Not a directory: " ++ Text.quotedString path

/-- The words of a call, told apart. -/
structure Words where
  quiet : Bool := false
  help : Bool := false
  /-- The words that are no options. -/
  plain : List String := []
  deriving DecidableEq, Repr

/-- Takes up an option. -/
def Words.addOption (words : Words) (word : String) : Except Misuse Words :=
  let chars := word.toList
  let name := chars.takeWhile (· ≠ '=')
  if name = "--quiet".toList ∨ name = "--help".toList then
    if name.length < chars.length then .error (.unexpectedValue word)
    else if name = "--quiet".toList then .ok { words with quiet := true }
    else .ok { words with help := true }
  else if chars.tail.all (· = 'q') then .ok { words with quiet := true }
  else .error (.unknownOption word)

/-- Tells the words of a call apart. A word with a dash and more behind it is an option, until two
dashes end the options. -/
def Words.read (words : Words) : List String → Except Misuse Words
  | [] => .ok words
  | word :: rest =>
    if word = "--" then .ok { words with plain := words.plain ++ rest }
    else if word.startsWith "-" ∧ word ≠ "-" then do
      let words ← words.addOption word
      words.read rest
    else Words.read { words with plain := words.plain ++ [word] } rest

/-- The variable that names the source directory when no argument does. -/
def sourceVariable : String := "OASGEN_SOURCE_DIR"

/-- What a call asks for. -/
inductive Request where
  | help
  /-- To generate from a source directory; further words make no sense, which is found out only when the
  source has been looked at. -/
  | generate (source : String) (further : List String) (quiet : Bool)
  deriving DecidableEq, Repr

/-- What a call with arguments asks for, where the environment may name the source directory. -/
def Request.read (arguments : List String) (environment : Named String) :
    Except Misuse Request := do
  let words ← Words.read {} arguments
  if words.help then return .help
  match words.plain with
  | [] =>
    match Assoc.get? sourceVariable environment with
    | some source =>
      if source.isEmpty then throw .noSource else return .generate source [] words.quiet
    | none => throw .noSource
  | source :: further => return .generate source further words.quiet

/-- What is written to the two streams. -/
structure Printed where
  output : String := ""
  errors : String := ""
  deriving DecidableEq, Repr

/-- Writes reports, each on lines of its own and without commands to a terminal. A quiet call leaves
out what is merely progress. -/
def Printed.ofReports (quiet : Bool) (reports : List Report) : Printed :=
  let line (report : Report) : String :=
    let start := match report.level with
      | .info => ""
      | .warning => "Warning: "
      | .error => "Error: "
    .ofList (Text.unstyled (start ++ report.message).toList) ++ "\n"
  let (progress, problems) := reports.partition (·.level = .info)
  { output := if quiet then "" else String.join (progress.map line)
    errors := String.join (problems.map line) }

/-- How a call ends. -/
inductive Ending where
  | misused (misuse : Misuse)
  | helped
  | finished (printed : Printed) (ok : Bool)
  /-- Something has ended the whole run. -/
  | escaped (printed : Printed) (escape : Escape)

/-- The number that a call ends with. -/
def Ending.code : Ending → Nat
  | .misused _ => 2
  | .helped | .finished _ true => 0
  | .finished _ false | .escaped _ _ => 1

/-- Whether a written path asks for a directory by what stands at its end. -/
def asksForDirectory (path : String) : Bool :=
  let last := (path.toList.splitOn '/').getLast?.getD []
  !FilePath.isName last

/-- Whether a written path is that of a file. One that is too long as it is written names nothing. -/
def namesFile (disk : Disk) (path : String) : Bool :=
  !asksForDirectory path && Text.nameSize path.toList < Disk.pathLimit &&
    match disk.kind (.ofString path) with
    | .ok kind => kind = .file
    | .error _ => false

/-- Why a call with these words has no directory to read from: the first names a file, or there are
more words. -/
def sourceMisuse? (disk : Disk) (source : String) (further : List String) : Option Misuse :=
  if namesFile disk source then some (.sourceIsFile source) else further.head?.map .extraArgument

/-- What ends a call at once: its source directory is a text that can be no path. -/
def sourceEscape? (source : String) : Option Escape :=
  (Disk.obstacle? source.toList).bind Escape.ofFault?

/-- Carries out a call on a disk. -/
def run (arguments : List String) (environment : Named String) (disk : Disk) : Ending × Disk :=
  match Request.read arguments environment with
  | .error misuse => (.misused misuse, disk)
  | .ok .help => (.helped, disk)
  | .ok (.generate source further quiet) =>
    match sourceEscape? source, sourceMisuse? disk source further with
    | some escape, _ => (.escaped {} escape, disk)
    | none, some misuse => (.misused misuse, disk)
    | none, none =>
      let (run, disk) := generateAll { sourceDirectory := .ofString source } disk
      let printed := Printed.ofReports quiet run.reports
      match run.result with
      | .ok summary => (.finished printed summary.ok, disk)
      | .error escape => (.escaped printed escape, disk)

/-- How the command is called. -/
def usage : String :=
  String.join (List.map (· ++ "\n")
    ["Usage: [-q | --quiet] SOURCE_DIR",
     "",
     "Generates TypeScript models and URL-building clients from OpenAPI documents in YAML, into a",
     "directory next to each document.",
     "",
     "-q, --quiet  Only report warnings and errors.",
     "--help       Show this message and exit."])

end CommandLine

end ApiBindings

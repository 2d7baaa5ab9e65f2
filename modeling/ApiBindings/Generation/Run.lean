import ApiBindings.Document.Text
import ApiBindings.Generation.Report

/-!
# Runs

Generating the files of one document, and of every document beneath a directory. A document that
cannot be read or written costs only itself. What ends a whole run instead is a document that holds a
scalar that denotes nothing or exceeds a limit, and a generated file that cannot exist as such.
-/

namespace ApiBindings

/-- What ends a run. -/
inductive Escape where
  | meaningless (fault : Yaml.Fault)
  /-- There is too much of something in a document. -/
  | exceeds (limit : Limit)
  | unusableName
  | notEncodable
  | tooDeep
  deriving DecidableEq, Repr

namespace Escape

/-- What ends a run, in words. -/
def message : Escape → String
  | .meaningless .tooDeep => Limit.depth.message
  | .meaningless _ => "a document holds a scalar that denotes nothing"
  | .exceeds limit => limit.message
  | .unusableName => "a generated file would have a name that no file can have"
  | .notEncodable => "a generated file would hold half of a surrogate pair"
  | .tooDeep => "too many directories stand inside each other"

/-- Which faults of operations on files end a run. -/
def ofFault? : FileFault → Option Escape
  | .unusableName => some .unusableName
  | .notEncodable => some .notEncodable
  | .tooDeep => some .tooDeep
  | _ => none

end Escape

/-- How generating for a document fails. -/
inductive Failure where
  /-- Other documents are not concerned. -/
  | confined (failure : DocumentFailure)
  /-- The run ends. -/
  | escaping (escape : Escape)
  deriving DecidableEq, Repr

namespace Failure

/-- A failure of an operation on files, with what it means for the document if the run goes on. -/
def ofFault (confine : FileFault → DocumentFailure) (fault : FileFault) : Failure :=
  match Escape.ofFault? fault with
  | some escape => .escaping escape
  | none => .confined (confine fault)

/-- The failure to read a document. -/
def ofRead : FileFault → Failure := ofFault .unreadable

/-- The failure to understand a document. -/
def ofText : Document.ReadFailure → Failure
  | .unreadable fault => .confined (.invalid fault)
  | .meaningless fault => .escaping (.meaningless fault)
  | .exceeds limit => .escaping (.exceeds limit)

/-- The failure to write generated files. -/
def ofWrite : FileFault → Failure := ofFault .unwritable

end Failure

/-- Why there is nothing to write for a document, and what is reported before that turns out. -/
structure Refusal where
  warnings : List Report := []
  failure : Failure

/-- What generating for a document comes to, before anything is written. -/
structure Plan where
  /-- What is reported before the files are written. -/
  warnings : List Report
  /-- The directory that holds them. -/
  directory : FilePath
  output : Output
  /-- What is reported after that. -/
  notes : List Report

namespace Plan

/-- The plan for the document at a path. The issues of the document are reported even if its types
have no text. -/
def ofDocument (layout : Layout) (path : FilePath) (document : Document) : Except Refusal Plan :=
  let issues := document.issues.map (.degraded path)
  if document.isWritable then
    let models := Output.modelsOf document
    let client := Client.ofDocument document path
    .ok {
      warnings := issues ++ client.renames.map (.renamed path)
      directory := layout.outputDirectory path
      output := Output.generate layout path models client
      notes := [.modelsGenerated path models.length, .clientGenerated path client.className] }
  else .error { warnings := issues, failure := .escaping (.exceeds .digits) }

/-- The plan for a document with a text. -/
def ofText (layout : Layout) (path : FilePath) (text : String) : Except Refusal Plan :=
  match Document.ofText text with
  | .ok document => ofDocument layout path document
  | .error failure => .error { failure := .ofText failure }

variable {σ : Type} [FileSystem σ]

/-- The plan for the document at a path of a file system. -/
def read (layout : Layout) (path : FilePath) (files : σ) : Except Refusal Plan :=
  match FileSystem.readText files path with
  | .ok text => ofText layout path text
  | .error fault => .error { failure := .ofRead fault }

/-- Writes the files of a plan. -/
def write (plan : Plan) : EStateM FileFault σ Unit := do
  FileSystem.makeDirectory plan.directory
  plan.output.write

end Plan

/-- What generating for a document reports and how it ends. -/
structure Attempt where
  reports : List Report
  result : Except Failure Output

/-- What a run found and what became of it. -/
structure Summary where
  documents : List FilePath := []
  generated : List FilePath := []
  failed : List FilePath := []
  scanFailed : Bool := false
  deriving DecidableEq, Repr

/-- Whether nothing failed. -/
def Summary.ok (summary : Summary) : Bool :=
  !summary.scanFailed && summary.failed.isEmpty

/-- What a run reports and how it ends. -/
structure Run where
  reports : List Report
  result : Except Escape Summary

section Generate

variable {σ : Type} [FileSystem σ] (layout : Layout)

/-- Generates the files of a document. -/
def generateDocument (path : FilePath) (files : σ) : Attempt × σ :=
  match Plan.read layout path files with
  | .error refusal => (⟨refusal.warnings, .error refusal.failure⟩, files)
  | .ok plan =>
    match plan.write.run files with
    | .ok () files => (⟨plan.warnings ++ plan.notes, .ok plan.output⟩, files)
    | .error fault files => (⟨plan.warnings, .error (.ofWrite fault)⟩, files)

/-- The documents beneath the source directory. -/
def discover (files : σ) : Except FileFault (List FilePath) := do
  return (← FileSystem.walk files layout.sourceDirectory).filter layout.isDocument

/-- Generates the files of the remaining documents, one after another. The summary tells what became
of those before. -/
def generateEach (summary : Summary) : List FilePath → σ → Run × σ
  | [], files => (⟨[.finished], .ok summary⟩, files)
  | path :: rest, files =>
    let (attempt, files) := generateDocument layout path files
    match attempt.result with
    | .ok _ =>
      let (run, files) :=
        generateEach { summary with generated := summary.generated ++ [path] } rest files
      ({ run with reports := attempt.reports ++ run.reports }, files)
    | .error (.confined failure) =>
      let (run, files) := generateEach { summary with failed := summary.failed ++ [path] } rest files
      ({ run with reports := attempt.reports ++ .failed path failure :: run.reports }, files)
    | .error (.escaping escape) => (⟨attempt.reports, .error escape⟩, files)

/-- Generates the files of every document beneath the source directory. -/
def generateAll (files : σ) : Run × σ :=
  match discover layout files with
  | .error fault =>
    match Escape.ofFault? fault with
    | some escape => (⟨[], .error escape⟩, files)
    | none => (⟨[.cannotScan layout.sourceDirectory fault], .ok { scanFailed := true }⟩, files)
  | .ok [] => (⟨[.nothingFound layout.sourceDirectory], .ok {}⟩, files)
  | .ok documents =>
    let (run, files) := generateEach layout { documents } documents files
    ({ run with reports := .found documents.length layout.sourceDirectory :: run.reports }, files)

end Generate

end ApiBindings

import ApiBindings.Client.Basic
import ApiBindings.Document.Read
import ApiBindings.FileSystem.Basic

/-!
# Reports

What a run says while it goes on: the failures that are confined to a document or to the search for
documents, and the reports with their levels and their words.
-/

namespace ApiBindings

/-- Why a document has no generated files, or not all of them. -/
inductive DocumentFailure where
  | unreadable (fault : FileFault)
  | invalid (fault : Document.Fault)
  | unwritable (fault : FileFault)
  deriving DecidableEq, Repr

/-- Why a document has no generated files, in words that begin with its path. -/
def DocumentFailure.message (document : FilePath) (failure : DocumentFailure) : String :=
  document.toString ++ ": " ++
    match failure with
    | .unreadable fault => "cannot read document: " ++ fault.message
    | .invalid fault => fault.message
    | .unwritable fault => "cannot write generated files: " ++ fault.message

namespace Report

/-- How much a report matters. -/
inductive Level where
  | info
  | warning
  | error
  deriving DecidableEq, Repr

end Report

/-- Something that a run says. -/
inductive Report where
  | found (count : Nat) (directory : FilePath)
  | nothingFound (directory : FilePath)
  | cannotScan (directory : FilePath) (fault : FileFault)
  | degraded (document : FilePath) (issue : Issue)
  | renamed (document : FilePath) (rename : Client.Rename)
  | modelsGenerated (document : FilePath) (count : Nat)
  | clientGenerated (document : FilePath) (className : String)
  | failed (document : FilePath) (failure : DocumentFailure)
  | finished
  deriving DecidableEq, Repr

namespace Report

/-- How much a report matters: what went wrong is an error, what was left out or changed a warning. -/
def level : Report → Level
  | .cannotScan .. | .failed .. => .error
  | .nothingFound .. | .degraded .. | .renamed .. => .warning
  | _ => .info

/-- A report in words. -/
def message : Report → String
  | .found count directory =>
    "Found " ++ toString count ++ " OpenAPI document(s) in " ++ directory.toString
  | .nothingFound directory => "No YAML files found in " ++ directory.toString
  | .cannotScan directory fault =>
    directory.toString ++ ": cannot scan directory: " ++ fault.message
  | .degraded document issue => document.toString ++ ": " ++ issue.text ++ " (degraded to any)"
  | .renamed document rename => document.toString ++ ": " ++ rename.message
  | .modelsGenerated document 0 => "No schemas in " ++ document.stem ++ ", skipping models"
  | .modelsGenerated document count =>
    "Generated " ++ toString count ++ " model(s) for " ++ document.stem
  | .clientGenerated document className =>
    "Generated client " ++ className ++ " for " ++ document.stem
  | .failed document failure => failure.message document
  | .finished => "Generation finished."

end Report

end ApiBindings

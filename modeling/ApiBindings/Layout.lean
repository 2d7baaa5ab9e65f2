import ApiBindings.FilePath

/-!
# Layout of generated files

Where documents are looked for, and where the files generated for a document go: into a directory next
to the document.
-/

namespace ApiBindings

/-- Where documents are looked for and how generated files are named. -/
structure Layout where
  sourceDirectory : FilePath
  extensions : List String := [".yml", ".yaml"]
  outputName : String := "generated"
  modelsName : String := "models"
  clientName : String := "openApi.ts"
  modelExtension : String := ".ts"

namespace Layout

/-- The directory for the files generated for a document. -/
def outputDirectory (layout : Layout) (document : FilePath) : FilePath :=
  document.parent / layout.outputName

/-- The directory for the model files. -/
def modelsDirectory (layout : Layout) (document : FilePath) : FilePath :=
  layout.outputDirectory document / layout.modelsName

def clientPath (layout : Layout) (document : FilePath) : FilePath :=
  layout.outputDirectory document / layout.clientName

/-- The file of a model, or of the index. -/
def modelPath (layout : Layout) (document : FilePath) (name : String) : FilePath :=
  layout.modelsDirectory document / (name ++ layout.modelExtension)

/-- Whether a file is looked at as a document. -/
def isDocument (layout : Layout) (path : FilePath) : Bool :=
  layout.extensions.contains path.suffix

end Layout

end ApiBindings

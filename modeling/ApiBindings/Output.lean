import ApiBindings.Client.Render
import ApiBindings.Layout
import ApiBindings.Model.Render

/-!
# Output of a document

The files generated for a document: its models, their index, and the client last. Without schemas
there is only the client.
-/

namespace ApiBindings

/-- Generated files with their texts, in the order in which they are written. -/
abbrev Output := Assoc FilePath String

namespace Output

/-- The models of a document's schemas. -/
def modelsOf (document : Document) : List Model :=
  document.schemas.map fun schema => .ofNode schema.1 schema.2

/-- The files of models and their index. -/
def modelFiles (layout : Layout) (path : FilePath) (models : List Model) : Output :=
  if models.isEmpty then []
  else
    let files : Output :=
      .ofPairs (models.map fun model => (layout.modelPath path model.name, model.render))
    files.set (layout.modelPath path "index") (Model.renderIndex models)

/-- The files generated for the document at a path. -/
def generate (layout : Layout) (path : FilePath) (models : List Model) (client : Client) : Output :=
  (modelFiles layout path models).set (layout.clientPath path) client.render

end Output

end ApiBindings

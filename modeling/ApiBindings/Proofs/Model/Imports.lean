import ApiBindings.Model.Render
import ApiBindings.Proofs.Schema.References

/-!
# Imports of models

Two walks over a schema collect what its declaration needs: one for the fields of an interface, one for
types that stand inside others. Both give the references of the schema, its own name left out
(`ofNode_imports_exact`), and both see the same members.
-/

namespace ApiBindings.Model

open Schema (Node othersThan)
open TypeScript (TypeExpr)

/-- What a declaration extends. -/
def bases (model : Model) : List String :=
  match model.form with
  | .interface bases _ => bases
  | _ => []

/-- The fields of a declaration. -/
def fields (model : Model) : List Field :=
  match model.form with
  | .interface _ fields => fields
  | _ => []

/-! ## Fields and members -/

/-- The fields of an interface are the members of the object type, with what they need. -/
theorem fieldsFrom_eq (owner : String) (required : List String) (properties : List (String × Node))
    (kept : List String) :
    fieldsFrom owner required properties kept =
      ((Node.resolveMembers owner properties kept).1.map fun member =>
        ⟨member.1, member.2, !required.contains member.1⟩,
      (Node.resolveMembers owner properties kept).2) := by
  induction properties generalizing kept with
  | nil =>
    rw [fieldsFrom, Node.resolveMembers]
    rfl
  | cons property rest ih =>
    obtain ⟨name, node⟩ := property
    rw [fieldsFrom, Node.resolveMembers]
    simp only [ih, List.map_cons]

theorem references_fieldsFrom (owner : String) (required : List String)
    (properties : List (String × Node)) :
    (fieldsFrom owner required properties []).2 = othersThan owner (Node.refsOf properties) := by
  rw [fieldsFrom_eq]
  exact Node.references_resolveMembers owner properties []

theorem objectType_of_ne_nil {members : List (String × TypeExpr)} (h : members ≠ []) :
    Schema.objectType members = .object members := by
  cases members with
  | nil => exact absurd rfl h
  | cons member rest => rfl

/-- An object with properties has the same members as an interface and as a type. -/
theorem type_object (owner : String) (property : String × Node) (properties : List (String × Node))
    (required : List String) :
    ((Node.object (property :: properties) required).resolve owner).type =
      .object ((ofNode owner (.object (property :: properties) required)).fields.map fun field =>
        (field.name, field.type)) := by
  have hfields : (ofNode owner (.object (property :: properties) required)).fields =
      (Node.resolveMembers owner (property :: properties) []).1.map fun member =>
        ⟨member.1, member.2, !required.contains member.1⟩ := by
    simp only [ofNode, fields, fieldsFrom_eq]
  have hmembers : (Node.resolveMembers owner (property :: properties) []).1 ≠ [] := by
    obtain ⟨name, node⟩ := property
    rw [Node.resolveMembers]
    exact List.cons_ne_nil _ _
  have htype : ((Node.object (property :: properties) required).resolve owner).type =
      Schema.objectType (Node.resolveMembers owner (property :: properties) []).1 := by
    rw [Node.resolve]
  rw [htype, objectType_of_ne_nil hmembers, hfields, List.map_map]
  exact congrArg _ (List.map_id _).symm

theorem text_object (members : List (String × TypeExpr)) :
    (TypeExpr.object members).text =
      TypeScript.objectText (members.map fun member =>
        TypeScript.key member.1 ++ ": " ++ member.2.text) := by
  rw [TypeExpr.text, TypeExpr.memberTexts_eq_map]

/-! ## What a declaration needs -/

theorem imports_ofNode (name : String) (node : Node) :
    (ofNode name node).imports = othersThan name node.refs := by
  cases node with
  | enumeration values => rfl
  | object properties required =>
    rw [Node.refs]
    exact references_fieldsFrom name required properties
  | composite bases properties required =>
    have hfields := references_fieldsFrom name required properties
    have himports : (ofNode name (.composite bases properties required)).imports =
        Naming.merge (othersThan name bases) (fieldsFrom name required properties []).2 := rfl
    rw [himports, hfields, Node.refs, Node.othersThan_append]
    exact Naming.merge_distinct _ _
  | malformed => exact Node.references_resolve name .malformed
  | primitive kind format => exact Node.references_resolve name (.primitive kind format)
  | array items => exact Node.references_resolve name (.array items)
  | reference target => exact Node.references_resolve name (.reference target)

theorem bases_ofNode (name : String) (node : Node) :
    (ofNode name node).bases = othersThan name node.bases := by
  cases node <;> rfl

theorem bases_begin_imports (name : String) (node : Node) :
    (ofNode name node).bases <+: (ofNode name node).imports := by
  cases node with
  | composite bases properties required => exact Naming.merge_begins _ _
  | _ => exact List.nil_prefix

/-! ## Files -/

theorem export_begins_declarationText (name : String) (form : Form) :
    "export ".toList <+: (declarationText name form).toList := by
  have halias : ∀ type, "export ".toList <+: (aliasLine name type).toList := by
    intro type
    have htype : "export ".toList <+: "export type ".toList := by decide
    rw [aliasLine, String.toList_append, String.toList_append, String.toList_append,
      String.toList_append, List.append_assoc, List.append_assoc, List.append_assoc]
    exact htype.trans (List.prefix_append _ _)
  rcases form with type | type | ⟨bases, fields⟩
  · exact halias type
  · exact halias type
  · have hinterface : "export ".toList <+: "export interface ".toList := by decide
    unfold declarationText
    simp only [String.toList_append, List.append_assoc]
    exact hinterface.trans (List.prefix_append _ _)

/-- A model's file begins with its import lines, and what follows is none. -/
theorem render_eq (model : Model) :
    ∃ rest, model.render = String.join (model.imports.map importLine) ++ rest ∧
      ¬ "import".toList <+: rest.toList := by
  refine ⟨(if model.imports.isEmpty then "" else "\n") ++ declarationText model.name model.form,
    by rw [render, String.append_assoc], fun himport => ?_⟩
  obtain ⟨rest, hrest⟩ := export_begins_declarationText model.name model.form
  rw [String.toList_append, ← hrest] at himport
  cases himports : model.imports.isEmpty with
  | true =>
    rw [himports, if_pos rfl] at himport
    simp at himport
  | false =>
    rw [himports, if_neg Bool.false_ne_true] at himport
    simp at himport

end ApiBindings.Model

namespace ApiBindings

open Schema (Node)

/-- **Imports are exact.** A model imports, and its schema as a type needs, the schemas that it refers to
anywhere, itself excepted and each once. What it extends are the first of them. The type is the same for
every owner, an object with properties has the same members as an interface and as a type, and a model's
file begins with one import line for every import. -/
theorem ofNode_imports_exact (name other : String) (node : Node) :
    (Model.ofNode name node).imports = (node.refs.filter (· ≠ name)).eraseDups ∧
    (node.resolve name).references = (node.refs.filter (· ≠ name)).eraseDups ∧
    (Model.ofNode name node).bases = (node.bases.filter (· ≠ name)).eraseDups ∧
    (Model.ofNode name node).bases <+: (Model.ofNode name node).imports ∧
    (node.resolve other).type = (node.resolve name).type ∧
    (∀ property properties required,
      let object : Node := .object (property :: properties) required
      let fields := (Model.ofNode name object).fields
      (object.resolve name).type = .object (fields.map fun field => (field.name, field.type)) ∧
      (object.resolve name).type.text = TypeScript.objectText (fields.map fun field =>
        TypeScript.key field.name ++ ": " ++ field.type.text)) ∧
    ∃ rest, (Model.ofNode name node).render =
        String.join ((Model.ofNode name node).imports.map Model.importLine) ++ rest ∧
      ¬ "import".toList <+: rest.toList := by
  have hothers : ∀ names, Schema.othersThan name names = (names.filter (· ≠ name)).eraseDups :=
    fun names => Naming.distinct_eq_eraseDups _
  refine ⟨?_, ?_, ?_, Model.bases_begin_imports name node, Node.type_resolve name other node, ?_,
    Model.render_eq _⟩
  · rw [Model.imports_ofNode, hothers]
  · rw [Node.references_resolve, hothers]
  · rw [Model.bases_ofNode, hothers]
  · intro property properties required object fields
    have htype := Model.type_object name property properties required
    refine ⟨htype, ?_⟩
    rw [htype, Model.text_object, List.map_map]
    rfl

end ApiBindings

import ApiBindings.Proofs.TypeScript.Spelling
import ApiBindings.Schema.Type

/-!
# Reading the type of a schema

The text of a schema's type, read by the grammar of types, is the type of the schema: `typeTree` says what
this is, without regard to texts. Parentheses are put by what the text of an element shows, not by what the
element is. It is enough that a type which is no operand always shows a sign between blanks
(`showsOperator_intercalate`); a literal that shows one as well is put in parentheses without need.
-/

namespace ApiBindings.TypeScript

/-- The type of a scalar as one of several values. -/
def literalTree : Scalar → TypeTree
  | .text value => .literal value
  | .null => .word "null"
  | .bool true => .word "true"
  | .bool false => .word "false"
  | value => .word value.toText

/-- An object by its members; one without members is open. -/
def objectTree : List (String × TypeTree) → TypeTree
  | [] => .record
  | members => .object members

def objectTokens : List (List Token) → List Token
  | [] => recordTokens
  | members => .sign '\x7b' :: joinedTokens ';' members ++ [.sign '\x7d']

/-! ## Texts that show an operator -/

theorem occursIn_append {pattern : List Char} (hne : pattern ≠ []) (before after : List Char) :
    occursIn pattern (before ++ (pattern ++ after)) = true := by
  induction before with
  | nil =>
    cases pattern with
    | nil => exact absurd rfl hne
    | cons c pattern =>
      have hbegins : (c :: pattern).isPrefixOf (c :: (pattern ++ after)) = true :=
        List.isPrefixOf_iff_prefix.2 (List.prefix_append (c :: pattern) after)
      rw [List.nil_append, List.cons_append, occursIn, hbegins, Bool.true_or]
  | cons c before ih => rw [List.cons_append, occursIn, ih, Bool.or_true]

theorem toList_intercalate_cons_cons (separator first second : String) (more : List String) :
    (separator.intercalate (first :: second :: more)).toList =
      first.toList ++ (separator.toList ++ (separator.intercalate (second :: more)).toList) := by
  rw [String.intercalate_cons_cons, String.toList_append, String.toList_append, List.append_assoc]

theorem showsOperator_intercalate {separator : String} (h : separator = " | " ∨ separator = " & ")
    (first second : String) (more : List String) :
    showsOperator (separator.intercalate (first :: second :: more)).toList = true := by
  rw [toList_intercalate_cons_cons]
  rcases h with rfl | rfl
  · rw [showsOperator, occursIn_append (show " | ".toList ≠ [] by decide), Bool.true_or]
  · rw [showsOperator, occursIn_append (show " & ".toList ≠ [] by decide), Bool.or_true]

theorem length_le_of_mem_joinedTokens (separator : Char) {item : List Token}
    {items : List (List Token)} (h : item ∈ items) :
    item.length ≤ (joinedTokens separator items).length := by
  induction items with
  | nil => cases h
  | cons first more ih =>
    cases more with
    | nil =>
      rw [List.mem_singleton.1 h, joinedTokens_singleton]
    | cons second more =>
      rw [joinedTokens_cons_cons, List.length_append, List.length_cons]
      rcases List.mem_cons.1 h with rfl | h
      · omega
      · have := ih h
        omega

/-! ## Literals -/

theorem readsOperand_literal_scalar {inner : Reader TypeTree} {value : Scalar}
    (h : hasLiteral value = true) : ReadsOperand inner [literalToken value] (literalTree value) := by
  cases value with
  | text value => exact readsOperand_literal value
  | null => exact readsOperand_word (by decide +kernel)
  | bool value => cases value <;> exact readsOperand_word (by decide +kernel)
  | int value => exact readsOperand_word (isWord_literal h nofun)
  | float value => exact readsOperand_word (isWord_literal h nofun)
  | nan id => exact readsOperand_word (isWord_literal h nofun)
  | bytes value => cases h
  | date value => cases h
  | instant value => cases h

end ApiBindings.TypeScript

namespace ApiBindings.Schema.Node

open TypeScript

mutual

/-- The type of a schema. -/
def typeTree : Node → TypeTree
  | .malformed => .word "any"
  | .primitive kind format => .word (primitiveType kind format).text
  | .array none => .array (.word "any")
  | .array (some items) => .array items.typeTree
  | .object properties _ => objectTree (memberTrees properties)
  | .reference name => .word name
  | .enumeration [] => .word "never"
  | .enumeration values => .joined .union (values.map literalTree)
  | .composite bases properties _ =>
    .joined .intersection (bases.map .word ++
      if properties.isEmpty && !bases.isEmpty then [] else [objectTree (memberTrees properties)])

def memberTrees : List (String × Node) → List (String × TypeTree)
  | [] => []
  | (name, property) :: rest => (name, property.typeTree) :: memberTrees rest

end

mutual

/-- Whether the type of a schema can be read: references have identifiers for names, names of properties
stand on one line, and so do the values of enumerations, which all have a literal. -/
def isLegible : Node → Bool
  | .array (some items) => items.isLegible
  | .object properties _ => areLegible properties
  | .reference name => Naming.isIdentifier name.toList
  | .enumeration values => values.all hasLiteral
  | .composite bases properties _ =>
    (bases.all fun name => Naming.isIdentifier name.toList) && areLegible properties
  | _ => true

def areLegible : List (String × Node) → Bool
  | [] => true
  | (name, property) :: rest => isOneLine name.toList && property.isLegible && areLegible rest

end

section Text

variable (owner : String)

def typeText (node : Node) : String :=
  (node.resolve owner).type.text

mutual

/-- The tokens of the text of a schema's type. -/
def typeTokens : Node → List Token
  | .malformed => [.word "any"]
  | .primitive kind format => [.word (primitiveType kind format).text]
  | .array none => [.word "any", .sign '[', .sign ']']
  | .array (some items) =>
    (if showsOperator (items.typeText owner).toList then
      .sign '(' :: items.typeTokens ++ [.sign ')'] else items.typeTokens) ++ [.sign '[', .sign ']']
  | .object properties _ => objectTokens (memberTokens properties)
  | .reference name => [.word name]
  | .enumeration [] => [.word "never"]
  | .enumeration values => joinedTokens '|' (values.map fun value => [literalToken value])
  | .composite bases properties _ =>
    joinedTokens '&' (bases.map (fun name => [Token.word name]) ++
      if properties.isEmpty && !bases.isEmpty then [] else [objectTokens (memberTokens properties)])

def memberTokens : List (String × Node) → List (List Token)
  | [] => []
  | (name, property) :: rest =>
    (keyToken name :: .sign ':' :: property.typeTokens) :: memberTokens rest

end

/-! ## Members and parts -/

theorem resolveMembers_eq_map (properties : List (String × Node)) (kept : List String) :
    (resolveMembers owner properties kept).1 =
      properties.map fun property => (property.1, (property.2.resolve owner).type) := by
  induction properties generalizing kept with
  | nil => rfl
  | cons property rest ih =>
    obtain ⟨name, node⟩ := property
    rw [resolveMembers, List.map_cons]
    exact congrArg _ (ih _)

theorem memberTrees_eq_map (properties : List (String × Node)) :
    memberTrees properties = properties.map fun property => (property.1, property.2.typeTree) := by
  induction properties with
  | nil => rfl
  | cons property rest ih => rw [memberTrees, ih, List.map_cons]

theorem memberTokens_eq_map (properties : List (String × Node)) :
    memberTokens owner properties = properties.map fun property =>
      keyToken property.1 :: .sign ':' :: property.2.typeTokens owner := by
  induction properties with
  | nil => rfl
  | cons property rest ih => rw [memberTokens, ih, List.map_cons]

theorem typeText_array_none : typeText owner (.array none) = "any" ++ "[]" := by
  rw [typeText, resolve]
  rfl

theorem typeText_array_some (items : Node) :
    typeText owner (.array (some items)) = arrayText (items.typeText owner) := by
  rw [typeText, resolve, TypeExpr.text]
  rfl

theorem typeText_object_nil (required : List String) :
    typeText owner (.object [] required) = "Record<string, any>" := by
  rw [typeText, resolve, resolveMembers]
  rfl

theorem typeText_object_cons (property : String × Node) (rest : List (String × Node))
    (required : List String) :
    typeText owner (.object (property :: rest) required) =
      objectText ((property :: rest).map fun property =>
        key property.1 ++ ": " ++ property.2.typeText owner) := by
  have hmembers := resolveMembers_eq_map owner (property :: rest) []
  rw [typeText, resolve]
  simp only [hmembers, List.map_cons, objectType, TypeExpr.text, TypeExpr.memberTexts_eq_map,
    List.map_map]
  rfl

/-- The parts of a composition as schemas: what it is based on, and its own properties. Without any they
are left out if there is a base. -/
def compositeParts (bases : List String) (properties : List (String × Node)) (required : List String) :
    List Node :=
  bases.map .reference ++
    if properties.isEmpty && !bases.isEmpty then [] else [.object properties required]

theorem compositeParts_ne_nil (bases : List String) (properties : List (String × Node))
    (required : List String) : compositeParts bases properties required ≠ [] := by
  cases bases with
  | nil => simp [compositeParts]
  | cons base bases => simp [compositeParts]

theorem typeText_composite (bases : List String) (properties : List (String × Node))
    (required : List String) :
    typeText owner (.composite bases properties required) =
      " & ".intercalate ((compositeParts bases properties required).map (typeText owner)) := by
  have hbases : bases.map (TypeExpr.text ∘ TypeExpr.reference) =
      bases.map (typeText owner ∘ Node.reference) := by
    apply List.map_congr_left
    intro name _
    rw [Function.comp_apply, Function.comp_apply, typeText, resolve]
  unfold typeText
  rw [resolve]
  split
  · rename_i hempty
    rw [compositeParts, if_pos hempty, List.append_nil, TypeExpr.text, TypeExpr.partTexts_eq_map,
      List.map_map, List.map_map]
    exact congrArg _ hbases
  · rename_i hempty
    rw [compositeParts, if_neg hempty, List.map_append, List.map_map]
    simp only [TypeExpr.text, TypeExpr.partTexts_eq_map, List.map_append, List.map_map,
      List.map_singleton, resolve]
    exact congrArg (fun texts => " & ".intercalate (texts ++ _)) hbases

theorem typeTokens_composite (bases : List String) (properties : List (String × Node))
    (required : List String) :
    typeTokens owner (.composite bases properties required) =
      joinedTokens '&' ((compositeParts bases properties required).map (typeTokens owner)) := by
  have hbases : bases.map (typeTokens owner ∘ Node.reference) =
      bases.map fun name => [Token.word name] := by
    apply List.map_congr_left
    intro name _
    rw [Function.comp_apply, typeTokens]
  rw [typeTokens, compositeParts, List.map_append, List.map_map, hbases]
  split
  · rfl
  · rw [List.map_singleton, typeTokens]

theorem typeTree_composite (bases : List String) (properties : List (String × Node))
    (required : List String) :
    typeTree (.composite bases properties required) =
      .joined .intersection ((compositeParts bases properties required).map typeTree) := by
  have hbases : bases.map (typeTree ∘ Node.reference) = bases.map TypeTree.word := by
    apply List.map_congr_left
    intro name _
    rw [Function.comp_apply, typeTree]
  rw [typeTree, compositeParts, List.map_append, List.map_map, hbases]
  split
  · rfl
  · rw [List.map_singleton, typeTree]

/-! ## Texts as tokens -/

theorem spells_keyword (word : Keyword) : Spells word.text [.word word.text] := by
  cases word <;> exact spells_word (by decide +kernel)

theorem spells_reference {name : String} (h : Naming.isIdentifier name.toList = true) :
    Spells (typeText owner (.reference name)) (typeTokens owner (.reference name)) := by
  rw [typeText, resolve, TypeExpr.text, typeTokens]
  exact spells_word (by rw [isWord, h, Bool.true_or])

theorem spells_properties {properties : List (String × Node)} (required : List String)
    (h : ∀ property ∈ properties, isOneLine property.1.toList = true ∧
      Spells (property.2.typeText owner) (property.2.typeTokens owner)) :
    Spells (typeText owner (.object properties required))
      (typeTokens owner (.object properties required)) := by
  cases properties with
  | nil =>
    rw [typeText_object_nil, typeTokens, memberTokens, objectTokens]
    exact spells_record
  | cons property rest =>
    rw [typeText_object_cons, typeTokens, memberTokens_eq_map]
    apply spells_object (List.cons_ne_nil property rest)
    intro member hmember
    obtain ⟨hname, htype⟩ := h member hmember
    exact htype.member hname

theorem mem_compositeParts {part : Node} {bases : List String} {properties : List (String × Node)}
    {required : List String} (h : part ∈ compositeParts bases properties required) :
    (∃ name ∈ bases, part = .reference name) ∨ part = .object properties required := by
  rcases List.mem_append.1 h with h | h
  · obtain ⟨name, hname, rfl⟩ := List.mem_map.1 h
    exact .inl ⟨name, hname, rfl⟩
  · split at h
    · cases h
    · exact .inr (List.mem_singleton.1 h)

mutual

/-- The text of a schema's type consists of its tokens. -/
theorem spells_typeText : ∀ node : Node, node.isLegible = true →
    Spells (node.typeText owner) (node.typeTokens owner)
  | .malformed, _ => by
    rw [typeText, resolve, typeTokens]
    exact spells_keyword .any
  | .primitive kind format, _ => by
    rw [typeText, resolve, typeTokens]
    exact spells_keyword _
  | .array none, _ => by
    rw [typeText_array_none, typeTokens]
    exact (spells_keyword .any).array
  | .array (some items), h => by
    rw [isLegible] at h
    have hitems := spells_typeText items h
    rw [typeText_array_some, typeTokens, arrayText]
    split
    · have hsplit : "(" ++ items.typeText owner ++ ")[]" =
          "(" ++ items.typeText owner ++ ")" ++ "[]" := by
        rw [String.append_assoc, String.append_assoc, String.append_assoc]
        rfl
      rw [hsplit]
      exact hitems.parentheses.array
    · exact hitems.array
  | .object properties required, h => by
    rw [isLegible] at h
    exact spells_properties owner required (spells_propertyTexts properties h)
  | .reference name, h => by
    rw [isLegible] at h
    exact spells_reference owner h
  | .enumeration [], _ => by
    rw [typeText, resolve, typeTokens]
    exact spells_keyword .never
  | .enumeration (value :: values), h => by
    rw [isLegible, List.all_eq_true] at h
    rw [typeText, resolve, typeTokens]
    · exact spells_union (List.cons_ne_nil value values) fun x hx => spells_literal_scalar (h x hx)
    · exact List.cons_ne_nil value values
  | .composite bases properties required, h => by
    rw [isLegible, Bool.and_eq_true, List.all_eq_true] at h
    rw [typeText_composite, typeTokens_composite]
    apply spells_intersection (compositeParts_ne_nil bases properties required)
    intro part hpart
    rcases mem_compositeParts hpart with ⟨name, hname, rfl⟩ | rfl
    · exact spells_reference owner (h.1 name hname)
    · exact spells_properties owner required (spells_propertyTexts properties h.2)

theorem spells_propertyTexts : ∀ properties : List (String × Node), areLegible properties = true →
    ∀ property ∈ properties, isOneLine property.1.toList = true ∧
      Spells (property.2.typeText owner) (property.2.typeTokens owner)
  | [], _ => fun _ hmem => absurd hmem List.not_mem_nil
  | (name, property) :: rest, h => by
    rw [areLegible, Bool.and_eq_true, Bool.and_eq_true] at h
    exact List.forall_mem_cons.2
      ⟨⟨h.1.1, spells_typeText property h.1.2⟩, spells_propertyTexts rest h.2⟩

end

/-! ## Tokens as types -/

/-- What is known of the tokens of a schema's type where `depth` bounds the nesting inside: they are read
as its type, and even as an operand if the text of the type shows no operator. -/
structure Reads (depth : Nat) (node : Node) : Prop where
  type : ReadsType (readType (depth + 1)) (node.typeTokens owner) node.typeTree
  operand : showsOperator (node.typeText owner).toList = false →
    ReadsOperand (readType depth) (node.typeTokens owner) node.typeTree

variable {owner}

theorem Reads.of_operand {depth : Nat} {node : Node}
    (h : ReadsOperand (readType depth) (node.typeTokens owner) node.typeTree) :
    Reads owner depth node :=
  ⟨h.alternative.type, fun _ => h⟩

theorem readsMember_of_type {depth : Nat} {name : String} {tokens : List Token} {type : TypeTree}
    (h : ReadsType (readType depth) tokens type) :
    ReadsMember (readType depth) (keyToken name :: .sign ':' :: tokens) (name, type) := by
  intro rest hrest
  rw [keyToken]
  split
  · rename_i hname
    rw [List.cons_append, List.cons_append, readMember, if_pos hname, h rest hrest]
    rfl
  · rw [List.cons_append, List.cons_append, readMember, h rest hrest]
    rfl

theorem readsOperand_properties {depth : Nat} {properties : List (String × Node)}
    (required : List String)
    (h : ∀ property ∈ properties, ReadsType (readType depth) (property.2.typeTokens owner)
      property.2.typeTree) :
    ReadsOperand (readType depth) (typeTokens owner (.object properties required))
      (typeTree (.object properties required)) := by
  rw [typeTokens, typeTree, memberTokens_eq_map, memberTrees_eq_map]
  cases properties with
  | nil => exact readsOperand_record
  | cons property rest =>
    exact readsOperand_object (List.cons_ne_nil property rest) fun member hmember =>
      readsMember_of_type (h member hmember)

theorem readsOperand_reference {inner : Reader TypeTree} {name : String}
    (h : Naming.isIdentifier name.toList = true) :
    ReadsOperand inner (typeTokens owner (.reference name)) (typeTree (.reference name)) := by
  rw [typeTokens, typeTree]
  exact readsOperand_word (by rw [isWord, h, Bool.true_or])

theorem length_property_add_four {property : String × Node} {properties : List (String × Node)}
    (h : property ∈ properties) (required : List String) :
    (property.2.typeTokens owner).length + 4 ≤
      (typeTokens owner (.object properties required)).length := by
  rw [typeTokens, memberTokens_eq_map]
  cases properties with
  | nil => cases h
  | cons first rest =>
    have hmember := length_le_of_mem_joinedTokens ';' (List.mem_map_of_mem (f :=
      fun property : String × Node =>
        keyToken property.1 :: Token.sign ':' :: property.2.typeTokens owner) h)
    simp only [List.map_cons, List.length_cons] at hmember
    simp only [List.map_cons, objectTokens, List.length_append, List.length_cons, List.length_nil]
    omega

/-- Several things that are read as operands each, with a sign between them that they show together, are
no operand; a single one is. -/
theorem readsOperand_of_not_shows {inner : Reader TypeTree} {separator : String} {sign : Char}
    (hseparator : separator = " | " ∨ separator = " & ") {β : Type} {text : β → String}
    {written : β → List Token} {value : β → TypeTree} {join : List TypeTree → TypeTree}
    {items : List β} (hne : items ≠ []) (hitem : ∀ x ∈ items, ReadsOperand inner (written x) (value x))
    (h : showsOperator (separator.intercalate (items.map text)).toList = false) :
    ReadsOperand inner (joinedTokens sign (items.map written)) (.joined join (items.map value)) := by
  cases items with
  | nil => exact absurd rfl hne
  | cons first more =>
    cases more with
    | nil =>
      rw [List.map_singleton, joinedTokens_singleton]
      exact hitem first List.mem_cons_self
    | cons second more =>
      rw [List.map_cons, List.map_cons, showsOperator_intercalate hseparator] at h
      cases h

mutual

/-- The tokens of a schema's type are read as its type. -/
theorem reads_typeTokens : ∀ node : Node, node.isLegible = true → ∀ {depth : Nat},
    (node.typeTokens owner).length ≤ depth + 1 → Reads owner depth node
  | .malformed, _, _, _ => .of_operand <| by
    rw [typeTokens, typeTree]
    exact readsOperand_word (by decide +kernel)
  | .primitive kind format, _, _, _ => .of_operand <| by
    rw [typeTokens, typeTree]
    apply readsOperand_word
    generalize primitiveType kind format = word
    cases word <;> decide +kernel
  | .array none, _, _, _ => .of_operand <| by
    rw [typeTokens, typeTree]
    exact (readsOperand_word (by decide +kernel)).array
  | .array (some items), h, depth, hdepth => .of_operand <| by
    rw [isLegible] at h
    rw [typeTokens] at hdepth
    rw [typeTokens, typeTree]
    split
    · rename_i hshows
      rw [if_pos hshows] at hdepth
      simp only [List.length_append, List.length_cons, List.length_nil] at hdepth
      -- Inside the parentheses there is one level less, and there are at least two tokens less.
      obtain ⟨inside, rfl⟩ : ∃ n, depth = n + 1 := ⟨depth - 1, by omega⟩
      exact (reads_typeTokens items h (show _ ≤ inside + 1 by omega)).type.parentheses.array
    · rename_i hshows
      rw [if_neg hshows] at hdepth
      simp only [List.length_append, List.length_cons, List.length_nil] at hdepth
      have hitems := reads_typeTokens items h (show _ ≤ depth + 1 by omega)
      exact (hitems.operand (Bool.not_eq_true _ ▸ hshows)).array
  | .object properties required, h, depth, hdepth => .of_operand <| by
    rw [isLegible] at h
    exact readsOperand_properties required (reads_properties required properties h _ (fun _ => id) hdepth)
  | .reference name, h, _, _ => .of_operand <| by
    rw [isLegible] at h
    exact readsOperand_reference h
  | .enumeration [], _, _, _ => .of_operand <| by
    rw [typeTokens, typeTree]
    exact readsOperand_word (by decide +kernel)
  | .enumeration (value :: values), h, depth, _ => by
    rw [isLegible, List.all_eq_true] at h
    have hne : value :: values ≠ [] := List.cons_ne_nil value values
    have hvalue : ∀ x ∈ value :: values,
        ReadsOperand (readType depth) [literalToken x] (literalTree x) :=
      fun x hx => readsOperand_literal_scalar (h x hx)
    constructor
    · rw [typeTokens, typeTree]
      · exact readsType_joined hne fun x hx => (hvalue x hx).alternative
      · exact hne
      · exact hne
    · intro hshows
      rw [typeTokens, typeTree]
      · exact readsOperand_of_not_shows (.inl rfl) hne hvalue hshows
      · exact hne
      · exact hne
  | .composite bases properties required, h, depth, hdepth => by
    rw [isLegible, Bool.and_eq_true, List.all_eq_true] at h
    have hne := compositeParts_ne_nil bases properties required
    have hparts : ∀ part ∈ compositeParts bases properties required,
        ReadsOperand (readType depth) (part.typeTokens owner) part.typeTree := by
      intro part hpart
      have hlength := length_le_of_mem_joinedTokens '&'
        (List.mem_map_of_mem (f := typeTokens owner) hpart)
      rw [← typeTokens_composite] at hlength
      rcases mem_compositeParts hpart with ⟨name, hname, rfl⟩ | rfl
      · exact readsOperand_reference (h.1 name hname)
      · exact readsOperand_properties required
          (reads_properties required properties h.2 _ (fun _ => id) (hlength.trans hdepth))
    constructor
    · rw [typeTokens_composite, typeTree_composite]
      exact (readsAlternative_joined hne hparts).type
    · intro hshows
      rw [typeText_composite] at hshows
      rw [typeTokens_composite, typeTree_composite]
      exact readsOperand_of_not_shows (.inr rfl) hne hparts hshows

theorem reads_properties (required : List String) :
    ∀ properties : List (String × Node), areLegible properties = true →
      ∀ all : List (String × Node), properties ⊆ all → ∀ {depth : Nat},
      (typeTokens owner (.object all required)).length ≤ depth + 1 →
      ∀ property ∈ properties, ReadsType (readType depth) (property.2.typeTokens owner)
        property.2.typeTree
  | [], _, _, _, _, _ => fun _ hmem => absurd hmem List.not_mem_nil
  | (name, property) :: rest, h, all, hsub, depth, hdepth => by
    rw [areLegible, Bool.and_eq_true, Bool.and_eq_true] at h
    have hlength : (property.typeTokens owner).length + 4 ≤ _ :=
      length_property_add_four (hsub List.mem_cons_self) required
    obtain ⟨inside, rfl⟩ : ∃ n, depth = n + 1 := ⟨depth - 1, by omega⟩
    exact List.forall_mem_cons.2 ⟨(reads_typeTokens property h.1.2 (show _ ≤ inside + 1 by omega)).type,
      reads_properties required rest h.2 all (fun x hx => hsub (List.mem_cons_of_mem _ hx)) hdepth⟩

end

end Text

end ApiBindings.Schema.Node

namespace ApiBindings

open Schema (Node)

end ApiBindings

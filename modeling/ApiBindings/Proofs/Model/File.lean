import ApiBindings.Proofs.Model.Fields
import ApiBindings.Proofs.Schema.Line

/-!
# Reading model files

What the file of a model says is read back from its lines: the imports up to a blank line, and then an alias
on one line or an interface with a line for each field (`readFile?`). A name ends where no identifier goes on,
and a quoted key at the first quote that is not escaped, so signs inside a key or a literal do no harm. A file
reads back as the model it was written for if nothing breaks its lines (`Model.readFile?_of_isUnbroken`), so
models that differ have different files, only that an enumeration is written as an alias
(`readFile?_render`).
-/

namespace ApiBindings

open TypeScript (key typeChar)

namespace Model

/-! ## What a file says -/

/-- A field as a file shows it. -/
structure FieldText where
  key : String
  optional : Bool
  type : String
  deriving DecidableEq, Repr

/-- The form of a declaration as a file shows it: that a type is an enumeration is not written. -/
inductive FormText where
  | alias (type : String)
  | interface (bases : List String) (fields : List FieldText)
  deriving DecidableEq, Repr

/-- What the file of a model says. -/
structure Contents where
  imports : List String
  name : String
  form : FormText
  deriving DecidableEq, Repr

def Field.toText (field : Field) : FieldText :=
  ⟨key field.name, field.optional, field.type.text⟩

def Form.toText : Form → FormText
  | .enumeration type => .alias type.text
  | .alias type => .alias type.text
  | .interface bases fields => .interface bases (fields.map Field.toText)

/-- What the file of a model is to say. -/
def contents (model : Model) : Contents :=
  ⟨model.imports, model.name, model.form.toText⟩

theorem fieldLine_congr {field other : Field} (h : field.toText = other.toText) :
    fieldLine field = fieldLine other := by
  obtain ⟨hkey, hoptional, htype⟩ := FieldText.mk.inj h
  rw [fieldLine, fieldLine, hkey, hoptional, htype]

theorem declarationText_congr (name : String) {form other : Form} (h : form.toText = other.toText) :
    declarationText name form = declarationText name other := by
  have halias : ∀ {type type' : TypeScript.TypeExpr}, FormText.alias type.text = .alias type'.text →
      aliasLine name type = aliasLine name type' := by
    intro type type' heq
    rw [aliasLine, aliasLine, FormText.alias.inj heq]
  have hinterface : ∀ {bases bases' fields fields'},
      FormText.interface bases (fields.map Field.toText) = .interface bases' (fields'.map Field.toText) →
      declarationText name (.interface bases fields) = declarationText name (.interface bases' fields') := by
    intro bases bases' fields fields' heq
    obtain ⟨hbases, hfields⟩ := FormText.interface.inj heq
    have hlines : fields.map fieldLine = fields'.map fieldLine := by
      rw [← List.forall₂_eq_eq_eq, List.forall₂_map_left_iff, List.forall₂_map_right_iff] at hfields ⊢
      exact hfields.imp fun _ _ => fieldLine_congr
    unfold declarationText
    dsimp only
    rw [hbases, hlines]
  rcases form with type | type | ⟨bases, fields⟩ <;>
    rcases other with type' | type' | ⟨bases', fields'⟩
  · exact halias h
  · exact halias h
  · cases h
  · exact halias h
  · exact halias h
  · cases h
  · cases h
  · cases h
  · exact hinterface h

/-- A file is made of nothing but what it is to say. -/
theorem render_congr {model other : Model} (h : model.contents = other.contents) :
    model.render = other.render := by
  obtain ⟨himports, hname, hform⟩ := Contents.mk.inj h
  rw [render, render, himports, hname, declarationText_congr other.name hform]

/-! ## Reading lines -/

/-- The name that a text begins with, and what follows it. -/
def splitName (text : List Char) : List Char × List Char :=
  (text.takeWhile Naming.continuesIdentifier, text.dropWhile Naming.continuesIdentifier)

/-- What a text holds up to the first quote that is not escaped, and what follows this quote. -/
def splitQuoted : List Char → Option (List Char × List Char)
  | [] => none
  | '\'' :: rest => some (['\''], rest)
  | '\\' :: c :: rest => (splitQuoted rest).map fun split => ('\\' :: c :: split.1, split.2)
  | c :: rest => (splitQuoted rest).map fun split => (c :: split.1, split.2)

/-- The key that a text begins with, and what follows it. -/
def splitKey : List Char → Option (List Char × List Char)
  | '\'' :: rest => (splitQuoted rest).map fun split => ('\'' :: split.1, split.2)
  | text => some (splitName text)

/-- The schema that a line imports. -/
def readImport? (line : List Char) : Option String := do
  let rest ← line.dropPrefix? "import type \x7b ".toList
  let (name, rest) := splitName rest
  guard (rest = " \x7d from './".toList ++ (name ++ "';".toList))
  return .ofList name

/-- Whether a text begins with the mark of optional fields, and what follows the mark. -/
def splitMark : List Char → Bool × List Char
  | '?' :: rest => (true, rest)
  | rest => (false, rest)

/-- The type between a separator and the semicolon at the end. -/
def readType? (separator text : List Char) : Option String := do
  let type ← text.dropPrefix? separator
  let type ← type.dropSuffix? ";".toList
  return .ofList type

/-- The field on a line of an interface. -/
def readField? (line : List Char) : Option FieldText := do
  let member ← line.dropPrefix? "  ".toList
  let (key, rest) ← splitKey member
  let (optional, rest) := splitMark rest
  let type ← readType? ": ".toList rest
  return ⟨.ofList key, optional, type⟩

/-- The bases that are named behind the name of an interface. -/
def readBases? (clause : List Char) : Option (List String) :=
  if clause = [] then some []
  else (clause.dropPrefix? " extends ".toList).map fun names =>
    (Text.pieces ", ".toList names).map .ofList

/-- The name and the bases on the first line of an interface. -/
def readHead? (line : List Char) : Option (String × List String) := do
  let rest ← line.dropPrefix? "export interface ".toList
  let (name, rest) := splitName rest
  let clause ← rest.dropSuffix? " \x7b".toList
  let bases ← readBases? clause
  return (.ofList name, bases)

/-- The name and the type on the line of an alias. -/
def readAlias? (line : List Char) : Option (String × String) := do
  let rest ← line.dropPrefix? "export type ".toList
  let (name, rest) := splitName rest
  let type ← readType? " = ".toList rest
  return (.ofList name, type)

/-- The declaration on some lines, behind some imports. -/
def readDeclaration? (imports : List String) : List (List Char) → Option Contents
  | [] => none
  | [line] => (readAlias? line).map fun read => ⟨imports, read.1, .alias read.2⟩
  | head :: body => do
    let (name, bases) ← readHead? head
    let lines ← body.dropSuffix? ["\x7d".toList]
    let fields ← lines.mapM readField?
    return ⟨imports, name, .interface bases fields⟩

/-- What the parts of a file say that blank lines set apart: its declaration, or its imports before it. -/
def readParts? : List (List (List Char)) → Option Contents
  | [declaration] => readDeclaration? [] declaration
  | [imports, declaration] => do
    let imports ← imports.mapM readImport?
    readDeclaration? imports declaration
  | _ => none

/-- What a file says, read from its lines. The last of them is ended like the others. -/
def readFile? (text : String) : Option Contents := do
  let lines ← (text.toList.splitOn '\n').dropSuffix? [[]]
  readParts? (lines.splitOn [])

/-! ## Names and keys -/

/-- Whether a text cannot go on a name in front of it. -/
def endsName (text : List Char) : Bool :=
  text.head?.all fun c => !Naming.continuesIdentifier c

theorem endsName_append {front : List Char} (hne : front ≠ []) (h : endsName front = true)
    (rest : List Char) : endsName (front ++ rest) = true := by
  cases front with
  | nil => exact absurd rfl hne
  | cons c front => exact h

theorem splitName_append {name rest : List Char} (hname : Naming.isIdentifier name = true)
    (hrest : endsName rest = true) : splitName (name ++ rest) = (name, rest) := by
  have hstop : ∀ c ∈ rest.head?, Naming.continuesIdentifier c = false := by
    intro c hc
    rw [endsName, Option.mem_def.1 hc] at hrest
    simpa using hrest
  obtain ⟨htake, hdrop⟩ :=
    TypeScript.span_append (fun c hc => Naming.continues_of_isIdentifier hname hc) hstop
  rw [splitName, htake, hdrop]

theorem splitQuoted_typeChar (c : Char) (rest : List Char) :
    splitQuoted (typeChar c ++ rest) =
      (splitQuoted rest).map fun split => (typeChar c ++ split.1, split.2) := by
  by_cases hescaped : c = '\\' ∨ c = '\''
  · rw [typeChar, if_pos hescaped]
    rfl
  · obtain ⟨hbackslash, hquote⟩ := not_or.1 hescaped
    rw [typeChar, if_neg hescaped]
    exact splitQuoted.eq_4 c rest hquote fun d tail heq => absurd heq hbackslash

theorem splitQuoted_flatMap (text rest : List Char) :
    splitQuoted (text.flatMap typeChar ++ '\'' :: rest) =
      some (text.flatMap typeChar ++ ['\''], rest) := by
  induction text with
  | nil => rfl
  | cons c text ih =>
    rw [List.flatMap_cons, List.append_assoc, splitQuoted_typeChar, ih, List.append_assoc]
    rfl

/-- A key ends where it was written to end. -/
theorem splitKey_append {name : String} (hname : '\n' ∉ name.toList) {rest : List Char}
    (hrest : endsName rest = true) : splitKey ((key name).toList ++ rest) = some ((key name).toList, rest) := by
  by_cases hbare : Naming.isBare name.toList = true
  · have hidentifier : Naming.isIdentifier name.toList = true := by
      rwa [Naming.isBare, Naming.withoutFinalLineFeed_of_notMem hname] at hbare
    rw [TypeScript.key_of_isBare hbare]
    cases hlist : name.toList with
    | nil =>
      rw [hlist] at hidentifier
      cases hidentifier
    | cons c tail =>
      rw [hlist] at hidentifier hbare
      have hquote : c ≠ '\'' := fun heq => TypeScript.ne_quote_of_isBare hbare tail (by rw [heq])
      rw [List.cons_append, splitKey.eq_2 _ fun back heq => hquote (List.cons.inj heq).1,
        ← List.cons_append, splitName_append hidentifier hrest]
  · rw [TypeScript.toList_key_of_not_isBare hbare, List.cons_append, List.append_assoc, splitKey,
      List.singleton_append, splitQuoted_flatMap]
    rfl

/-! ## Lines -/

/-- A text consists of some lines, with a line feed behind each. None of them is blank. -/
structure IsLines (text : String) (lines : List (List Char)) : Prop where
  toList : text.toList = lines.flatMap (· ++ ['\n'])
  unbroken : ∀ line ∈ lines, '\n' ∉ line
  notBlank : [] ∉ lines

theorem IsLines.nil : IsLines "" [] :=
  ⟨rfl, nofun, List.not_mem_nil⟩

/-- A text that ends with a line feed is one line. -/
theorem IsLines.of_ended {front last back : String} (h : last = back ++ "\n")
    (hline : '\n' ∉ (front ++ back).toList) (hne : back.toList ≠ []) :
    IsLines (front ++ last) [(front ++ back).toList] := by
  refine ⟨?_, List.forall_mem_singleton.2 hline, fun hblank => ?_⟩
  · rw [h, ← String.append_assoc, String.toList_append, List.flatMap_singleton]
    rfl
  · rw [List.mem_singleton, String.toList_append] at hblank
    exact List.append_ne_nil_of_right_ne_nil _ hne hblank.symm

theorem IsLines.append {text more : String} {lines others : List (List Char)} (h : IsLines text lines)
    (hmore : IsLines more others) : IsLines (text ++ more) (lines ++ others) :=
  ⟨by rw [String.toList_append, h.toList, hmore.toList, List.flatMap_append],
    List.forall_mem_append.2 ⟨h.unbroken, hmore.unbroken⟩, List.not_mem_append h.notBlank hmore.notBlank⟩

/-- Items that are each written on a line and read back from it are read back one after the other. -/
theorem exists_lines_join {α β : Type} {write : α → String} {read? : List Char → Option β} {view : α → β}
    {items : List α} (h : ∀ item ∈ items, ∃ line, IsLines (write item) [line] ∧
      read? line = some (view item)) :
    ∃ lines, IsLines (String.join (items.map write)) lines ∧
      lines.mapM read? = some (items.map view) := by
  induction items with
  | nil => exact ⟨[], .nil, rfl⟩
  | cons item items ih =>
    obtain ⟨⟨line, hline, hread⟩, hrest⟩ := List.forall_mem_cons.1 h
    obtain ⟨lines, hlines, hreads⟩ := ih hrest
    have hjoin : String.join ((item :: items).map write) =
        write item ++ String.join (items.map write) := by
      apply String.toList_inj.1
      rw [String.toList_append, String.toList_join, String.toList_join, List.map_cons, List.flatMap_cons]
    refine ⟨line :: lines, ?_, ?_⟩
    · rw [hjoin]
      exact hline.append hlines
    · rw [List.mapM_cons, hread, hreads]
      rfl

theorem splitOn_lines {lines : List (List Char)} (h : ∀ line ∈ lines, '\n' ∉ line) :
    (lines.flatMap (· ++ ['\n'])).splitOn '\n' = lines ++ [[]] := by
  have htext : lines.flatMap (· ++ ['\n']) = ['\n'].intercalate (lines ++ [[]]) := by
    clear h
    induction lines with
    | nil => rfl
    | cons line lines ih =>
      rw [List.flatMap_cons, ih, List.cons_append, List.intercalate_cons_of_ne_nil (by simp),
        List.append_assoc]
  rw [htext]
  refine List.splitOn_intercalate '\n' (fun line hline => ?_) (by simp)
  rcases List.mem_append.1 hline with hline | hline
  · exact h line hline
  · rw [List.mem_singleton.1 hline]
    exact List.not_mem_nil

/-! ## Reading what was written -/

theorem readType?_append (separator : List Char) (type : String) :
    readType? separator (separator ++ (type.toList ++ ";".toList)) = some type := by
  rw [readType?, Text.dropPrefix?_append, Option.bind_eq_bind, Option.bind_some,
    Text.dropSuffix?_append, Option.bind_some, String.ofList_toList]
  rfl

theorem splitMark_append (optional : Bool) (rest : List Char) :
    splitMark ((if optional then "?" else "").toList ++ (": ".toList ++ rest)) =
      (optional, ": ".toList ++ rest) := by
  cases optional <;> rfl

theorem exists_line_importLine {name : String} (hname : Naming.isIdentifier name.toList = true) :
    ∃ line, IsLines (importLine name) [line] ∧ readImport? line = some name := by
  have hbreak := Naming.lineFeed_notMem_of_isIdentifier hname
  refine ⟨_, .of_ended (show "';\n" = "';" ++ "\n" by decide) ?_ (by decide), ?_⟩
  · simp only [String.toList_append, List.mem_append, not_or]
    exact ⟨⟨⟨⟨by decide, hbreak⟩, by decide⟩, hbreak⟩, by decide⟩
  · simp only [String.toList_append, List.append_assoc]
    rw [readImport?, Text.dropPrefix?_append, Option.bind_eq_bind, Option.bind_some,
      splitName_append hname (endsName_append (by decide) (by decide) _)]
    simp only [guard, if_pos, String.ofList_toList]
    rfl

theorem exists_line_aliasLine {name : String} (hname : Naming.isIdentifier name.toList = true)
    {type : TypeScript.TypeExpr} (htype : '\n' ∉ type.text.toList) :
    ∃ line, IsLines (aliasLine name type) [line] ∧ readAlias? line = some (name, type.text) := by
  have hbreak := Naming.lineFeed_notMem_of_isIdentifier hname
  refine ⟨_, .of_ended (show ";\n" = ";" ++ "\n" by decide) ?_ (by decide), ?_⟩
  · simp only [String.toList_append, List.mem_append, not_or]
    exact ⟨⟨⟨⟨by decide, hbreak⟩, by decide⟩, htype⟩, by decide⟩
  · simp only [String.toList_append, List.append_assoc]
    rw [readAlias?, Text.dropPrefix?_append, Option.bind_eq_bind, Option.bind_some,
      splitName_append hname (endsName_append (by decide) (by decide) _)]
    simp only [readType?_append, String.ofList_toList]
    rfl

theorem endsName_mark (optional : Bool) (rest : List Char) :
    endsName ((if optional then "?" else "").toList ++ (": ".toList ++ rest)) = true := by
  cases optional with
  | true => exact endsName_append (show "?".toList ≠ [] by decide) (by decide) _
  | false => exact endsName_append (show ": ".toList ≠ [] by decide) (by decide) rest

theorem exists_line_fieldLine {field : Field} (hname : '\n' ∉ field.name.toList)
    (htype : '\n' ∉ field.type.text.toList) :
    ∃ line, IsLines (fieldLine field) [line] ∧ readField? line = some field.toText := by
  have hkey := TypeScript.lineFeed_notMem_key hname
  have hmark : '\n' ∉ (if field.optional then "?" else "").toList := by
    cases field.optional <;> decide
  refine ⟨_, .of_ended (show ";\n" = ";" ++ "\n" by decide) ?_ (by decide), ?_⟩
  · simp only [String.toList_append, List.mem_append, not_or]
    exact ⟨⟨⟨⟨⟨by decide, hkey⟩, hmark⟩, by decide⟩, htype⟩, by decide⟩
  · simp only [String.toList_append, List.append_assoc]
    rw [readField?, Text.dropPrefix?_append, Option.bind_eq_bind, Option.bind_some,
      splitKey_append hname (endsName_mark field.optional _)]
    simp only [splitMark_append, readType?_append, Option.bind_eq_bind, Option.bind_some,
      String.ofList_toList]
    rfl

theorem readBases?_extendsClause {bases : List String}
    (h : ∀ name ∈ bases, Naming.isIdentifier name.toList = true) :
    readBases? (extendsClause bases).toList = some bases := by
  cases bases with
  | nil => rfl
  | cons base bases =>
    have hclause : (extendsClause (base :: bases)).toList =
        " extends ".toList ++ ", ".toList.intercalate ((base :: bases).map String.toList) := by
      show (" extends " ++ ", ".intercalate (base :: bases)).toList = _
      rw [String.toList_append, String.toList_intercalate]
    have hpieces : Text.pieces ", ".toList (", ".toList.intercalate ((base :: bases).map String.toList)) =
        (base :: bases).map String.toList := by
      have hborder : Text.IsUnbordered ", ".toList :=
        Text.isUnbordered_concat (show ' ' ∉ [','] by decide)
      refine Text.pieces_intercalate (by decide) hborder (List.cons_ne_nil _ _) fun piece hpiece hcomma => ?_
      obtain ⟨name, hname, rfl⟩ := List.mem_map.1 hpiece
      have hcontinues := Naming.continues_of_isIdentifier (h name hname)
        (hcomma.subset (show ',' ∈ ", ".toList by decide))
      exact absurd hcontinues (by decide)
    rw [hclause, readBases?, if_neg (List.append_ne_nil_of_left_ne_nil (by decide) _),
      Text.dropPrefix?_append, Option.map_some, hpieces, List.map_map]
    simp [Function.comp_def]

theorem lineFeed_notMem_extendsClause {bases : List String}
    (h : ∀ name ∈ bases, Naming.isIdentifier name.toList = true) :
    '\n' ∉ (extendsClause bases).toList := by
  unfold extendsClause
  split
  · exact List.not_mem_nil
  · have hnames := TypeScript.lineFeed_notMem_intercalate (show '\n' ∉ ", ".toList by decide)
      fun name hname => Naming.lineFeed_notMem_of_isIdentifier (h name hname)
    rw [String.toList_append]
    exact List.not_mem_append (by decide) hnames

theorem endsName_extendsClause (bases : List String) :
    endsName ((extendsClause bases).toList ++ " \x7b".toList) = true := by
  unfold extendsClause
  split
  · decide
  · rw [String.toList_append, List.append_assoc]
    exact endsName_append (by decide) (by decide) _

theorem exists_line_head {name : String} (hname : Naming.isIdentifier name.toList = true)
    {bases : List String} (hbases : ∀ base ∈ bases, Naming.isIdentifier base.toList = true) :
    ∃ line, IsLines ("export interface " ++ name ++ extendsClause bases ++ " \x7b\n") [line] ∧
      readHead? line = some (name, bases) := by
  refine ⟨_, .of_ended (show " \x7b\n" = " \x7b" ++ "\n" by decide) ?_ (by decide), ?_⟩
  · simp only [String.toList_append, List.mem_append, not_or]
    exact ⟨⟨⟨by decide, Naming.lineFeed_notMem_of_isIdentifier hname⟩,
      lineFeed_notMem_extendsClause hbases⟩, by decide⟩
  · simp only [String.toList_append, List.append_assoc]
    rw [readHead?, Text.dropPrefix?_append, Option.bind_eq_bind, Option.bind_some,
      splitName_append hname (endsName_extendsClause bases)]
    simp only [Text.dropSuffix?_append, readBases?_extendsClause hbases, Option.bind_eq_bind,
      Option.bind_some, String.ofList_toList]
    rfl

/-- Whether nothing breaks the lines of a model's file. -/
structure IsUnbroken (model : Model) : Prop where
  name : Naming.isIdentifier model.name.toList = true
  imports : ∀ name ∈ model.imports, Naming.isIdentifier name.toList = true
  bases : ∀ name ∈ model.bases, Naming.isIdentifier name.toList = true
  type : ∀ type, model.form = .enumeration type ∨ model.form = .alias type → '\n' ∉ type.text.toList
  fields : ∀ field ∈ model.fields, '\n' ∉ field.name.toList ∧ '\n' ∉ field.type.text.toList

theorem exists_lines_declarationText {model : Model} (h : model.IsUnbroken) :
    ∃ lines, IsLines (declarationText model.name model.form) lines ∧
      ∀ imports, readDeclaration? imports lines = some ⟨imports, model.name, model.form.toText⟩ := by
  obtain ⟨name, imports, form⟩ := model
  have halias : ∀ type : TypeScript.TypeExpr, '\n' ∉ type.text.toList →
      ∃ lines, IsLines (aliasLine name type) lines ∧
        ∀ imports, readDeclaration? imports lines = some ⟨imports, name, .alias type.text⟩ := by
    intro type htype
    obtain ⟨line, hline, hread⟩ := exists_line_aliasLine h.name htype
    exact ⟨[line], hline, fun imports => by rw [readDeclaration?, hread, Option.map_some]⟩
  rcases form with type | type | ⟨bases, fields⟩
  · exact halias type (h.type type (.inl rfl))
  · exact halias type (h.type type (.inr rfl))
  · obtain ⟨head, hhead, hreadHead⟩ := exists_line_head h.name h.bases
    obtain ⟨lines, hlines, hreads⟩ := exists_lines_join fun field hfield =>
      exists_line_fieldLine (h.fields field hfield).1 (h.fields field hfield).2
    have hclosing : IsLines "\x7d\n" ["\x7d".toList] := ⟨rfl, by decide, by decide⟩
    refine ⟨[head] ++ lines ++ ["\x7d".toList], (hhead.append hlines).append hclosing, fun imports => ?_⟩
    have hbody : lines ++ ["\x7d".toList] ≠ [] := by simp
    rw [List.append_assoc, List.singleton_append, readDeclaration?.eq_3 _ _ _ fun heq => hbody heq,
      hreadHead]
    simp only [Option.bind_eq_bind, Option.bind_some, Text.dropSuffix?_append, hreads]
    rfl

theorem readFile?_eq {text : String} {lines : List (List Char)}
    (htext : text.toList = lines.flatMap (· ++ ['\n'])) (hlines : ∀ line ∈ lines, '\n' ∉ line) :
    readFile? text = readParts? (lines.splitOn []) := by
  rw [readFile?, htext, splitOn_lines hlines, Text.dropSuffix?_append, Option.bind_eq_bind,
    Option.bind_some]

/-- A file is read back as its model. -/
theorem readFile?_of_isUnbroken {model : Model} (h : model.IsUnbroken) :
    readFile? model.render = some model.contents := by
  obtain ⟨lines, hlines, hread⟩ := exists_lines_declarationText h
  by_cases himports : model.imports = []
  · have hrender : model.render.toList = lines.flatMap (· ++ ['\n']) := by
      rw [render, himports, ← hlines.toList]
      simp
    rw [readFile?_eq hrender hlines.unbroken, List.splitOn_eq_singleton hlines.notBlank, readParts?,
      hread, contents, himports]
  · obtain ⟨front, hfront, hreads⟩ : ∃ front,
        IsLines (String.join (model.imports.map importLine)) front ∧
          front.mapM readImport? = some (model.imports.map id) :=
      exists_lines_join fun name hname => exists_line_importLine (h.imports name hname)
    have hrender : model.render.toList = (front ++ [[]] ++ lines).flatMap (· ++ ['\n']) := by
      rw [render, String.toList_append, String.toList_append, hfront.toList, hlines.toList,
        if_neg (by simpa using himports), List.flatMap_append, List.flatMap_append]
      rfl
    have hunbroken : ∀ line ∈ front ++ [[]] ++ lines, '\n' ∉ line :=
      List.forall_mem_append.2 ⟨List.forall_mem_append.2 ⟨hfront.unbroken, by simp⟩, hlines.unbroken⟩
    have hparts : (front ++ [[]] ++ lines).splitOn [] = [front, lines] := by
      have hjoin : front ++ [[]] ++ lines = [[]].intercalate [front, lines] := by
        simp [List.intercalate_cons_cons]
      rw [hjoin]
      refine List.splitOn_intercalate [] (fun part hpart => ?_) (List.cons_ne_nil _ _)
      rcases List.mem_cons.1 hpart with rfl | hpart
      · exact hfront.notBlank
      · rw [List.mem_singleton.1 hpart]
        exact hlines.notBlank
    rw [readFile?_eq hrender hunbroken, hparts, readParts?, hreads, List.map_id, Option.bind_eq_bind,
      Option.bind_some, hread, contents]

/-! ## Models of schemas -/

open Schema (Node)

/-- A declaration that is no interface is of the type of its schema. -/
theorem type_ofNode {name : String} {node : Node} {type : TypeScript.TypeExpr}
    (h : (ofNode name node).form = .enumeration type ∨ (ofNode name node).form = .alias type) :
    type = (node.resolve name).type := by
  cases node with
  | object properties required => rcases h with h | h <;> cases h
  | composite bases properties required => rcases h with h | h <;> cases h
  | _ =>
    rcases h with h | h <;> cases h
    rfl

theorem lineFeed_notMem_fieldsFrom (owner : String) (required : List String)
    {properties : List (String × Node)} (h : Node.areUnbroken properties = true) :
    ∀ field ∈ (fieldsFrom owner required properties []).1,
      '\n' ∉ field.name.toList ∧ '\n' ∉ field.type.text.toList := by
  intro field hfield
  rw [fieldsFrom_eq_map] at hfield
  obtain ⟨property, hproperty, rfl⟩ := List.mem_map.1 hfield
  exact Node.lineFeed_notMem_propertyTexts owner properties h property hproperty

/-- The model of a schema in which nothing breaks a line. -/
theorem isUnbroken_ofNode {name : String} {node : Node} (hname : Naming.isIdentifier name.toList = true)
    (hnode : node.isUnbroken = true) : (ofNode name node).IsUnbroken := by
  have himports : ∀ other ∈ (ofNode name node).imports, Naming.isIdentifier other.toList = true := by
    intro other hother
    rw [imports_ofNode] at hother
    exact Node.isIdentifier_of_mem_refs node hnode other (Node.othersThan_subset name _ hother)
  constructor
  case name => rwa [ofNode_name]
  case imports => exact himports
  case bases => exact fun base hbase => himports base ((bases_begin_imports name node).subset hbase)
  case type =>
    intro type htype
    rw [type_ofNode htype]
    exact Node.lineFeed_notMem_typeText name node hnode
  case fields =>
    cases node with
    | object properties required =>
      rw [Node.isUnbroken] at hnode
      exact lineFeed_notMem_fieldsFrom name required hnode
    | composite bases properties required =>
      rw [Node.isUnbroken, Bool.and_eq_true] at hnode
      exact lineFeed_notMem_fieldsFrom name required hnode.2
    | _ => nofun

end Model

open Schema (Node)

/-- **Model files lose nothing.** If the name of a schema and the names of its references are identifiers,
and no name of a property and no text of an enumeration has a line feed, then the file of its model is read
back line by line: imports, form, name and bases, the type of an alias, and for each field its key, whether
it is optional, and its type. So two such models have one file only if they say the same. -/
theorem readFile?_render {name : String} {node : Node}
    (hname : Naming.isIdentifier name.toList = true) (hnode : node.isUnbroken = true) :
    Model.readFile? (Model.ofNode name node).render = some (Model.ofNode name node).contents ∧
    ∀ other node', Naming.isIdentifier other.toList = true → node'.isUnbroken = true →
      ((Model.ofNode name node).render = (Model.ofNode other node').render ↔
        (Model.ofNode name node).contents = (Model.ofNode other node').contents) := by
  have hread := Model.readFile?_of_isUnbroken (Model.isUnbroken_ofNode hname hnode)
  refine ⟨hread, fun other node' hother hnode' => ⟨fun hrender => ?_, Model.render_congr⟩⟩
  have hread' := Model.readFile?_of_isUnbroken (Model.isUnbroken_ofNode hother hnode')
  rw [hrender] at hread
  exact Option.some.inj (hread.symm.trans hread')

/-- An interface with imports, bases, and signs of its lines inside a key and inside a literal. -/
def lineSigns : Node :=
  .composite ["Base", "Order", "Entity"]
    [("a?: \x7b'", .array (some (.enumeration [.text "x;", .text "y\\"]))), ("id", .reference "Id")]
    ["id"]

theorem lineSigns_read_back :
    Naming.isIdentifier "Order".toList = true ∧ lineSigns.isUnbroken = true ∧
    Model.readFile? (Model.ofNode "Order" lineSigns).render = some
      ⟨["Base", "Entity", "Id"], "Order", .interface ["Base", "Entity"]
        [⟨"'a?: \x7b\\''", true, "('x;' | 'y\\\\')[]"⟩, ⟨"id", false, "Id"⟩]⟩ ∧
    (Model.ofNode "Order" lineSigns).render ≠ (Model.ofNode "Order" (.array (some lineSigns))).render :=
  have hread := readFile?_render (show Naming.isIdentifier "Order".toList = true by decide)
    (show lineSigns.isUnbroken = true by decide +kernel)
  ⟨by decide, by decide +kernel, hread.1.trans (by decide +kernel), fun heq =>
    absurd ((hread.2 "Order" (.array (some lineSigns)) (by decide) (by decide +kernel)).1 heq)
      (by decide +kernel)⟩

end ApiBindings

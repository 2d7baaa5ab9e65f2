import ApiBindings.Proofs.TypeScript.Token

/-!
# The grammar of types

How tokens are read as a type:

* a type is one alternative, or several with `|` between them;
* an alternative is one operand, or several with `&` between them;
* an operand is a primary type with any number of `[]` behind it;
* a primary type is a word, a literal, `Record<string, any>`, a type in parentheses, or an object, which
  is a list of members in braces with `;` between them, each a key, a `:` and a type.

So `[]` binds tighter than `&`, and `&` tighter than `|`. Parentheses leave no trace in what is read.
-/

namespace ApiBindings.TypeScript

/-- What a type says. -/
inductive TypeTree where
  /-- A name, a keyword or a number. -/
  | word (text : String)
  | literal (text : String)
  /-- An object of which nothing is known. -/
  | record
  | array (element : TypeTree)
  | object (members : List (String × TypeTree))
  | intersection (parts : List TypeTree)
  | union (alternatives : List TypeTree)
  deriving Repr

/-- Several types joined to one; a single one stands for itself. -/
def TypeTree.joined (join : List TypeTree → TypeTree) : List TypeTree → TypeTree
  | [type] => type
  | types => join types

/-- Reads something from the start of some tokens and leaves the rest. -/
abbrev Reader (α : Type) := List Token → Option (α × List Token)

/-- Reads one or several things, at most `bound`, with a sign between them. -/
def separated {α : Type} (separator : Char) (item : Reader α) : Nat → Reader (List α)
  | 0, _ => none
  | bound + 1, tokens => do
    let (first, rest) ← item tokens
    if rest.head? = some (.sign separator) then
      let (more, rest) ← separated separator item bound rest.tail
      return (first :: more, rest)
    else return ([first], rest)

/-- Reads something with a sign behind it. -/
def closed {α : Type} (sign : Char) (item : Reader α) : Reader α := fun tokens => do
  let (value, rest) ← item tokens
  if rest.head? = some (.sign sign) then return (value, rest.tail) else none

def readBrackets (type : TypeTree) : List Token → TypeTree × List Token
  | .sign '[' :: .sign ']' :: rest => readBrackets (.array type) rest
  | rest => (type, rest)

/-- What follows the arguments of an open record. -/
def afterArguments? : List Token → Option (List Token)
  | .sign '<' :: .word "string" :: .sign ',' :: .word "any" :: .sign '>' :: rest => some rest
  | _ => none

/-- Reads a word or an open record. -/
def readWord (text : String) (rest : List Token) : Option (TypeTree × List Token) :=
  match if text = "Record" then afterArguments? rest else none with
  | some rest => some (.record, rest)
  | none => if isWord text then some (.word text, rest) else none

section Nested

/-! `inner` reads the types that stand inside parentheses and braces. -/

variable (inner : Reader TypeTree)

def readMember : Reader (String × TypeTree)
  | .word name :: .sign ':' :: rest =>
    if Naming.isIdentifier name.toList then (inner rest).map fun read => ((name, read.1), read.2)
    else none
  | .literal name :: .sign ':' :: rest => (inner rest).map fun read => ((name, read.1), read.2)
  | _ => none

def readPrimary : Reader TypeTree
  | .word text :: rest => readWord text rest
  | .literal text :: rest => some (.literal text, rest)
  | .sign '(' :: rest => closed ')' inner rest
  | .sign '\x7b' :: rest =>
    (closed '\x7d' (separated ';' (readMember inner) rest.length) rest).map fun read =>
      (.object read.1, read.2)
  | _ => none

def readOperand : Reader TypeTree := fun tokens =>
  (readPrimary inner tokens).map fun read => readBrackets read.1 read.2

def readAlternative : Reader TypeTree := fun tokens =>
  (separated '&' (readOperand inner) (tokens.length + 1) tokens).map fun read =>
    (.joined .intersection read.1, read.2)

def readUnion : Reader TypeTree := fun tokens =>
  (separated '|' (readAlternative inner) (tokens.length + 1) tokens).map fun read =>
    (.joined .union read.1, read.2)

end Nested

/-- Reads a type whose parentheses and braces stand inside each other less than `depth` times. -/
def readType : Nat → Reader TypeTree
  | 0 => fun _ => none
  | depth + 1 => readUnion (readType depth)

/-- The type that a text as a whole is. -/
def readTypeText (text : String) : Option TypeTree := do
  let tokens ← tokens text.toList
  let (type, rest) ← readType (tokens.length + 1) tokens
  if rest = [] then return type else none

example : readTypeText "(A | B)[] | C & D[]" = some (.union
    [.array (.union [.word "A", .word "B"]), .intersection [.word "C", .array (.word "D")]]) := by
  cbv

/-! ## Reading what is put together -/

/-- Whether some tokens begin with none of some signs. -/
def AvoidsSigns (signs : List Char) (rest : List Token) : Prop :=
  ∀ c ∈ signs, rest.head? ≠ some (.sign c)

theorem avoidsSigns_nil (signs : List Char) : AvoidsSigns signs [] :=
  fun _ _ h => by cases h

theorem avoidsSigns_sign {signs : List Char} {sign : Char} (h : sign ∉ signs) (rest : List Token) :
    AvoidsSigns signs (.sign sign :: rest) := by
  intro c hc heq
  cases heq
  exact h hc

theorem AvoidsSigns.mono {signs more : List Char} {rest : List Token} (h : AvoidsSigns more rest)
    (hsub : signs ⊆ more) : AvoidsSigns signs rest :=
  fun c hc => h c (hsub hc)

/-- The tokens of several things with a sign between them. -/
def joinedTokens (separator : Char) (items : List (List Token)) : List Token :=
  [Token.sign separator].intercalate items

theorem joinedTokens_cons_cons (separator : Char) (first second : List Token)
    (more : List (List Token)) :
    joinedTokens separator (first :: second :: more) =
      first ++ .sign separator :: joinedTokens separator (second :: more) := by
  rw [joinedTokens, List.intercalate_cons_cons, List.append_assoc]
  rfl

theorem length_le_joinedTokens (separator : Char) (items : List (List Token)) :
    items.length ≤ (joinedTokens separator items).length + 1 := by
  induction items with
  | nil => exact Nat.zero_le _
  | cons first more ih =>
    cases more with
    | nil => exact Nat.succ_le_succ (Nat.zero_le _)
    | cons second more =>
      rw [joinedTokens_cons_cons]
      simp only [List.length_cons, List.length_append] at ih ⊢
      omega

section Separated

variable {α β : Type} {separator : Char} {signs : List Char} {written : β → List Token} {value : β → α}

/-- Things with a sign between them are read one by one if each is read in front of the sign. -/
theorem separated_joinedTokens (item : Reader α) (hsign : separator ∉ signs) {items : List β}
    (hne : items ≠ [])
    (hitem : ∀ x ∈ items, ∀ rest, AvoidsSigns signs rest →
      item (written x ++ rest) = some (value x, rest))
    {bound : Nat} (hbound : (joinedTokens separator (items.map written)).length < bound)
    {rest : List Token} (hrest : AvoidsSigns (separator :: signs) rest) :
    separated separator item bound (joinedTokens separator (items.map written) ++ rest) =
      some (items.map value, rest) := by
  -- Each item takes one unit, so the induction counts items and not tokens, which items may lack.
  replace hbound : items.length ≤ bound := by
    have hlength := length_le_joinedTokens separator (items.map written)
    rw [List.length_map] at hlength
    omega
  induction items generalizing bound with
  | nil => exact absurd rfl hne
  | cons x items ih =>
    obtain ⟨bound, rfl⟩ : ∃ n, bound = n + 1 := ⟨bound - 1, by simp at hbound; omega⟩
    cases items with
    | nil =>
      have hx := hitem x List.mem_cons_self rest (hrest.mono (List.subset_cons_self _ _))
      have hstop : rest.head? ≠ some (.sign separator) := hrest separator List.mem_cons_self
      have htext : joinedTokens separator ([x].map written) ++ rest = written x ++ rest := by
        simp [joinedTokens]
      rw [htext, separated, hx]
      simp only [Option.bind_eq_bind, Option.bind_some, if_neg hstop]
      rfl
    | cons y items =>
      have hmore := ih (List.cons_ne_nil y items)
        (fun z hz => hitem z (List.mem_cons_of_mem x hz)) (Nat.le_of_succ_le_succ hbound)
      have hx := hitem x List.mem_cons_self
        (.sign separator :: (joinedTokens separator ((y :: items).map written) ++ rest))
        (avoidsSigns_sign hsign _)
      have htext : joinedTokens separator ((x :: y :: items).map written) ++ rest =
          written x ++
            .sign separator :: (joinedTokens separator ((y :: items).map written) ++ rest) := by
        rw [List.map_cons, List.map_cons, joinedTokens_cons_cons, List.append_assoc]
        rfl
      rw [htext, separated, hx]
      simp only [Option.bind_eq_bind, Option.bind_some, List.head?_cons, if_true, List.tail_cons]
      rw [hmore]
      rfl

end Separated

theorem readBrackets_of_avoids {rest : List Token} (h : AvoidsSigns ['['] rest) (type : TypeTree) :
    readBrackets type rest = (type, rest) := by
  unfold readBrackets
  split
  · exact absurd rfl (h '[' List.mem_cons_self)
  · rfl

theorem closed_eq {α : Type} {sign : Char} {item : Reader α} {tokens rest : List Token} {value : α}
    (h : item tokens = some (value, .sign sign :: rest)) :
    closed sign item tokens = some (value, rest) := by
  rw [closed, h]
  simp

/-! ## The levels of the grammar

Each level is read in front of whatever cannot go on it. An operand can be gone on by brackets, which
then apply to it; this is what lets brackets follow brackets. -/

def ReadsOperand (inner : Reader TypeTree) (tokens : List Token) (type : TypeTree) : Prop :=
  ∀ rest, AvoidsSigns ['<'] rest →
    readOperand inner (tokens ++ rest) = some (readBrackets type rest)

def ReadsAlternative (inner : Reader TypeTree) (tokens : List Token) (type : TypeTree) : Prop :=
  ∀ rest, AvoidsSigns ['&', '[', '<'] rest →
    readAlternative inner (tokens ++ rest) = some (type, rest)

def ReadsType (reader : Reader TypeTree) (tokens : List Token) (type : TypeTree) : Prop :=
  ∀ rest, AvoidsSigns ['|', '&', '[', '<'] rest → reader (tokens ++ rest) = some (type, rest)

section Levels

variable {inner : Reader TypeTree} {β : Type} {written : β → List Token} {value : β → TypeTree}

theorem readsAlternative_joined {items : List β} (hne : items ≠ [])
    (hitem : ∀ x ∈ items, ReadsOperand inner (written x) (value x)) :
    ReadsAlternative inner (joinedTokens '&' (items.map written))
      (.joined .intersection (items.map value)) := by
  intro rest hrest
  have hprefix := List.prefix_append (joinedTokens '&' (items.map written)) rest
  have hbound := Nat.lt_succ_of_le hprefix.length_le
  have hread := separated_joinedTokens (readOperand inner)
    (show '&' ∉ ['[', '<'] by decide) hne (fun x hx after hafter => by
      rw [hitem x hx after (hafter.mono (by decide)),
        readBrackets_of_avoids (hafter.mono (by decide))]) hbound hrest
  rw [readAlternative, hread]
  rfl

theorem readsType_joined {items : List β} (hne : items ≠ [])
    (hitem : ∀ x ∈ items, ReadsAlternative inner (written x) (value x)) :
    ReadsType (readUnion inner) (joinedTokens '|' (items.map written))
      (.joined .union (items.map value)) := by
  intro rest hrest
  have hprefix := List.prefix_append (joinedTokens '|' (items.map written)) rest
  have hbound := Nat.lt_succ_of_le hprefix.length_le
  have hread := separated_joinedTokens (readAlternative inner)
    (show '|' ∉ ['&', '[', '<'] by decide) hne hitem hbound hrest
  rw [readUnion, hread]
  rfl

theorem joinedTokens_singleton (separator : Char) (item : List Token) :
    joinedTokens separator [item] = item := by
  simp [joinedTokens]

theorem ReadsOperand.alternative {tokens : List Token} {type : TypeTree}
    (h : ReadsOperand inner tokens type) : ReadsAlternative inner tokens type := by
  have hjoined := readsAlternative_joined (List.cons_ne_nil () []) fun _ _ => h
  rwa [List.map_singleton, joinedTokens_singleton] at hjoined

theorem ReadsAlternative.type {tokens : List Token} {type : TypeTree}
    (h : ReadsAlternative inner tokens type) : ReadsType (readUnion inner) tokens type := by
  have hjoined := readsType_joined (List.cons_ne_nil () []) fun _ _ => h
  rwa [List.map_singleton, joinedTokens_singleton] at hjoined

theorem ReadsOperand.array {tokens : List Token} {type : TypeTree}
    (h : ReadsOperand inner tokens type) :
    ReadsOperand inner (tokens ++ [.sign '[', .sign ']']) (.array type) := by
  intro rest _
  have hbrackets := h (.sign '[' :: .sign ']' :: rest) (avoidsSigns_sign (by decide) _)
  rw [List.append_assoc]
  exact hbrackets

theorem ReadsType.parentheses {tokens : List Token} {type : TypeTree}
    (h : ReadsType inner tokens type) :
    ReadsOperand inner (.sign '(' :: tokens ++ [.sign ')']) type := by
  intro rest _
  have hclosed := closed_eq (h (.sign ')' :: rest) (avoidsSigns_sign (by decide) _))
  rw [readOperand, List.append_assoc, List.cons_append, readPrimary, List.singleton_append, hclosed]
  rfl

theorem readsOperand_word {text : String} (h : isWord text = true) :
    ReadsOperand inner [.word text] (.word text) := by
  intro rest hrest
  have harguments : afterArguments? rest = none := by
    unfold afterArguments?
    split
    · exact absurd rfl (hrest '<' List.mem_cons_self)
    · rfl
  rw [readOperand, List.singleton_append, readPrimary, readWord, harguments, ite_self, if_pos h]
  rfl

theorem readsOperand_literal (text : String) : ReadsOperand inner [.literal text] (.literal text) :=
  fun _ _ => rfl

def recordTokens : List Token :=
  [.word "Record", .sign '<', .word "string", .sign ',', .word "any", .sign '>']

theorem readsOperand_record : ReadsOperand inner recordTokens .record :=
  fun _ _ => rfl

def ReadsMember (inner : Reader TypeTree) (tokens : List Token) (member : String × TypeTree) : Prop :=
  ∀ rest, AvoidsSigns ['|', '&', '[', '<'] rest →
    readMember inner (tokens ++ rest) = some (member, rest)

theorem readsOperand_object {member : β → String × TypeTree} {members : List β} (hne : members ≠ [])
    (hmember : ∀ x ∈ members, ReadsMember inner (written x) (member x)) :
    ReadsOperand inner
      (.sign '\x7b' :: joinedTokens ';' (members.map written) ++ [.sign '\x7d'])
      (.object (members.map member)) := by
  intro rest _
  have hbound : (joinedTokens ';' (members.map written)).length <
      (joinedTokens ';' (members.map written) ++ .sign '\x7d' :: rest).length := by
    rw [List.length_append, List.length_cons]
    omega
  have hread := separated_joinedTokens (readMember inner)
    (show ';' ∉ ['|', '&', '[', '<'] by decide) hne hmember hbound
    (avoidsSigns_sign (show '\x7d' ∉ [';', '|', '&', '[', '<'] by decide) rest)
  rw [readOperand, List.append_assoc, List.cons_append, readPrimary, List.singleton_append,
    closed_eq hread]
  rfl

end Levels

end ApiBindings.TypeScript

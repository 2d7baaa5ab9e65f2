import ApiBindings.Document.Pointer
import ApiBindings.Proofs.Text.Pieces

/-!
# Pointers and the keys that they write

A pointer is resolved to a mapping exactly if its segments, with their escapes undone, are keys that lead
there from the root (`resolve_eq_some_iff`). Undoing the escapes in one go is undoing those of slashes, and
then those of tildes (`decode_eq_replaceAll`), which gives back every key that was escaped
(`decode_encode`), so any keys at all can be written as a pointer.
-/

namespace ApiBindings.Pointer

/-- A character of a key as a pointer writes it. -/
def escape (c : Char) : List Char :=
  if c = '~' then ['~', '0'] else if c = '/' then ['~', '1'] else [c]

/-- A key as a segment of a pointer. -/
def encode (key : List Char) : List Char :=
  key.flatMap escape

/-- The pointer that follows some keys. -/
def write (keys : List String) : String :=
  .ofList ('#' :: '/' :: ['/'].intercalate (keys.map fun key => encode key.toList))

/-- A segment of a pointer with its escapes undone, the slashes first and then the tildes. -/
def unescaped (segment : List Char) : List Char :=
  Text.replaceAll ['~', '0'] ['~'] (Text.replaceAll ['~', '1'] ['/'] segment)

/-- Whether keys lead from a value to another one, each of them being a key of a mapping. -/
inductive LeadsTo (graph : Graph) : Value → List String → Value → Prop
  | here (value : Value) : LeadsTo graph value [] value
  | into {value next target : Value} {entries : Entries Value} {key : String} {keys : List String} :
    graph.entries? value = some entries → entries.field? key = some next →
    LeadsTo graph next keys target → LeadsTo graph value (key :: keys) target

/-- Whether a pointer denotes a mapping: it begins as a pointer into the same document, and its segments
are the keys that lead from the root to the mapping. -/
def Denotes (graph : Graph) (root : Value) (pointer : String) (target : Value) : Prop :=
  ∃ segments : List (List Char), segments ≠ [] ∧ (∀ segment ∈ segments, '/' ∉ segment) ∧
    pointer.toList = '#' :: '/' :: ['/'].intercalate segments ∧
    LeadsTo graph root (segments.map fun segment => .ofList (unescaped segment)) target ∧
    (graph.entries? target).isSome

/-! ## Escapes -/

/-- What replacing escaped slashes puts in begins with a digit only if the text did. -/
theorem head?_replaceAll_slash {text : List Char} {c : Char} (hc : c ≠ '/')
    (h : (Text.replaceAll ['~', '1'] ['/'] text).head? = some c) : text.head? = some c := by
  cases text with
  | nil => simp at h
  | cons d rest =>
    by_cases hescape : ['~', '1'] <+: d :: rest
    · obtain ⟨after, hafter⟩ := hescape
      rw [← hafter, Text.replaceAll_append_self (List.cons_ne_nil _ _)] at h
      exact absurd (Option.some.inj h).symm hc
    · rwa [Text.replaceAll_cons hescape] at h

/-- Undoing all escapes in one go is undoing those of slashes and then those of tildes: a slash that was
put in begins no escape, and so no escape is made up of what was put in. -/
theorem decode_eq_replaceAll (segment : List Char) : decode segment = unescaped segment := by
  have hslash : ['~', '1'] ≠ [] := List.cons_ne_nil _ _
  have htilde : ['~', '0'] ≠ [] := List.cons_ne_nil _ _
  unfold unescaped
  fun_induction decode segment with
  | case1 => simp
  | case2 rest ih =>
    have hpart : '~' :: '1' :: rest = ['~', '1'] ++ rest := rfl
    rw [hpart, Text.replaceAll_append_self hslash, List.singleton_append, Text.replaceAll_cons (by simp),
      ih]
  | case3 rest ih =>
    have hinner : Text.replaceAll ['~', '1'] ['/'] ('~' :: '0' :: rest) =
        ['~', '0'] ++ Text.replaceAll ['~', '1'] ['/'] rest := by
      rw [Text.replaceAll_cons (by simp), Text.replaceAll_cons (by simp)]
      rfl
    rw [hinner, Text.replaceAll_append_self htilde, List.singleton_append, ih]
  | case4 c rest hone hzero ih =>
    have hinner : ¬ ['~', '1'] <+: c :: rest := by
      rintro ⟨after, hafter⟩
      cases hafter
      exact hone _ rfl rfl
    have houter : ¬ ['~', '0'] <+: c :: Text.replaceAll ['~', '1'] ['/'] rest := by
      rintro ⟨after, hafter⟩
      obtain ⟨rfl, hrest⟩ := List.cons.inj hafter
      have hhead : rest.head? = some '0' := head?_replaceAll_slash (by decide) (by rw [← hrest]; rfl)
      obtain ⟨others, rfl⟩ := List.head?_eq_some_iff.1 hhead
      exact hzero _ rfl rfl
    rw [Text.replaceAll_cons hinner, Text.replaceAll_cons houter, ih]

theorem decode_cons {c : Char} (hc : c ≠ '~') (rest : List Char) :
    decode (c :: rest) = c :: decode rest := by
  rw [decode]
  · rintro after rfl
    exact absurd rfl hc
  · rintro after rfl
    exact absurd rfl hc

/-- A key is read back from its segment, whatever characters it has. -/
theorem decode_encode (key : List Char) : decode (encode key) = key := by
  induction key with
  | nil => rfl
  | cons c rest ih =>
    have hstep : decode (escape c ++ encode rest) = c :: decode (encode rest) := by
      unfold escape
      split
      · next htilde => rw [htilde]; rfl
      · next htilde =>
        split
        · next hslash => rw [hslash]; rfl
        · exact decode_cons htilde (encode rest)
    rw [encode, List.flatMap_cons, ← encode, hstep, ih]

theorem slash_notMem_encode (key : List Char) : '/' ∉ encode key := by
  intro h
  obtain ⟨c, -, hc⟩ := List.mem_flatMap.1 h
  unfold escape at hc
  split at hc
  · exact absurd hc (by decide)
  · split at hc
    · exact absurd hc (by decide)
    · next hslash => exact hslash (List.mem_singleton.1 hc).symm

/-! ## Segments -/

theorem keys?_eq_some_iff {pointer : List Char} {keys : List (List Char)} :
    keys? pointer = some keys ↔ ∃ segments : List (List Char), segments ≠ [] ∧
      (∀ segment ∈ segments, '/' ∉ segment) ∧ pointer = '#' :: '/' :: ['/'].intercalate segments ∧
      keys = segments.map decode := by
  constructor
  · intro h
    unfold keys? at h
    split at h
    · next rest =>
      refine ⟨rest.splitOn '/', List.splitOn_ne_nil '/' rest,
        fun segment => Text.notMem_of_mem_splitOn, ?_, (Option.some.inj h).symm⟩
      rw [List.intercalate_splitOn]
    · cases h
  · rintro ⟨segments, hne, hslash, rfl, rfl⟩
    rw [keys?, List.splitOn_intercalate '/' hslash hne]

/-! ## Following keys -/

theorem follow_eq_some_iff {graph : Graph} {value target : Value} {keys : List (List Char)} :
    follow graph value keys = some target ↔ LeadsTo graph value (keys.map String.ofList) target := by
  induction keys generalizing value with
  | nil =>
    constructor
    · rintro ⟨⟩
      exact .here target
    · rintro ⟨⟩
      rfl
  | cons key keys ih =>
    rw [follow]
    constructor
    · intro h
      cases hnext : (graph.entries? value).bind (Entries.field? · (.ofList key)) with
      | none => simp [hnext] at h
      | some next =>
        rw [hnext] at h
        obtain ⟨entries, hentries, hfield⟩ := Option.bind_eq_some_iff.1 hnext
        exact .into hentries hfield (ih.1 h)
    · intro h
      cases h with
      | into hentries hfield hrest =>
        rw [hentries, Option.bind_some, hfield]
        exact ih.2 hrest

/-- A pointer is resolved to a mapping exactly if it denotes the mapping. -/
theorem resolve_eq_some_iff {graph : Graph} {root target : Value} {pointer : String} :
    resolve graph root pointer = some target ↔ Denotes graph root pointer target := by
  have hdecode : ∀ segments : List (List Char),
      (segments.map decode).map String.ofList =
        segments.map fun segment => .ofList (unescaped segment) := by
    intro segments
    simp only [List.map_map, Function.comp_def, decode_eq_replaceAll]
  constructor
  · intro h
    unfold resolve at h
    split at h
    · cases h
    · next keys hkeys =>
      obtain ⟨segments, hne, hslash, hpointer, rfl⟩ := keys?_eq_some_iff.1 hkeys
      obtain ⟨hfollow, htarget⟩ := Option.filter_eq_some_iff.1 h
      rw [follow_eq_some_iff, hdecode] at hfollow
      exact ⟨segments, hne, hslash, hpointer, hfollow, htarget⟩
  · rintro ⟨segments, hne, hslash, hpointer, hleads, htarget⟩
    rw [← hdecode, ← follow_eq_some_iff] at hleads
    have hkeys : keys? pointer.toList = some (segments.map decode) :=
      keys?_eq_some_iff.2 ⟨segments, hne, hslash, hpointer, rfl⟩
    rw [resolve, hkeys]
    exact Option.filter_eq_some_iff.2 ⟨hleads, htarget⟩

/-- The pointer that is written for some keys denotes the mapping that they lead to. -/
theorem denotes_write {graph : Graph} {root target : Value} {keys : List String} (hne : keys ≠ [])
    (hleads : LeadsTo graph root keys target) (htarget : (graph.entries? target).isSome) :
    Denotes graph root (write keys) target := by
  refine ⟨keys.map fun key => encode key.toList, by simpa using hne, ?_, by simp [write], ?_, htarget⟩
  · intro segment hsegment
    obtain ⟨key, -, rfl⟩ := List.mem_map.1 hsegment
    exact slash_notMem_encode key.toList
  · simpa only [List.map_map, Function.comp_def, ← decode_eq_replaceAll, decode_encode,
      String.ofList_toList, List.map_id'] using hleads

/-- **Pointers.** Keys that lead from the root to a mapping, written as a pointer, are resolved to this
mapping, whatever characters they have. A pointer is resolved to a mapping only if it denotes it, and to
nothing exactly if it denotes none. -/
theorem resolve_exact (graph : Graph) (root : Value) :
    (∀ (keys : List String) (target : Value), keys ≠ [] → LeadsTo graph root keys target →
      (graph.entries? target).isSome → resolve graph root (write keys) = some target) ∧
    (∀ (pointer : String) (target : Value),
      resolve graph root pointer = some target ↔ Denotes graph root pointer target) ∧
    ∀ pointer : String,
      resolve graph root pointer = none ↔ ∀ target, ¬ Denotes graph root pointer target := by
  refine ⟨fun keys target hne hleads htarget => ?_, fun pointer target => resolve_eq_some_iff,
    fun pointer => ?_⟩
  · exact resolve_eq_some_iff.2 (denotes_write hne hleads htarget)
  · simp only [Option.eq_none_iff_forall_ne_some, ne_eq, resolve_eq_some_iff]

/-- A mapping behind a key with a slash, a key that looks like an escape and the empty key. -/
def nestedKeys : Graph where
  lists := #[]
  mappings := #[[(.text "a/b", .mapping 1)], [(.int 1, .mapping 0), (.text "~1", .mapping 2)],
    [(.text "", .mapping 3)], []]
  sets := #[]
  pairs := #[]

theorem nestedKeys_resolved :
    LeadsTo nestedKeys (.mapping 0) ["a/b", "~1", ""] (.mapping 3) ∧
      (nestedKeys.entries? (.mapping 3)).isSome ∧ write ["a/b", "~1", ""] = "#/a~1b/~01/" ∧
      resolve nestedKeys (.mapping 0) "#/a~1b/~01/" = some (.mapping 3) := by
  have hleads : LeadsTo nestedKeys (.mapping 0) ["a/b", "~1", ""] (.mapping 3) :=
    .into rfl rfl (.into rfl rfl (.into rfl rfl (.here (.mapping 3))))
  have hwrite : write ["a/b", "~1", ""] = "#/a~1b/~01/" := by
    decide +kernel
  have hresolve := (resolve_exact nestedKeys (.mapping 0)).1 ["a/b", "~1", ""] (.mapping 3)
    (List.cons_ne_nil _ _) hleads rfl
  exact ⟨hleads, rfl, hwrite, hwrite ▸ hresolve⟩

end ApiBindings.Pointer

import ApiBindings.Naming.PathTemplate
import ApiBindings.Proofs.Naming.Distinct
import Mathlib.Data.List.Basic

/-!
# Elements of path templates

A path is its elements written one after another (`flatMap_written_segments`). A parameter is not empty
and holds no closing brace; an opening brace that is an element of its own begins no parameter
(`opensNothing_segments`). A path that is put together from texts without opening braces and parameters
between them has these parameters and no others (`segments_template`), so its tokens and its name are those
of the pieces (`template_pieces`).
-/

namespace ApiBindings.Naming

/-- A parameter as a path shows it. -/
def placeholder (name : List Char) : List Char :=
  '\x7b' :: (name ++ ['\x7d'])

/-- An element as a path shows it. -/
def Segment.written : Segment → List Char
  | .char c => [c]
  | .token name => placeholder name

/-- What has been read of a possible parameter, with its opening brace. -/
def writtenCandidate : Option (List Char) → List Char
  | none => []
  | some read => '\x7b' :: read.reverse

theorem flatMap_written_char (text : List Char) :
    (text.map Segment.char).flatMap Segment.written = text := by
  rw [List.flatMap_map]
  exact List.flatMap_singleton' text

theorem flatMap_written_segmentsFrom (candidate : Option (List Char)) (text : List Char) :
    (segmentsFrom candidate text).flatMap Segment.written = writtenCandidate candidate ++ text := by
  fun_induction segmentsFrom candidate text with
  | case1 => rfl
  | case2 rest ih => exact ih
  | case3 c rest _ ih => exact congrArg (c :: ·) ih
  | case4 read =>
    rw [List.flatMap_cons, flatMap_written_char, List.append_nil]
    rfl
  | case5 read rest hread ih =>
    rw [List.isEmpty_iff.1 hread, List.flatMap_cons, List.flatMap_cons, ih]
    rfl
  | case6 read rest _ ih =>
    rw [List.flatMap_cons, ih]
    simp [Segment.written, placeholder, writtenCandidate]
  | case7 read c rest _ ih =>
    rw [ih]
    simp [writtenCandidate]

/-- A path is its elements, one after another. -/
theorem flatMap_written_segments (path : List Char) :
    (segments path).flatMap Segment.written = path :=
  flatMap_written_segmentsFrom none path

theorem closingBrace_notMem_segmentsFrom {candidate : Option (List Char)} {text name : List Char}
    (hcandidate : ∀ read ∈ candidate, '\x7d' ∉ read)
    (h : Segment.token name ∈ segmentsFrom candidate text) : '\x7d' ∉ name := by
  fun_induction segmentsFrom candidate text with
  | case1 => cases h
  | case2 rest ih => exact ih (by simp) h
  | case3 c rest _ ih => exact ih hcandidate (by simpa using h)
  | case4 read => simp at h
  | case5 read rest _ ih => exact ih (by simp) (by simpa using h)
  | case6 read rest _ ih =>
    rcases List.mem_cons.1 h with heq | hrest
    · cases heq
      simpa using hcandidate read rfl
    · exact ih (by simp) hrest
  | case7 read c rest hc ih =>
    refine ih (fun more hmore => ?_) h
    cases hmore
    simpa [Ne.symm hc] using hcandidate read rfl

theorem ne_nil_of_mem_segmentsFrom {candidate : Option (List Char)} {text name : List Char}
    (h : Segment.token name ∈ segmentsFrom candidate text) : name ≠ [] := by
  fun_induction segmentsFrom candidate text with
  | case1 => cases h
  | case2 rest ih => exact ih h
  | case3 c rest _ ih => exact ih (by simpa using h)
  | case4 read => simp at h
  | case5 read rest _ ih => exact ih (by simpa using h)
  | case6 read rest hread ih =>
    rcases List.mem_cons.1 h with heq | hrest
    · cases heq
      simpa using hread
    · exact ih hrest
  | case7 read c rest _ ih => exact ih h

/-! ## Pieces -/

/-- A path put together from a text and parameters, each with the text behind it. -/
def template (lead : List Char) (parts : List (List Char × List Char)) : List Char :=
  lead ++ parts.flatMap fun part => placeholder part.1 ++ part.2

theorem segmentsFrom_none_append {text : List Char} (h : '\x7b' ∉ text) (rest : List Char) :
    segmentsFrom none (text ++ rest) = text.map .char ++ segmentsFrom none rest := by
  induction text with
  | nil => rfl
  | cons c text ih =>
    obtain ⟨hc, htext⟩ := not_or.1 fun hor => h (List.mem_cons.2 hor)
    rw [List.cons_append, segmentsFrom, if_neg (Ne.symm hc), ih htext]
    rfl

/-- A candidate that is not empty once its name is read up to the closing brace is a parameter. Opening
braces in between belong to the name. -/
theorem segmentsFrom_some_append {read name : List Char} (h : '\x7d' ∉ name)
    (hne : read.reverse ++ name ≠ []) (rest : List Char) :
    segmentsFrom (some read) (name ++ '\x7d' :: rest) =
      .token (read.reverse ++ name) :: segmentsFrom none rest := by
  induction name generalizing read with
  | nil =>
    have hread : read.isEmpty = false := by
      simpa using hne
    simp [segmentsFrom, hread]
  | cons c name ih =>
    obtain ⟨hc, hname⟩ := not_or.1 fun hor => h (List.mem_cons.2 hor)
    have hmore : (c :: read).reverse ++ name = read.reverse ++ c :: name := by
      simp
    rw [List.cons_append, segmentsFrom, if_neg (Ne.symm hc), ih hname (hmore ▸ hne), hmore]

theorem segmentsFrom_placeholder {name : List Char} (h : '\x7d' ∉ name) (hne : name ≠ [])
    (rest : List Char) :
    segmentsFrom none (placeholder name ++ rest) = .token name :: segmentsFrom none rest := by
  have hsplit : placeholder name ++ rest = '\x7b' :: (name ++ '\x7d' :: rest) := by
    simp [placeholder]
  rw [hsplit, segmentsFrom, if_pos rfl]
  exact @segmentsFrom_some_append [] name h hne rest

/-- The elements of a path that is put together are the characters of its texts and its parameters. -/
theorem segments_template {lead : List Char} {parts : List (List Char × List Char)}
    (hlead : '\x7b' ∉ lead)
    (hparts : ∀ part ∈ parts, (part.1 ≠ [] ∧ '\x7d' ∉ part.1) ∧ '\x7b' ∉ part.2) :
    segments (template lead parts) =
      lead.map .char ++ parts.flatMap fun part => .token part.1 :: part.2.map .char := by
  -- Between two pieces nothing has been read of a parameter.
  rw [segments, template, segmentsFrom_none_append hlead]
  congr 1
  induction parts with
  | nil => rfl
  | cons part rest ih =>
    obtain ⟨⟨⟨hne, hname⟩, htext⟩, hrest⟩ := List.forall_mem_cons.1 hparts
    rw [List.flatMap_cons, List.append_assoc, segmentsFrom_placeholder hname hne,
      segmentsFrom_none_append htext, ih hrest]
    rfl

theorem filterMap_token?_char (text : List Char) :
    (text.map Segment.char).filterMap Segment.token? = [] := by
  rw [List.filterMap_map, List.filterMap_eq_nil_iff]
  exact fun _ _ => rfl

theorem flatMap_nameText_char (text : List Char) :
    (text.map Segment.char).flatMap Segment.nameText = text.filter isAlphanumeric := by
  induction text with
  | nil => rfl
  | cons c text ih =>
    rw [List.map_cons, List.flatMap_cons, ih, List.filter_cons, Segment.nameText]
    split <;> rfl

/-- **Tokens and name of a path.** A path that is put together from texts without opening braces and
parameters between them has these parameters as its tokens, each at its first occurrence. Its name consists of
the letters and digits of the texts, with `By` for every parameter, also for one that comes again. -/
theorem template_pieces {lead : List Char} {parts : List (List Char × List Char)}
    (hlead : '\x7b' ∉ lead)
    (hparts : ∀ part ∈ parts, (part.1 ≠ [] ∧ '\x7d' ∉ part.1) ∧ '\x7b' ∉ part.2) :
    pathTokens (template lead parts) = (parts.map Prod.fst).eraseDups ∧
    operationName (template lead parts) =
      lead.filter isAlphanumeric ++
        parts.flatMap fun part => "By".toList ++ part.2.filter isAlphanumeric := by
  have hsegments := segments_template hlead hparts
  have htokens : (segments (template lead parts)).filterMap Segment.token? = parts.map Prod.fst := by
    rw [hsegments, List.filterMap_append, filterMap_token?_char, List.nil_append,
      List.filterMap_flatMap, List.map_eq_flatMap]
    refine List.flatMap_congr fun part _ => ?_
    exact congrArg (part.1 :: ·) (filterMap_token?_char part.2)
  constructor
  · rw [pathTokens, htokens, distinct_eq_eraseDups]
  · rw [operationName, hsegments, List.flatMap_append, flatMap_nameText_char, List.flatMap_assoc]
    refine congrArg _ (List.flatMap_congr fun part _ => ?_)
    rw [List.flatMap_cons, flatMap_nameText_char]
    rfl

/-- Adjacent parameters, one that holds an opening brace and comes again, and closing braces in between. -/
theorem braced_template_pieces :
    let parts := [("a\x7bb".toList, []), ("id".toList, "\x7d/v1.0\x7d".toList),
      ("a\x7bb".toList, "/x-y".toList)]
    ('\x7b' ∉ "/p\x7d".toList ∧
      ∀ part ∈ parts, (part.1 ≠ [] ∧ '\x7d' ∉ part.1) ∧ '\x7b' ∉ part.2) ∧
    template "/p\x7d".toList parts =
      "/p\x7d\x7ba\x7bb\x7d\x7bid\x7d\x7d/v1.0\x7d\x7ba\x7bb\x7d/x-y".toList ∧
    pathTokens (template "/p\x7d".toList parts) = ["a\x7bb".toList, "id".toList] ∧
    operationName (template "/p\x7d".toList parts) = "pByByv10Byxy".toList := by
  intro parts
  have hlead : '\x7b' ∉ "/p\x7d".toList := by
    decide
  have hparts : ∀ part ∈ parts, (part.1 ≠ [] ∧ '\x7d' ∉ part.1) ∧ '\x7b' ∉ part.2 := by
    decide
  obtain ⟨htokens, hname⟩ := template_pieces hlead hparts
  exact ⟨⟨hlead, hparts⟩, by decide, htokens.trans (by decide), hname.trans (by decide)⟩

/-! ## Braces -/

/-- Whether the opening braces that are elements of their own begin no parameter: a closing brace follows
at once, or only characters follow and none of them is a closing brace. -/
def OpensNothing : List Segment → Prop
  | [] => True
  | segment :: rest =>
    (segment = .char '\x7b' →
      rest.head? = some (.char '\x7d') ∨ ∀ next ∈ rest, ∃ c, c ≠ '\x7d' ∧ next = .char c) ∧
      OpensNothing rest

theorem opensNothing_of_append_right {front back : List Segment} (h : OpensNothing (front ++ back)) :
    OpensNothing back := by
  induction front with
  | nil => exact h
  | cons segment front ih => exact ih h.2

theorem opensNothing_of_append_left {front back : List Segment} (h : OpensNothing (front ++ back)) :
    OpensNothing front := by
  induction front with
  | nil => trivial
  | cons segment front ih =>
    refine ⟨fun hopen => ?_, ih h.2⟩
    rcases h.1 hopen with hclosed | hchars
    · cases front with
      | nil => exact .inr (by simp)
      | cons next front => exact .inl hclosed
    · exact .inr fun next hnext => hchars next (List.mem_append_left _ hnext)

theorem opensNothing_of_isInfix {piece template : List Segment} (hoccurs : piece <:+: template)
    (h : OpensNothing template) : OpensNothing piece := by
  obtain ⟨front, back, rfl⟩ := hoccurs
  exact opensNothing_of_append_right (opensNothing_of_append_left h)

theorem opensNothing_map_char {text : List Char} (h : '\x7d' ∉ text) :
    OpensNothing (text.map .char) := by
  induction text with
  | nil => trivial
  | cons c text ih =>
    obtain ⟨-, htext⟩ := not_or.1 fun hor => h (List.mem_cons.2 hor)
    refine ⟨fun _ => .inr fun next hnext => ?_, ih htext⟩
    obtain ⟨d, hd, rfl⟩ := List.mem_map.1 hnext
    exact ⟨d, fun heq => htext (heq ▸ hd), rfl⟩

theorem opensNothing_char_append {text : List Char} (h : '\x7b' ∉ text) {rest : List Segment}
    (hrest : OpensNothing rest) : OpensNothing (text.map .char ++ rest) := by
  induction text with
  | nil => exact hrest
  | cons c text ih =>
    obtain ⟨hc, htext⟩ := not_or.1 fun hor => h (List.mem_cons.2 hor)
    exact ⟨fun hopen => absurd (Segment.char.inj hopen).symm hc, ih htext⟩

theorem opensNothing_segmentsFrom {candidate : Option (List Char)}
    (hcandidate : ∀ read ∈ candidate, '\x7d' ∉ read) (text : List Char) :
    OpensNothing (segmentsFrom candidate text) := by
  fun_induction segmentsFrom candidate text with
  | case1 => trivial
  | case2 rest ih => exact ih (by simp)
  | case3 c rest hc ih => exact ⟨fun hopen => absurd (Segment.char.inj hopen) hc, ih hcandidate⟩
  | case4 read =>
    have hread : '\x7d' ∉ '\x7b' :: read.reverse := by
      simpa using hcandidate read rfl
    exact opensNothing_map_char hread
  | case5 read rest _ ih => exact ⟨fun _ => .inl rfl, by simp, ih (by simp)⟩
  | case6 read rest _ ih => exact ⟨by simp, ih (by simp)⟩
  | case7 read c rest hc ih =>
    refine ih fun more hmore => ?_
    cases hmore
    simpa [Ne.symm hc] using hcandidate read rfl

theorem opensNothing_segments (path : List Char) : OpensNothing (segments path) :=
  opensNothing_segmentsFrom (by simp) path

/-! ## Parameters -/

theorem mem_pathTokens {path name : List Char} :
    name ∈ pathTokens path ↔ Segment.token name ∈ segments path := by
  rw [pathTokens, distinct, mem_merge, List.mem_filterMap]
  constructor
  · rintro (hnil | ⟨segment, hsegment, htoken⟩)
    · cases hnil
    · cases segment with
      | char c => cases htoken
      | token other =>
        cases htoken
        exact hsegment
  · intro h
    exact .inr ⟨.token name, h, rfl⟩

theorem nodup_pathTokens (path : List Char) : (pathTokens path).Nodup :=
  nodup_merge List.nodup_nil _

theorem closingBrace_notMem {path name : List Char} (h : name ∈ pathTokens path) : '\x7d' ∉ name :=
  closingBrace_notMem_segmentsFrom (by simp) (mem_pathTokens.1 h)

theorem ne_nil_of_mem_pathTokens {path name : List Char} (h : name ∈ pathTokens path) : name ≠ [] :=
  ne_nil_of_mem_segmentsFrom (mem_pathTokens.1 h)

/-- The characters of a parameter are characters of its path. -/
theorem subset_of_mem_pathTokens {path name : List Char} (h : name ∈ pathTokens path) :
    name ⊆ path := by
  intro c hc
  rw [← flatMap_written_segments path]
  refine List.mem_flatMap.2 ⟨.token name, mem_pathTokens.1 h, ?_⟩
  simp [Segment.written, placeholder, hc]

end ApiBindings.Naming

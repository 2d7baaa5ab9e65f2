import ApiBindings.FilePath

/-!
# Joined paths

A written name followed by an extension always leads to a file with that extension: slashes and dots in
the name decide where the file stands, never what its last name ends in.
-/

namespace ApiBindings.FilePath

/-! ## Components of an extended name -/

/-- What follows the last separator grows by what is appended without one. -/
theorem exists_splitOn_append {separator : Char} {extension : List Char}
    (h : separator ∉ extension) (name : List Char) :
    ∃ init last, (name ++ extension).splitOn separator = init ++ [last ++ extension] := by
  induction name with
  | nil => exact ⟨[], [], by simp [List.splitOn_eq_singleton h]⟩
  | cons c name ih =>
    obtain ⟨init, last, hsplit⟩ := ih
    rw [List.cons_append, List.splitOn_cons_eq_if_modifyHead, hsplit]
    by_cases hc : (c == separator) = true
    · rw [if_pos hc]
      exact ⟨[] :: init, last, rfl⟩
    · rw [if_neg hc]
      cases init with
      | nil => exact ⟨[], c :: last, rfl⟩
      | cons first init => exact ⟨(c :: first) :: init, last, rfl⟩

theorem isName_append (name : List Char) : isName (name ++ ".ts".toList) = true := by
  cases name <;> simp [isName]

/-- The last name of a path that is written with the extension of a generated file has that
extension. -/
theorem exists_names_ofString (name : String) :
    ∃ init stem, (ofString (name ++ ".ts")).names = init ++ [stem ++ ".ts"] := by
  have hslash : '/' ∉ ".ts".toList := by decide
  obtain ⟨init, last, hsplit⟩ := exists_splitOn_append hslash name.toList
  have hname : isName (last ++ ".ts".toList) = true := isName_append last
  refine ⟨(init.filter isName).map String.ofList, String.ofList last, ?_⟩
  simp only [ofString, String.toList_append, hsplit, List.filter_append, List.map_append]
  rw [List.filter_cons_of_pos hname, List.filter_nil, List.map_singleton, String.ofList_append]
  rfl

theorem ofString_of_notMem {text : String} (hslash : '/' ∉ text.toList)
    (hname : isName text.toList = true) : ofString text = ⟨.relative, [text]⟩ := by
  have hanchor : anchorOf text.toList = .relative := by
    have hstart : text.toList.takeWhile (· = '/') = [] := by
      cases htext : text.toList with
      | nil => rfl
      | cons c rest =>
        have hne : c ≠ '/' := fun heq => hslash (by simp [htext, heq])
        simp [hne]
    rw [anchorOf, hstart]
    rfl
  simp [ofString, hanchor, List.splitOn_eq_singleton hslash, hname]

theorem ofString_append_of_notMem {name : String} (hslash : '/' ∉ name.toList) :
    ofString (name ++ ".ts") = ⟨.relative, [name ++ ".ts"]⟩ := by
  refine ofString_of_notMem (by simp [hslash]) ?_
  rw [String.toList_append]
  exact isName_append name.toList

/-! ## Joining -/

theorem join_of_relative (path : FilePath) {text : String}
    (h : (ofString text).anchor = .relative) :
    path / text = ⟨path.anchor, path.names ++ (ofString text).names⟩ := by
  change path.join text = _
  rw [join, h]

theorem join_of_notMem (path : FilePath) (text : String) (hslash : '/' ∉ text.toList)
    (hname : isName text.toList = true) : path / text = ⟨path.anchor, path.names ++ [text]⟩ := by
  have htext := ofString_of_notMem hslash hname
  rw [join_of_relative path (by rw [htext]), htext]

theorem join_of_absolute (path : FilePath) {text : String}
    (h : (ofString text).anchor ≠ .relative) : path / text = ofString text := by
  change path.join text = _
  unfold join
  dsimp only
  split
  · next hrelative => exact absurd hrelative h
  · rfl

/-- A file with the extension of generated files has it wherever its written name leads. -/
theorem exists_names_join (path : FilePath) (name : String) :
    ∃ init stem, (path / (name ++ ".ts")).names = init ++ [stem ++ ".ts"] := by
  obtain ⟨init, stem, hnames⟩ := exists_names_ofString name
  by_cases h : (ofString (name ++ ".ts")).anchor = .relative
  · rw [join_of_relative path h, hnames]
    exact ⟨path.names ++ init, stem, (List.append_assoc ..).symm⟩
  · rw [join_of_absolute path h]
    exact ⟨init, stem, hnames⟩

/-! ## Suffixes -/

/-- The suffix of a generated file; a name that is nothing but an extension has none. -/
theorem suffix_of_names {path : FilePath} {init : List String} {stem : String}
    (h : path.names = init ++ [stem ++ ".ts"]) :
    path.suffix = ".ts" ∨ path.suffix = "" := by
  have hreverse : (stem.toList ++ ".ts".toList).reverse = 's' :: 't' :: '.' :: stem.toList.reverse := by
    simp
  have hname : path.name = stem ++ ".ts" := by simp [name, h]
  rw [suffix, hname, String.toList_append, splitSuffix, hreverse]
  cases stem.toList.reverse with
  | nil => exact .inr (by simp)
  | cons c rest => exact .inl (by simp)

end ApiBindings.FilePath

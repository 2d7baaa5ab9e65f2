import ApiBindings.Proofs.Assoc.Overlay
import ApiBindings.Proofs.FileSystem.Listing
import ApiBindings.Proofs.Text.CaseMap

/-!
# Plain trees

A directory tree without links, in which every directory tells its entries apart by their names. Whatever
links lead to such a tree, beneath it a path leads where its names say (`Shows.child`), as long as it is not
too long for the system (`Shows.foundAs_of_long`).
-/

namespace ApiBindings

/-! ## Texts of ASCII -/

namespace Text

theorem isAscii_of_subset {text part : List Char} (h : isAscii text = true) (hpart : part ⊆ text) :
    isAscii part = true :=
  List.all_eq_true.2 fun c hc => List.all_eq_true.1 h c (hpart hc)

theorem codes_of_isAscii {text : List Char} (h : isAscii text = true) :
    codes text = text.map Char.toNat := by
  induction text with
  | nil => rfl
  | cons c text ih =>
    obtain ⟨hc, htext⟩ : c.toNat < 0x80 ∧ isAscii text = true := by
      simpa [isAscii] using h
    have hmark : markCode = 0x10D7FF := rfl
    have hplain : isReserved c.toNat = false := by
      refine Bool.eq_false_iff.2 fun hreserved => ?_
      have hbounds := isReserved_iff.1 hreserved
      omega
    rw [codes_cons (by omega), codeOf, hplain, ih htext]
    rfl

theorem nameSize_of_isAscii {text : List Char} (h : isAscii text = true) :
    nameSize text = text.length := by
  have hsum : ∀ size, (text.map Char.toNat).foldl (fun size code => size + nameBytes code) size =
      size + text.length := by
    induction text with
    | nil => exact fun size => rfl
    | cons c text ih =>
      obtain ⟨hc, htext⟩ : c.toNat < 0x80 ∧ isAscii text = true := by
        simpa [isAscii] using h
      intro size
      have hbyte : nameBytes c.toNat = 1 := if_pos (.inl hc)
      rw [List.map_cons, List.foldl_cons, ih htext, hbyte, List.length_cons]
      omega
  rw [nameSize, codes_of_isAscii h, hsum, Nat.zero_add]

end Text

namespace Disk

/-! ## Entries -/

/-- Whether an entry of a directory can have the name: it is a text that the system takes, and leads
somewhere else than the empty name and the dots. -/
def isEntryName (name : String) : Bool :=
  name ≠ "" && name ≠ "." && name ≠ ".." && obstacle? name.toList = none

theorem isEntryName_iff {name : String} :
    isEntryName name = true ↔
      (¬ (name = "" ∨ name = ".") ∧ name ≠ "..") ∧ obstacle? name.toList = none := by
  simp [isEntryName, and_assoc]

namespace Entry

/-- A tree of directories and files, without links. Names in a directory differ in their code points. -/
inductive IsPlain : Entry → Prop
  | file (bytes : ByteArray) : IsPlain (.file bytes)
  | directory {entries : List (String × Entry)}
    (named : ∀ pair ∈ entries, isEntryName pair.1 = true)
    (apart : (entries.map fun pair => Text.codes pair.1.toList).Nodup)
    (inner : ∀ pair ∈ entries, IsPlain pair.2) : IsPlain (.directory entries)

def isFile : Entry → Bool
  | .file _ => true
  | _ => false

def isDirectory : Entry → Bool
  | .directory _ => true
  | _ => false

/-- The files at a path and beneath it, directory by directory. -/
def filesAt (path : FilePath) (entry : Entry) : List FilePath :=
  (((path, entry) :: entry.contents path).filter (·.2.isFile)).map Prod.fst

theorem contentsOfAll_eq (path : FilePath) (entries : List (String × Entry)) :
    contentsOfAll path entries =
      entries.flatMap fun pair => (path.child pair.1, pair.2) :: pair.2.contents (path.child pair.1) := by
  induction entries with
  | nil => rfl
  | cons pair rest ih =>
    rw [List.flatMap_cons, ← ih]
    rfl

theorem contents_directory (path : FilePath) (entries : List (String × Entry)) :
    (Entry.directory entries).contents path =
      entries.flatMap fun pair => (path.child pair.1, pair.2) :: pair.2.contents (path.child pair.1) :=
  contentsOfAll_eq path entries

theorem filesAt_directory (path : FilePath) (entries : List (String × Entry)) :
    filesAt path (.directory entries) =
      entries.flatMap fun pair => filesAt (path.child pair.1) pair.2 := by
  rw [filesAt, List.filter_cons_of_neg (by simp [isFile]), contents_directory, List.filter_flatMap,
    List.map_flatMap]
  rfl

theorem mem_filesAt_directory {path file : FilePath} {entries : List (String × Entry)} :
    file ∈ filesAt path (.directory entries) ↔
      ∃ bytes, (file, Entry.file bytes) ∈ (Entry.directory entries).contents path := by
  rw [filesAt, List.filter_cons_of_neg (by simp [isFile]), List.mem_map]
  constructor
  · rintro ⟨⟨path, entry⟩, hmem, rfl⟩
    obtain ⟨hmem, hfile⟩ := List.mem_filter.1 hmem
    cases entry with
    | file bytes => exact ⟨bytes, hmem⟩
    | link target => cases hfile
    | directory entries => cases hfile
  · rintro ⟨bytes, hmem⟩
    exact ⟨_, List.mem_filter.2 ⟨hmem, rfl⟩, rfl⟩

/-- What is beneath a path leads on from it by at least one name. -/
theorem IsPlain.beneath {entry : Entry} (h : entry.IsPlain) {path : FilePath}
    {item : FilePath × Entry} (hitem : item ∈ entry.contents path) :
    item.1.anchor = path.anchor ∧ ∃ name rest, item.1.names = path.names ++ name :: rest := by
  induction h generalizing path with
  | file bytes => cases hitem
  | @directory entries _ _ _ ih =>
    rw [contents_directory] at hitem
    obtain ⟨pair, hpair, hitem⟩ := List.mem_flatMap.1 hitem
    rcases List.mem_cons.1 hitem with rfl | hitem
    · exact ⟨rfl, pair.1, [], rfl⟩
    · obtain ⟨hanchor, name, rest, hnames⟩ := ih pair hpair hitem
      refine ⟨hanchor, pair.1, name :: rest, ?_⟩
      rw [hnames, FilePath.child, List.append_assoc]
      rfl

/-- A file at a path or beneath it has a path that leads on from there. -/
theorem IsPlain.begins {entry : Entry} (h : entry.IsPlain) {path file : FilePath}
    (hfile : file ∈ filesAt path entry) : file.anchor = path.anchor ∧ path.names <+: file.names := by
  obtain ⟨item, hitem, rfl⟩ := List.mem_map.1 hfile
  rcases List.mem_cons.1 (List.mem_filter.1 hitem).1 with rfl | hitem
  · exact ⟨rfl, List.prefix_rfl⟩
  · obtain ⟨hanchor, name, rest, hnames⟩ := h.beneath hitem
    exact ⟨hanchor, name :: rest, hnames.symm⟩

theorem nodup_keys {entries : List (String × Entry)}
    (h : (entries.map fun pair => Text.codes pair.1.toList).Nodup) : (Assoc.keys entries).Nodup := by
  have hcodes : entries.map (fun pair => Text.codes pair.1.toList) =
      (Assoc.keys entries).map fun name => Text.codes name.toList := by
    rw [Assoc.keys, List.map_map]
    rfl
  rw [hcodes] at h
  exact h.of_map _

/-- The names in a directory, in order. -/
def names (entries : List (String × Entry)) : List String :=
  Sorting.sorted Text.precedes (Assoc.keys entries)

theorem mem_names_of_mem {entries : List (String × Entry)} {pair : String × Entry}
    (h : pair ∈ entries) : pair.1 ∈ names entries :=
  Sorting.mem_sorted.2 (Assoc.mem_keys_of_mem h)

theorem exists_mem_of_mem_names {entries : List (String × Entry)} {name : String}
    (h : name ∈ names entries) : ∃ entry, (name, entry) ∈ entries :=
  Assoc.exists_mem_of_mem_keys (Sorting.mem_sorted.1 h)

theorem at?_append (front back : List String) (entry : Entry) :
    entry.at? (front ++ back) = (entry.at? front).bind (at? back) := by
  induction front generalizing entry with
  | nil => rfl
  | cons name front ih =>
    cases entry with
    | file bytes => rfl
    | link target => rfl
    | directory entries =>
      rw [List.cons_append, at?, at?]
      cases Assoc.get? name entries with
      | none => rfl
      | some inner => exact ih inner

end Entry

/-! ## Following paths -/

/-- From a directory that components lead to, further ones are followed as from there, with what links are
left. -/
theorem exists_follow_append {root : Entry} {links : Nat} {here components location : List String}
    {entries : List (String × Entry)}
    (h : follow root .look links here components = .ok (.entry location (.directory entries))) :
    ∃ left, ∀ more, follow root .look links here (components ++ more) =
      follow root .look left location more := by
  fun_induction follow root .look links here components with
  | case1 links here inner hat =>
    cases h
    exact ⟨links, fun more => rfl⟩
  | case3 links here name rest hdot ih =>
    obtain ⟨left, hleft⟩ := ih h
    refine ⟨left, fun more => ?_⟩
    rw [List.cons_append, follow, if_pos hdot, hleft]
  | case4 links here rest _ ih =>
    obtain ⟨left, hleft⟩ := ih h
    refine ⟨left, fun more => ?_⟩
    rw [List.cons_append, follow, if_neg (by decide), if_pos rfl, hleft]
  | case9 links here name rest hdot hparent _ next inner hat ih =>
    obtain ⟨left, hleft⟩ := ih h
    refine ⟨left, fun more => ?_⟩
    rw [List.cons_append, follow, if_neg hdot, if_neg hparent, if_neg (by simp)]
    simp only [next] at hat
    simp only [hat]
    exact hleft more
  | case14 here name rest hdot hparent _ next target hat _ links ih =>
    obtain ⟨left, hleft⟩ := ih h
    refine ⟨left, fun more => ?_⟩
    rw [List.cons_append, follow, if_neg hdot, if_neg hparent, if_neg (by simp)]
    simp only [next] at hat
    simp [hat, ← hleft]
  | case10 | case12 => simp at h
  | case2 | case5 | case6 | case7 | case8 | case11 | case13 => cases h

/-- From a directory of a plain tree a name leads to its entry. -/
theorem follow_entry {root entry : Entry} {location : List String} {entries : List (String × Entry)}
    (hat : root.at? location = some (.directory entries)) (links : Nat) {name : String}
    (hname : isEntryName name = true) (hget : Assoc.get? name entries = some entry)
    (hplain : entry.IsPlain) :
    follow root .look links location [name] = .ok (.entry (location ++ [name]) entry) := by
  obtain ⟨⟨hdot, hparent⟩, -⟩ := isEntryName_iff.1 hname
  have hnext : root.at? (location ++ [name]) = some entry := by
    rw [Entry.at?_append, hat, Option.bind_some, Entry.at?, hget]
    rfl
  rw [follow, if_neg hdot, if_neg hparent, if_neg (by simp)]
  cases hplain with
  | file bytes => simp [hnext]
  | directory _ _ _ => simp [hnext, follow]

/-! ## Written paths -/

theorem mem_codes_append_slash {before after : List Char} {code : Nat}
    (h : code ∈ Text.codes (before ++ '/' :: after)) :
    code ∈ Text.codes before ∨ code = '/'.toNat ∨ code ∈ Text.codes after := by
  have hslash : Text.codes ('/' :: after) = '/'.toNat :: Text.codes after :=
    Text.codes_cons (by decide) after
  fun_induction Text.codes before with
  | case1 =>
    rw [List.nil_append, hslash] at h
    exact .inr (List.mem_cons.1 h)
  | case2 c =>
    -- A mark at the end takes the slash along.
    by_cases hc : c.toNat = Text.markCode
    · have hmarked : Text.codes (c :: '/' :: after) = '/'.toNat :: Text.codes after := if_pos hc
      rw [List.singleton_append, hmarked] at h
      exact .inr (List.mem_cons.1 h)
    · rw [List.singleton_append, Text.codes_cons hc, hslash] at h
      simpa using h
  | case3 c d rest hc ih =>
    rw [List.cons_append, List.cons_append, Text.codes, if_pos hc] at h
    rcases List.mem_cons.1 h with rfl | h
    · exact .inl List.mem_cons_self
    · exact (ih h).imp_left (List.mem_cons_of_mem _)
  | case4 c d rest hc ih =>
    rw [List.cons_append, List.cons_append, Text.codes, if_neg hc] at h
    rcases List.mem_cons.1 h with rfl | h
    · exact .inl List.mem_cons_self
    · exact (ih h).imp_left (List.mem_cons_of_mem _)

theorem obstacle?_eq_none_iff {text : List Char} :
    obstacle? text = none ↔ Text.isFileName text = true ∧ '\x00' ∉ text := by
  cases hname : Text.isFileName text <;> simp [obstacle?, hname]

theorem obstacle?_of_isAscii {text : List Char} (h : Text.isAscii text = true)
    (hzero : '\x00' ∉ text) : obstacle? text = none := by
  refine obstacle?_eq_none_iff.2 ⟨?_, hzero⟩
  rw [Text.isFileName, Text.codes_of_isAscii h, List.all_map, List.all_eq_true]
  intro c hc
  have hascii : c.toNat < 0x80 := by
    simpa using List.all_eq_true.1 h c hc
  simp [Text.isHalf]
  omega

theorem obstacle?_append_slash {before after : List Char} (hbefore : obstacle? before = none)
    (hafter : obstacle? after = none) : obstacle? (before ++ '/' :: after) = none := by
  obtain ⟨hbefore, hzero⟩ := obstacle?_eq_none_iff.1 hbefore
  obtain ⟨hafter, hzero'⟩ := obstacle?_eq_none_iff.1 hafter
  refine obstacle?_eq_none_iff.2 ⟨List.all_eq_true.2 fun code hcode => ?_, by simp [hzero, hzero']⟩
  rcases mem_codes_append_slash hcode with hcode | rfl | hcode
  · exact List.all_eq_true.1 hbefore code hcode
  · decide
  · exact List.all_eq_true.1 hafter code hcode

theorem intercalate_concat {α : Type} (separator last part : List α) (parts : List (List α)) :
    separator.intercalate (part :: (parts ++ [last])) =
      separator.intercalate (part :: parts) ++ (separator ++ last) := by
  induction parts generalizing part with
  | nil => simp [List.intercalate_cons_cons]
  | cons next parts ih =>
    rw [List.cons_append, List.intercalate_cons_cons, ih, List.intercalate_cons_cons]
    simp only [List.append_assoc]

/-- The path of an entry is written as that of its directory with the name behind it, mostly after a slash. -/
theorem exists_toString_child (path : FilePath) (name : String) :
    (path.child name).toString.toList = name.toList ∨
      ∃ before, (before = [] ∨ before = ['/'] ∨ before = path.toString.toList) ∧
        (path.child name).toString.toList = before ++ '/' :: name.toList := by
  obtain ⟨anchor, names⟩ := path
  cases names with
  | nil =>
    cases anchor with
    | relative => exact .inl (by simp [FilePath.child, FilePath.toString, Anchor.text])
    | root => exact .inr ⟨[], .inl rfl, by simp [FilePath.child, FilePath.toString, Anchor.text]⟩
    | doubleRoot =>
      exact .inr ⟨['/'], .inr (.inl rfl), by simp [FilePath.child, FilePath.toString, Anchor.text]⟩
  | cons first names =>
    refine .inr ⟨_, .inr (.inr rfl), ?_⟩
    simp only [FilePath.child, FilePath.toString, List.cons_append, String.toList_append,
      String.toList_intercalate, List.map_cons, List.map_append, List.map_nil, intercalate_concat,
      List.append_assoc]
    rfl

theorem obstacle?_child {path : FilePath} {name : String}
    (hpath : obstacle? path.toString.toList = none) (hname : obstacle? name.toList = none) :
    obstacle? (path.child name).toString.toList = none := by
  rcases exists_toString_child path name with heq | ⟨before, hbefore, heq⟩
  · rwa [heq]
  · rw [heq]
    refine obstacle?_append_slash ?_ hname
    rcases hbefore with rfl | rfl | rfl
    · decide
    · decide
    · exact hpath

/-! ## Paths in a plain tree -/

/-- A path leads to a directory of a plain tree. -/
structure Shows (disk : Disk) (path : FilePath) (entries : List (String × Entry)) : Prop where
  located : ∃ location, disk.locate .look path = .ok (.entry location (.directory entries))
  plain : (Entry.directory entries).IsPlain

namespace Shows

variable {disk : Disk} {path : FilePath} {entries : List (String × Entry)}

theorem entries_plain (h : disk.Shows path entries) :
    (∀ pair ∈ entries, isEntryName pair.1 = true) ∧
      (entries.map fun pair => Text.codes pair.1.toList).Nodup ∧
      ∀ pair ∈ entries, pair.2.IsPlain := by
  cases h.plain with
  | directory named apart inner => exact ⟨named, apart, inner⟩

/-- The files beneath a directory are found name by name, in order. -/
theorem filesBeneath_eq (h : disk.Shows path entries) (depth : Nat) :
    disk.filesBeneath (depth + 1) path =
      (Entry.names entries).mapM (disk.foundAs depth path) >>= fun groups => pure groups.flatten := by
  obtain ⟨location, hlocation⟩ := h.located
  rw [filesBeneath_succ, namesIn, hlocation]
  rfl

variable (h : disk.Shows path entries) {name : String} {entry : Entry}
  (hentry : (name, entry) ∈ entries)

include h hentry

theorem obstacle?_eq_none : obstacle? (path.child name).toString.toList = none := by
  obtain ⟨location, hlocation⟩ := h.located
  have hname := isEntryName_iff.1 (h.entries_plain.1 (name, entry) hentry)
  exact obstacle?_child (locate_eq_ok_iff.1 hlocation).1 hname.2

theorem get?_eq : Assoc.get? name entries = some entry :=
  Assoc.get?_of_mem (Entry.nodup_keys h.entries_plain.2.1) hentry

/-- A path with one more name leads to the entry of that name. -/
theorem locate_child (hshort : isShort (path.child name) = true) :
    ∃ location, disk.locate .look (path.child name) = .ok (.entry location entry) := by
  obtain ⟨location, hlocation⟩ := h.located
  obtain ⟨-, -, hfollow⟩ := locate_eq_ok_iff.1 hlocation
  obtain ⟨left, hleft⟩ := exists_follow_append hfollow
  have hstep := follow_entry (at?_of_locate hlocation) left
    (h.entries_plain.1 (name, entry) hentry) (h.get?_eq hentry) (h.entries_plain.2.2 (name, entry) hentry)
  refine ⟨location ++ [name], locate_eq_ok_iff.2 ⟨h.obstacle?_eq_none hentry, hshort, ?_⟩⟩
  rw [← hstep, ← hleft]
  rfl

/-- Too long a path ends the search for files. -/
theorem foundAs_of_long (hlong : isShort (path.child name) = false) (depth : Nat) :
    disk.foundAs depth path name = .error (.system .nameTooLong (path.child name)) := by
  have hsize : pathLimit ≤ Text.nameSize (path.child name).toString.toList := by
    simpa [isShort] using hlong
  have hlocate : disk.locate .look (path.child name) =
      .error (.system .nameTooLong (path.child name)) := by
    simp only [locate, h.obstacle?_eq_none hentry, if_pos hsize]
  have hkind : disk.kind (path.child name) = .error (.system .nameTooLong (path.child name)) := by
    rw [kind, hlocate]
    rfl
  rw [foundAs, hkind]
  rfl

end Shows

section Found

variable {disk : Disk} {path : FilePath} {entries : List (String × Entry)}
  (h : disk.Shows path entries) {name : String} (hshort : isShort (path.child name) = true)

include h hshort

theorem Shows.foundAs_of_file {bytes : ByteArray} (hentry : (name, .file bytes) ∈ entries)
    (depth : Nat) : disk.foundAs depth path name = .ok [path.child name] := by
  obtain ⟨location, hlocation⟩ := h.locate_child hentry hshort
  have hkind : disk.kind (path.child name) = .ok .file := by
    rw [kind, hlocation]
  rw [foundAs, hkind]
  rfl

variable {inner : List (String × Entry)} (hentry : (name, .directory inner) ∈ entries)

include hentry

theorem Shows.foundAs_of_directory (depth : Nat) :
    disk.foundAs depth path name = disk.filesBeneath depth (path.child name) := by
  obtain ⟨location, hlocation⟩ := h.locate_child hentry hshort
  have hkind : disk.kind (path.child name) = .ok .directory := by
    rw [kind, hlocation]
  rw [foundAs, hkind]
  rfl

theorem Shows.child : disk.Shows (path.child name) inner :=
  ⟨h.locate_child hentry hshort, h.entries_plain.2.2 (name, .directory inner) hentry⟩

end Found

end Disk

end ApiBindings

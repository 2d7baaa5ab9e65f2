import ApiBindings.Generation.Run
import ApiBindings.Proofs.FileSystem.Order

/-!
# Walks

A walk through a plain tree ends with its files, in the order in which a store lists them, unless it runs into
a limit of the system: a path that is too long, or too many directories inside each other
(`exists_filesBeneath_iff`). Then there are no files at all, whatever stands before the place where the limit
is exceeded (`isLimit_of_filesBeneath`).
-/

namespace ApiBindings

open Limited (exists_of_bind_eq_ok)
open Sorting (Before)

namespace Disk

/-! ## Walks that fail -/

/-- Whether a walk from a path gets past something beneath it: its path is short enough for the system, and
a directory does not stand too deep. -/
def Passes (depth : Nat) (path : FilePath) (item : FilePath × Entry) : Prop :=
  isShort item.1 = true ∧
    (item.2.isDirectory = true → item.1.names.length < path.names.length + depth)

instance (depth : Nat) (path : FilePath) (item : FilePath × Entry) :
    Decidable (Passes depth path item) :=
  inferInstanceAs (Decidable (_ ∧ _))

/-- Whether a walk gets past everything beneath a directory. -/
def PassesAll (depth : Nat) (path : FilePath) (entries : List (String × Entry)) : Prop :=
  0 < depth ∧ ∀ item ∈ (Entry.directory entries).contents path, Passes depth path item

theorem passes_child (depth : Nat) (path : FilePath) (name : String) (item : FilePath × Entry) :
    Passes (depth + 1) path item ↔ Passes depth (path.child name) item := by
  have hlength : (path.child name).names.length + depth = path.names.length + (depth + 1) := by
    simp [FilePath.child]
    omega
  rw [Passes, Passes, hlength]

theorem passesAll_succ {depth : Nat} {path : FilePath} {entries : List (String × Entry)} :
    PassesAll (depth + 1) path entries ↔
      ∀ pair ∈ entries, Passes (depth + 1) path (path.child pair.1, pair.2) ∧
        ∀ item ∈ pair.2.contents (path.child pair.1), Passes depth (path.child pair.1) item := by
  simp only [PassesAll, Entry.contents_directory, List.mem_flatMap, Nat.succ_pos, true_and]
  constructor
  · intro h pair hpair
    refine ⟨h _ ⟨pair, hpair, List.mem_cons_self⟩, fun item hitem => ?_⟩
    exact (passes_child depth path pair.1 item).1 (h item ⟨pair, hpair, List.mem_cons_of_mem _ hitem⟩)
  · rintro h item ⟨pair, hpair, hitem⟩
    rcases List.mem_cons.1 hitem with rfl | hitem
    · exact (h pair hpair).1
    · exact (passes_child depth path pair.1 item).2 ((h pair hpair).2 item hitem)

/-- A name in a directory gives something exactly if the walk gets past its entry and what is beneath. -/
theorem exists_foundAs_iff {disk : Disk} {depth : Nat} {path : FilePath}
    {entries : List (String × Entry)} (h : disk.Shows path entries)
    (hbelow : ∀ {directory inner}, disk.Shows directory inner →
      ((∃ found, disk.filesBeneath depth directory = .ok found) ↔ PassesAll depth directory inner))
    {name : String} {entry : Entry} (hentry : (name, entry) ∈ entries) :
    (∃ group, disk.foundAs depth path name = .ok group) ↔
      Passes (depth + 1) path (path.child name, entry) ∧
        ∀ item ∈ entry.contents (path.child name), Passes depth (path.child name) item := by
  rw [passes_child depth path name]
  cases hshort : isShort (path.child name) with
  | false => simp [h.foundAs_of_long hentry hshort, Passes, hshort]
  | true =>
    cases h.entries_plain.2.2 (name, entry) hentry with
    | file bytes =>
      simp [h.foundAs_of_file hshort hentry, Passes, hshort, Entry.isDirectory, Entry.contents]
    | directory _ _ _ =>
      rw [h.foundAs_of_directory hshort hentry, hbelow (h.child hshort hentry), PassesAll]
      simp [Passes, hshort, Entry.isDirectory]

/-- A walk ends with files exactly if it gets past everything. -/
theorem exists_filesBeneath_iff {disk : Disk} {depth : Nat} {path : FilePath}
    {entries : List (String × Entry)} (h : disk.Shows path entries) :
    (∃ found, disk.filesBeneath depth path = .ok found) ↔ PassesAll depth path entries := by
  induction depth generalizing path entries with
  | zero =>
    refine iff_of_false ?_ fun hpasses => Nat.lt_irrefl 0 hpasses.1
    rintro ⟨found, hfound⟩
    cases hfound
  | succ depth ih =>
    have hgroups : (∃ found, disk.filesBeneath (depth + 1) path = .ok found) ↔
        ∃ groups, (Entry.names entries).mapM (disk.foundAs depth path) = .ok groups := by
      rw [h.filesBeneath_eq]
      constructor
      · rintro ⟨found, hfound⟩
        obtain ⟨groups, hgroups, -⟩ := exists_of_bind_eq_ok hfound
        exact ⟨groups, hgroups⟩
      · rintro ⟨groups, hgroups⟩
        exact ⟨groups.flatten, by rw [hgroups]; rfl⟩
    rw [hgroups, Limited.exists_mapM_eq_ok_iff, passesAll_succ]
    constructor
    · intro hnames pair hpair
      have hname := Entry.mem_names_of_mem hpair
      exact (exists_foundAs_iff h (fun hdirectory => ih hdirectory) hpair).1 (hnames pair.1 hname)
    · intro hpasses name hname
      obtain ⟨entry, hentry⟩ := Entry.exists_mem_of_mem_names hname
      exact (exists_foundAs_iff h (fun hdirectory => ih hdirectory) hentry).2 (hpasses (name, entry) hentry)

/-- Whether a fault tells of a limit that a walk runs into. -/
def IsLimit (fault : FileFault) : Prop :=
  fault = .tooDeep ∨ ∃ path, fault = .system .nameTooLong path

/-- A walk through a plain tree fails only where it runs into a limit. -/
theorem isLimit_of_filesBeneath {disk : Disk} {depth : Nat} {path : FilePath}
    {entries : List (String × Entry)} (h : disk.Shows path entries) {fault : FileFault}
    (hfault : disk.filesBeneath depth path = .error fault) : IsLimit fault := by
  induction depth generalizing path entries with
  | zero =>
    cases hfault
    exact .inl rfl
  | succ depth ih =>
    rw [h.filesBeneath_eq] at hfault
    cases hgroups : (Entry.names entries).mapM (disk.foundAs depth path) with
    | ok groups =>
      rw [hgroups] at hfault
      cases hfault
    | error other =>
      rw [hgroups] at hfault
      cases hfault
      obtain ⟨name, hname, hfault⟩ := Limited.exists_of_mapM_eq_error hgroups
      obtain ⟨entry, hentry⟩ := Entry.exists_mem_of_mem_names hname
      cases hshort : isShort (path.child name) with
      | false =>
        rw [h.foundAs_of_long hentry hshort] at hfault
        cases hfault
        exact .inr ⟨_, rfl⟩
      | true =>
        cases h.entries_plain.2.2 (name, entry) hentry with
        | file bytes =>
          rw [h.foundAs_of_file hshort hentry] at hfault
          cases hfault
        | directory _ _ _ =>
          rw [h.foundAs_of_directory hshort hentry] at hfault
          exact ih (h.child hshort hentry) hfault

end Disk

/-! ## The same files in memory -/

/-- A store with given files beneath a directory. -/
structure Store.Holds (store : Store) (directory : FilePath) (files : List FilePath) : Prop where
  nodup : store.files.keys.Nodup
  isDirectory : store.isDirectory directory = true
  mem_iff : ∀ {file}, directory.isAncestorOf file = true → (file ∈ store.files.keys ↔ file ∈ files)

theorem Store.Holds.filesBeneath_eq {store : Store} {directory : FilePath} {files : List FilePath}
    (h : store.Holds directory files) (hbeneath : ∀ file ∈ files, directory.isAncestorOf file = true)
    {found : List FilePath} (hfound : found.Pairwise (Before FilePath.precedes))
    (hperm : found.Perm files) : store.filesBeneath directory = found := by
  refine Sorting.sorted_eq_of_pairwise FilePath.isOrder_precedes hfound ?_
  rw [List.perm_ext_iff_of_nodup (h.nodup.filter _) (Sorting.nodup_of_pairwise_before hfound)]
  intro file
  rw [List.mem_filter, hperm.mem_iff]
  constructor
  · rintro ⟨hkey, hancestor⟩
    exact (h.mem_iff hancestor).1 hkey
  · intro hfile
    exact ⟨(h.mem_iff (hbeneath file hfile)).2 hfile, hbeneath file hfile⟩

namespace Disk

theorem isAncestorOf_of_mem_filesAt {path file : FilePath} {entries : List (String × Entry)}
    (h : (Entry.directory entries).IsPlain) (hfile : file ∈ Entry.filesAt path (.directory entries)) :
    path.isAncestorOf file = true := by
  obtain ⟨bytes, hitem⟩ := Entry.mem_filesAt_directory.1 hfile
  obtain ⟨hanchor, name, rest, hnames⟩ := h.beneath hitem
  have hne : path ≠ file := by
    rintro rfl
    simp at hnames
  have hsame : path.anchor = file.anchor := hanchor.symm
  have hbegins : path.names <+: file.names := ⟨name :: rest, hnames.symm⟩
  simp [FilePath.isAncestorOf, FilePath.covers, hsame, hne, hbegins]

/-- **Walks through a plain tree.** Let a path lead to a directory without links in it or beneath. If every
path from there is short enough for the system, and no directory stands too deep, then a walk ends with all
files beneath, each once and in the strict order of paths component by component. This is what sorting a list
of the files comes to, and a store with these files has the same documents in the same order. If not, the walk
as a whole ends with the limit that it runs into. -/
theorem walk_ordered {disk : Disk} {root : FilePath} {entries : List (String × Entry)}
    (h : disk.Shows root entries) :
    ((∀ item ∈ (Entry.directory entries).contents root, Passes walkLimit root item) →
      ∃ found, FileSystem.walk disk root = .ok found ∧
        (∀ file, file ∈ found ↔
          ∃ bytes, (file, Entry.file bytes) ∈ (Entry.directory entries).contents root) ∧
        found.Nodup ∧ found.Pairwise (Before FilePath.precedes) ∧
        found = Sorting.sorted FilePath.precedes (Entry.filesAt root (.directory entries)) ∧
        ∀ layout store, layout.sourceDirectory = root →
          Store.Holds store root (Entry.filesAt root (.directory entries)) →
          discover layout disk = discover layout store) ∧
    (¬ (∀ item ∈ (Entry.directory entries).contents root, Passes walkLimit root item) →
      ∃ fault, FileSystem.walk disk root = .error fault ∧ IsLimit fault) := by
  have hpasses : (∃ found, FileSystem.walk disk root = .ok found) ↔
      ∀ item ∈ (Entry.directory entries).contents root, Passes walkLimit root item :=
    (exists_filesBeneath_iff h).trans (and_iff_right (by decide))
  constructor
  · intro hall
    obtain ⟨found, hfound⟩ := hpasses.2 hall
    obtain ⟨hperm, hpairwise⟩ := ordered_filesBeneath h hfound
    refine ⟨found, hfound, fun file => ?_, Sorting.nodup_of_pairwise_before hpairwise, hpairwise,
      (Sorting.sorted_eq_of_pairwise FilePath.isOrder_precedes hpairwise hperm.symm).symm, ?_⟩
    · rw [hperm.mem_iff, Entry.mem_filesAt_directory]
    · rintro layout store rfl hstore
      have hsame := hstore.filesBeneath_eq (fun file => isAncestorOf_of_mem_filesAt h.plain) hpairwise hperm
      have hwalk : FileSystem.walk store layout.sourceDirectory = .ok found := by
        simp only [FileSystem.walk, if_pos hstore.isDirectory, hsame]
      rw [discover, discover, hfound, hwalk]
  · intro hall
    cases hwalk : FileSystem.walk disk root with
    | ok found => exact absurd (hpasses.1 ⟨found, hwalk⟩) hall
    | error fault => exact ⟨fault, rfl, isLimit_of_filesBeneath h hwalk⟩

/-- A directory beside files whose names begin as its own does. -/
def mixedEntries : List (String × Entry) :=
  [("b.yml", .file .empty), ("a.yaml", .file .empty), ("a-b", .directory [("x.yml", .file .empty)]),
    ("a", .directory [("z.yaml", .file .empty), ("none", .directory [])])]

def mixedDisk : Disk :=
  ⟨.directory [("specs", .directory mixedEntries)], []⟩

/-- The path to these entries. -/
def specs : FilePath :=
  ⟨.relative, ["specs"]⟩

/-- The same files in memory. -/
def mixedStore : Store where
  files := [(⟨.relative, ["specs", "b.yml"]⟩, ""), (⟨.relative, ["specs", "a.yaml"]⟩, ""),
    (⟨.relative, ["specs", "a-b", "x.yml"]⟩, ""), (⟨.relative, ["specs", "a", "z.yaml"]⟩, "")]

theorem isPlain_mixedEntries : (Entry.directory mixedEntries).IsPlain := by
  have hfile := Entry.IsPlain.file .empty
  have hnone : (Entry.directory []).IsPlain := .directory (by simp) (by simp) (by simp)
  refine .directory (by decide) (by decide) ?_
  simp only [mixedEntries, List.forall_mem_cons]
  refine ⟨hfile, hfile, .directory (by decide) (by decide) ?_, .directory (by decide) (by decide) ?_,
    by simp⟩
  · simpa using hfile
  · simpa using ⟨hfile, hnone⟩

theorem shows_mixedDisk : mixedDisk.Shows specs mixedEntries :=
  ⟨⟨["specs"], locate_eq_ok_iff.2 ⟨by decide, by decide,
    follow_entry rfl linkLimit (by decide) rfl isPlain_mixedEntries⟩⟩, isPlain_mixedEntries⟩

theorem mixedDisk_walked :
    mixedDisk.Shows specs mixedEntries ∧
    (∀ item ∈ (Entry.directory mixedEntries).contents specs, Passes walkLimit specs item) ∧
    mixedStore.Holds specs (Entry.filesAt specs (.directory mixedEntries)) ∧
    FileSystem.walk mixedDisk specs = .ok [⟨.relative, ["specs", "a", "z.yaml"]⟩,
      ⟨.relative, ["specs", "a-b", "x.yml"]⟩, ⟨.relative, ["specs", "a.yaml"]⟩,
      ⟨.relative, ["specs", "b.yml"]⟩] ∧
    discover { sourceDirectory := specs } mixedDisk =
      discover { sourceDirectory := specs } mixedStore := by
  have hpasses : ∀ item ∈ (Entry.directory mixedEntries).contents specs,
      Passes walkLimit specs item := by
    decide +kernel
  have hkeys : mixedStore.files.keys = Entry.filesAt specs (.directory mixedEntries) := by
    decide +kernel
  have hstore : mixedStore.Holds specs (Entry.filesAt specs (.directory mixedEntries)) :=
    ⟨by decide, by decide, fun _ => by rw [hkeys]⟩
  obtain ⟨found, hwalk, -, -, -, rfl, hdiscover⟩ := (walk_ordered shows_mixedDisk).1 hpasses
  refine ⟨shows_mixedDisk, hpasses, hstore, hwalk.trans ?_, hdiscover _ _ rfl hstore⟩
  decide +kernel

/-! ## Walks beyond the limits -/

theorem toList_toString_cons (name : String) {names : List String} (h : names ≠ []) :
    (FilePath.mk .relative (name :: names)).toString.toList =
      name.toList ++ '/' :: (FilePath.mk .relative names).toString.toList := by
  obtain ⟨next, rest, rfl⟩ := List.exists_cons_of_ne_nil h
  simp [FilePath.toString, Anchor.text, String.intercalate_cons_cons]

/-- A way to a directory that comes back from it before it gets there. -/
def detour (turns : Nat) (names : List String) : FilePath :=
  ⟨.relative, (List.replicate turns ["x", ".."]).flatten ++ names⟩

theorem child_detour (turns : Nat) (names : List String) (name : String) :
    (detour turns names).child name = detour turns (names ++ [name]) := by
  simp [detour, FilePath.child]

theorem toList_toString_detour (turns : Nat) {names : List String} (h : names ≠ []) :
    (detour turns names).toString.toList =
      (List.replicate turns "x/../".toList).flatten ++ (detour 0 names).toString.toList := by
  induction turns with
  | zero => rfl
  | succ turns ih =>
    have hnames : (detour turns names).names ≠ [] := by
      simp [detour, h]
    have hstep : detour (turns + 1) names = ⟨.relative, "x" :: ".." :: (detour turns names).names⟩ := rfl
    rw [hstep, toList_toString_cons "x" (List.cons_ne_nil _ _),
      toList_toString_cons ".." hnames, List.replicate_succ, List.flatten_cons,
      List.append_assoc, ← ih]
    rfl

theorem follow_detour {root : Entry} {entries : List (String × Entry)}
    (h : root.at? ["x"] = some (.directory entries)) (links turns : Nat) (names : List String) :
    follow root .look links [] (detour turns names).names = follow root .look links [] names := by
  induction turns with
  | zero => rfl
  | succ turns ih =>
    have hstep : (detour (turns + 1) names).names = "x" :: ".." :: (detour turns names).names := rfl
    have hnext : root.at? ([] ++ ["x"]) = some (.directory entries) := h
    rw [hstep, follow, if_neg (by decide), if_neg (by decide), if_neg (by simp)]
    simp only [hnext]
    rw [follow, if_neg (by decide), if_pos rfl]
    exact ih

theorem subset_detour (turns : Nat) {names : List String} (h : names ≠ []) :
    (detour turns names).toString.toList ⊆ "x/../".toList ++ (detour 0 names).toString.toList := by
  intro c hc
  rw [toList_toString_detour turns h] at hc
  rcases List.mem_append.1 hc with hc | hc
  · obtain ⟨part, hpart, hc⟩ := List.mem_flatten.1 hc
    rw [List.eq_of_mem_replicate hpart] at hc
    exact List.mem_append_left _ hc
  · exact List.mem_append_right _ hc

theorem nameSize_detour (turns : Nat) {names : List String} (hne : names ≠ [])
    (h : Text.isAscii ("x/../".toList ++ (detour 0 names).toString.toList) = true) :
    Text.nameSize (detour turns names).toString.toList =
      5 * turns + (detour 0 names).toString.toList.length := by
  rw [Text.nameSize_of_isAscii (Text.isAscii_of_subset h (subset_detour turns hne)),
    toList_toString_detour turns hne]
  simp [Nat.mul_comm]

/-- A directory with one file. -/
def notesDisk : Disk :=
  ⟨.directory [("x", .directory [("notes.txt", .file .empty)])], []⟩

theorem shows_notesDisk : notesDisk.Shows (detour 818 ["x"]) [("notes.txt", .file .empty)] := by
  have hascii : Text.isAscii ("x/../".toList ++ (detour 0 ["x"]).toString.toList) = true := by
    decide
  have hsubset := subset_detour 818 (List.cons_ne_nil "x" [])
  have hzero : '\x00' ∉ (detour 818 ["x"]).toString.toList :=
    fun hmem => absurd (hsubset hmem) (by decide)
  have hinner : notesDisk.root.at? ["x"] = some (.directory [("notes.txt", .file .empty)]) := rfl
  have hfollow : follow notesDisk.root .look linkLimit [] (detour 818 ["x"]).names =
      .ok (.entry ["x"] (.directory [("notes.txt", .file .empty)])) := by
    rw [follow_detour hinner]
    simp [follow, hinner]
  constructor
  · refine ⟨["x"], locate_eq_ok_iff.2 ⟨?_, ?_, hfollow⟩⟩
    · exact obstacle?_of_isAscii (Text.isAscii_of_subset hascii hsubset) hzero
    · rw [isShort, nameSize_detour 818 (List.cons_ne_nil "x" []) hascii]
      decide
  · refine .directory (by decide) (by decide) ?_
    simpa using Entry.IsPlain.file _

theorem not_isShort_detour : isShort ((detour 818 ["x"]).child "notes.txt") = false := by
  have hascii : Text.isAscii
      ("x/../".toList ++ (detour 0 ["x", "notes.txt"]).toString.toList) = true := by
    decide
  rw [child_detour, isShort, List.singleton_append, nameSize_detour 818 (List.cons_ne_nil _ _) hascii]
  decide

/-- Directories inside each other, with a file in the last one. -/
def nested : Nat → List (String × Entry)
  | 0 => [("notes.txt", .file .empty)]
  | depth + 1 => [("d", .directory (nested depth))]

theorem isPlain_nested (depth : Nat) : (Entry.directory (nested depth)).IsPlain := by
  induction depth with
  | zero =>
    refine .directory (by decide) (by decide) ?_
    simpa [nested] using Entry.IsPlain.file _
  | succ depth ih =>
    refine .directory (by simp [nested]; decide) (by simp [nested]) ?_
    simpa [nested] using ih

theorem mem_contents_nested (depth : Nat) (path : FilePath) :
    (⟨path.anchor, path.names ++ List.replicate (depth + 1) "d"⟩, .directory (nested 0)) ∈
      (Entry.directory (nested (depth + 1))).contents path := by
  induction depth generalizing path with
  | zero =>
    exact List.mem_cons_self
  | succ depth ih =>
    have hinner := ih (path.child "d")
    have hpath : (path.child "d").names ++ List.replicate (depth + 1) "d" =
        path.names ++ List.replicate (depth + 2) "d" := by
      simp [FilePath.child, List.replicate_succ]
    rw [hpath] at hinner
    rw [Entry.contents_directory]
    exact List.mem_flatMap.2 ⟨_, List.mem_cons_self, List.mem_cons_of_mem _ hinner⟩

theorem shows_nested (depth : Nat) :
    Disk.Shows ⟨.directory (nested depth), []⟩ ⟨.relative, []⟩ (nested depth) := by
  refine ⟨⟨[], locate_eq_ok_iff.2 ⟨by decide, by decide, ?_⟩⟩, isPlain_nested depth⟩
  simp [follow, start, Entry.at?]

theorem walk_nested_ne {depth : Nat} (h : walkLimit ≤ depth) (found : List FilePath) :
    FileSystem.walk (Disk.mk (.directory (nested depth)) []) ⟨.relative, []⟩ ≠ .ok found := by
  intro hfound
  have hpasses := ((exists_filesBeneath_iff (shows_nested depth)).1 ⟨found, hfound⟩).2
  obtain ⟨depth, rfl⟩ : ∃ less, depth = less + 1 := ⟨depth - 1, by simp [walkLimit] at h; omega⟩
  have hdeep := (hpasses _ (mem_contents_nested depth ⟨.relative, []⟩)).2 rfl
  simp at hdeep
  omega

/-- One file is too much on a way that is long enough, and a thousand directories inside each other are too
many. -/
theorem limits_end_walks :
    (notesDisk.Shows (detour 818 ["x"]) [("notes.txt", .file .empty)] ∧
      ∀ found, FileSystem.walk notesDisk (detour 818 ["x"]) ≠ .ok found) ∧
    (Disk.Shows ⟨.directory (nested 1000), []⟩ ⟨.relative, []⟩ (nested 1000) ∧
      ∀ found,
        FileSystem.walk (Disk.mk (.directory (nested 1000)) []) ⟨.relative, []⟩ ≠ .ok found) := by
  refine ⟨⟨shows_notesDisk, fun found hfound => ?_⟩, shows_nested 1000, walk_nested_ne (by decide)⟩
  have hpasses := ((exists_filesBeneath_iff shows_notesDisk).1 ⟨found, hfound⟩).2 _ List.mem_cons_self
  exact Bool.false_ne_true (not_isShort_detour.symm.trans hpasses.1)

end Disk

end ApiBindings

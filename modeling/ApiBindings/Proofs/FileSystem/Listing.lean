import ApiBindings.FileSystem.Disk
import ApiBindings.FileSystem.Store
import ApiBindings.Proofs.Value.Limited
import Mathlib.Data.List.Nodup

/-!
# Listing files

A file system that lists no file twice. A store does if it holds no path twice (`Store.listsOnce`), and
a disk if no directory has two entries with one name (`Disk.listsOnce`): what is found beneath different
names has different paths, also where links lead to the same file.
-/

namespace ApiBindings

open Limited (exists_of_bind_eq_ok)

/-- The file system lists no file twice. -/
def FileSystem.ListsOnce {σ : Type} [FileSystem σ] (files : σ) : Prop :=
  ∀ directory found, FileSystem.walk files directory = .ok found → found.Nodup

/-! ## Stores -/

theorem Store.nodup_filesBeneath {store : Store} (h : store.files.keys.Nodup) (directory : FilePath) :
    (store.filesBeneath directory).Nodup :=
  (Sorting.sorted_perm _ _).nodup_iff.2 (h.filter _)

theorem Store.listsOnce {store : Store} (h : store.files.keys.Nodup) :
    FileSystem.ListsOnce store := by
  intro directory found hfound
  simp only [FileSystem.walk] at hfound
  split at hfound
  · cases hfound
    exact Store.nodup_filesBeneath h directory
  · cases hfound

/-! ## Disks -/

namespace Disk

/-- No directory has two entries with one name. -/
def NamesOnce (disk : Disk) : Prop :=
  ∀ location entries, disk.root.at? location = some (.directory entries) →
    (Assoc.keys entries).Nodup

/-- What a path is followed to is in the tree. -/
theorem at?_of_follow {root : Entry} {purpose : Purpose} {links : Nat} {here components : List String}
    {location : List String} {entry : Entry}
    (h : follow root purpose links here components = .ok (.entry location entry)) :
    root.at? location = some entry := by
  fun_induction follow root purpose links here components with
  -- The way ends at an entry that is there.
  | case1 links here inner hat | case10 links here name rest _ _ _ next bytes hat
  | case12 links here name rest _ _ _ next target hat =>
    obtain ⟨hlocation, hentry⟩ := Place.entry.inj (Except.ok.inj h)
    rw [← hlocation, ← hentry]
    exact hat
  -- It goes on.
  | case3 links here name rest _ ih | case4 links here rest _ ih
  | case9 links here name rest _ _ _ next entries hat ih
  | case14 here name rest _ _ _ next target hat _ links ih => exact ih h
  -- It fails, or leads to nothing.
  | case2 | case5 | case6 | case7 | case8 | case11 | case13 => cases h

/-- The directory in which a path starts. -/
def start (disk : Disk) (path : FilePath) : List String :=
  if path.anchor = .relative then disk.working else []

/-- Whether a path is short enough for the system. -/
def isShort (path : FilePath) : Bool :=
  Text.nameSize path.toString.toList < pathLimit

theorem locate_eq_ok_iff {disk : Disk} {purpose : Purpose} {path : FilePath} {place : Place} :
    disk.locate purpose path = .ok place ↔
      obstacle? path.toString.toList = none ∧ isShort path = true ∧
        follow disk.root purpose linkLimit (disk.start path) path.names = .ok place := by
  have hfollowed : ∀ followed : Except SystemError Place,
      followed.mapError (FileFault.system · path) = .ok place ↔ followed = .ok place := by
    rintro (fault | found) <;> simp [Except.mapError]
  simp only [locate, start, isShort, decide_eq_true_eq]
  cases obstacle? path.toString.toList with
  | some fault => simp
  | none =>
    by_cases hlong : pathLimit ≤ Text.nameSize path.toString.toList
    · simp [hlong, Nat.not_lt.2 hlong]
    · simp [hlong, Nat.not_le.1 hlong, hfollowed]

theorem at?_of_locate {disk : Disk} {purpose : Purpose} {path : FilePath} {location : List String}
    {entry : Entry} (h : disk.locate purpose path = .ok (.entry location entry)) :
    disk.root.at? location = some entry :=
  at?_of_follow (locate_eq_ok_iff.1 h).2.2

theorem nodup_namesIn {disk : Disk} (hdisk : disk.NamesOnce) {path : FilePath} {names : List String}
    (h : disk.namesIn path = .ok names) : names.Nodup := by
  unfold namesIn at h
  cases hlocate : disk.locate .look path with
  | error fault =>
    rw [hlocate] at h
    cases h
  | ok place =>
    rw [hlocate] at h
    cases place with
    | vacant location => cases h
    | entry location entry =>
      cases entry with
      | file bytes => cases h
      | link target => cases h
      | directory entries =>
        cases h
        exact (Sorting.sorted_perm _ _).nodup_iff.2 (hdisk location entries (at?_of_locate hlocate))

/-- A file is beneath one of the names in a directory only. -/
theorem eq_of_beneath {path file : FilePath} {name other : String}
    (hname : (path.child name).names <+: file.names)
    (hother : (path.child other).names <+: file.names) : name = other := by
  have hlength : (path.child name).names.length = (path.child other).names.length := by
    simp [FilePath.child]
  have heq : (path.child name).names = (path.child other).names :=
    (List.prefix_of_prefix_length_le hname hother (Nat.le_of_eq hlength)).eq_of_length hlength
  simpa [FilePath.child] using heq

/-- Groups of files for different names, each beneath its name, have no file in common. -/
theorem nodup_flatten_of_mapM {path : FilePath} {find : String → Except FileFault (List FilePath)}
    (hfind : ∀ name group, find name = .ok group →
      group.Nodup ∧ ∀ file ∈ group, (path.child name).names <+: file.names)
    {names : List String} (hnames : names.Nodup) {groups : List (List FilePath)}
    (h : names.mapM find = .ok groups) :
    groups.flatten.Nodup ∧
      ∀ file ∈ groups.flatten, ∃ name ∈ names, (path.child name).names <+: file.names := by
  obtain ⟨group, rfl, hgroup⟩ := Limited.exists_map_of_mapM_eq_ok h
  have heach : ∀ name ∈ names,
      (group name).Nodup ∧ ∀ file ∈ group name, (path.child name).names <+: file.names :=
    fun name hname => hfind name (group name) (hgroup name hname)
  rw [← List.flatMap_def]
  constructor
  · refine List.nodup_flatMap.2 ⟨fun name hname => (heach name hname).1, ?_⟩
    refine hnames.imp_of_mem fun {name other} hname hother hne => ?_
    intro file hfile hfile'
    exact hne (eq_of_beneath ((heach name hname).2 file hfile) ((heach other hother).2 file hfile'))
  · intro file hfile
    obtain ⟨name, hname, hfile⟩ := List.mem_flatMap.1 hfile
    exact ⟨name, hname, (heach name hname).2 file hfile⟩

/-- What a name in a directory contributes to the files beneath it. -/
def foundAs (disk : Disk) (depth : Nat) (path : FilePath) (name : String) :
    Except FileFault (List FilePath) := do
  match ← disk.kind (path.child name) with
  | .directory => disk.filesBeneath depth (path.child name)
  | .file => return [path.child name]
  | .absent => return []

theorem filesBeneath_succ (disk : Disk) (depth : Nat) (path : FilePath) :
    disk.filesBeneath (depth + 1) path =
      (disk.namesIn path >>= fun names =>
        names.mapM (disk.foundAs depth path) >>= fun groups => pure groups.flatten) :=
  rfl

theorem nodup_foundAs {disk : Disk} {depth : Nat} {path : FilePath} {name : String}
    {group : List FilePath}
    (hbelow : ∀ {directory found}, disk.filesBeneath depth directory = .ok found →
      found.Nodup ∧ ∀ file ∈ found, directory.names <+: file.names)
    (h : disk.foundAs depth path name = .ok group) :
    group.Nodup ∧ ∀ file ∈ group, (path.child name).names <+: file.names := by
  unfold foundAs at h
  cases hkind : disk.kind (path.child name) with
  | error fault =>
    rw [hkind] at h
    cases h
  | ok kind =>
    rw [hkind] at h
    cases kind with
    | directory => exact hbelow h
    | file =>
      cases h
      simp
    | absent =>
      cases h
      simp

/-- What is found beneath a directory has paths that lead on from there, each once. -/
theorem nodup_filesBeneath {disk : Disk} (hdisk : disk.NamesOnce) {depth : Nat} {path : FilePath}
    {found : List FilePath} (h : disk.filesBeneath depth path = .ok found) :
    found.Nodup ∧ ∀ file ∈ found, path.names <+: file.names := by
  induction depth generalizing path found with
  | zero => cases h
  | succ depth ih =>
    rw [filesBeneath_succ] at h
    obtain ⟨names, hnames, h⟩ := exists_of_bind_eq_ok h
    obtain ⟨groups, hgroups, h⟩ := exists_of_bind_eq_ok h
    cases h
    obtain ⟨hnodup, hbeneath⟩ :=
      nodup_flatten_of_mapM (fun _ _ => nodup_foundAs ih) (nodup_namesIn hdisk hnames) hgroups
    refine ⟨hnodup, fun file hfile => ?_⟩
    obtain ⟨name, -, hprefix⟩ := hbeneath file hfile
    exact (List.prefix_append path.names [name]).trans hprefix

theorem listsOnce {disk : Disk} (h : disk.NamesOnce) : FileSystem.ListsOnce disk :=
  fun _ _ hfound => (nodup_filesBeneath h hfound).1

end Disk

end ApiBindings

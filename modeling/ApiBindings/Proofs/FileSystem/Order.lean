import ApiBindings.Proofs.FileSystem.Tree
import ApiBindings.Proofs.Value.Limited
import Mathlib.Data.List.Perm.Basic

/-!
# The order of a walk

A walk goes through a plain tree directory by directory, each in the order of its names. What it finds
stands in one order, that of paths component by component (`ordered_filesBeneath`): what is beneath one name
comes before what is beneath a later one, however the two go on. So a walk comes to the same as sorting a list
of all files, which is how files in memory are listed.
-/

namespace ApiBindings

/-! ## Strict order -/

namespace Sorting

variable {α : Type} {precedes : α → α → Bool}

/-- One value precedes another, and not the other way round. -/
def Before (precedes : α → α → Bool) (a b : α) : Prop :=
  precedes a b = true ∧ precedes b a = false

theorem Before.asymm {a b : α} (h : Before precedes a b) : ¬ Before precedes b a :=
  fun hback => Bool.false_ne_true (hback.2.symm.trans h.1)

/-- A list whose members each come before the next ones is what sorting makes of its members. -/
theorem sorted_eq_of_pairwise (order : IsOrder precedes) {list found : List α}
    (hfound : found.Pairwise (Before precedes)) (hperm : list.Perm found) :
    sorted precedes list = found := by
  have hsorted : (sorted precedes list).Perm found := (sorted_perm precedes list).trans hperm
  have hsymm : ∀ {a b}, ¬ (precedes a b = true ∧ precedes b a = true) →
      ¬ (precedes b a = true ∧ precedes a b = true) := fun h hboth => h hboth.symm
  have hone : found.Pairwise fun a b => ¬ (precedes a b = true ∧ precedes b a = true) :=
    hfound.imp fun h hboth => by simp [h.2] at hboth
  have hstrict : (sorted precedes list).Pairwise (Before precedes) := by
    refine ((pairwise_sorted order list).and ((hsorted.pairwise_iff hsymm).2 hone)).imp ?_
    intro a b h
    exact ⟨h.1, Bool.eq_false_iff.2 fun hba => h.2 ⟨h.1, hba⟩⟩
  exact hsorted.eq_of_pairwise (fun a b _ _ hab hba => absurd hba hab.asymm) hstrict hfound

theorem nodup_of_pairwise_before {list : List α} (h : list.Pairwise (Before precedes)) :
    list.Nodup := by
  refine h.imp ?_
  rintro a b hab rfl
  exact hab.asymm hab

/-- What lists begin with together does not decide their order. -/
theorem lexicographic_append (order : IsOrder precedes) (front as bs : List α) :
    lexicographic precedes (front ++ as) (front ++ bs) = lexicographic precedes as bs := by
  induction front with
  | nil => rfl
  | cons a front ih =>
    have hself : precedes a a = true := (order.total a a).elim id id
    rw [List.cons_append, List.cons_append, lexicographic, hself, ih]
    rfl

theorem before_lexicographic {a b : α} (h : Before precedes a b) (as bs : List α) :
    Before (lexicographic precedes) (a :: as) (b :: bs) := by
  simp [Before, lexicographic, h.1, h.2]

theorem lexicographic_antisymm (hprecedes : ∀ a b, precedes a b = true → precedes b a = true → a = b)
    {as bs : List α} (h : lexicographic precedes as bs = true)
    (hback : lexicographic precedes bs as = true) : as = bs := by
  induction as generalizing bs with
  | nil =>
    cases bs with
    | nil => rfl
    | cons b bs => cases hback
  | cons a as ih =>
    cases bs with
    | nil => cases h
    | cons b bs =>
      simp only [lexicographic, Bool.and_eq_true, Bool.or_eq_true, Bool.not_eq_true'] at h hback
      obtain rfl := hprecedes a b h.1 hback.1
      have hself := h.1
      rw [ih (h.2.resolve_left (by simp [hself])) (hback.2.resolve_left (by simp [hself]))]

end Sorting

open Sorting (Before)

theorem Text.codes_eq_of_precedes {a b : String} (h : Text.precedes a b = true)
    (hback : Text.precedes b a = true) : Text.codes a.toList = Text.codes b.toList :=
  Sorting.lexicographic_antisymm (fun m n hle hge => by simp at hle hge; omega) h hback

namespace FilePath

theorem components_eq (path : FilePath) :
    path.components = (FilePath.mk path.anchor []).components ++ path.names := by
  obtain ⟨anchor, names⟩ := path
  cases anchor <;> rfl

/-- Paths that lead on from one place with different names are in the order of these names. -/
theorem before_of_child {path a b : FilePath} {name other : String}
    (h : Before Text.precedes name other)
    (ha : a.anchor = path.anchor ∧ (path.child name).names <+: a.names)
    (hb : b.anchor = path.anchor ∧ (path.child other).names <+: b.names) :
    Before FilePath.precedes a b := by
  obtain ⟨ha, restA, hnamesA⟩ := ha
  obtain ⟨hb, restB, hnamesB⟩ := hb
  have hcomponentsA : a.components = path.components ++ name :: restA := by
    rw [components_eq, ha, ← hnamesA, components_eq path, child]
    simp
  have hcomponentsB : b.components = path.components ++ other :: restB := by
    rw [components_eq, hb, ← hnamesB, components_eq path, child]
    simp
  have hstep := Sorting.before_lexicographic h restA restB
  unfold Before FilePath.precedes
  rwa [hcomponentsA, hcomponentsB, Sorting.lexicographic_append Text.isOrder_precedes,
    Sorting.lexicographic_append Text.isOrder_precedes]

end FilePath

namespace Disk

open Limited (exists_of_bind_eq_ok)

/-! ## Walks that end with files -/

theorem pairwise_names {entries : List (String × Entry)}
    (h : (entries.map fun pair => Text.codes pair.1.toList).Nodup) :
    (Entry.names entries).Pairwise (Before Text.precedes) := by
  have hkeys : (Assoc.keys entries).Pairwise fun a b => Text.codes a.toList ≠ Text.codes b.toList :=
    List.pairwise_map.2 (List.pairwise_map.1 h)
  have hapart := ((Sorting.sorted_perm Text.precedes _).pairwise_iff fun hne => Ne.symm hne).2 hkeys
  refine ((Sorting.pairwise_sorted Text.isOrder_precedes _).and hapart).imp ?_
  intro a b hab
  exact ⟨hab.1, Bool.eq_false_iff.2 fun hba => hab.2 (Text.codes_eq_of_precedes hab.1 hba)⟩

/-- What a name in a directory gives is what is at its entry, in order, if what is beneath a directory is. -/
theorem ordered_foundAs {disk : Disk} {depth : Nat} {path : FilePath} {entries : List (String × Entry)}
    (h : disk.Shows path entries)
    (hbelow : ∀ {directory inner found}, disk.Shows directory inner →
      disk.filesBeneath depth directory = .ok found →
        found.Perm (Entry.filesAt directory (.directory inner)) ∧
          found.Pairwise (Before FilePath.precedes))
    {name : String} {entry : Entry} (hentry : (name, entry) ∈ entries) {group : List FilePath}
    (hgroup : disk.foundAs depth path name = .ok group) :
    group.Perm (Entry.filesAt (path.child name) entry) ∧ group.Pairwise (Before FilePath.precedes) := by
  cases hshort : isShort (path.child name) with
  | false =>
    rw [h.foundAs_of_long hentry hshort] at hgroup
    cases hgroup
  | true =>
    cases h.entries_plain.2.2 (name, entry) hentry with
    | file bytes =>
      rw [h.foundAs_of_file hshort hentry] at hgroup
      cases hgroup
      exact ⟨.refl _, List.pairwise_singleton _ _⟩
    | directory _ _ _ =>
      rw [h.foundAs_of_directory hshort hentry] at hgroup
      exact hbelow (h.child hshort hentry) hgroup

/-- What is found beneath a directory of a plain tree are its files, in the order of their paths. -/
theorem ordered_filesBeneath {disk : Disk} {depth : Nat} {path : FilePath}
    {entries : List (String × Entry)} (h : disk.Shows path entries) {found : List FilePath}
    (hfound : disk.filesBeneath depth path = .ok found) :
    found.Perm (Entry.filesAt path (.directory entries)) ∧
      found.Pairwise (Before FilePath.precedes) := by
  induction depth generalizing path entries found with
  | zero => cases hfound
  | succ depth ih =>
    rw [h.filesBeneath_eq] at hfound
    obtain ⟨groups, hgroups, hfound⟩ := exists_of_bind_eq_ok hfound
    obtain ⟨group, rfl, hgroup⟩ := Limited.exists_map_of_mapM_eq_ok hgroups
    cases hfound
    obtain ⟨-, hapart, hinner⟩ := h.entries_plain
    -- Each name gives what is at its entry.
    have heach : ∀ pair ∈ entries, (group pair.1).Perm (Entry.filesAt (path.child pair.1) pair.2) ∧
        (group pair.1).Pairwise (Before FilePath.precedes) := by
      intro pair hpair
      have hname := Entry.mem_names_of_mem hpair
      exact ordered_foundAs h (fun hdirectory => ih hdirectory) hpair (hgroup pair.1 hname)
    have hbegins : ∀ name ∈ Entry.names entries,
        (group name).Pairwise (Before FilePath.precedes) ∧ ∀ file ∈ group name,
          file.anchor = path.anchor ∧ (path.child name).names <+: file.names := by
      intro name hname
      obtain ⟨entry, hentry⟩ := Entry.exists_mem_of_mem_names hname
      obtain ⟨hperm, hpairwise⟩ := heach (name, entry) hentry
      exact ⟨hpairwise, fun file hfile =>
        (hinner (name, entry) hentry).begins (hperm.mem_iff.1 hfile)⟩
    rw [← List.flatMap_def]
    constructor
    · have hnames : ((Entry.names entries).flatMap group).Perm ((Assoc.keys entries).flatMap group) :=
        (Sorting.sorted_perm _ _).flatMap_right group
      have hkeys : (Assoc.keys entries).flatMap group = entries.flatMap fun pair => group pair.1 :=
        List.flatMap_map _ _ entries
      rw [Entry.filesAt_directory]
      exact (hnames.trans (.of_eq hkeys)).trans
        (.flatMap_left entries fun pair hpair => (heach pair hpair).1)
    · refine List.pairwise_flatMap.2 ⟨fun name hname => (hbegins name hname).1, ?_⟩
      refine (pairwise_names hapart).imp_of_mem fun {name other} hname hother hbefore => ?_
      exact fun a ha b hb => FilePath.before_of_child hbefore ((hbegins name hname).2 a ha)
        ((hbegins other hother).2 b hb)

end Disk

end ApiBindings

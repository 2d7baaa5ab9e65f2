import ApiBindings.Proofs.FilePath.Join

/-!
# Resolving dots in paths

Stores compare paths as they are written, a disk follows them. `resolve` is the path without `.` and
with as few `..` as possible, found by walking its names without a look at a disk. Walks can be put
together (`walk_append`), so where a joined path leads is settled by the walks of its two parts.
-/

namespace ApiBindings.FilePath

/-! ## Walks -/

/-- Where names lead: so many levels up, and from there down through some directories, the last of them
first. -/
structure Walk where
  up : Nat := 0
  down : List String := []
  deriving DecidableEq, Repr

namespace Walk

/-- A walk with one more name to follow. -/
def step (walk : Walk) (name : String) : Walk :=
  if name = "." then walk
  else if name = ".." then
    match walk.down with
    | [] => { walk with up := walk.up + 1 }
    | _ :: rest => { walk with down := rest }
  else { walk with down := name :: walk.down }

/-- One walk followed by another. -/
def andThen (first second : Walk) : Walk where
  up := first.up + (second.up - first.down.length)
  down := second.down ++ first.down.drop second.up

theorem andThen_start (walk : Walk) : walk.andThen {} = walk := by
  simp [andThen]

theorem step_andThen (first second : Walk) (name : String) :
    (first.andThen second).step name = first.andThen (second.step name) := by
  obtain ⟨up, down⟩ := first
  obtain ⟨up', down'⟩ := second
  unfold step
  by_cases hdot : name = "."
  · simp only [if_pos hdot]
  · by_cases hdots : name = ".."
    · simp only [if_neg hdot, if_pos hdots]
      cases down' with
      | cons last rest => simp [andThen]
      | nil =>
        -- Going up once more leaves the first walk only when nothing of it is left.
        cases hleft : down.drop up' with
        | nil =>
          have hlength : down.length ≤ up' := List.drop_eq_nil_iff.1 hleft
          have hnext : down.drop (up' + 1) = [] := List.drop_eq_nil_iff.2 (by omega)
          simp only [andThen, hleft, hnext, List.nil_append, Walk.mk.injEq, and_true]
          omega
        | cons last rest =>
          have hlength : up' < down.length := by
            have hcount := congrArg List.length hleft
            rw [List.length_drop, List.length_cons] at hcount
            omega
          have hnext : down.drop (up' + 1) = rest := by rw [← List.tail_drop, hleft, List.tail_cons]
          simp only [andThen, hleft, hnext, List.nil_append, Walk.mk.injEq, and_true]
          omega
    · simp only [if_neg hdot, if_neg hdots, andThen, List.cons_append]

theorem notMem_step {walk : Walk} (name : String) (h : ".." ∉ walk.down) :
    ".." ∉ (walk.step name).down := by
  obtain ⟨up, down⟩ := walk
  unfold step
  by_cases hdot : name = "."
  · simpa only [if_pos hdot] using h
  · by_cases hdots : name = ".."
    · simp only [if_neg hdot, if_pos hdots]
      cases down with
      | nil => exact h
      | cons last rest => exact fun hmem => h (List.mem_cons_of_mem _ hmem)
    · simp only [if_neg hdot, if_neg hdots]
      intro hmem
      rcases List.mem_cons.1 hmem with heq | hmem
      · exact hdots heq.symm
      · exact h hmem

end Walk

/-- Where names lead from a directory. -/
def walk (names : List String) : Walk :=
  names.foldl Walk.step {}

theorem foldl_step (names : List String) (first second : Walk) :
    names.foldl Walk.step (first.andThen second) = first.andThen (names.foldl Walk.step second) := by
  induction names generalizing second with
  | nil => rfl
  | cons name rest ih => rw [List.foldl_cons, Walk.step_andThen, ih, List.foldl_cons]

theorem walk_append (names more : List String) :
    walk (names ++ more) = (walk names).andThen (walk more) := by
  have hstart := foldl_step more (walk names) {}
  rw [Walk.andThen_start] at hstart
  rw [walk, List.foldl_append]
  exact hstart

theorem notMem_walk (names : List String) : ".." ∉ (walk names).down := by
  have hrun : ∀ start : Walk, ".." ∉ start.down → ".." ∉ (names.foldl Walk.step start).down := by
    induction names with
    | nil => exact fun _ hstart => hstart
    | cons name rest ih => exact fun start hstart => ih _ (Walk.notMem_step name hstart)
  exact hrun {} List.not_mem_nil

theorem walk_concat (names : List String) {name : String} (hdot : name ≠ ".") (hdots : name ≠ "..") :
    walk (names ++ [name]) = ⟨(walk names).up, name :: (walk names).down⟩ := by
  rw [walk, List.foldl_append, List.foldl_cons, List.foldl_nil, Walk.step, if_neg hdot, if_neg hdots]
  rfl

/-! ## Resolved paths -/

/-- The path that leads to the same place without `.` and with as few `..` as possible. Above the root
there is only the root. -/
def resolve (path : FilePath) : FilePath :=
  match path.anchor with
  | .relative => ⟨.relative, List.replicate (walk path.names).up ".." ++ (walk path.names).down.reverse⟩
  | anchor => ⟨anchor, (walk path.names).down.reverse⟩

example : (ofString "a/../../b/./c/..").resolve = ofString "../b" := by decide

/-- What stands between the `..` in front of two lists can only be compared if these are as many. -/
theorem replicate_append_prefix_iff {outer inner : List String} {m n : Nat} (hne : outer ≠ [])
    (houter : ".." ∉ outer) (hinner : ".." ∉ inner) :
    List.replicate m ".." ++ outer <+: List.replicate n ".." ++ inner ↔ m = n ∧ outer <+: inner := by
  induction m generalizing n with
  | zero =>
    cases n with
    | zero => simp
    | succ n =>
      cases outer with
      | nil => exact absurd rfl hne
      | cons name rest =>
        simp only [List.replicate_succ, List.replicate_zero, List.nil_append, List.cons_append,
          List.cons_prefix_cons]
        constructor
        · rintro ⟨rfl, -⟩
          exact absurd List.mem_cons_self houter
        · rintro ⟨hzero, -⟩
          cases hzero
  | succ m ih =>
    cases n with
    | zero =>
      constructor
      · intro hleads
        exact absurd (hleads.subset (by simp [List.replicate_succ])) hinner
      · rintro ⟨hzero, -⟩
        cases hzero
    | succ n =>
      rw [List.replicate_succ, List.replicate_succ, List.cons_append, List.cons_append,
        List.cons_prefix_cons, ih]
      simp

/-- Whether the first of two paths leads to the second is settled by where they go down, and for
relative ones by how far up they start. -/
theorem covers_resolve_iff {outer inner : FilePath} (hne : (walk outer.names).down ≠ []) :
    outer.resolve.covers inner.resolve = true ↔
      outer.anchor = inner.anchor ∧
        (outer.anchor = .relative → (walk outer.names).up = (walk inner.names).up) ∧
        (walk outer.names).down <:+ (walk inner.names).down := by
  obtain ⟨anchor, names⟩ := outer
  obtain ⟨anchor', names'⟩ := inner
  have hreverse : (walk names).down.reverse ≠ [] := mt List.reverse_eq_nil_iff.1 hne
  have hrelative := replicate_append_prefix_iff (m := (walk names).up) (n := (walk names').up) hreverse
    (mt List.mem_reverse.1 (notMem_walk names)) (mt List.mem_reverse.1 (notMem_walk names'))
  rw [List.reverse_prefix] at hrelative
  cases anchor <;> cases anchor' <;>
    simp [covers, resolve, List.isPrefixOf_iff_prefix, hrelative]

end ApiBindings.FilePath

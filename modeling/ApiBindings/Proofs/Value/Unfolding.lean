import ApiBindings.Proofs.Value.Likeness

/-!
# Values written out

A value without loops has a tree: writing it out to any sufficient depth gives this tree, with nothing
left out. The graph of a tree gives it back. Two values with the same tree are shown alike, whatever
parts they share.
-/

namespace ApiBindings.Graph

/-- Writing a value out gives a tree, at this depth and any greater one. -/
def Unfolds (graph : Graph) (value : Value) (tree : Tree) : Prop :=
  ∃ enough, ∀ depth, enough ≤ depth → graph.unfoldTo depth value = tree

section

variable {graph : Graph} {value : Value}

theorem Unfolds.unique {tree tree' : Tree} (h : graph.Unfolds value tree)
    (h' : graph.Unfolds value tree') : tree = tree' := by
  obtain ⟨n, hn⟩ := h
  obtain ⟨n', hn'⟩ := h'
  rw [← hn (max n n') (Nat.le_max_left n n'), hn' (max n n') (Nat.le_max_right n n')]

/-! ## Values without loops -/

/-- Two depths give the same if both are enough for a walk that never meets a container again. -/
theorem unfoldTo_eq {room room' : Nat} {around : List Container} (hfits : graph.Fits room around value)
    (hfits' : graph.Fits room' around value) (hfree : graph.IsLoopFree value)
    (haround : ∀ c ∈ around, ∀ d, d.toValue = value → Relation.TransGen graph.Holds c d) :
    graph.unfoldTo room value = graph.unfoldTo room' value := by
  induction room generalizing room' around value with
  | zero => exact absurd hfits.pos (Nat.lt_irrefl 0)
  | succ room ih =>
    obtain ⟨less, rfl⟩ := Nat.exists_eq_add_one.2 hfits'.pos
    have hheld : ∀ c, c.toValue = value → ∀ part ∈ graph.held c,
        graph.unfoldTo room part = graph.unfoldTo less part := by
      rintro c rfl part hpart
      -- Everything around leads to `c`, which would otherwise lead to itself.
      have hc : c ∉ around := fun hin => hfree c (reaches_toValue graph c) (haround c hin c rfl)
      refine ih (hfits.held hc hpart) (hfits'.held hc hpart) (hfree.held hpart) ?_
      rintro d hd inner rfl
      rcases List.mem_cons.1 hd with rfl | hd
      · exact .single hpart
      · exact (haround d hd c rfl).tail hpart
    cases value with
    | scalar value => rfl
    | set id => rfl
    | list id =>
      rw [unfoldTo, unfoldTo]
      exact congrArg Tree.list (List.map_congr_left (hheld (.list id) rfl))
    | mapping id =>
      rw [unfoldTo, unfoldTo]
      refine congrArg Tree.mapping (List.map_congr_left fun entry hentry => ?_)
      rw [hheld (.mapping id) rfl entry.2 (List.mem_map_of_mem hentry)]
    | pair id =>
      have hparts := hheld (.pair id) rfl
      rw [unfoldTo, unfoldTo, hparts _ List.mem_cons_self,
        hparts _ (List.mem_cons_of_mem _ List.mem_cons_self)]

theorem unfoldTo_of_isLoopFree (h : graph.IsLoopFree value) {depth : Nat}
    (hdepth : graph.depthLimit ≤ depth) : graph.unfoldTo depth value = graph.unfold value :=
  unfoldTo_eq (fits_of_depthLimit_le hdepth [] value) (fits_of_depthLimit_le (Nat.le_refl _) [] value) h
    fun _ hc => absurd hc List.not_mem_nil

theorem unfolds_unfold (h : graph.IsLoopFree value) : graph.Unfolds value (graph.unfold value) :=
  ⟨graph.depthLimit, fun _ hdepth => unfoldTo_of_isLoopFree h hdepth⟩

/-! ## What a tree says of its value -/

theorem forall₂_of_map_eq {α β : Type} {f : Nat → α → β} {enough : Nat} {items : List α}
    {results : List β} (h : ∀ depth, enough ≤ depth → items.map (f depth) = results) :
    List.Forall₂ (fun item result => ∃ enough, ∀ depth, enough ≤ depth → f depth item = result)
      items results := by
  induction items generalizing results with
  | nil =>
    rw [← h enough (Nat.le_refl _)]
    exact .nil
  | cons item items ih =>
    cases results with
    | nil => cases h enough (Nat.le_refl _)
    | cons result results =>
      have hcons : ∀ depth, enough ≤ depth →
          f depth item = result ∧ items.map (f depth) = results := fun depth hdepth =>
        List.cons.inj (h depth hdepth)
      exact .cons ⟨enough, fun depth hdepth => (hcons depth hdepth).1⟩
        (ih fun depth hdepth => (hcons depth hdepth).2)

theorem Unfolds.scalar {scalar : Scalar} (h : graph.Unfolds value (.scalar scalar)) :
    value = .scalar scalar := by
  obtain ⟨n, hn⟩ := h
  have hvalue := hn (n + 1) (Nat.le_succ n)
  cases value <;> simp_all [unfoldTo]

theorem Unfolds.set {members : List Scalar} (h : graph.Unfolds value (.set members)) :
    ∃ id, value = .set id ∧ graph.members id = members := by
  obtain ⟨n, hn⟩ := h
  have hvalue := hn (n + 1) (Nat.le_succ n)
  cases value <;> simp_all [unfoldTo]

theorem Unfolds.of_list {id : Nat} {tree : Tree} (h : graph.Unfolds (.list id) tree) :
    ∃ trees, tree = .list trees := by
  obtain ⟨n, hn⟩ := h
  exact ⟨_, (hn (n + 1) (Nat.le_succ n)).symm⟩

theorem Unfolds.of_mapping {id : Nat} {tree : Tree} (h : graph.Unfolds (.mapping id) tree) :
    ∃ entries, tree = .mapping entries := by
  obtain ⟨n, hn⟩ := h
  exact ⟨_, (hn (n + 1) (Nat.le_succ n)).symm⟩

theorem Unfolds.list {trees : List Tree} (h : graph.Unfolds value (.list trees)) :
    ∃ id, value = .list id ∧ List.Forall₂ graph.Unfolds (graph.items id) trees := by
  obtain ⟨n, hn⟩ := h
  cases value with
  | list id =>
    refine ⟨id, rfl, forall₂_of_map_eq (f := graph.unfoldTo) fun depth (hdepth : n ≤ depth) => ?_⟩
    exact Tree.list.inj (hn (depth + 1) (Nat.le_succ_of_le hdepth))
  | _ => cases hn (n + 1) (Nat.le_succ n)

theorem Unfolds.mapping {entries : List (Scalar × Tree)}
    (h : graph.Unfolds value (.mapping entries)) :
    ∃ id, value = .mapping id ∧ List.Forall₂ (fun entry tree => entry.1 = tree.1 ∧
      graph.Unfolds entry.2 tree.2) (graph.entries id) entries := by
  obtain ⟨n, hn⟩ := h
  cases value with
  | mapping id =>
    have hentries := forall₂_of_map_eq
      (f := fun depth (entry : Scalar × Value) => (entry.1, graph.unfoldTo depth entry.2))
      fun depth hdepth => Tree.mapping.inj (hn (depth + 1) (Nat.le_succ_of_le hdepth))
    refine ⟨id, rfl, hentries.imp ?_⟩
    rintro ⟨key, part⟩ ⟨key', tree⟩ ⟨m, hm⟩
    exact ⟨(Prod.mk.inj (hm m (Nat.le_refl m))).1, m, fun depth hdepth =>
      (Prod.mk.inj (hm depth hdepth)).2⟩
  | _ => cases hn (n + 1) (Nat.le_succ n)

theorem Unfolds.pair {first second : Tree} (h : graph.Unfolds value (.pair first second)) :
    ∃ id, value = .pair id ∧ graph.Unfolds (graph.parts id).1 first ∧
      graph.Unfolds (graph.parts id).2 second := by
  obtain ⟨n, hn⟩ := h
  cases value with
  | pair id =>
    have hparts : ∀ depth, n ≤ depth → graph.unfoldTo depth (graph.parts id).1 = first ∧
        graph.unfoldTo depth (graph.parts id).2 = second := fun depth hdepth =>
      Tree.pair.inj (hn (depth + 1) (Nat.le_succ_of_le hdepth))
    exact ⟨id, rfl, ⟨n, fun depth hdepth => (hparts depth hdepth).1⟩,
      n, fun depth hdepth => (hparts depth hdepth).2⟩
  | _ => cases hn (n + 1) (Nat.le_succ n)

end

/-! ## Values with the same tree -/

theorem forall₂_join {α β γ : Type} {r : α → γ → Prop} {s : β → γ → Prop} {items : List α}
    {others : List β} {trees : List γ} (h : List.Forall₂ r items trees)
    (h' : List.Forall₂ s others trees) :
    List.Forall₂ (fun item other => ∃ tree ∈ trees, r item tree ∧ s other tree) items others := by
  induction h generalizing others with
  | nil =>
    cases h'
    exact .nil
  | @cons item tree items trees hitem _ ih =>
    cases h' with
    | cons hother hothers =>
      refine .cons ⟨tree, List.mem_cons_self, hitem, hother⟩ ((ih hothers).imp ?_)
      rintro item other ⟨tree, htree, hpair⟩
      exact ⟨tree, List.mem_cons_of_mem _ htree, hpair⟩

/-- The containers around a value have larger trees than it has, so that it is none of them. -/
def Outside (graph : Graph) (tree : Tree) (around : List Container) : Prop :=
  ∀ c ∈ around, ∃ whole, graph.Unfolds c.toValue whole ∧ sizeOf tree < sizeOf whole

/-- Two values have the same tree, and neither is one of the containers around it. -/
def HaveTree (graph other : Graph) (around around' : List Container) (value value' : Value) : Prop :=
  ∃ tree, graph.Unfolds value tree ∧ other.Unfolds value' tree ∧ graph.Outside tree around ∧
    other.Outside tree around'

section

variable {graph other : Graph} {tree part : Tree} {around around' : List Container} {c c' : Container}

theorem outside_nil (graph : Graph) (tree : Tree) : graph.Outside tree [] :=
  fun _ hc => absurd hc List.not_mem_nil

theorem Outside.notMem (h : graph.Outside tree around) (hc : graph.Unfolds c.toValue tree) :
    c ∉ around := by
  intro hin
  obtain ⟨whole, hwhole, hlt⟩ := h c hin
  rw [hc.unique hwhole] at hlt
  exact Nat.lt_irrefl _ hlt

theorem Outside.cons (h : graph.Outside tree around) (hc : graph.Unfolds c.toValue tree)
    (hpart : sizeOf part < sizeOf tree) : graph.Outside part (c :: around) := by
  intro d hd
  rcases List.mem_cons.1 hd with rfl | hd
  · exact ⟨tree, hc, hpart⟩
  · obtain ⟨whole, hwhole, hlt⟩ := h d hd
    exact ⟨whole, hwhole, Nat.lt_trans hpart hlt⟩

theorem HaveTree.held (c c' : Container) (hc : graph.Unfolds c.toValue tree)
    (hc' : other.Unfolds c'.toValue tree) (hout : graph.Outside tree around) (hout' : other.Outside tree around')
    {value value' : Value} (hpart : sizeOf part < sizeOf tree) (h : graph.Unfolds value part)
    (h' : other.Unfolds value' part) :
    HaveTree graph other (c :: around) (c' :: around') value value' :=
  ⟨part, h, h', hout.cons hc hpart, hout'.cons hc' hpart⟩

theorem HaveTree.alone {value value' : Value} (h : HaveTree graph other around around' value value') :
    HaveTree graph other [] [] value value' := by
  obtain ⟨tree, hvalue, hvalue', -, -⟩ := h
  exact ⟨tree, hvalue, hvalue', outside_nil graph tree, outside_nil other tree⟩

theorem sizeOf_lt_list {trees : List Tree} (h : part ∈ trees) :
    sizeOf part < sizeOf (Tree.list trees) := by
  have hlt := List.sizeOf_lt_of_mem h
  simp only [Tree.list.sizeOf_spec]
  omega

theorem sizeOf_lt_mapping {entries : List (Scalar × Tree)} {entry : Scalar × Tree}
    (h : entry ∈ entries) : sizeOf entry.2 < sizeOf (Tree.mapping entries) := by
  have hlt := List.sizeOf_lt_of_mem h
  obtain ⟨key, tree⟩ := entry
  simp only [Tree.mapping.sizeOf_spec, Prod.mk.sizeOf_spec] at hlt ⊢
  omega

theorem HaveTree.alike {value value' : Value} (h : HaveTree graph other around around' value value') :
    Alike graph other (HaveTree graph other) around around' value value' := by
  obtain ⟨tree, hvalue, hvalue', hout, hout'⟩ := h
  have hnone : ∀ c c' : Container, graph.Unfolds c.toValue tree → other.Unfolds c'.toValue tree →
      (c ∈ around ↔ c' ∈ around') := fun c c' hc hc' =>
    iff_of_false (hout.notMem hc) (hout'.notMem hc')
  cases tree with
  | scalar scalar =>
    rw [hvalue.scalar, hvalue'.scalar]
    exact .scalar scalar
  | set members =>
    obtain ⟨id, rfl, hid⟩ := hvalue.set
    obtain ⟨id', rfl, hid'⟩ := hvalue'.set
    exact .set (hid.trans hid'.symm)
  | list trees =>
    obtain ⟨id, rfl, hitems⟩ := hvalue.list
    obtain ⟨id', rfl, hitems'⟩ := hvalue'.list
    refine .list (hnone (.list id) (.list id') hvalue hvalue') fun _ => ?_
    refine (forall₂_join hitems hitems').imp ?_
    rintro item item' ⟨part, hpart, hitem, hitem'⟩
    exact .held (.list id) (.list id') hvalue hvalue' hout hout' (sizeOf_lt_list hpart) hitem
      hitem'
  | mapping entries =>
    obtain ⟨id, rfl, hentries⟩ := hvalue.mapping
    obtain ⟨id', rfl, hentries'⟩ := hvalue'.mapping
    refine .mapping (hnone (.mapping id) (.mapping id') hvalue hvalue') fun _ => ?_
    refine (forall₂_join hentries hentries').imp ?_
    rintro entry entry' ⟨part, hpart, ⟨hkey, hentry⟩, hkey', hentry'⟩
    exact ⟨hkey.trans hkey'.symm, .held (.mapping id) (.mapping id') hvalue hvalue' hout hout'
      (sizeOf_lt_mapping hpart) hentry hentry'⟩
  | pair first second =>
    obtain ⟨id, rfl, hfirst, hsecond⟩ := hvalue.pair
    obtain ⟨id', rfl, hfirst', hsecond'⟩ := hvalue'.pair
    refine .pair (hnone (.pair id) (.pair id') hvalue hvalue') fun _ => ⟨?_, ?_⟩
    · refine .held (.pair id) (.pair id') hvalue hvalue' hout hout' ?_ hfirst hfirst'
      simp only [Tree.pair.sizeOf_spec]
      omega
    · refine .held (.pair id) (.pair id') hvalue hvalue' hout hout' ?_ hsecond hsecond'
      simp only [Tree.pair.sizeOf_spec]
      omega

theorem isLikeness_haveTree (graph other : Graph) :
    IsLikeness .exact graph other fun room room' around around' value value' =>
      room = room' ∧ HaveTree graph other around around' value value' where
  zero h := .inr ⟨rfl, h.1.symm⟩
  succ := by
    rintro room _ around around' value value' ⟨rfl, h⟩
    refine ⟨room, rfl, ?_⟩
    exact h.alike.mono fun _ _ _ _ hinner => ⟨rfl, hinner⟩
  items := by
    rintro room _ id id' ⟨rfl, h⟩
    cases h.alike with
    | list _ hitems => exact (hitems List.not_mem_nil).imp fun _ _ hitem => ⟨rfl, hitem.alone⟩

end

end ApiBindings.Graph

import Mathlib.Data.List.Forall2
import ApiBindings.Limit

/-!
# Results that follow one another

Two computations with the same steps, in graphs that are alike or with different room, end alike: where
the first has a value, the second has the corresponding one. What may differ is what becomes of too
little room, and a tolerance says how. All three tolerances go through whatever is put together from
such steps, so that one walk over a function compares its results in all three ways.
-/

namespace ApiBindings.Limited

/-- What an exceeded depth on one side says of the other side. -/
inductive Tolerance where
  /-- The depth is exceeded there too. -/
  | exact
  /-- Nothing: there may be more room there. -/
  | deeper
  /-- It does not happen. -/
  | bounded
  deriving DecidableEq

/-- The second result corresponds to the first one, whose values become those of `h`. -/
def Follows {α β : Type} (tolerance : Tolerance) (h : α → β) : Limited α → Limited β → Prop
  | .ok value, other => other = .ok (h value)
  | .error .digits, other => other = .error .digits
  | .error .depth, other =>
    match tolerance with
    | .exact => other = .error .depth
    | .deeper => True
    | .bounded => False

section

variable {α β γ δ ι κ : Type} {tolerance : Tolerance} {h : α → β}

theorem follows_exact_iff {x : Limited α} {y : Limited β} :
    Follows .exact h x y ↔ y = x.map h := by
  rcases x with (_ | _) | value <;> rfl

theorem follows_deeper_iff {x y : Limited α} :
    Follows .deeper id x y ↔ x = .error .depth ∨ x = y := by
  rcases x with (_ | _) | value
  · simp [Follows, eq_comm]
  · simp [Follows]
  · simp [Follows, eq_comm]

theorem Follows.ne_depth {x : Limited α} {y : Limited β} (hxy : Follows .bounded h x y) :
    x ≠ .error .depth := by
  rintro rfl
  exact hxy

/-- A scalar has the same text on both sides. -/
theorem Follows.self {x : Limited α} (hx : x ≠ .error .depth) : Follows tolerance id x x := by
  rcases x with (_ | _) | value
  · rfl
  · exact absurd rfl hx
  · rfl

theorem Follows.bind {x : Limited α} {y : Limited β} (hxy : Follows tolerance h x y) {k : γ → δ}
    {f : α → Limited γ} {g : β → Limited δ}
    (hfg : ∀ value, Follows tolerance k (f value) (g (h value))) :
    Follows tolerance k (x >>= f) (y >>= g) := by
  rcases x with (_ | _) | value
  · rw [show y = .error .digits from hxy]
    rfl
  · cases tolerance with
    | exact =>
      rw [show y = .error .depth from hxy]
      rfl
    | deeper => trivial
    | bounded => exact hxy.elim
  · rw [show y = .ok (h value) from hxy]
    exact hfg value

theorem Follows.map {x : Limited α} {y : Limited β} (hxy : Follows tolerance h x y) {k : γ → δ}
    {f : α → γ} {g : β → δ} (hfg : ∀ value, g (h value) = k (f value)) :
    Follows tolerance k (do return f (← x)) (do return g (← y)) :=
  hxy.bind fun value => congrArg Except.ok (hfg value)

theorem Follows.mapM {f : ι → Limited α} {g : κ → Limited β} {items : List ι} {others : List κ}
    (hitems : List.Forall₂ (fun item other => Follows tolerance h (f item) (g other)) items others) :
    Follows tolerance (List.map h) (items.mapM f) (others.mapM g) := by
  induction hitems with
  | nil => rfl
  | cons hitem _ ih =>
    rw [List.mapM_cons, List.mapM_cons]
    exact hitem.bind fun value => ih.map fun values => rfl

end

/-! ## Results that are there -/

section

variable {ε α β : Type}

theorem exists_of_bind_eq_ok {x : Except ε α} {f : α → Except ε β} {result : β}
    (h : x >>= f = .ok result) : ∃ value, x = .ok value ∧ f value = .ok result := by
  cases x with
  | error failure => cases h
  | ok value => exact ⟨value, rfl, h⟩

theorem forall₂_of_mapM_eq_ok {f : α → Except ε β} {items : List α} {results : List β}
    (h : items.mapM f = .ok results) :
    List.Forall₂ (fun item result => f item = .ok result) items results := by
  induction items generalizing results with
  | nil =>
    cases h
    exact .nil
  | cons item items ih =>
    rw [List.mapM_cons] at h
    obtain ⟨result, hresult, hrest⟩ := exists_of_bind_eq_ok h
    obtain ⟨more, hmore, hresults⟩ := exists_of_bind_eq_ok hrest
    cases hresults
    exact .cons hresult (ih hmore)

theorem exists_of_forall₂ {r : α → β → Prop} {items : List α} {others : List β}
    (h : List.Forall₂ r items others) {item : α} (hitem : item ∈ items) :
    ∃ other ∈ others, r item other := by
  induction h with
  | nil => cases hitem
  | @cons first other _ _ hfirst _ ih =>
    rcases List.mem_cons.1 hitem with rfl | hitem
    · exact ⟨other, List.mem_cons_self, hfirst⟩
    · obtain ⟨other, hother, hpair⟩ := ih hitem
      exact ⟨other, List.mem_cons_of_mem _ hother, hpair⟩

theorem mapM_eq_ok_iff {f : α → Except ε β} {items : List α} {results : List β} :
    items.mapM f = .ok results ↔
      List.Forall₂ (fun item result => f item = .ok result) items results := by
  refine ⟨forall₂_of_mapM_eq_ok, fun h => ?_⟩
  induction h with
  | nil => rfl
  | cons hitem _ ih =>
    rw [List.mapM_cons, hitem, ih]
    rfl

theorem exists_mapM_eq_ok_iff {f : α → Except ε β} {items : List α} :
    (∃ results, items.mapM f = .ok results) ↔ ∀ item ∈ items, ∃ result, f item = .ok result := by
  induction items with
  | nil => simp [pure, Except.pure]
  | cons item items ih =>
    rw [List.forall_mem_cons, ← ih]
    constructor
    · rintro ⟨results, hresults⟩
      rw [List.mapM_cons] at hresults
      obtain ⟨result, hresult, hrest⟩ := exists_of_bind_eq_ok hresults
      obtain ⟨more, hmore, -⟩ := exists_of_bind_eq_ok hrest
      exact ⟨⟨result, hresult⟩, more, hmore⟩
    · rintro ⟨⟨result, hresult⟩, more, hmore⟩
      refine ⟨result :: more, ?_⟩
      rw [List.mapM_cons, hresult, hmore]
      rfl

/-- The results are those of a function without failures. -/
theorem exists_map_of_mapM_eq_ok [Inhabited β] {f : α → Except ε β} {items : List α}
    {results : List β} (h : items.mapM f = .ok results) :
    ∃ g, results = items.map g ∧ ∀ item ∈ items, f item = .ok (g item) := by
  let g (item : α) : β := (f item).toOption.getD default
  have hg : ∀ {item result}, f item = .ok result → result = g item := fun hitem => by
    simp only [g, hitem, Except.toOption, Option.getD_some]
  refine ⟨g, ?_, fun item hitem => ?_⟩
  · induction forall₂_of_mapM_eq_ok h with
    | nil => rfl
    | cons hitem _ ih => rw [List.map_cons, ← hg hitem, ← ih (mapM_eq_ok_iff.2 ‹_›)]
  · obtain ⟨result, hresult⟩ := exists_mapM_eq_ok_iff.1 ⟨results, h⟩ item hitem
    rw [hresult, hg hresult]

theorem exists_of_mapM_eq_error {f : α → Except ε β} {items : List α} {failure : ε}
    (h : items.mapM f = .error failure) : ∃ item ∈ items, f item = .error failure := by
  induction items with
  | nil => cases h
  | cons item items ih =>
    rw [List.mapM_cons] at h
    cases hitem : f item with
    | error other =>
      rw [hitem] at h
      cases h
      exact ⟨item, List.mem_cons_self, hitem⟩
    | ok result =>
      cases hrest : items.mapM f with
      | error other =>
        rw [hitem, hrest] at h
        cases h
        obtain ⟨next, hnext, hfailure⟩ := ih hrest
        exact ⟨next, List.mem_cons_of_mem _ hnext, hfailure⟩
      | ok results =>
        rw [hitem, hrest] at h
        cases h

end

end ApiBindings.Limited

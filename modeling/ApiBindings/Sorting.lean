/-!
# Sorting

Sorting a list by insertion: what is equal in the order keeps its place. Main statements: sorting keeps
the members, what a total order sorts stands in that order, and leaving members out before sorting or
after it comes to the same.
-/

namespace ApiBindings.Sorting

variable {α : Type}

/-- Puts a value in front of the first member that it precedes. -/
def insert (precedes : α → α → Bool) (a : α) : List α → List α
  | [] => [a]
  | b :: rest => if precedes a b then a :: b :: rest else b :: insert precedes a rest

/-- A list in an order. -/
def sorted (precedes : α → α → Bool) : List α → List α
  | [] => []
  | a :: rest => insert precedes a (sorted precedes rest)

theorem insert_perm (precedes : α → α → Bool) (a : α) (list : List α) :
    (insert precedes a list).Perm (a :: list) := by
  induction list with
  | nil => exact .refl _
  | cons b rest ih =>
    unfold insert
    split
    · exact .refl _
    · exact (ih.cons b).trans (.swap a b rest)

theorem sorted_perm (precedes : α → α → Bool) (list : List α) :
    (sorted precedes list).Perm list := by
  induction list with
  | nil => exact .refl _
  | cons a rest ih => exact (insert_perm precedes a _).trans (ih.cons a)

theorem mem_sorted {precedes : α → α → Bool} {list : List α} {a : α} :
    a ∈ sorted precedes list ↔ a ∈ list :=
  (sorted_perm precedes list).mem_iff

/-- A relation in which any two values stand one way or the other, and which can be chained. -/
structure IsOrder (precedes : α → α → Bool) : Prop where
  total : ∀ a b, precedes a b = true ∨ precedes b a = true
  trans : ∀ a b c, precedes a b = true → precedes b c = true → precedes a c = true

/-- Values ordered by what they are taken to. -/
theorem IsOrder.comap {β : Type} {precedes : α → α → Bool} (order : IsOrder precedes) (f : β → α) :
    IsOrder fun a b => precedes (f a) (f b) where
  total a b := order.total (f a) (f b)
  trans a b c := order.trans (f a) (f b) (f c)

theorem pairwise_insert {precedes : α → α → Bool} (order : IsOrder precedes) (a : α) {list : List α}
    (h : list.Pairwise fun a b => precedes a b = true) :
    (insert precedes a list).Pairwise fun a b => precedes a b = true := by
  induction list with
  | nil => exact .cons (by simp) .nil
  | cons b rest ih =>
    obtain ⟨hb, hrest⟩ := List.pairwise_cons.1 h
    unfold insert
    split
    · next hab =>
      refine .cons (fun c hc => ?_) h
      rcases List.mem_cons.1 hc with rfl | hc
      · exact hab
      · exact order.trans a b c hab (hb c hc)
    · next hab =>
      refine .cons (fun c hc => ?_) (ih hrest)
      rcases List.mem_cons.1 ((insert_perm precedes a rest).mem_iff.1 hc) with rfl | hc
      · exact (order.total c b).resolve_left hab
      · exact hb c hc

theorem pairwise_sorted {precedes : α → α → Bool} (order : IsOrder precedes) (list : List α) :
    (sorted precedes list).Pairwise fun a b => precedes a b = true := by
  induction list with
  | nil => exact .nil
  | cons a rest ih => exact pairwise_insert order a ih

/-! ## Leaving members out -/

theorem insert_of_forall {precedes : α → α → Bool} {a : α} {list : List α}
    (h : ∀ b ∈ list, precedes a b = true) : insert precedes a list = a :: list := by
  cases list with
  | nil => rfl
  | cons b rest => rw [insert, if_pos (h b List.mem_cons_self)]

theorem filter_insert {precedes : α → α → Bool} (order : IsOrder precedes) (p : α → Bool) (a : α)
    {list : List α} (h : list.Pairwise fun a b => precedes a b = true) :
    (insert precedes a list).filter p =
      if p a then insert precedes a (list.filter p) else list.filter p := by
  induction list with
  | nil =>
    rw [insert, List.filter_cons, List.filter_nil]
    rfl
  | cons b rest ih =>
    obtain ⟨hb, hrest⟩ := List.pairwise_cons.1 h
    have hstep : insert precedes a (b :: rest) =
        if precedes a b then a :: b :: rest else b :: insert precedes a rest := rfl
    by_cases hab : precedes a b = true
    · -- What is left of the list still follows `a`.
      have hfollows : ∀ c ∈ (b :: rest).filter p, precedes a c = true := by
        intro c hc
        rcases List.mem_cons.1 (List.mem_filter.1 hc).1 with rfl | hc
        · exact hab
        · exact order.trans a b c hab (hb c hc)
      rw [hstep, if_pos hab, insert_of_forall hfollows, List.filter_cons]
    · rw [hstep, if_neg hab, List.filter_cons, List.filter_cons, ih hrest]
      by_cases hpb : p b = true
      · simp only [if_pos hpb, insert, if_neg hab]
        split <;> rfl
      · simp only [if_neg hpb]

theorem filter_sorted {precedes : α → α → Bool} (order : IsOrder precedes) (p : α → Bool)
    (list : List α) : (sorted precedes list).filter p = sorted precedes (list.filter p) := by
  induction list with
  | nil => rfl
  | cons a rest ih =>
    rw [sorted, filter_insert order p a (pairwise_sorted order rest), List.filter_cons, ih]
    split <;> rfl

/-! ## Lists in an order -/

/-- Lists ordered member by member: the first members that do not stand both ways decide, and a list
precedes what it begins. -/
def lexicographic (precedes : α → α → Bool) : List α → List α → Bool
  | [], _ => true
  | _ :: _, [] => false
  | a :: as, b :: bs => precedes a b && (!precedes b a || lexicographic precedes as bs)

theorem IsOrder.lexicographic {precedes : α → α → Bool} (order : IsOrder precedes) :
    IsOrder (lexicographic precedes) where
  total as bs := by
    induction as generalizing bs with
    | nil => exact .inl rfl
    | cons a as ih =>
      cases bs with
      | nil => exact .inr rfl
      | cons b bs =>
        simp only [Sorting.lexicographic, Bool.and_eq_true, Bool.or_eq_true, Bool.not_eq_true']
        cases hab : precedes a b <;> cases hba : precedes b a <;> simp
        · exact absurd (order.total a b) (by simp [hab, hba])
        · exact ih bs
  trans as bs cs := by
    induction as generalizing bs cs with
    | nil => exact fun _ _ => rfl
    | cons a as ih =>
      cases bs with
      | nil => simp [Sorting.lexicographic]
      | cons b bs =>
        cases cs with
        | nil => simp [Sorting.lexicographic]
        | cons c cs =>
          simp only [Sorting.lexicographic, Bool.and_eq_true, Bool.or_eq_true, Bool.not_eq_true']
          rintro ⟨hab, hfirst⟩ ⟨hbc, hsecond⟩
          refine ⟨order.trans a b c hab hbc, ?_⟩
          cases hca : precedes c a with
          | false => exact .inl rfl
          | true =>
            -- All three stand both ways, so the rest decides each time.
            have hba := order.trans b c a hbc hca
            have hcb := order.trans c a b hca hab
            rw [hba] at hfirst
            rw [hcb] at hsecond
            exact .inr (ih bs cs (hfirst.resolve_left (by simp)) (hsecond.resolve_left (by simp)))

end ApiBindings.Sorting

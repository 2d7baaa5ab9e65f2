import ApiBindings.Proofs.Value.Container
import ApiBindings.Proofs.Value.Limited

/-!
# Values that are shown alike

Values of two graphs are alike if they hold the same, each part alike again. What a message shows is
then the same. The relation speaks of the room and of the containers around a value, since these
decide where the showing stops.
-/

namespace ApiBindings

/-- The entries of two mappings have the same keys, and `field` relates the values of each key. -/
def Entries.Alike (field : Scalar → Value → Value → Prop) : Entries Value → Entries Value → Prop :=
  List.Forall₂ fun entry entry' => entry.1 = entry'.1 ∧ field entry.1 entry.2 entry'.2

theorem Entries.Alike.field? {field : Scalar → Value → Value → Prop} {entries entries' : Entries Value}
    (h : Entries.Alike field entries entries') (name : String) :
    Option.Rel (field (.text name)) (entries.field? name) (entries'.field? name) := by
  unfold Entries.field?
  induction h with
  | nil => exact .none
  | @cons entry entry' rest rest' hentry _ ih =>
    obtain ⟨key, value⟩ := entry
    obtain ⟨key', value'⟩ := entry'
    obtain ⟨rfl, hvalue⟩ := hentry
    rw [Entries.get?, Entries.get?]
    split
    · rename_i hkey
      rw [Scalar.key_eq_key_text_iff.1 hkey] at hvalue
      exact .some hvalue
    · exact ih

theorem cases_of_rel {α β : Type} {r : α → β → Prop} {x : Option α} {y : Option β}
    (h : Option.Rel r x y) : (x = none ∧ y = none) ∨ ∃ a b, x = some a ∧ y = some b ∧ r a b := by
  cases h with
  | none => exact .inl ⟨rfl, rfl⟩
  | some hab => exact .inr ⟨_, _, rfl, rfl, hab⟩

theorem none_of_rel {α β : Type} {r : α → β → Prop} {y : Option β} (h : Option.Rel r none y) :
    y = none := by
  cases h
  rfl

namespace Graph

open Limited (Tolerance Follows)

/-- Two values are alike as far as they themselves go; `inner` relates what they hold, inside
containers of which they are the innermost. -/
inductive Alike (graph other : Graph)
    (inner : List Container → List Container → Value → Value → Prop)
    (around around' : List Container) : Value → Value → Prop where
  | scalar (value : Scalar) : Alike graph other inner around around' (.scalar value) (.scalar value)
  | set {id id' : Nat} : graph.members id = other.members id' →
      Alike graph other inner around around' (.set id) (.set id')
  | list {id id' : Nat} : (.list id ∈ around ↔ .list id' ∈ around') →
      (.list id ∉ around → List.Forall₂ (inner (.list id :: around) (.list id' :: around'))
        (graph.items id) (other.items id')) →
      Alike graph other inner around around' (.list id) (.list id')
  | mapping {id id' : Nat} : (.mapping id ∈ around ↔ .mapping id' ∈ around') →
      (.mapping id ∉ around → Entries.Alike
        (fun _ => inner (.mapping id :: around) (.mapping id' :: around'))
        (graph.entries id) (other.entries id')) →
      Alike graph other inner around around' (.mapping id) (.mapping id')
  | pair {id id' : Nat} : (.pair id ∈ around ↔ .pair id' ∈ around') →
      (.pair id ∉ around →
        inner (.pair id :: around) (.pair id' :: around') (graph.parts id).1 (other.parts id').1 ∧
        inner (.pair id :: around) (.pair id' :: around') (graph.parts id).2 (other.parts id').2) →
      Alike graph other inner around around' (.pair id) (.pair id')

/-- A relation of values, with the room for each and the containers around each, that is kept when
one shows them: while there is room on the first side, the values are alike, with one unit less for
what they hold. The items of a list can also be shown on their own. -/
structure IsLikeness (tolerance : Tolerance) (graph other : Graph)
    (rel : Nat → Nat → List Container → List Container → Value → Value → Prop) : Prop where
  zero : ∀ {room around around' value value'}, rel 0 room around around' value value' →
    tolerance = .deeper ∨ (tolerance = .exact ∧ room = 0)
  succ : ∀ {room room' around around' value value'},
    rel (room + 1) room' around around' value value' →
      ∃ less, room' = less + 1 ∧ Alike graph other (rel room less) around around' value value'
  items : ∀ {room room' id id'}, rel room room' [] [] (.list id) (.list id') →
    List.Forall₂ (rel room room' [] []) (graph.items id) (other.items id')

theorem checkedShown_ne_depth (value : Scalar) : value.checkedShown ≠ .error .depth := by
  unfold Scalar.checkedShown
  split <;> simp

section

variable {tolerance : Tolerance} {graph other : Graph}
  {rel : Nat → Nat → List Container → List Container → Value → Value → Prop}

theorem IsLikeness.shownWithin (hrel : IsLikeness tolerance graph other rel) {room room' : Nat}
    {around around' : List Container} {value value' : Value}
    (h : rel room room' around around' value value') :
    Follows tolerance id (graph.shownWithin room around value)
      (other.shownWithin room' around' value') := by
  induction room generalizing room' around around' value value' with
  | zero =>
    rcases hrel.zero h with rfl | ⟨rfl, rfl⟩
    · trivial
    · rfl
  | succ room ih =>
    obtain ⟨less, rfl, halike⟩ := hrel.succ h
    cases halike with
    | scalar value => exact .self (checkedShown_ne_depth value)
    | @set i j hmembers =>
      rw [Graph.shownWithin, Graph.shownWithin, ← hmembers]
      cases graph.members i with
      | nil => rfl
      | cons first more =>
        have hshown : Follows tolerance (List.map id)
            ((shownOrder (first :: more)).mapM Scalar.checkedShown)
            ((shownOrder (first :: more)).mapM Scalar.checkedShown) :=
          .mapM (List.forall₂_same.2 fun member _ => .self (checkedShown_ne_depth member))
        exact hshown.map fun shown => by rw [List.map_id]; rfl
    | @list i j haround hitems =>
      rw [Graph.shownWithin, Graph.shownWithin]
      by_cases hin : Container.list i ∈ around
      · rw [if_pos hin, if_pos (haround.1 hin)]
        rfl
      · rw [if_neg hin, if_neg (mt haround.2 hin)]
        have hshown := Follows.mapM ((hitems hin).imp fun _ _ hitem => ih hitem)
        exact hshown.map fun shown => by rw [List.map_id]; rfl
    | @mapping i j haround hentries =>
      rw [Graph.shownWithin, Graph.shownWithin]
      by_cases hin : Container.mapping i ∈ around
      · rw [if_pos hin, if_pos (haround.1 hin)]
        rfl
      · rw [if_neg hin, if_neg (mt haround.2 hin)]
        have hshown := Follows.mapM ((hentries hin).imp
          fun entry entry' hentry => show Follows tolerance id (do
              let key ← entry.1.checkedShown
              return key ++ ": " ++ (← graph.shownWithin room (.mapping i :: around) entry.2))
            (do
              let key ← entry'.1.checkedShown
              return key ++ ": " ++ (← other.shownWithin less (.mapping j :: around') entry'.2))
          by
            rw [← hentry.1]
            exact (Follows.self (checkedShown_ne_depth entry.1)).bind fun key =>
              (ih hentry.2).map fun shown => rfl)
        exact hshown.map fun shown => by rw [List.map_id]; rfl
    | @pair i j haround hparts =>
      rw [Graph.shownWithin, Graph.shownWithin]
      by_cases hin : Container.pair i ∈ around
      · rw [if_pos hin, if_pos (haround.1 hin)]
        rfl
      · rw [if_neg hin, if_neg (mt haround.2 hin)]
        exact (ih (hparts hin).1).bind fun first => (ih (hparts hin).2).map fun second => rfl

theorem Alike.mono {inner inner' : List Container → List Container → Value → Value → Prop}
    (hinner : ∀ around around' value value', inner around around' value value' →
      inner' around around' value value') {around around' : List Container} {value value' : Value}
    (h : Alike graph other inner around around' value value') :
    Alike graph other inner' around around' value value' := by
  cases h with
  | scalar value => exact .scalar value
  | set hmembers => exact .set hmembers
  | list haround hitems => exact .list haround fun hc => (hitems hc).imp fun _ _ => hinner _ _ _ _
  | mapping haround hentries =>
    exact .mapping haround fun hc => (hentries hc).imp fun _ _ hentry =>
      ⟨hentry.1, hinner _ _ _ _ hentry.2⟩
  | pair haround hparts =>
    exact .pair haround fun hc => ⟨hinner _ _ _ _ (hparts hc).1, hinner _ _ _ _ (hparts hc).2⟩

theorem Alike.text?_eq {inner : List Container → List Container → Value → Value → Prop}
    {around around' : List Container} {value value' : Value}
    (h : Alike graph other inner around around' value value') : value.text? = value'.text? := by
  cases h <;> rfl

theorem Alike.null_iff {inner : List Container → List Container → Value → Value → Prop}
    {around around' : List Container} {value value' : Value}
    (h : Alike graph other inner around around' value value') :
    value = .scalar .null ↔ value' = .scalar .null := by
  cases h <;> simp

theorem isEmpty_of_forall₂ {α β : Type} {r : α → β → Prop} {items : List α} {others : List β}
    (h : List.Forall₂ r items others) : items.isEmpty = others.isEmpty := by
  cases h <;> rfl

theorem Alike.isTruthy_eq {inner : List Container → List Container → Value → Value → Prop}
    {value value' : Value} (h : Alike graph other inner [] [] value value') :
    graph.isTruthy value = other.isTruthy value' := by
  cases h with
  | scalar value => rfl
  | set hmembers => rw [isTruthy, isTruthy, hmembers]
  | list _ hitems => rw [isTruthy, isTruthy, isEmpty_of_forall₂ (hitems List.not_mem_nil)]
  | mapping _ hentries => rw [isTruthy, isTruthy, isEmpty_of_forall₂ (hentries List.not_mem_nil)]
  | pair => rfl

theorem IsLikeness.alike (hrel : IsLikeness tolerance graph other rel) {room room' : Nat}
    {around around' : List Container} {value value' : Value} (hroom : 0 < room)
    (h : rel room room' around around' value value') :
    ∃ inner, Alike graph other inner around around' value value' := by
  obtain ⟨room, rfl⟩ := Nat.exists_eq_add_one.2 hroom
  obtain ⟨less, -, halike⟩ := hrel.succ h
  exact ⟨_, halike⟩

theorem IsLikeness.items? (hrel : IsLikeness tolerance graph other rel) {room room' : Nat}
    {value value' : Value} (hroom : 0 < room) (h : rel room room' [] [] value value') :
    Option.Rel (List.Forall₂ (rel room room' [] [])) (graph.items? value) (other.items? value') := by
  obtain ⟨inner, halike⟩ := hrel.alike hroom h
  cases halike with
  | list => exact .some (hrel.items h)
  | scalar => exact .none
  | set => exact .none
  | mapping => exact .none
  | pair => exact .none

end

/-! ## The same value

A value is alike to itself, also in another graph that holds the same wherever the value leads. -/

/-- What both graphs hold alike: values that lead to such values only. -/
structure Keeps (graph other : Graph) (kept : Value → Prop) : Prop where
  held : ∀ {c value}, kept c.toValue → value ∈ graph.held c → kept value
  list : ∀ {id}, kept (.list id) → other.items id = graph.items id
  mapping : ∀ {id}, kept (.mapping id) → other.entries id = graph.entries id
  set : ∀ {id}, kept (.set id) → other.members id = graph.members id
  pair : ∀ {id}, kept (.pair id) → other.parts id = graph.parts id

theorem Keeps.refl (graph : Graph) : Keeps graph graph fun _ => True :=
  ⟨fun _ _ => trivial, fun _ => rfl, fun _ => rfl, fun _ => rfl, fun _ => rfl⟩

/-- How much room there is on both sides for a value inside some containers, in keeping with what a
tolerance allows. -/
structure IsRoom (tolerance : Tolerance) (graph : Graph)
    (rooms : Nat → Nat → List Container → Value → Prop) : Prop where
  zero : ∀ {room around value}, rooms 0 room around value →
    tolerance = .deeper ∨ (tolerance = .exact ∧ room = 0)
  succ : ∀ {room room' around value}, rooms (room + 1) room' around value →
    ∃ less, room' = less + 1 ∧ ∀ c, value = c.toValue → c ∉ around →
      ∀ part ∈ graph.held c, rooms room less (c :: around) part
  items : ∀ {room room' id}, rooms room room' [] (.list id) →
    ∀ item ∈ graph.items id, rooms room room' [] item

theorem isRoom_exact (graph : Graph) : IsRoom .exact graph fun room room' _ _ => room = room' where
  zero h := .inr ⟨rfl, h.symm⟩
  succ := by
    rintro room _ around value rfl
    exact ⟨room, rfl, fun _ _ _ _ _ => rfl⟩
  items h _ _ := h

theorem isRoom_deeper (graph : Graph) : IsRoom .deeper graph fun room room' _ _ => room ≤ room' where
  zero _ := .inl rfl
  succ := by
    intro room room' around value h
    obtain ⟨less, rfl⟩ : ∃ less, room' = less + 1 := ⟨room' - 1, by omega⟩
    exact ⟨less, rfl, fun _ _ _ _ _ => Nat.le_of_succ_le_succ h⟩
  items h _ _ := h

theorem isRoom_bounded (graph : Graph) : IsRoom .bounded graph fun room room' around value =>
    room = room' ∧ graph.Fits room around value where
  zero h := absurd h.2.pos (Nat.lt_irrefl 0)
  succ := by
    rintro room _ around value ⟨rfl, hfits⟩
    refine ⟨room, rfl, ?_⟩
    rintro c rfl hc part hpart
    exact ⟨rfl, hfits.held hc hpart⟩
  items := by
    rintro room _ id ⟨rfl, hfits⟩ item -
    exact ⟨rfl, fits_of_le hfits item⟩

theorem isLikeness_self {tolerance : Tolerance} {graph other : Graph}
    {rooms : Nat → Nat → List Container → Value → Prop} {kept : Value → Prop}
    (hrooms : IsRoom tolerance graph rooms) (hkept : Keeps graph other kept) :
    IsLikeness tolerance graph other fun room room' around around' value value' =>
      (around = around' ∧ value = value') ∧ kept value ∧ rooms room room' around value where
  zero h := hrooms.zero h.2.2
  succ := by
    rintro room room' around _ value _ ⟨⟨rfl, rfl⟩, hvalue, hroom⟩
    obtain ⟨less, rfl, hheld⟩ := hrooms.succ hroom
    refine ⟨less, rfl, ?_⟩
    cases value with
    | scalar value => exact .scalar value
    | set id => exact .set (hkept.set hvalue).symm
    | list id =>
      refine .list Iff.rfl fun hc => ?_
      rw [hkept.list hvalue]
      refine List.forall₂_same.2 fun item hitem => ⟨⟨rfl, rfl⟩, ?_, ?_⟩
      · exact hkept.held (c := .list id) hvalue hitem
      · exact hheld (.list id) rfl hc item hitem
    | mapping id =>
      refine .mapping Iff.rfl fun hc => ?_
      rw [hkept.mapping hvalue]
      refine List.forall₂_same.2 fun entry hentry => ⟨rfl, ⟨rfl, rfl⟩, ?_, ?_⟩
      · exact hkept.held (c := .mapping id) hvalue (List.mem_map_of_mem hentry)
      · exact hheld (.mapping id) rfl hc entry.2 (List.mem_map_of_mem hentry)
    | pair id =>
      refine .pair Iff.rfl fun hc => ?_
      rw [hkept.pair hvalue]
      have hpart : ∀ part ∈ graph.held (.pair id), kept part ∧
          rooms room less (.pair id :: around) part := fun part hmem =>
        ⟨hkept.held (c := .pair id) hvalue hmem, hheld (.pair id) rfl hc part hmem⟩
      exact ⟨⟨⟨rfl, rfl⟩, hpart _ List.mem_cons_self⟩,
        ⟨rfl, rfl⟩, hpart _ (List.mem_cons_of_mem _ List.mem_cons_self)⟩
  items := by
    rintro room room' id id' ⟨⟨-, heq⟩, hvalue, hroom⟩
    cases heq
    rw [hkept.list hvalue]
    refine List.forall₂_same.2 fun item hitem => ⟨⟨rfl, rfl⟩, ?_, hrooms.items hroom item hitem⟩
    exact hkept.held (c := .list id) hvalue hitem

end Graph

end ApiBindings

import Mathlib.Data.List.Basic
import Mathlib.Logic.Relation
import ApiBindings.Value.Graph

/-!
# Containers inside each other

A walk through a graph that goes from a container to what it holds, and never into a container it is
in, ends: every step uses up one of the finitely many containers that hold anything.
-/

namespace ApiBindings.Graph

def Container.toValue : Container → Value
  | .list id => .list id
  | .mapping id => .mapping id
  | .pair id => .pair id

/-- The values that a container holds. -/
def held (graph : Graph) : Container → List Value
  | .list id => graph.items id
  | .mapping id => (graph.entries id).map Prod.snd
  | .pair id => [(graph.parts id).1, (graph.parts id).2]

/-- A container holds another one. -/
def Holds (graph : Graph) (outer inner : Container) : Prop :=
  inner.toValue ∈ graph.held outer

/-- A container is a value or stands in it, at any depth. -/
def Reaches (graph : Graph) (value : Value) (container : Container) : Prop :=
  ∃ top, top.toValue = value ∧ Relation.ReflTransGen graph.Holds top container

/-- Nothing in a value stands inside itself, though it may stand in several places. -/
def IsLoopFree (graph : Graph) (value : Value) : Prop :=
  ∀ container, graph.Reaches value container → ¬ Relation.TransGen graph.Holds container container

/-- The containers of a graph. All others are empty, or pairs of nulls. -/
def containers (graph : Graph) : List Container :=
  (List.range graph.lists.size).map .list ++ (List.range graph.mappings.size).map .mapping ++
    (List.range graph.pairs.size).map .pair

/-- How many containers are not among those a walk is in. -/
def remaining (graph : Graph) (around : List Container) : Nat :=
  (graph.containers.filter (· ∉ around)).length

/-- Whether some room is enough for a value inside some containers. -/
def Fits (graph : Graph) (room : Nat) (around : List Container) : Value → Prop
  | .scalar _ => 1 ≤ room
  | _ => graph.remaining around + 2 ≤ room

section

variable {graph : Graph} {room : Nat} {around : List Container} {c : Container} {value : Value}

theorem held_of_notMem (h : c ∉ graph.containers) (hvalue : value ∈ graph.held c) :
    value = .scalar .null := by
  cases c with
  | list id =>
    have hid : graph.lists.size ≤ id := by simpa [containers] using h
    simp [held, items, Array.getD, Nat.not_lt.2 hid] at hvalue
  | mapping id =>
    have hid : graph.mappings.size ≤ id := by simpa [containers] using h
    simp [held, entries, Array.getD, Nat.not_lt.2 hid] at hvalue
  | pair id =>
    have hid : graph.pairs.size ≤ id := by simpa [containers] using h
    simpa [held, parts, Array.getD, Nat.not_lt.2 hid] using hvalue

theorem remaining_add_two_le (graph : Graph) (around : List Container) :
    graph.remaining around + 2 ≤ graph.depthLimit := by
  have hlength : graph.containers.length =
      graph.lists.size + graph.mappings.size + graph.pairs.size := by
    simp only [containers, List.length_append, List.length_map, List.length_range]
  have hfilter := List.length_filter_le (· ∉ around) graph.containers
  unfold remaining depthLimit
  omega

theorem remaining_cons_lt (h : c ∈ graph.containers) (hc : c ∉ around) :
    graph.remaining (c :: around) < graph.remaining around := by
  have hfilter : graph.containers.filter (· ∉ c :: around) =
      (graph.containers.filter (· ∉ around)).filter (· ≠ c) := by
    rw [List.filter_filter]
    congr 1
    funext d
    by_cases hd : d = c <;> simp [hd]
  unfold remaining
  rw [hfilter]
  apply List.length_filter_lt_length_iff_exists.2
  exact ⟨c, List.mem_filter.2 ⟨h, by simpa using hc⟩, by simp⟩

theorem fits_of_le (h : graph.remaining around + 2 ≤ room) (value : Value) :
    graph.Fits room around value := by
  cases value <;> simp only [Fits] <;> omega

theorem fits_of_depthLimit_le (h : graph.depthLimit ≤ room) (around : List Container)
    (value : Value) : graph.Fits room around value :=
  fits_of_le (Nat.le_trans (remaining_add_two_le graph around) h) value

theorem Fits.pos (h : graph.Fits room around value) : 0 < room := by
  cases value <;> simp only [Fits] at h <;> omega

/-- Inside a container of the graph, one unit less is enough for every value. -/
theorem Fits.inside (h : graph.Fits (room + 1) around c.toValue) (hc : c ∉ around)
    (hmem : c ∈ graph.containers) (value : Value) : graph.Fits room (c :: around) value := by
  have hroom : graph.remaining around + 1 ≤ room := by
    cases c <;> simp only [Container.toValue, Fits] at h <;> omega
  have hlt := remaining_cons_lt hmem hc
  exact fits_of_le (by omega) value

theorem Fits.held (h : graph.Fits (room + 1) around c.toValue) (hc : c ∉ around)
    (hvalue : value ∈ graph.held c) : graph.Fits room (c :: around) value := by
  -- A container that the graph does not have uses nothing up, but only nulls stand in it.
  by_cases hmem : c ∈ graph.containers
  · exact h.inside hc hmem value
  · rw [held_of_notMem hmem hvalue]
    cases c <;> simp only [Container.toValue, Fits] at h ⊢ <;> omega

theorem reaches_toValue (graph : Graph) (c : Container) : graph.Reaches c.toValue c :=
  ⟨c, rfl, .refl⟩

theorem Reaches.of_held {d : Container} (hvalue : value ∈ graph.held c)
    (h : graph.Reaches value d) : graph.Reaches c.toValue d := by
  obtain ⟨top, rfl, hpath⟩ := h
  exact ⟨c, rfl, .head hvalue hpath⟩

theorem IsLoopFree.held (h : graph.IsLoopFree c.toValue) (hvalue : value ∈ graph.held c) :
    graph.IsLoopFree value :=
  fun d hd => h d (hd.of_held hvalue)

end

end ApiBindings.Graph

import ApiBindings.Proofs.Schema.Room
import ApiBindings.Proofs.Value.Growth

/-!
# Schemas that stand inside themselves

A walk can be unrolled: every schema that it goes into becomes a mapping of its own, and a scalar takes
the place of each mapping that it meets again inside itself. What is read from the unrolled walk is what
is read from the graph itself, down to the issue at each of those places, which the graph's own reading
words as a loop and the other one as a scalar that is no schema. So a loop costs what a misplaced scalar
costs, and nothing around it is read in another way.
-/

namespace ApiBindings

/-- A walk through a graph, unrolled. What the walk does not go into stays the value that it is. -/
inductive Unrolled where
  | value (value : Value)
  | list (items : List Unrolled)
  | mapping (entries : List (Scalar × Unrolled))

namespace Graph

/-- The value of a key of a schema, unrolled: schemas stand in an element, in properties and in parts. -/
def unrollField (graph : Graph) (inner : Value → Unrolled) (key : Scalar) (value : Value) : Unrolled :=
  if key = .text "items" then inner value
  else if key = .text "properties" then
    match value with
    | .mapping id => .mapping ((graph.entries id).map fun entry => (entry.1, inner entry.2))
    | _ => .value value
  else if key = .text "allOf" then
    match value with
    | .list id => .list ((graph.items id).map inner)
    | _ => .value value
  else .value value

/-- The walk to a schema inside the mappings `path`, unrolled; `leaf` takes the place of those. -/
def unrollTo (graph : Graph) (leaf : Scalar) (room : Nat) (path : List Nat) (value : Value) :
    Unrolled :=
  match room with
  | 0 => .value (.scalar leaf)
  | room + 1 =>
    match value with
    | .mapping id =>
      if id ∈ path then .value (.scalar leaf)
      else .mapping ((graph.entries id).map fun entry =>
        (entry.1, graph.unrollField (graph.unrollTo leaf room (id :: path)) entry.1 entry.2))
    | _ => .value value

/-- The whole walk to a schema, unrolled. -/
def unroll (graph : Graph) (leaf : Scalar) (value : Value) : Unrolled :=
  graph.unrollTo leaf graph.depthLimit [] value

mutual

/-- The graph with an unrolled walk added to it, and the value that it is there. -/
def graft (graph : Graph) : Unrolled → Graph × Value
  | .value value => (graph, value)
  | .list items =>
    let (graph, values) := graph.graftAll items
    graph.addList values
  | .mapping entries =>
    let (graph, entries) := graph.graftEntries entries
    graph.addMapping entries

def graftAll (graph : Graph) : List Unrolled → Graph × List Value
  | [] => (graph, [])
  | unrolled :: rest =>
    let (graph, value) := graph.graft unrolled
    let (graph, values) := graph.graftAll rest
    (graph, value :: values)

def graftEntries (graph : Graph) : List (Scalar × Unrolled) → Graph × Entries Value
  | [] => (graph, [])
  | (key, unrolled) :: rest =>
    let (graph, value) := graph.graft unrolled
    let (graph, entries) := graph.graftEntries rest
    (graph, (key, value) :: entries)

end

def Has (graph : Graph) : Value → Prop
  | .scalar _ => True
  | .list id => id < graph.lists.size
  | .mapping id => id < graph.mappings.size
  | .set id => id < graph.sets.size
  | .pair id => id < graph.pairs.size

/-- All that a graph holds is in it. -/
def IsClosed (graph : Graph) : Prop :=
  ∀ c, ∀ value ∈ graph.held c, graph.Has value

theorem IsClosed.keeps {graph big : Graph} (h : graph.IsClosed) (hbig : graph.Extends big) :
    graph.Keeps big graph.Has where
  held _ hvalue := h _ _ hvalue
  list hid := hbig.items hid
  mapping hid := hbig.entries hid
  set hid := hbig.members hid
  pair hid := hbig.parts hid

/-! ## What a graft holds -/

/-- A value of a graph is an unrolled walk. Its mappings lie below `bound`, and each below the one that
it stands in. -/
inductive Grafted (big : Graph) : Nat → Unrolled → Value → Prop where
  | value {bound : Nat} {value : Value} : Grafted big bound (.value value) value
  | list {bound below : Nat} {items : List Unrolled} {id : Nat} : below ≤ bound →
      items.length = (big.items id).length →
      (∀ {item value}, (item, value) ∈ items.zip (big.items id) → Grafted big below item value) →
      Grafted big bound (.list items) (.list id)
  | mapping {bound : Nat} {entries : List (Scalar × Unrolled)} {id : Nat} : id < bound →
      entries.length = (big.entries id).length →
      (∀ {entry entry'}, (entry, entry') ∈ entries.zip (big.entries id) → entry.1 = entry'.1) →
      (∀ {entry entry'}, (entry, entry') ∈ entries.zip (big.entries id) →
        Grafted big id entry.2 entry'.2) →
      Grafted big bound (.mapping entries) (.mapping id)

theorem Grafted.mono {big : Graph} {bound more : Nat} {unrolled : Unrolled} {value : Value}
    (h : Grafted big bound unrolled value) (hle : bound ≤ more) : Grafted big more unrolled value := by
  cases h with
  | value => exact .value
  | list hbelow hlength hitems => exact .list (Nat.le_trans hbelow hle) hlength hitems
  | mapping hid hlength hkeys hentries =>
    exact .mapping (Nat.lt_of_lt_of_le hid hle) hlength hkeys hentries

theorem Grafted.items {big : Graph} {bound : Nat} {items : List Unrolled} {value : Value}
    (h : Grafted big bound (.list items) value) : ∃ id below, value = .list id ∧ below ≤ bound ∧
      List.Forall₂ (Grafted big below) items (big.items id) := by
  cases h with
  | list hbelow hlength hitems =>
    exact ⟨_, _, rfl, hbelow, List.forall₂_iff_zip.2 ⟨hlength, hitems⟩⟩

theorem Grafted.entries {big : Graph} {bound : Nat} {entries : List (Scalar × Unrolled)}
    {value : Value} (h : Grafted big bound (.mapping entries) value) :
    ∃ id, value = .mapping id ∧ id < bound ∧ List.Forall₂ (fun entry entry' =>
      entry.1 = entry'.1 ∧ Grafted big id entry.2 entry'.2) entries (big.entries id) := by
  cases h with
  | mapping hid hlength hkeys hentries =>
    exact ⟨_, rfl, hid, List.forall₂_iff_zip.2 ⟨hlength, fun h => ⟨hkeys h, hentries h⟩⟩⟩

theorem Extends.mappings_size_le {small big : Graph} (h : small.Extends big) :
    small.mappings.size ≤ big.mappings.size := by
  rw [← Array.length_toList, ← Array.length_toList]
  exact h.mappings.length_le

mutual

theorem extends_graft (graph : Graph) :
    ∀ unrolled : Unrolled, graph.Extends (graph.graft unrolled).1
  | .value _ => .refl graph
  | .list items => (extends_graftAll graph items).trans (extends_addList _ _)
  | .mapping entries => (extends_graftEntries graph entries).trans (extends_addMapping _ _)

theorem extends_graftAll (graph : Graph) :
    ∀ items : List Unrolled, graph.Extends (graph.graftAll items).1
  | [] => .refl graph
  | unrolled :: rest => (extends_graft graph unrolled).trans (extends_graftAll _ rest)

theorem extends_graftEntries (graph : Graph) :
    ∀ entries : List (Scalar × Unrolled), graph.Extends (graph.graftEntries entries).1
  | [] => .refl graph
  | (_, unrolled) :: rest => (extends_graft graph unrolled).trans (extends_graftEntries _ rest)

end

mutual

theorem grafted_graft (graph : Graph) : ∀ (unrolled : Unrolled) {big : Graph},
    (graph.graft unrolled).1.Extends big →
      Grafted big (graph.graft unrolled).1.mappings.size unrolled (graph.graft unrolled).2
  | .value _, _, _ => .value
  | .list items, big, hbig => by
    have hitems := grafted_graftAll graph items ((extends_addList _ _).trans hbig)
    obtain ⟨hlength, hzip⟩ := List.forall₂_iff_zip.1 hitems
    rw [← items_of_addList hbig] at hlength hzip
    exact .list (Nat.le_refl _) hlength hzip
  | .mapping entries, big, hbig => by
    have hentries := grafted_graftEntries graph entries ((extends_addMapping _ _).trans hbig)
    obtain ⟨hlength, hzip⟩ := List.forall₂_iff_zip.1 hentries
    rw [← entries_of_addMapping hbig] at hlength hzip
    exact .mapping (by simp [graft, addMapping]) hlength (fun h => (hzip h).1) fun h => (hzip h).2

theorem grafted_graftAll (graph : Graph) : ∀ (items : List Unrolled) {big : Graph},
    (graph.graftAll items).1.Extends big →
      List.Forall₂ (Grafted big (graph.graftAll items).1.mappings.size) items (graph.graftAll items).2
  | [], _, _ => .nil
  | unrolled :: rest, big, hbig => by
    have hrest := extends_graftAll (graph.graft unrolled).1 rest
    exact .cons ((grafted_graft graph unrolled (hrest.trans hbig)).mono hrest.mappings_size_le)
      (grafted_graftAll _ rest hbig)

theorem grafted_graftEntries (graph : Graph) :
    ∀ (entries : List (Scalar × Unrolled)) {big : Graph},
      (graph.graftEntries entries).1.Extends big →
        List.Forall₂ (fun entry entry' => entry.1 = entry'.1 ∧
          Grafted big (graph.graftEntries entries).1.mappings.size entry.2 entry'.2) entries
          (graph.graftEntries entries).2
  | [], _, _ => .nil
  | (_, unrolled) :: rest, big, hbig => by
    have hrest := extends_graftEntries (graph.graft unrolled).1 rest
    exact .cons ⟨rfl, (grafted_graft graph unrolled (hrest.trans hbig)).mono hrest.mappings_size_le⟩
      (grafted_graftEntries _ rest hbig)

end

end Graph

/-! ## The unrolled walk -/

namespace Schema

open ApiBindings.Graph (Grafted)

theorem forall₂_mem_left {α β : Type} {r : α → β → Prop} {items : List α} {others : List β}
    (h : List.Forall₂ r items others) :
    List.Forall₂ (fun item other => item ∈ items ∧ r item other) items others := by
  induction h with
  | nil => exact .nil
  | cons hitem _ ih =>
    refine .cons ⟨List.mem_cons_self, hitem⟩ (ih.imp ?_)
    rintro item other ⟨hmem, hitem⟩
    exact ⟨List.mem_cons_of_mem _ hmem, hitem⟩

theorem mem_containers_of_has {graph : Graph} {id : Nat} (h : graph.Has (.mapping id)) :
    .mapping id ∈ graph.containers := by
  have hid : id < graph.mappings.size := h
  simpa [Graph.containers] using hid

/-- A value of a graph and what it has become in a graph that holds the unrolled walk. -/
def IsUnrolling (graph big : Graph) (leaf : Scalar) (path path' : List Nat) (value value' : Value) :
    Prop :=
  graph.Has value ∧ ∃ room bound, graph.Fits room (path.map .mapping) value ∧
    (∀ id ∈ path', bound ≤ id) ∧ Grafted big bound (graph.unrollTo leaf room path value) value'

section

variable {graph big : Graph} {leaf : Scalar} {path path' : List Nat} {value value' : Value}

theorem unrollTo_met {room id : Nat} (h : id ∈ path) :
    graph.unrollTo leaf (room + 1) path (.mapping id) = .value (.scalar leaf) := by
  rw [Graph.unrollTo, if_pos h]

theorem unrollTo_mapping {room id : Nat} (h : id ∉ path) :
    graph.unrollTo leaf (room + 1) path (.mapping id) =
      .mapping ((graph.entries id).map fun entry =>
        (entry.1, graph.unrollField (graph.unrollTo leaf room (id :: path)) entry.1 entry.2)) := by
  rw [Graph.unrollTo, if_neg h]

theorem null_iff_of_grafted {room bound : Nat} (hleaf : leaf ≠ .null) (hroom : 0 < room)
    (h : Grafted big bound (graph.unrollTo leaf room path value) value') :
    value = .scalar .null ↔ value' = .scalar .null := by
  obtain ⟨room, rfl⟩ := Nat.exists_eq_add_one.2 hroom
  constructor
  · rintro rfl
    cases h
    rfl
  · rintro rfl
    generalize hunrolled : graph.unrollTo leaf (room + 1) path value = unrolled at h
    cases h
    cases value with
    | mapping id =>
      by_cases hid : id ∈ path
      · rw [unrollTo_met hid] at hunrolled
        cases hunrolled
        exact absurd rfl hleaf
      · rw [unrollTo_mapping hid] at hunrolled
        cases hunrolled
    | scalar value =>
      cases hunrolled
      rfl
    | _ => cases hunrolled

/-- The value of a key and what it has become are alike for a walk that has gone into their mappings. -/
theorem fieldAlike_of_grafted (hclosed : graph.IsClosed) (hbig : graph.Extends big)
    (hleaf : leaf ≠ .null) {shown inner : Value → Value → Prop} {room bound : Nat} (hroom : 0 < room)
    (hshown : ∀ value, graph.Has value → shown value value)
    (hinner : ∀ {below value value'}, graph.Has value → below ≤ bound →
      Grafted big below (graph.unrollTo leaf room path value) value' → inner value value')
    {key : Scalar} (hvalue : graph.Has value)
    (h : Grafted big bound (graph.unrollField (graph.unrollTo leaf room path) key value) value') :
    FieldAlike graph big shown inner key value value' := by
  obtain ⟨_, halike⟩ : ∃ inner, Graph.Alike graph big inner [] [] value value :=
    (Graph.isLikeness_self (Graph.isRoom_exact graph) (hclosed.keeps hbig)).alike Nat.one_pos
      ⟨⟨rfl, rfl⟩, hvalue, rfl⟩
  unfold Graph.unrollField at h
  refine ⟨?_, ?_, ?_, ?_⟩
  · rintro rfl
    rw [if_pos rfl] at h
    exact ⟨hinner hvalue (Nat.le_refl _) h, null_iff_of_grafted hleaf hroom h⟩
  · rintro rfl
    rw [if_neg (by decide), if_pos rfl] at h
    cases value with
    | mapping id =>
      obtain ⟨id', rfl, hid, hentries⟩ := h.entries
      rw [List.forall₂_map_left_iff] at hentries
      constructor
      · rw [Graph.isTruthy, Graph.isTruthy, Graph.isEmpty_of_forall₂ hentries]
      · refine .some ((forall₂_mem_left hentries).imp ?_)
        rintro entry entry' ⟨hmem, hkey, hentry⟩
        have hhas := hclosed (.mapping id) entry.2 (List.mem_map_of_mem hmem)
        exact ⟨hkey, hinner hhas (Nat.le_of_lt hid) hentry⟩
    | _ =>
      cases h
      exact ⟨halike.isTruthy_eq, .none⟩
  · rintro rfl
    rw [if_neg (by decide), if_neg (by decide), if_pos rfl] at h
    cases value with
    | list id =>
      obtain ⟨id', below, rfl, hbelow, hitems⟩ := h.items
      rw [List.forall₂_map_left_iff] at hitems
      refine .some ((forall₂_mem_left hitems).imp ?_)
      rintro item item' ⟨hmem, hitem⟩
      exact hinner (hclosed (.list id) item hmem) hbelow hitem
    | _ =>
      cases h
      exact .none
  · intro hitems hproperties hallOf
    rw [if_neg hitems, if_neg hproperties, if_neg hallOf] at h
    cases h
    exact hshown value hvalue

theorem isWalk_unrolling (hclosed : graph.IsClosed) (hbig : graph.Extends big) (hleaf : leaf ≠ .null) :
    IsWalk .exact graph big (.notMapping leaf.kindName)
      (fun room room' around around' value value' =>
        (around = around' ∧ value = value') ∧ graph.Has value ∧ room = room')
      (fun room room' path path' value value' =>
        room = room' ∧ IsUnrolling graph big leaf path path' value value') where
  likeness := Graph.isLikeness_self (Graph.isRoom_exact graph) (hclosed.keeps hbig)
  tiny h htiny := .inr ⟨rfl, h.1 ▸ htiny⟩
  step := by
    rintro space _ path path' value value' ⟨rfl, hvalue, room, bound, hfits, hbound, h⟩
    refine ⟨space, rfl, ?_⟩
    obtain ⟨room, rfl⟩ := Nat.exists_eq_add_one.2 hfits.pos
    cases value with
    | mapping id =>
      by_cases hin : id ∈ path
      · rw [unrollTo_met hin] at h
        cases h
        exact .cut hin nofun rfl
      · rw [unrollTo_mapping hin] at h
        obtain ⟨id', rfl, hid, hentries⟩ := h.entries
        rw [List.forall₂_map_left_iff] at hentries
        -- The graft puts what stands inside below what it stands in, so no mapping of it comes back.
        have hin' : id' ∉ path' :=
          fun hmem => Nat.lt_irrefl _ (Nat.lt_of_lt_of_le hid (hbound id' hmem))
        refine .go hin hin' ((forall₂_mem_left hentries).imp ?_)
        rintro entry entry' ⟨hmem, hkey, hentry⟩
        have hheld : entry.2 ∈ graph.held (.mapping id) := List.mem_map_of_mem hmem
        have hroom : ∀ part, graph.Fits room ((id :: path).map .mapping) part :=
          hfits.inside (c := .mapping id) (by simpa using hin) (mem_containers_of_has hvalue)
        refine ⟨hkey, fieldAlike_of_grafted hclosed hbig hleaf (hroom entry.2).pos
          (fun value hvalue => ⟨⟨rfl, rfl⟩, hvalue, rfl⟩) ?_ (hclosed _ _ hheld) hentry⟩
        intro below value value' hvalue hbelow hgrafted k _
        refine ⟨rfl, hvalue, room, below, hroom value, ?_, hgrafted⟩
        intro q hq
        rcases List.mem_cons.1 hq with rfl | hq
        · exact hbelow
        · exact Nat.le_trans hbelow (Nat.le_trans (Nat.le_of_lt hid) (hbound q hq))
    | _ =>
      cases h
      exact .stop nofun nofun rfl

/-- What is read from the unrolled walk is what is read from the graph itself, with a scalar for each
mapping that is met again inside itself. -/
theorem readAt_graft (hclosed : graph.IsClosed) (hvalue : graph.Has value) (hleaf : leaf ≠ .null)
    (room : Nat) (location : String) :
    readAt (graph.graft (graph.unroll leaf value)).1 room []
        (graph.graft (graph.unroll leaf value)).2 location =
      (readAt graph room [] value location).map (Reading.marked (.notMapping leaf.kindName)) := by
  have hbig := graph.extends_graft (graph.unroll leaf value)
  have hunrolling : IsUnrolling graph (graph.graft (graph.unroll leaf value)).1 leaf [] [] value
      (graph.graft (graph.unroll leaf value)).2 :=
    ⟨hvalue, graph.depthLimit, _, Graph.fits_of_depthLimit_le (Nat.le_refl _) [] value,
      fun _ hid => absurd hid List.not_mem_nil, graph.grafted_graft _ (.refl _)⟩
  have hread := (isWalk_unrolling hclosed hbig hleaf).readAt location
    (show room = room ∧ _ from ⟨rfl, hunrolling⟩)
  exact Limited.follows_exact_iff.1 hread

end

end Schema

end ApiBindings

import ApiBindings.Proofs.Schema.Walk

/-!
# The room for reading a schema

More room changes a reading only where there was too little, and some room is enough for all schemas of
a graph: a walk goes into each mapping once at most before it ends. What a reading is depends on nothing
but what the schema leads to.
-/

namespace ApiBindings.Schema

open Limited (Tolerance Follows)

section

variable {tolerance : Tolerance} {graph other : Graph} {kept : Value → Prop}

theorem fieldAlike_self (hkept : graph.Keeps other kept) {shown inner : Value → Value → Prop}
    (hshown : ∀ value, kept value → shown value value)
    (hinner : ∀ value, kept value → inner value value) (key : Scalar) {value : Value}
    (hvalue : kept value) : FieldAlike graph other shown inner key value value where
  element _ := ⟨hinner value hvalue, Iff.rfl⟩
  properties _ := by
    cases value with
    | mapping id =>
      rw [Graph.isTruthy, Graph.isTruthy, Graph.entries?, Graph.entries?, hkept.mapping hvalue]
      refine ⟨rfl, .some (List.forall₂_same.2 fun entry hentry => ⟨rfl, hinner entry.2 ?_⟩)⟩
      exact hkept.held (c := .mapping id) hvalue (List.mem_map_of_mem hentry)
    | list id =>
      rw [Graph.isTruthy, Graph.isTruthy, hkept.list hvalue]
      exact ⟨rfl, .none⟩
    | set id =>
      rw [Graph.isTruthy, Graph.isTruthy, hkept.set hvalue]
      exact ⟨rfl, .none⟩
    | scalar value => exact ⟨rfl, .none⟩
    | pair id => exact ⟨rfl, .none⟩
  parts _ := by
    cases value with
    | list id =>
      rw [Graph.items?, Graph.items?, hkept.list hvalue]
      refine .some (List.forall₂_same.2 fun item hitem => hinner item ?_)
      exact hkept.held (c := .list id) hvalue hitem
    | mapping id => exact .none
    | set id => exact .none
    | scalar value => exact .none
    | pair id => exact .none
  plain _ _ _ := hshown value hvalue

/-- A walk is in keeping with the walk to the same value, also with other room. -/
theorem isWalk_self {rooms : Nat → Nat → List Graph.Container → Value → Prop}
    (walkRooms : Nat → Nat → List Nat → Prop) (hrooms : graph.IsRoom tolerance rooms)
    (hkept : graph.Keeps other kept)
    (htiny : ∀ {room room' path}, walkRooms room room' path → room < 5 →
      tolerance = .deeper ∨ (tolerance = .exact ∧ room' < 5))
    (hstep : ∀ {room room' path}, walkRooms (room + 5) room' path → ∃ less, room' = less + 5 ∧
      (∀ value, rooms (room + 2) (less + 2) [] value) ∧
      ∀ id ∉ path, graph.entries id ≠ [] → ∀ k ≤ 3, walkRooms (room + k) (less + k) (id :: path)) :
    IsWalk tolerance graph other .selfContained
      (fun room room' around around' value value' =>
        (around = around' ∧ value = value') ∧ kept value ∧ rooms room room' around value)
      (fun room room' path path' value value' =>
        (path = path' ∧ value = value') ∧ kept value ∧ walkRooms room room' path) where
  likeness := Graph.isLikeness_self hrooms hkept
  tiny h := htiny h.2.2
  step := by
    rintro room room' path _ value _ ⟨⟨rfl, rfl⟩, hvalue, hroom⟩
    obtain ⟨less, rfl, hshown, hinside⟩ := hstep hroom
    refine ⟨less, rfl, ?_⟩
    cases value with
    | mapping id =>
      by_cases hin : id ∈ path
      · exact .met hin hin rfl
      · refine .go hin hin ?_
        rw [hkept.mapping hvalue]
        refine List.forall₂_same.2 fun entry hentry => ⟨rfl, ?_⟩
        apply fieldAlike_self hkept
        · exact fun part hpart => ⟨⟨rfl, rfl⟩, hpart, hshown part⟩
        · exact fun part hpart k hk =>
            ⟨⟨rfl, rfl⟩, hpart, hinside id hin (List.ne_nil_of_mem hentry) k hk⟩
        · exact hkept.held (c := .mapping id) hvalue (List.mem_map_of_mem hentry)
    | _ => exact .stop nofun nofun rfl

end

section

variable {graph : Graph} {path : List Nat} {value : Value}

theorem readAt_deeper {room room' : Nat} (hroom : room ≤ room') (location : String) :
    readAt graph room path value location = .error .depth ∨
      readAt graph room path value location = readAt graph room' path value location := by
  have hwalk := isWalk_self (fun room room' _ => room ≤ room')
    (Graph.isRoom_deeper graph) (Graph.Keeps.refl graph) (fun _ _ => .inl rfl) (by
      intro room room' path h
      obtain ⟨less, rfl⟩ : ∃ less, room' = less + 5 := ⟨room' - 5, by omega⟩
      exact ⟨less, rfl, fun _ => by omega, fun _ _ _ k _ => by omega⟩)
  have hread : Follows .deeper (Reading.marked .selfContained)
      (readAt graph room path value location) (readAt graph room' path value location) :=
    hwalk.readAt location ⟨⟨rfl, rfl⟩, trivial, hroom⟩
  rw [Reading.marked_selfContained] at hread
  exact Limited.follows_deeper_iff.1 hread

theorem remaining_path_lt {id : Nat} (hid : id ∉ path) (hne : graph.entries id ≠ []) :
    graph.remaining ((id :: path).map .mapping) < graph.remaining (path.map .mapping) := by
  apply Graph.remaining_cons_lt
  · by_contra hmem
    have hsize : graph.mappings.size ≤ id := by simpa [Graph.containers] using hmem
    exact hne (by simp [Graph.entries, Array.getD, Nat.not_lt.2 hsize])
  · simpa using hid

/-- A walk takes five units of the room for each mapping that it can still go into, and what is left is
enough for everything that an issue shows. -/
theorem readAt_ne_depth {room : Nat}
    (hroom : 5 * graph.remaining (path.map .mapping) + graph.depthLimit + 3 ≤ room)
    (location : String) : readAt graph room path value location ≠ .error .depth := by
  have hwalk := isWalk_self (fun room room' path => room = room' ∧
      5 * graph.remaining (path.map .mapping) + graph.depthLimit + 3 ≤ room)
    (Graph.isRoom_bounded graph) (Graph.Keeps.refl graph) (by
      rintro room _ path ⟨rfl, hroom⟩ htiny
      unfold Graph.depthLimit at hroom
      omega) (by
      rintro room _ path ⟨rfl, hroom⟩
      refine ⟨room, rfl, fun value => ⟨rfl, Graph.fits_of_depthLimit_le (by omega) [] value⟩, ?_⟩
      intro id hid hne k _
      have hlt := remaining_path_lt hid hne
      omega)
  have hread : Follows .bounded (Reading.marked .selfContained)
      (readAt graph room path value location) (readAt graph room path value location) :=
    hwalk.readAt location ⟨⟨rfl, rfl⟩, trivial, rfl, hroom⟩
  exact hread.ne_depth

theorem readAt_ne_depth_of_le {room : Nat} (hroom : 6 * graph.depthLimit ≤ room)
    (location : String) : readAt graph room [] value location ≠ .error .depth := by
  have hlimit : graph.remaining (List.map .mapping []) + 2 ≤ graph.depthLimit :=
    graph.remaining_add_two_le []
  exact readAt_ne_depth (by omega) location

theorem readAt_eq_of_le {room : Nat} (hroom : 6 * graph.depthLimit ≤ room) (location : String) :
    readAt graph room [] value location =
      readAt graph (6 * graph.depthLimit) [] value location := by
  have hdeeper : readAt graph (6 * graph.depthLimit) [] value location = .error .depth ∨ _ =
      readAt graph room [] value location := readAt_deeper hroom location
  rcases hdeeper with hdepth | heq
  · exact absurd hdepth (readAt_ne_depth_of_le (Nat.le_refl _) location)
  · exact heq.symm

/-- Two graphs that hold the same wherever a value leads read it the same. -/
theorem readAt_congr {other : Graph} {kept : Value → Prop} (hkept : graph.Keeps other kept)
    (hvalue : kept value) (room : Nat) (location : String) :
    readAt other room path value location = readAt graph room path value location := by
  have hwalk := isWalk_self (fun room room' _ => room = room')
    (Graph.isRoom_exact graph) hkept (fun h htiny => .inr ⟨rfl, h ▸ htiny⟩) (by
      rintro room _ path rfl
      exact ⟨room, rfl, fun _ => rfl, fun _ _ _ k _ => rfl⟩)
  have hread : Follows .exact (Reading.marked .selfContained)
      (readAt graph room path value location) (readAt other room path value location) :=
    hwalk.readAt location ⟨⟨rfl, rfl⟩, hvalue, rfl⟩
  rw [Reading.marked_selfContained] at hread
  rw [Limited.follows_exact_iff.1 hread, Except.map_id]
  rfl

end

end ApiBindings.Schema

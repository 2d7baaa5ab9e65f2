import ApiBindings.Proofs.Schema.Walk
import ApiBindings.Proofs.Value.Growth

/-!
# Schemas that share parts

A schema without loops is read as its tree is, in which nothing is shared.
-/

namespace ApiBindings.Schema

open ApiBindings.Graph (HaveTree)

section

variable {graph other : Graph} {whole part : Tree} {value value' : Value}

/-- Parts with the same tree are alike for a walk that has gone into what they are part of. -/
theorem fieldAlike_of_unfolds {shown inner : Value → Value → Prop}
    (hshown : ∀ value value', HaveTree graph other [] [] value value' → shown value value')
    (hinner : ∀ {part value value'}, sizeOf part < sizeOf whole → graph.Unfolds value part →
      other.Unfolds value' part → inner value value') (key : Scalar)
    (hpart : sizeOf part < sizeOf whole) (h : graph.Unfolds value part)
    (h' : other.Unfolds value' part) : FieldAlike graph other shown inner key value value' := by
  have htree : HaveTree graph other [] [] value value' :=
    ⟨part, h, h', Graph.outside_nil graph part, Graph.outside_nil other part⟩
  refine ⟨fun _ => ⟨hinner hpart h h', htree.alike.null_iff⟩, fun _ => ⟨htree.alike.isTruthy_eq, ?_⟩,
    fun _ => ?_, fun _ _ _ => hshown value value' htree⟩
  · cases htree.alike with
    | @mapping id id' =>
      obtain ⟨entries, rfl⟩ := h.of_mapping
      obtain ⟨_, ⟨⟩, hentries⟩ := h.mapping
      obtain ⟨_, ⟨⟩, hentries'⟩ := h'.mapping
      refine .some ((Graph.forall₂_join hentries hentries').imp ?_)
      rintro entry entry' ⟨inside, hinside, ⟨hkey, hentry⟩, hkey', hentry'⟩
      exact ⟨hkey.trans hkey'.symm,
        hinner (Nat.lt_trans (Graph.sizeOf_lt_mapping hinside) hpart) hentry hentry'⟩
    | _ => exact .none
  · cases htree.alike with
    | @list id id' =>
      obtain ⟨trees, rfl⟩ := h.of_list
      obtain ⟨_, ⟨⟩, hitems⟩ := h.list
      obtain ⟨_, ⟨⟩, hitems'⟩ := h'.list
      refine .some ((Graph.forall₂_join hitems hitems').imp ?_)
      rintro item item' ⟨inside, hinside, hitem, hitem'⟩
      exact hinner (Nat.lt_trans (Graph.sizeOf_lt_list hinside) hpart) hitem hitem'
    | _ => exact .none

/-- The walks meet no mapping again, whatever would be told of one. -/
theorem isWalk_haveTree (graph other : Graph) (mark : Problem) : IsWalk .exact graph other mark
    (fun room room' around around' value value' =>
      room = room' ∧ HaveTree graph other around around' value value')
    (fun room room' path path' value value' => room = room' ∧
      HaveTree graph other (path.map .mapping) (path'.map .mapping) value value') where
  likeness := Graph.isLikeness_haveTree graph other
  tiny h htiny := .inr ⟨rfl, h.1 ▸ htiny⟩
  step := by
    rintro room _ path path' value value' ⟨rfl, htree⟩
    have halike := htree.alike
    obtain ⟨tree, hvalue, hvalue', hout, hout'⟩ := htree
    refine ⟨room, rfl, ?_⟩
    cases halike with
    | @mapping id id' =>
      obtain ⟨entries, rfl⟩ := hvalue.of_mapping
      obtain ⟨_, ⟨⟩, hentries⟩ := hvalue.mapping
      obtain ⟨_, ⟨⟩, hentries'⟩ := hvalue'.mapping
      have hin := hout.notMem (c := .mapping id) hvalue
      have hin' := hout'.notMem (c := .mapping id') hvalue'
      refine .go (fun h => hin (List.mem_map_of_mem h)) (fun h => hin' (List.mem_map_of_mem h)) ?_
      refine (Graph.forall₂_join hentries hentries').imp ?_
      rintro entry entry' ⟨part, hpart, ⟨hkey, hentry⟩, hkey', hentry'⟩
      refine ⟨hkey.trans hkey'.symm, fieldAlike_of_unfolds (fun _ _ h => ⟨rfl, h⟩) ?_ entry.1
        (Graph.sizeOf_lt_mapping hpart) hentry hentry'⟩
      intro part value value' hlt h h' k _
      exact ⟨rfl, .held (.mapping id) (.mapping id') hvalue hvalue' hout hout' hlt h h'⟩
    | _ => exact .stop nofun nofun rfl

theorem readAt_marked {tree : Tree} (h : graph.Unfolds value tree) (h' : other.Unfolds value' tree)
    (mark : Problem) (room : Nat) (location : String) :
    readAt other room [] value' location =
      (readAt graph room [] value location).map (Reading.marked mark) :=
  Limited.follows_exact_iff.1 <| (isWalk_haveTree graph other mark).readAt location
    (show room = room ∧ HaveTree graph other [] [] value value' from
      ⟨rfl, tree, h, h', Graph.outside_nil graph tree, Graph.outside_nil other tree⟩)

/-- Schemas with the same tree are read the same, whatever they share. -/
theorem readAt_of_unfolds {tree : Tree} (h : graph.Unfolds value tree) (h' : other.Unfolds value' tree)
    (room : Nat) (location : String) :
    readAt graph room [] value location = readAt other room [] value' location := by
  rw [readAt_marked h h' .selfContained, Reading.marked_selfContained, Except.map_id]
  rfl

/-- What is merely shared is never taken for a loop. -/
theorem problem_ne_selfContained {tree : Tree} (h : graph.Unfolds value tree) {room : Nat}
    {location : String} {reading : Reading}
    (hread : readAt graph room [] value location = .ok reading) :
    ∀ issue ∈ reading.issues, issue.problem ≠ .selfContained := by
  have hself := readAt_marked h h .pathItemNotMapping room location
  rw [hread] at hself
  have hissues : reading.issues = reading.issues.map (Issue.marked .pathItemNotMapping) :=
    congrArg Reading.issues (Except.ok.inj hself)
  intro issue hissue hproblem
  rw [hissues] at hissue
  obtain ⟨⟨location, problem⟩, -, rfl⟩ := List.mem_map.1 hissue
  cases problem <;> cases hproblem

end

end ApiBindings.Schema

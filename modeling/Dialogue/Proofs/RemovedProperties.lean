import Dialogue.Proofs.Revisions
import Dialogue.Proofs.Steadiness
import Mathlib.Data.List.Find
import Mathlib.Data.List.Forall2
/-!
Graphs that name a property which was taken off the board. Everything that names it goes on as if it had
been unset, and nothing else notices.
-/
namespace Dialogue

variable {σ : Type}

def Board.without (gone : PropertyId) (board : Board) : Board :=
  ⟨board.properties.filter fun property => property.id ≠ gone⟩

def Clause.unsetting (gone : PropertyId) (clause : Clause) : Clause :=
  if clause.property = some gone then { clause with test := .unset } else clause

def Effect.unsetting (gone : PropertyId) (effect : Effect) : Effect :=
  if effect.property = some gone then { effect with command := .unset } else effect

def Revision.unsetting (gone : PropertyId) : Revision where
  clause := Clause.unsetting gone
  effect := Effect.unsetting gone
  board := Board.without gone

/-- The graph with every test and command unset that is about the property. -/
def Graph.unsetting (gone : PropertyId) (graph : Graph) : Graph :=
  (Revision.unsetting gone).graph graph

namespace Board

theorem find_gone (board : Board) (gone : PropertyId) : (board.without gone).find? gone = none := by
  simp [find?, without]

theorem find_without (board : Board) (gone id : PropertyId) (different : id ≠ gone) :
    (board.without gone).find? id = board.find? id := by
  rw [find?, without, List.find?_filter]
  refine List.find?_congr fun property _ => ?_
  by_cases hit : property.id = id
  · simp [hit, different]
  · simp [hit]

theorem update_without (board : Board) (gone id : PropertyId) (change : Property → Property)
    (different : id ≠ gone) (kept : ∀ property, (change property).id = property.id) :
    (board.without gone).update id change = (board.update id change).without gone := by
  refine congrArg mk ?_
  change updateFirst id change (board.properties.filter _) = List.filter _ (updateFirst id change _)
  induction board.properties with
  | nil => rfl
  | cons property rest ih =>
      by_cases hit : property.id = id
      · have other : property.id ≠ gone := hit ▸ different
        simp [updateFirst, hit, different, kept]
      · simp only [updateFirst, if_neg hit, List.filter_cons]
        split
        · rw [updateFirst, if_neg hit, ih]
        · exact ih

theorem remove_without (board removed : Board) (gone : PropertyId) (found : Property)
    (distinct : (board.properties.map Property.id).Nodup)
    (taken : board.remove gone = some (found, removed)) : removed = board.without gone := by
  obtain ⟨_, _, same⟩ := Option.map_eq_some_iff.mp taken
  cases same
  exact congrArg mk (eraseP_distinct Property.id gone board.properties distinct)

end Board

theorem check_unset (registry : Registry σ) (id : PropertyId) (board : Board) (host : Host σ) :
    Clause.check registry board ⟨some id, .unset⟩ host = (host, .done false) := by
  simp only [Clause.check]
  cases board.find? id <;> rfl

theorem run_unset (registry : Registry σ) (property : Option PropertyId) (scene : Scene σ) :
    Effect.run registry ⟨property, .unset⟩ scene = (scene, .done false) := by
  unfold Effect.run
  split <;> rfl

/-- An effect on another property writes past the one that is left out. -/
theorem run_apart (registry : Registry σ) (gone named : PropertyId) (command : Command)
    (scene : Scene σ) (different : named ≠ gone) :
    Effect.run registry ⟨some named, command⟩ ((Revision.unsetting gone).scene scene) =
      (Effect.run registry ⟨some named, command⟩ scene).map (Revision.unsetting gone).scene id := by
  simp only [Effect.run, Revision.unsetting, Revision.scene, Option.bind_some,
    scene.board.find_without gone named different]
  cases found : scene.board.find? named with
  | none => rfl
  | some property =>
      have other : property.id ≠ gone := scene.board.find_id named property found ▸ different
      cases command with
      | unset => rfl
      | mutate mutation operand =>
          simp only
          cases property.mutated? mutation operand with
          | none => rfl
          | some value =>
              simp only [scene.board.update_without gone property.id
                (fun property => property.assign value) other fun _ => rfl]
              rfl
      | call operation arguments =>
          simp only
          split
          · split <;> rfl
          · rfl

theorem unsetting_check (registry : Registry σ) (gone : PropertyId) (clause : Clause)
    (board : Board) (host : Host σ) :
    clause.check registry (board.without gone) host =
      (clause.unsetting gone).check registry board host := by
  obtain ⟨property, test⟩ := clause
  cases property with
  | none => rfl
  | some id =>
      by_cases hit : id = gone
      · subst hit
        rw [Clause.unsetting, if_pos rfl, check_unset]
        simp only [Clause.check, board.find_gone]
      · simp [Clause.check, Clause.unsetting, hit, board.find_without gone id hit]

theorem unsetting_run (registry : Registry σ) (gone : PropertyId) (effect : Effect)
    (scene : Scene σ) :
    effect.run registry ((Revision.unsetting gone).scene scene) =
      ((effect.unsetting gone).run registry scene).map (Revision.unsetting gone).scene id := by
  obtain ⟨property, command⟩ := effect
  cases property with
  | none => rfl
  | some named =>
      by_cases hit : named = gone
      · subst hit
        rw [Effect.unsetting, if_pos rfl, run_unset]
        simp only [Effect.run, Revision.unsetting, Revision.scene, Option.bind_some,
          scene.board.find_gone]
        rfl
      · rw [Effect.unsetting, if_neg fun same => hit (Option.some.inj same)]
        exact run_apart registry gone named command scene hit

theorem unsetting_faithful (registry : Registry σ) (gone : PropertyId) :
    (Revision.unsetting gone).Faithful registry where
  checks := unsetting_check registry gone
  runs := unsetting_run registry gone

structure SameBut (gone : PropertyId) (without held : Turn σ) : Prop where
  traversal : without.traversal = held.traversal
  outcome : without.outcome = held.outcome
  host : without.scene.host = held.scene.host
  others : without.scene.board.properties =
    held.scene.board.properties.filter fun property => property.id ≠ gone

theorem removed_runs_unset (graph : Graph) (registry : Registry σ) (board removed : Board)
    (gone : PropertyId) (found : Property) (host : Host σ) (traversal : Traversal)
    (calls : List Traversal.Call) (distinct : (board.properties.map Property.id).Nodup)
    (taken : board.remove gone = some (found, removed)) :
    List.Forall₂ (SameBut gone) (turns graph registry calls traversal ⟨removed, host⟩)
      (turns (graph.unsetting gone) registry calls traversal ⟨board, host⟩) := by
  have without := board.remove_without removed gone found distinct taken
  have revised : turns graph registry calls traversal ⟨board.without gone, host⟩ =
      (turns (graph.unsetting gone) registry calls traversal ⟨board, host⟩).map _ :=
    (unsetting_faithful registry gone).turns_revised graph calls traversal ⟨board, host⟩
  rw [without, revised, List.forall₂_map_left_iff]
  exact List.forall₂_same.mpr fun turn _ => ⟨rfl, rfl, rfl, rfl⟩

theorem removed_runs_unset_demo :
    let registry := Machine.registry Terminal.machineType
    let calls : List Traversal.Call :=
      [.begin, .advance 0, .advance 0, .advance 1, .advance 0, .advance 0]
    let bare : Board := ⟨[⟨"visits", "visits", .integer, .integer 0⟩]⟩
    let without := turns Demo.played registry calls (.new .default) ⟨bare, Terminal.host⟩
    without.getLast?.bind Turn.outcome = some (.done ⟨.presented 7,
        [.entered 4, .applied 4 ⟨1, 0, []⟩, .entered 5, .evaluated 5 false, .entered 7]⟩) ∧
      List.Forall₂ (SameBut "machine") without
        (turns (Demo.played.unsetting "machine") registry calls (.new .default)
          ⟨Demo.played.board, Terminal.host⟩) :=
  ⟨rfl, removed_runs_unset Demo.played _ Demo.played.board _ "machine" _ Terminal.host _ _
    (by decide) rfl⟩

end Dialogue

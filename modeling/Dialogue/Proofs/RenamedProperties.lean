import Dialogue.Proofs.BoardLaws
import Dialogue.Proofs.Revisions
import Dialogue.Proofs.Steadiness
import Mathlib.Data.List.Forall2
/-!
Renaming a property while it is in use. Clauses and effects go by ids, so a renamed board and the board as
it was give two runs that cannot be told apart but by looking at the name.
-/
namespace Dialogue

variable {σ : Type}

def Property.renamed (name : String) (property : Property) : Property :=
  { property with name := name }

def Board.renamed (subject : PropertyId) (name : String) (board : Board) : Board :=
  board.update subject (Property.renamed name)

def Revision.rename (subject : PropertyId) (name : String) : Revision where
  clause := id
  effect := id
  board := Board.renamed subject name

namespace Board

theorem find_renamed (board : Board) (subject other : PropertyId) (name : String) :
    (board.renamed subject name).find? other =
      (board.find? other).map fun property =>
        property.renamed (if other = subject then name else property.name) := by
  rw [renamed, board.find_update subject other (Property.renamed name) fun _ => rfl]
  split
  · rfl
  · exact Option.map_id'.symm

theorem assign_renamed (board : Board) (subject other : PropertyId) (name : String)
    (value : Value) :
    (board.renamed subject name).update other (fun property => property.assign value) =
      (board.update other fun property => property.assign value).renamed subject name :=
  board.update_update subject other (Property.renamed name) (fun property => property.assign value)
    (fun _ => rfl) (fun _ => rfl) fun _ _ => rfl

theorem rename_renamed (board after : Board) (subject : PropertyId) (name : String)
    (accepted : board.rename subject name = .ok after) : after = board.renamed subject name := by
  simp only [rename] at accepted
  split at accepted
  · cases accepted
  · split at accepted
    · cases accepted
    next found held =>
      split at accepted
      next same =>
        cases accepted
        have fixed (property : Property) (hit : board.find? subject = some property) :
            property.renamed name = property := by
          cases held.symm.trans hit
          rw [← same]
          rfl
        exact (board.update_fixed subject (Property.renamed name) fixed).symm
      · split at accepted
        · cases accepted
        · cases accepted
          rfl

end Board

namespace Revision

theorem rename_graph (subject : PropertyId) (name : String) (graph : Graph) :
    (rename subject name).graph graph = graph := by
  have same (kept : Content) : (rename subject name).content kept = kept := by
    cases kept <;> simp [content, rename]
  simp [Revision.graph, same, Keyed.mapValues, Keyed.mapWithKey]

theorem rename_check (registry : Registry σ) (subject : PropertyId) (name : String)
    (clause : Clause) (board : Board) (host : Host σ) :
    clause.check registry (board.renamed subject name) host = clause.check registry board host := by
  obtain ⟨property, test⟩ := clause
  cases property with
  | none => rfl
  | some other =>
      simp only [Clause.check, board.find_renamed]
      cases board.find? other <;> rfl

theorem rename_run (registry : Registry σ) (subject : PropertyId) (name : String)
    (effect : Effect) (scene : Scene σ) :
    effect.run registry ((rename subject name).scene scene) =
      (effect.run registry scene).map (rename subject name).scene id := by
  obtain ⟨property, command⟩ := effect
  cases property with
  | none => rfl
  | some other =>
      simp only [Effect.run, rename, Revision.scene, Option.bind_some, Board.find_renamed]
      cases scene.board.find? other with
      | none => rfl
      | some found =>
          cases command with
          | unset => rfl
          | mutate mutation operand =>
              have mutated (name : String) :
                  (found.renamed name).mutated? mutation operand =
                    found.mutated? mutation operand := rfl
              simp only [Option.map_some, mutated]
              cases found.mutated? mutation operand with
              | none => rfl
              | some value =>
                  have written := scene.board.assign_renamed subject found.id name value
                  exact congrArg (fun board => (({ scene with board := board } : Scene σ), _)) written
          | call operation arguments =>
              simp only [Option.map_some, Property.renamed]
              split
              · split <;> rfl
              · rfl

theorem rename_faithful (registry : Registry σ) (subject : PropertyId) (name : String) :
    (rename subject name).Faithful registry where
  checks := rename_check registry subject name
  runs := rename_run registry subject name

end Revision

/-- What is authored on the board plays no part once there is a board to play on. -/
theorem walk_board (graph : Graph) (board : Board) (registry : Registry σ) (strict : Bool)
    (hops : Nat) (source : Endpoint) (events : List Event) (scene : Scene σ) :
    walk { graph with board := board } registry strict hops source events scene =
      walk graph registry strict hops source events scene := by
  induction hops generalizing source events scene with
  | zero =>
      rw [walk.eq_def, walk.eq_def graph]
      rfl
  | succ hops ih =>
      rw [walk.eq_def, walk.eq_def graph]
      simp only [ih]
      rfl

theorem turns_board (graph : Graph) (board : Board) (registry : Registry σ)
    (calls : List Traversal.Call) (traversal : Traversal) (scene : Scene σ) :
    turns { graph with board := board } registry calls traversal scene =
      turns graph registry calls traversal scene := by
  induction calls generalizing traversal scene with
  | nil => rfl
  | cons call rest ih =>
      have turned : call.perform { graph with board := board } registry traversal scene =
          call.perform graph registry traversal scene := by
        cases call with
        | begin => rfl
        | advance pin => simp only [Traversal.Call.perform, Traversal.advance, walk_board]
      simp only [turns, turned, ih]

/-- One turn after a renaming, and the same turn without it. -/
structure SameButName (subject : PropertyId) (name : String) (renamed plain : Turn σ) : Prop where
  traversal : renamed.traversal = plain.traversal
  outcome : renamed.outcome = plain.outcome
  host : renamed.scene.host = plain.scene.host
  board : renamed.scene.board =
    plain.scene.board.update subject fun property => { property with name := name }

theorem turns_renamed (graph : Graph) (registry : Registry σ) (calls : List Traversal.Call)
    (traversal : Traversal) (board : Board) (host : Host σ) (subject : PropertyId)
    (name : String) :
    List.Forall₂ (SameButName subject name)
      (turns graph registry calls traversal ⟨board.renamed subject name, host⟩)
      (turns graph registry calls traversal ⟨board, host⟩) := by
  have revised := (Revision.rename_faithful registry subject name).turns_revised graph calls
    traversal ⟨board, host⟩
  rw [Revision.rename_graph] at revised
  change turns graph registry calls traversal ⟨board.renamed subject name, host⟩ = _ at revised
  rw [revised, List.forall₂_map_left_iff]
  exact List.forall₂_same.mpr fun turn _ => ⟨rfl, rfl, rfl, rfl⟩

/-- A property may be renamed on the board that is played on, between any two calls, or on the authored
board before the first. Whatever is called then, and however it ends, gives the same answers with the same
events and leaves the same host, turn by turn. -/
theorem renaming_unnoticed (graph : Graph) (registry : Registry σ) (calls : List Traversal.Call)
    (traversal : Traversal) (host : Host σ) (subject : PropertyId) (name : String) :
    (∀ board renamed, board.rename subject name = .ok renamed →
      List.Forall₂ (SameButName subject name)
        (turns graph registry calls traversal ⟨renamed, host⟩)
        (turns graph registry calls traversal ⟨board, host⟩)) ∧
    ∀ renamed, graph.renameProperty subject name = .ok renamed →
      List.Forall₂ (SameButName subject name)
        (turns renamed registry calls traversal ⟨renamed.board, host⟩)
        (turns graph registry calls traversal ⟨graph.board, host⟩) := by
  constructor
  · intro board renamed accepted
    rw [board.rename_renamed renamed subject name accepted]
    exact turns_renamed graph registry calls traversal board host subject name
  · intro renamed accepted
    simp only [Graph.renameProperty] at accepted
    cases given : graph.board.rename subject name with
    | error error =>
        rw [given] at accepted
        cases accepted
    | ok after =>
        rw [given] at accepted
        cases accepted
        rw [turns_board, graph.board.rename_renamed after subject name given]
        exact turns_renamed graph registry calls traversal graph.board host subject name

theorem renaming_unnoticed_demo :
    let registry := Machine.registry Terminal.machineType
    let whole : List Traversal.Call := [.begin, .advance 0, .advance 0, .advance 0, .advance 0]
    let choosing : Traversal := ⟨.default, .atNode 3⟩
    let counted : Board :=
      ⟨[⟨"machine", "sample", .handle, .handle ⟨Machine.key, some ⟨0, Terminal.machineType.name⟩⟩⟩,
        ⟨"visits", "seen", .integer, .integer 1⟩]⟩
    ∃ first second, Demo.played.renameProperty "visits" "seen" = .ok first ∧
      counted.rename "visits" "been" = .ok second ∧
      (turns first registry whole (.new .default) ⟨first.board, Terminal.host⟩).map Turn.outcome =
        (turns Demo.played registry whole (.new .default)
          ⟨Demo.played.board, Terminal.host⟩).map Turn.outcome ∧
      (turns first registry whole (.new .default)
        ⟨first.board, Terminal.host⟩).getLast?.map (fun turn => turn.scene.board) = some counted ∧
      List.Forall₂ (SameButName "visits" "been")
        (turns first registry [.advance 0] choosing ⟨second, Terminal.host⟩)
        (turns first registry [.advance 0] choosing ⟨counted, Terminal.host⟩) := by
  intro registry whole choosing counted
  have before := (renaming_unnoticed Demo.played registry whole (.new .default) Terminal.host
    "visits" "seen").2 _ rfl
  refine ⟨_, _, rfl, rfl, ?_, rfl, ?_⟩
  · exact List.forall₂_eq_eq_eq ▸ List.forall₂_map_left_iff.mpr
      (List.forall₂_map_right_iff.mpr (before.imp fun _ _ same => same.outcome))
  · exact (renaming_unnoticed _ registry [.advance 0] choosing Terminal.host "visits" "been").1
      counted _ rfl

end Dialogue

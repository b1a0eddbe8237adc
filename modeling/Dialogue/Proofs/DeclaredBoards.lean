import Dialogue.Proofs.Sessions
/-!
Boards keep what was declared of them. Whatever a session runs into, ids, names and kinds stay what they
were, in their order, and every value stays of its declared kind; only values change.
-/
namespace Dialogue

variable {σ : Type}

def Property.IsTyped (property : Property) : Prop :=
  property.value.kind? = some property.kind ∨ property.kind = .handle ∧ property.value = .empty

def Board.declarations (board : Board) : List (PropertyId × String × Kind) :=
  board.properties.map fun property => (property.id, property.name, property.kind)

/-- Writes may turn the one board into the other. -/
structure Board.MayBecome (authored board : Board) : Prop where
  declarations : board.declarations = authored.declarations
  typed : ∀ property ∈ board.properties, property.IsTyped

theorem assign_isTyped (property : Property) (value : Value) : (property.assign value).IsTyped :=
  value.coerce_kind property.kind

theorem write_mayBecome (authored : Board) (effect : Effect) (board : Board)
    (before : authored.MayBecome board) : authored.MayBecome (effect.write board) := by
  constructor
  · have declared := write_map (fun property => (property.id, property.name, property.kind)) effect
      board fun _ _ => rfl
    exact declared.trans before.declarations
  · intro property member
    rcases write_cases effect board with same | ⟨id, value, assigned⟩
    · rw [same] at member
      exact before.typed property member
    · rw [assigned] at member
      rcases Board.mem_updateFirst id _ board.properties property member with
        stood | ⟨earlier, _, rfl⟩
      · exact before.typed property stood
      · exact assign_isTyped earlier value

section Keeping

variable (registry : Registry σ) (strict : Bool) (holds : Board → Prop)
  (kept : ∀ (effect : Effect) board, holds board → holds (effect.write board))
include kept

theorem enter_keeps (node : NodeId) (content : Content) (scene after : Scene σ) (flow : Flow)
    (caused : List Event) (begins : holds scene.board)
    (entered : content.enter registry strict node scene = (flow, caused, after)) :
    holds after.board := by
  suffices left : holds (content.enter registry strict node scene).2.2.board by rwa [entered] at left
  cases content with
  | start => exact begins
  | line => exact begins
  | choice => exact begins
  | condition test =>
      simp only [Content.enter]
      split
      · exact begins
      · split <;> exact begins
  | action change =>
      have ran := runEffects_keeps registry strict holds kept 0 change.effects scene begins
      simp only [Content.enter, Action.apply]
      generalize runEffects registry strict 0 change.effects scene = result at ran ⊢
      obtain ⟨after, _ | report⟩ := result
      · exact ran
      · simp only
        split <;> exact ran

/-- Wherever a walk stops, and also where an operation breaks down on the way. -/
theorem walk_keeps (graph : Graph) (hops : Nat) (source : Endpoint) (events : List Event)
    (scene : Scene σ) (begins : holds scene.board) :
    holds (walk graph registry strict hops source events scene).scene.board := by
  fun_induction walk graph registry strict hops source events scene with
  | case1 => exact begins
  | case2 => exact begins
  | case3 => exact begins
  | case4 => exact begins
  | case5 =>
      next entered onward => exact onward (enter_keeps _ _ _ kept _ _ _ _ _ _ begins entered)
  | case6 => next entered => exact enter_keeps _ _ _ kept _ _ _ _ _ _ begins entered
  | case7 => next entered => exact enter_keeps _ _ _ kept _ _ _ _ _ _ begins entered
  | case8 => next entered => exact enter_keeps _ _ _ kept _ _ _ _ _ _ begins entered

omit strict in
theorem advance_keeps (graph : Graph) (traversal : Traversal) (pin : Pin) (scene : Scene σ)
    (begins : holds scene.board) :
    holds (traversal.advance graph registry pin scene).2.1.board := by
  unfold Traversal.advance
  cases traversal.position with
  | idle => exact begins
  | ended => exact begins
  | atNode node =>
      have walked := walk_keeps registry traversal.config.strict holds kept graph
        traversal.config.maxHops ⟨node, pin⟩ [] scene begins
      simp only
      split <;> exact walked

end Keeping

namespace Player

theorem leave_keeps (player : Player σ) (pin : Pin) (host : Host σ) (holds : Board → Prop)
    (kept : ∀ (effect : Effect) board, holds board → holds (effect.write board))
    (begins : holds player.board) :
    (player.leave pin host).1.graph = player.graph ∧ holds (player.leave pin host).1.board := by
  have advanced := advance_keeps player.registry holds kept player.graph player.traversal pin
    ⟨player.board, host⟩ begins
  unfold leave
  generalize player.traversal.advance player.graph player.registry pin ⟨player.board, host⟩ =
    result at advanced ⊢
  obtain ⟨traversal, scene, answer | error | _⟩ := result
  · exact ⟨rfl, advanced⟩
  · exact ⟨rfl, advanced⟩
  · exact ⟨rfl, advanced⟩

def after (player : Player σ) (calls : List (Request × Host σ)) : Player σ :=
  calls.foldl (fun player call => (call.1.perform player call.2).1) player

/-- The player has the graph as it was given to it, and a board that writes made of the graph's. -/
structure Plays (given : Graph) (player : Player σ) : Prop where
  graph : player.graph = given
  board : given.board.MayBecome player.board

theorem leave_plays (given : Graph) (player : Player σ) (pin : Pin) (host : Host σ)
    (plays : Plays given player) : Plays given (player.leave pin host).1 := by
  obtain ⟨same, kept⟩ := player.leave_keeps pin host given.board.MayBecome
    (write_mayBecome given.board) plays.board
  exact ⟨same.trans plays.graph, kept⟩

theorem perform_plays (given : Graph) (typed : ∀ property ∈ given.board.properties, property.IsTyped)
    (player : Player σ) (request : Request) (host : Host σ) (plays : Plays given player) :
    Plays given (request.perform player host).1 := by
  obtain ⟨same, kept⟩ := plays
  -- A start asks nothing of the board it throws away.
  have restarted (traversal : Traversal) (shown : Option Presentation) :
      Plays given { player with
        board := player.graph.board, traversal := traversal, shown := shown } :=
    ⟨same, by rw [same]; exact ⟨rfl, typed⟩⟩
  have performs := player.performs host request
  generalize request.perform player host = result at performs ⊢
  cases performs with
  | unbegun => exact restarted _ _
  | @started id _ => exact leave_plays given (player.begun id) 0 host (restarted _ _)
  | left => exact leave_plays given player _ host ⟨same, kept⟩
  | chosen => exact leave_plays given player _ host ⟨same, kept⟩
  | refused => exact ⟨same, kept⟩
  | relocated => exact ⟨same, kept⟩

theorem after_plays (given : Graph) (typed : ∀ property ∈ given.board.properties, property.IsTyped)
    (calls : List (Request × Host σ)) (player : Player σ) (plays : Plays given player) :
    Plays given (player.after calls) := by
  induction calls generalizing player with
  | nil => exact plays
  | cons call rest ih =>
      exact ih _ (perform_plays given typed player call.1 call.2 plays)

/-- After every call of a session, answered, refused or crashed, and with every host. The board has the
properties the author declared, in that order, with values of the declared kinds; the graph is the one
that was given. -/
theorem session_keeps_declarations (graph : Graph) (registry : Registry σ) (localizer : Localizer)
    (settings : Settings) (typed : ∀ property ∈ graph.board.properties, property.IsTyped)
    (calls : List (Request × Host σ)) :
    let player := (Player.new graph registry localizer settings).after calls
    player.board.properties.map (fun property => (property.id, property.name, property.kind)) =
        graph.board.properties.map (fun property => (property.id, property.name, property.kind)) ∧
      (∀ property ∈ player.board.properties, property.IsTyped) ∧ player.graph = graph := by
  intro player
  have new : Plays graph (Player.new graph registry localizer settings) := ⟨rfl, rfl, typed⟩
  obtain ⟨same, declarations, stillTyped⟩ := after_plays graph typed calls _ new
  exact ⟨declarations, stillTyped, same⟩

def visit : Graph :=
  let machine := Value.handle ⟨Machine.key, some ⟨0, Terminal.machineType.name⟩⟩
  { table := "Cellar"
    nodes := Graph.file [
      (1, .of .start),
      (2, .of (.action ⟨[⟨some "n", .mutate .set (.text " 7 ")⟩, ⟨some "m", .call "Run" []⟩,
        ⟨some "n", .mutate .decrease (.boolean true)⟩]⟩))]
    connections := [.flow 1 0 2]
    board := ⟨[⟨"n", "visits", .integer, .integer 0⟩, ⟨"m", "machine", .handle, machine⟩]⟩
    nextId := 3 }

theorem session_keeps_declarations_demo :
    let run : Operation Machine :=
      .on Terminal.machineType "Run" [] .nothing fun machine _ => ⟨machine, [], none⟩
    let registry := Registry.empty.register Terminal.machineType.name "Machine" [run]
    let fresh : Player Machine := .new visit registry (fun _ _ _ => none) .default
    let player := fresh.after [(.start, Terminal.host), (.choose 4, Terminal.host)]
    (∀ property ∈ visit.board.properties, property.IsTyped) ∧
      (fresh.start Terminal.host).2.2 = .crashed ∧
      player.board.find? "n" = some ⟨"n", "visits", .integer, .integer 7⟩ ∧
      (∀ property ∈ player.board.properties, property.IsTyped) ∧ player.graph = visit := by
  intro run registry fresh player
  have typed : ∀ property ∈ visit.board.properties, property.IsTyped := by
    simp [visit, Property.IsTyped, Value.kind?]
  have kept := session_keeps_declarations visit registry (fun _ _ _ => none) .default typed
    [(.start, Terminal.host), (.choose 4, Terminal.host)]
  exact ⟨typed, by decide +kernel, by decide +kernel, kept.2⟩

end Player

end Dialogue

import Dialogue.Proofs.DeclaredBoards
/-!
Restarts. A start asks for nothing but what the player was made with and the locale of the moment. Calls
change neither the graph nor the operations, the localizer or the settings, so after any session a player
begins as a new one would.
-/
namespace Dialogue.Player

variable {σ : Type}

/-- The players were made with the same things. What was called on them since does not matter. -/
structure MadeAlike (left right : Player σ) : Prop where
  graph : left.graph = right.graph
  registry : left.registry = right.registry
  localizer : left.localizer = right.localizer
  config : left.traversal.config = right.traversal.config

theorem MadeAlike.trans {left middle right : Player σ} (first : MadeAlike left middle)
    (second : MadeAlike middle right) : MadeAlike left right :=
  ⟨first.graph.trans second.graph, first.registry.trans second.registry,
    first.localizer.trans second.localizer, first.config.trans second.config⟩

theorem leave_alike (player : Player σ) (pin : Pin) (host : Host σ) :
    MadeAlike (player.leave pin host).1 player := by
  have moves := player.leave_moves pin host
  generalize player.leave pin host = result at moves ⊢
  obtain ⟨after, left, outcome⟩ := result
  cases moves <;> exact ⟨rfl, rfl, rfl, rfl⟩

theorem perform_alike (player : Player σ) (request : Request) (host : Host σ) :
    MadeAlike (request.perform player host).1 player := by
  have performs := player.performs host request
  generalize request.perform player host = result at performs ⊢
  cases performs with
  | unbegun => exact ⟨rfl, rfl, rfl, rfl⟩
  | @started id first => exact (leave_alike (player.begun id) 0 host).trans ⟨rfl, rfl, rfl, rfl⟩
  | left => exact leave_alike player _ host
  | chosen => exact leave_alike player _ host
  | refused => exact ⟨rfl, rfl, rfl, rfl⟩
  | relocated => exact ⟨rfl, rfl, rfl, rfl⟩

theorem after_alike (player : Player σ) (calls : List (Request × Host σ)) :
    MadeAlike (player.after calls) player := by
  induction calls generalizing player with
  | nil => exact ⟨rfl, rfl, rfl, rfl⟩
  | cons call rest ih => exact (ih _).trans (perform_alike player call.1 call.2)

/-- A start throws away the board, the place in the dialogue and what is shown. -/
theorem start_alike (left right : Player σ) (alike : MadeAlike left right)
    (locale : left.locale = right.locale) (host : Host σ) : left.start host = right.start host := by
  obtain ⟨graph, registry, localizer, board, ⟨config, position⟩, here, shown⟩ := left
  obtain ⟨_, _, _, board', ⟨_, position'⟩, _, shown'⟩ := right
  obtain ⟨rfl, rfl, rfl, rfl⟩ := alike
  cases locale
  rfl

/-- Everything that calls come to, one by one: the player and the host they leave, and their outcome. Each
is made with whatever the host is at the time. -/
def replies (player : Player σ) :
    List (Request × Host σ) → List (Player σ × Host σ × Outcome PlayerError (Option Presentation))
  | [] => []
  | (request, host) :: rest =>
      let reply := request.perform player host
      reply :: reply.1.replies rest

/-- However a player was used, and wherever its session stopped, a restart gives the outcome and leaves the
player and the host that a start of a new player in its locale does; nor can they be told apart by anything
called on them from then on. -/
theorem restart_forgets (graph : Graph) (registry : Registry σ) (localizer : Localizer)
    (settings : Settings) (calls : List (Request × Host σ)) (host : Host σ) :
    let used := (Player.new graph registry localizer settings).after calls
    let fresh := Player.new graph registry localizer { settings with locale := used.locale }
    used.start host = fresh.start host ∧
      ∀ later, (used.start host).1.replies later = (fresh.start host).1.replies later := by
  intro used fresh
  have alike : MadeAlike used fresh := (after_alike _ calls).trans ⟨rfl, rfl, rfl, rfl⟩
  have same := start_alike used fresh alike rfl host
  exact ⟨same, fun later => by rw [same]⟩

end Dialogue.Player

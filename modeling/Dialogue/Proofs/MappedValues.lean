import Dialogue.Graph
/-!
Changing every value that is kept somewhere. Two changes in turn are one, a change that changes nothing
leaves all as it was, and only what a change does to the values that are there matters.
-/
namespace Dialogue

variable {f g : Value → Value}

namespace Test

theorem values_mapValues (test : Test) : (test.mapValues f).values = test.values.map f := by
  cases test <;> rfl

theorem mapValues_mapValues (test : Test) :
    (test.mapValues f).mapValues g = test.mapValues (g ∘ f) := by
  cases test <;> simp [mapValues]

theorem mapValues_id (test : Test) : test.mapValues id = test := by
  cases test <;> simp [mapValues]

theorem mapValues_congr (test : Test) (same : ∀ value ∈ test.values, f value = g value) :
    test.mapValues f = test.mapValues g := by
  cases test with
  | unset => rfl
  | compare comparator operand => simp [mapValues, same operand List.mem_cons_self]
  | call operation arguments => exact congrArg (call operation) (List.map_congr_left same)

end Test

namespace Command

theorem values_mapValues (command : Command) :
    (command.mapValues f).values = command.values.map f := by
  cases command <;> rfl

theorem mapValues_mapValues (command : Command) :
    (command.mapValues f).mapValues g = command.mapValues (g ∘ f) := by
  cases command <;> simp [mapValues]

theorem mapValues_id (command : Command) : command.mapValues id = command := by
  cases command <;> simp [mapValues]

theorem mapValues_congr (command : Command)
    (same : ∀ value ∈ command.values, f value = g value) :
    command.mapValues f = command.mapValues g := by
  cases command with
  | unset => rfl
  | mutate mutation operand => simp [mapValues, same operand List.mem_cons_self]
  | call operation arguments => exact congrArg (call operation) (List.map_congr_left same)

end Command

namespace Content

theorem values_mapValues (content : Content) :
    (content.mapValues f).values = content.values.map f := by
  cases content with
  | start => rfl
  | line line => rfl
  | choice answers => rfl
  | condition test =>
      simp only [mapValues, values, List.flatMap_map, List.map_flatMap, Test.values_mapValues]
  | action change =>
      simp only [mapValues, values, List.flatMap_map, List.map_flatMap, Command.values_mapValues]

theorem mapValues_mapValues (content : Content) :
    (content.mapValues f).mapValues g = content.mapValues (g ∘ f) := by
  cases content <;> simp [mapValues, Test.mapValues_mapValues, Command.mapValues_mapValues]

theorem mapValues_id (content : Content) : content.mapValues id = content := by
  cases content <;> simp [mapValues, Test.mapValues_id, Command.mapValues_id]

theorem mapValues_congr (content : Content)
    (same : ∀ value ∈ content.values, f value = g value) :
    content.mapValues f = content.mapValues g := by
  cases content with
  | start => rfl
  | line line => rfl
  | choice answers => rfl
  | condition condition =>
      have clauses (clause : Clause) (member : clause ∈ condition.clauses) :
          clause.test.mapValues f = clause.test.mapValues g := by
        apply clause.test.mapValues_congr
        intro value kept
        exact same value (List.mem_flatMap.mpr ⟨clause, member, kept⟩)
      simp only [mapValues]
      rw [List.map_congr_left fun clause member => by rw [clauses clause member]]
  | action action =>
      have effects (effect : Effect) (member : effect ∈ action.effects) :
          effect.command.mapValues f = effect.command.mapValues g := by
        apply effect.command.mapValues_congr
        intro value kept
        exact same value (List.mem_flatMap.mpr ⟨effect, member, kept⟩)
      simp only [mapValues]
      rw [List.map_congr_left fun effect member => by rw [effects effect member]]

end Content

namespace Board

theorem values_mapValues (board : Board) : (board.mapValues f).values = board.values.map f := by
  simp [mapValues, values]

theorem mapValues_mapValues (board : Board) :
    (board.mapValues f).mapValues g = board.mapValues (g ∘ f) := by
  simp [mapValues]

theorem mapValues_id (board : Board) : board.mapValues id = board := by
  simp [mapValues]

theorem mapValues_congr (board : Board) (same : ∀ value ∈ board.values, f value = g value) :
    board.mapValues f = board.mapValues g := by
  have properties (property : Property) (member : property ∈ board.properties) :
      f property.value = g property.value :=
    same property.value (List.mem_map_of_mem member)
  simp only [mapValues]
  rw [List.map_congr_left fun property member => by rw [properties property member]]

end Board

namespace Graph

theorem mem_values (graph : Graph) (value : Value) :
    value ∈ graph.values ↔ value ∈ graph.board.values ∨
      ∃ entry ∈ graph.nodes.entries, value ∈ entry.2.content.values := by
  simp only [values, Keyed.values, List.mem_append, List.flatMap_map, List.mem_flatMap]

theorem values_mapValues (graph : Graph) : (graph.mapValues f).values = graph.values.map f := by
  simp only [mapValues, values, Board.values_mapValues, Keyed.values, Keyed.mapValues,
    Keyed.mapWithKey, List.map_append, List.map_map, List.flatMap_map, List.map_flatMap,
    Function.comp_def, Content.values_mapValues]

theorem mapValues_mapValues (graph : Graph) :
    (graph.mapValues f).mapValues g = graph.mapValues (g ∘ f) := by
  simp [mapValues, Board.mapValues_mapValues, Keyed.mapValues, Keyed.mapWithKey,
    Content.mapValues_mapValues]

theorem mapValues_id (graph : Graph) : graph.mapValues id = graph := by
  simp [mapValues, Board.mapValues_id, Keyed.mapValues, Keyed.mapWithKey, Content.mapValues_id]

theorem mapValues_congr (graph : Graph) (same : ∀ value ∈ graph.values, f value = g value) :
    graph.mapValues f = graph.mapValues g := by
  have board : graph.board.mapValues f = graph.board.mapValues g :=
    graph.board.mapValues_congr fun value held => same value (List.mem_append_left _ held)
  have nodes : (graph.mapValues f).nodes = (graph.mapValues g).nodes := by
    apply Keyed.ext
    apply List.map_congr_left
    intro entry filed
    have content : entry.2.content.mapValues f = entry.2.content.mapValues g :=
      entry.2.content.mapValues_congr fun value used =>
        same value ((graph.mem_values value).mpr (Or.inr ⟨entry, filed, used⟩))
    simp only [content]
  calc graph.mapValues f
      = { graph with nodes := (graph.mapValues f).nodes, board := graph.board.mapValues f } := rfl
    _ = graph.mapValues g := by rw [nodes, board]; rfl

/-- A second change that undoes what the first one does to the values that are there. -/
theorem mapValues_undone (graph : Graph) (undone : ∀ value ∈ graph.values, g (f value) = value) :
    (graph.mapValues f).mapValues g = graph :=
  calc (graph.mapValues f).mapValues g
      = graph.mapValues (g ∘ f) := graph.mapValues_mapValues
    _ = graph.mapValues id := graph.mapValues_congr undone
    _ = graph := graph.mapValues_id

end Graph

end Dialogue

import Dialogue.Lint
import Dialogue.Proofs.SoundGraphs
/-!
Lint of sound graphs. It has nothing to say about their connections and names; what else it reports are
warnings.
-/
namespace Dialogue

variable {σ : Type}

theorem Lint.filter_dropped (wanted : Finding → Bool) (reports : List Diagnostic)
    (others : ∀ diagnostic ∈ reports, wanted diagnostic.finding = false) :
    reports.filter (fun diagnostic => wanted diagnostic.finding) = [] := by
  rw [List.filter_eq_nil_iff]
  intro diagnostic member
  rw [others diagnostic member]
  exact Bool.false_ne_true

namespace Graph

theorem start_inputs (node : Node) (pin : Pin) (into : pin < node.inputs.length) :
    node.kind ≠ .start := by
  intro start
  simp [Node.inputs, start, NodeKind.inputs] at into

theorem connection_clean (graph : Graph) (connection : Connection)
    (joins : graph.Joins connection) : Lint.connection graph connection = ([], true) := by
  obtain ⟨apart, ⟨source, foundSource, out⟩, target, foundTarget, into⟩ := joins
  have entered := start_inputs target connection.target.pin into
  simp only [Lint.connection, foundSource, foundTarget]
  rw [if_neg apart, if_neg entered, if_neg (Nat.not_le_of_lt out), if_neg (Nat.not_le_of_lt into)]
  rfl

theorem connections_clean (graph : Graph) (connections : List Connection) (used : List Endpoint)
    (joined : ∀ connection ∈ connections, graph.Joins connection)
    (single : (connections.map Connection.source).Nodup)
    (unused : ∀ connection ∈ connections, connection.source ∉ used) :
    Lint.connections graph connections used = [] := by
  -- The outputs seen so far only grow by the source of the connection just passed.
  induction connections generalizing used with
  | nil => rfl
  | cons connection rest ih =>
      obtain ⟨alone, tail⟩ := List.nodup_cons.mp single
      have clean := graph.connection_clean connection (joined connection List.mem_cons_self)
      have onward := ih (connection.source :: used)
        (fun other member => joined other (List.mem_cons_of_mem _ member)) tail
      simp only [Lint.connections, clean]
      rw [if_neg (unused connection List.mem_cons_self), onward]
      · rfl
      · intro other member seen
        rcases List.mem_cons.mp seen with same | seen
        · exact alone (same ▸ List.mem_map_of_mem member)
        · exact unused other (List.mem_cons_of_mem _ member) seen

theorem names_clean (properties : List Property) (seen : List String)
    (named : (properties.map Property.name).Nodup)
    (unseen : ∀ property ∈ properties, property.name ∉ seen) :
    Lint.names properties seen = [] := by
  induction properties generalizing seen with
  | nil => rfl
  | cons property rest ih =>
      obtain ⟨alone, tail⟩ := List.nodup_cons.mp named
      rw [Lint.names, if_neg (unseen property List.mem_cons_self)]
      apply ih _ tail
      intro other member again
      rcases List.mem_cons.mp again with same | again
      · exact alone (same ▸ List.mem_map_of_mem member)
      · exact unseen other (List.mem_cons_of_mem _ member) again

theorem starts_finding (graph : Graph) (diagnostic : Diagnostic)
    (reported : diagnostic ∈ Lint.starts graph) :
    diagnostic.finding = .missingStart ∨ diagnostic.finding = .multipleStart := by
  simp only [Lint.starts] at reported
  split at reported
  · rw [List.mem_singleton.mp reported]
    exact Or.inl rfl
  · obtain ⟨node, _, rfl⟩ := List.mem_map.mp reported
    exact Or.inr rfl

theorem reference_finding (board : Board) (node : NodeId) (property : Option PropertyId)
    (suits : Kind → Bool) (diagnostic : Diagnostic)
    (reported : diagnostic ∈ Lint.reference board node property suits) :
    diagnostic.finding = .unknownProperty ∨ diagnostic.finding = .invalidOperation := by
  unfold Lint.reference at reported
  split at reported
  · cases reported
  · split at reported
    · rw [List.mem_singleton.mp reported]
      exact Or.inl rfl
    · split at reported
      · cases reported
      · rw [List.mem_singleton.mp reported]
        exact Or.inr rfl

theorem references_finding (board : Board) (node : NodeId) (content : Content)
    (diagnostic : Diagnostic) (reported : diagnostic ∈ Lint.references board node content) :
    diagnostic.finding = .unknownProperty ∨ diagnostic.finding = .invalidOperation := by
  cases content with
  | start => cases reported
  | line => cases reported
  | choice => cases reported
  | condition test =>
      obtain ⟨clause, _, reported⟩ := List.mem_flatMap.mp reported
      exact reference_finding board node _ _ diagnostic reported
  | action change =>
      obtain ⟨effect, _, reported⟩ := List.mem_flatMap.mp reported
      exact reference_finding board node _ _ diagnostic reported

theorem loops_finding (graph : Graph) (diagnostic : Diagnostic)
    (reported : diagnostic ∈ Lint.loops graph) : diagnostic.finding = .silentCycle := by
  unfold Lint.loops at reported
  split at reported
  · rw [List.mem_singleton.mp reported]
    rfl
  · cases reported

/-- A finding that edits can bring about. -/
def Bearable (finding : Finding) : Prop :=
  finding.severity ≠ .error ∧ finding ≠ .duplicateOutput

theorem lint_bearable (graph : Graph) (sound : graph.Sound) (diagnostic : Diagnostic)
    (reported : diagnostic ∈ graph.lint) : Bearable diagnostic.finding := by
  have names := names_clean graph.board.properties [] sound.named fun _ _ => List.not_mem_nil
  have connections := graph.connections_clean graph.connections [] sound.joined sound.single
    fun _ _ => List.not_mem_nil
  unfold lint at reported
  rw [names, connections, List.append_nil, List.append_nil] at reported
  rcases List.mem_append.mp reported with reported | loop
  · rcases List.mem_append.mp reported with start | reference
    · rcases starts_finding graph diagnostic start with found | found <;> rw [found] <;>
        exact ⟨nofun, nofun⟩
    · obtain ⟨node, _, reference⟩ := List.mem_flatMap.mp reference
      rcases references_finding graph.board node.id node.content diagnostic reference with
        found | found <;> rw [found] <;> exact ⟨nofun, nofun⟩
  · rw [loops_finding graph diagnostic loop]
    exact ⟨nofun, nofun⟩

/-- Whatever edits an author makes, in whatever order and whether accepted or refused: connections join
two nodes through pins these have, none leads into a start node, no output has two, no two properties
have one name, and so lint reports neither an error nor an output with two connections. -/
theorem authored_without_errors (table : String) (edits : List (Edit σ)) :
    let graph := authored table edits
    (∀ connection ∈ graph.connections, ∃ source target,
      graph.node? connection.source.node = some source ∧
      graph.node? connection.target.node = some target ∧
      connection.source.node ≠ connection.target.node ∧
      connection.source.pin < source.outputs.length ∧
      connection.target.pin < target.inputs.length ∧ target.kind ≠ .start) ∧
    (graph.connections.map Connection.source).Nodup ∧
    (graph.board.properties.map Property.name).Nodup ∧
    ∀ diagnostic ∈ graph.lint,
      diagnostic.severity ≠ .error ∧ diagnostic.finding ≠ .duplicateOutput := by
  intro graph
  have sound : graph.Sound := authored_sound table edits
  refine ⟨?_, sound.single, sound.named, ?_⟩
  · intro connection member
    obtain ⟨apart, ⟨source, foundSource, out⟩, target, foundTarget, into⟩ :=
      sound.joined connection member
    exact ⟨source, target, foundSource, foundTarget, apart, out, into,
      start_inputs target connection.target.pin into⟩
  · exact fun diagnostic reported => lint_bearable graph sound diagnostic reported

/-- Connecting a pin twice, or into a start node, is refused. -/
example :
    (authored "tale" ([.addNode (.of .start), .addNode (.line "hello"), .link 1 0 2, .link 1 0 2,
      .link 2 0 1] : List (Edit Unit))).connections = [.flow 1 0 2] := by
  rfl

end Graph

end Dialogue

import Dialogue.Proofs.Connecting
import Dialogue.Proofs.Wiring
/-!
Graphs whose connections lint accepts. Lint goes through the connections once and leaves some of its tests
out along the way; where it has nothing to say in the end, it has left out none.
-/
namespace Dialogue

namespace Graph

/-- Lint says nothing of a connection by itself exactly if it joins two pins, and then it has looked at
them. -/
theorem connection_clean_iff (graph : Graph) (connection : Connection) :
    (Lint.connection graph connection).1 = [] ↔ graph.Joins connection := by
  constructor
  · exact graph.joins_of_clean connection
  · intro joins
    rw [graph.connection_clean connection joins]

theorem connections_clean_iff (graph : Graph) (connections : List Connection) (used : List Endpoint) :
    Lint.connections graph connections used = [] ↔
      (∀ connection ∈ connections, graph.Joins connection) ∧
        (connections.map Connection.source).Nodup ∧
        ∀ connection ∈ connections, connection.source ∉ used := by
  constructor
  · -- A connection without a finding has reached its pins, so its output counts as used from there on.
    induction connections generalizing used with
    | nil => simp
    | cons head rest ih =>
        intro clean
        have own : (Lint.connection graph head).1 = [] := by
          simp only [Lint.connections] at clean
          split at clean
          · exact (List.append_eq_nil_iff.mp (List.append_eq_nil_iff.mp clean).1).1
          · exact (List.append_eq_nil_iff.mp clean).1
        have joins := (graph.connection_clean_iff head).mp own
        simp only [Lint.connections, graph.connection_clean head joins, if_true, List.nil_append,
          List.append_eq_nil_iff, ite_eq_right_iff, List.cons_ne_nil, imp_false] at clean
        obtain ⟨unused, onward⟩ := clean
        obtain ⟨joined, single, fresh⟩ := ih (head.source :: used) onward
        refine ⟨List.forall_mem_cons.mpr ⟨joins, joined⟩, ?_, List.forall_mem_cons.mpr ⟨unused, ?_⟩⟩
        · refine List.nodup_cons.mpr ⟨fun again => ?_, single⟩
          obtain ⟨other, member, same⟩ := List.mem_map.mp again
          exact fresh other member (same ▸ List.mem_cons_self)
        · intro other member seen
          exact fresh other member (List.mem_cons_of_mem _ seen)
  · rintro ⟨joined, single, unused⟩
    exact graph.connections_clean connections used joined single unused

theorem joins_iff (graph : Graph) (connection : Connection) :
    graph.Joins connection ↔ ∃ source target,
      graph.node? connection.source.node = some source ∧
      graph.node? connection.target.node = some target ∧
      connection.source.node ≠ connection.target.node ∧
      connection.source.pin < source.outputs.length ∧
      connection.target.pin < target.inputs.length ∧ target.kind ≠ .start := by
  constructor
  · rintro ⟨apart, ⟨source, foundSource, out⟩, target, foundTarget, into⟩
    exact ⟨source, target, foundSource, foundTarget, apart, out, into,
      start_inputs target connection.target.pin into⟩
  · rintro ⟨source, target, foundSource, foundTarget, apart, out, into, _⟩
    exact ⟨apart, ⟨source, foundSource, out⟩, target, foundTarget, into⟩

theorem unreported_iff (graph : Graph) :
    (∀ diagnostic ∈ graph.lint, diagnostic.finding ∉ [Finding.unknownNode, .selfConnection,
        .connectionIntoStart, .pinOutOfRange, .duplicateOutput]) ↔
      (∀ connection ∈ graph.connections, graph.Joins connection) ∧
        (graph.connections.map Connection.source).Nodup := by
  have listed (finding : Finding) : finding.isOfConnection = true ↔
      finding ∈ [Finding.unknownNode, .selfConnection, .connectionIntoStart, .pinOutOfRange,
        .duplicateOutput] := by
    cases finding <;> simp [Finding.isOfConnection]
  have silent : (∀ diagnostic ∈ graph.lint, diagnostic.finding ∉ [Finding.unknownNode,
      .selfConnection, .connectionIntoStart, .pinOutOfRange, .duplicateOutput]) ↔
      graph.connectionReports = [] := by
    simp only [connectionReports, List.filter_eq_nil_iff, listed]
  rw [silent, connectionReports_eq, connections_clean_iff]
  simp

/-- Lint reports nothing about connections exactly if each leads from an output of one node to an input of
another that is no start node, and no two leave one output. Then each of them is the one that is followed. -/
theorem connections_unreported_iff (graph : Graph) :
    ((∀ diagnostic ∈ graph.lint, diagnostic.finding ∉ [Finding.unknownNode, .selfConnection,
        .connectionIntoStart, .pinOutOfRange, .duplicateOutput]) ↔
      (∀ connection ∈ graph.connections, ∃ source target,
        graph.node? connection.source.node = some source ∧
        graph.node? connection.target.node = some target ∧
        connection.source.node ≠ connection.target.node ∧
        connection.source.pin < source.outputs.length ∧
        connection.target.pin < target.inputs.length ∧ target.kind ≠ .start) ∧
      graph.connections.Pairwise fun left right => left.source ≠ right.source) ∧
    ((∀ diagnostic ∈ graph.lint, diagnostic.finding ∉ [Finding.unknownNode, .selfConnection,
        .connectionIntoStart, .pinOutOfRange, .duplicateOutput]) →
      ∀ connection ∈ graph.connections,
        graph.target? connection.source = some connection.target) := by
  rw [unreported_iff]
  constructor
  · simp only [joins_iff, List.Nodup, List.pairwise_map]
  · rintro ⟨_, single⟩ connection member
    exact ((graph.represents_target single).entries _ _).mp member

/-- The second connection is never followed, and lint says so once the first joins two pins. -/
example :
    (({ circling with connections := [.flow 2 0 3, .flow 2 0 3] } : Graph).lint.map
      Diagnostic.finding) = [.duplicateOutput] := by
  decide

end Graph

end Dialogue

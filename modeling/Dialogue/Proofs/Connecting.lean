import Dialogue.Proofs.LintOfSound
/-!
What `connect` refuses and what lint reports of a connection that was pushed without asking. The two
agree as long as lint looked at the pins of whatever left the output before.
-/
namespace Dialogue

def Finding.isOfConnection : Finding → Bool
  | .unknownNode | .selfConnection | .connectionIntoStart | .pinOutOfRange | .duplicateOutput => true
  | .missingStart | .multipleStart | .duplicateProperty | .unknownProperty | .invalidOperation
  | .silentCycle => false

namespace Lint

/-- The outputs that lint remembers as used behind some connections. -/
def outputsAfter (graph : Graph) : List Connection → List Endpoint → List Endpoint
  | [], used => used
  | head :: rest, used =>
      outputsAfter graph rest (if (connection graph head).2 then head.source :: used else used)

theorem connections_append (graph : Graph) (left right : List Connection) (used : List Endpoint) :
    connections graph (left ++ right) used =
      connections graph left used ++ connections graph right (outputsAfter graph left used) := by
  induction left generalizing used with
  | nil => rfl
  | cons head rest ih =>
      by_cases reached : (connection graph head).2 = true
      · simp [connections, outputsAfter, reached, ih]
      · simp [connections, outputsAfter, reached, ih]

theorem mem_outputsAfter (graph : Graph) (connections : List Connection) (used : List Endpoint)
    (output : Endpoint) :
    output ∈ outputsAfter graph connections used ↔
      output ∈ used ∨
        ∃ earlier ∈ connections, earlier.source = output ∧ (connection graph earlier).2 = true := by
  induction connections generalizing used with
  | nil => simp [outputsAfter]
  | cons head rest ih =>
      rw [outputsAfter, ih]
      by_cases reached : (connection graph head).2 = true
      · simp only [reached, if_true, List.mem_cons, exists_eq_or_imp, and_true]
        rw [eq_comm (a := output), or_assoc, or_left_comm]
      · simp [reached]

theorem connections_pushed (graph : Graph) (added : Connection) (connections : List Connection)
    (used : List Endpoint) :
    Lint.connections (graph.push added) connections used = Lint.connections graph connections used := by
  induction connections generalizing used with
  | nil => rfl
  | cons head rest ih =>
      have same : connection (graph.push added) head = connection graph head := rfl
      simp only [Lint.connections, same, ih]

theorem connection_findings (graph : Graph) (checked : Connection) (diagnostic : Diagnostic)
    (reported : diagnostic ∈ (connection graph checked).1) :
    diagnostic.finding.isOfConnection = true := by
  simp only [connection] at reported
  split at reported
  · rw [List.mem_singleton.mp reported]
    rfl
  · rw [List.mem_singleton.mp reported]
    rfl
  · split at reported
    · rw [List.mem_singleton.mp reported]
      rfl
    · split at reported
      · rw [List.mem_singleton.mp reported]
        rfl
      · rcases List.mem_append.mp reported with out | into
        · split at out
          · rw [List.mem_singleton.mp out]
            rfl
          · cases out
        · split at into
          · rw [List.mem_singleton.mp into]
            rfl
          · cases into

theorem connections_findings (graph : Graph) (connections : List Connection) (used : List Endpoint) :
    ∀ diagnostic ∈ Lint.connections graph connections used,
      diagnostic.finding.isOfConnection = true := by
  induction connections generalizing used with
  | nil => intro diagnostic reported; cases reported
  | cons head rest ih =>
      intro diagnostic reported
      have own := connection_findings graph head diagnostic
      by_cases reached : (connection graph head).2 = true
      · simp only [Lint.connections, reached, if_true, List.mem_append] at reported
        rcases reported with (found | again) | later
        · exact own found
        · split at again
          · rw [List.mem_singleton.mp again]
            rfl
          · cases again
        · exact ih _ diagnostic later
      · simp only [Lint.connections, reached, Bool.false_eq_true, if_false, List.mem_append]
          at reported
        rcases reported with found | later
        · exact own found
        · exact ih _ diagnostic later

theorem names_finding (properties : List Property) (seen : List String) (diagnostic : Diagnostic)
    (reported : diagnostic ∈ names properties seen) : diagnostic.finding = .duplicateProperty := by
  induction properties generalizing seen with
  | nil => cases reported
  | cons property rest ih =>
      by_cases again : property.name ∈ seen
      · rw [names, if_pos again] at reported
        rcases List.mem_cons.mp reported with rfl | later
        · rfl
        · exact ih _ later
      · rw [names, if_neg again] at reported
        exact ih _ reported

section Dropped

variable (wanted : Finding → Bool)

theorem starts_dropped (graph : Graph) (missing : wanted .missingStart = false)
    (multiple : wanted .multipleStart = false) :
    (starts graph).filter (fun diagnostic => wanted diagnostic.finding) = [] := by
  refine filter_dropped wanted _ ?_
  intro diagnostic reported
  rcases graph.starts_finding diagnostic reported with found | found
  · rw [found, missing]
  · rw [found, multiple]

theorem names_dropped (properties : List Property) (seen : List String)
    (unwanted : wanted .duplicateProperty = false) :
    (names properties seen).filter (fun diagnostic => wanted diagnostic.finding) = [] := by
  refine filter_dropped wanted _ ?_
  intro diagnostic reported
  rw [names_finding properties seen diagnostic reported, unwanted]

theorem connections_dropped (graph : Graph) (used : List Endpoint)
    (unwanted : ∀ finding : Finding, finding.isOfConnection = true → wanted finding = false) :
    (connections graph graph.connections used).filter (fun diagnostic => wanted diagnostic.finding) =
      [] := by
  refine filter_dropped wanted _ ?_
  intro diagnostic reported
  exact unwanted _ (connections_findings graph graph.connections used diagnostic reported)

theorem references_dropped (graph : Graph) (unknown : wanted .unknownProperty = false)
    (invalid : wanted .invalidOperation = false) :
    (graph.nodes.values.flatMap fun node => references graph.board node.id node.content).filter
      (fun diagnostic => wanted diagnostic.finding) = [] := by
  refine filter_dropped wanted _ ?_
  intro diagnostic reported
  obtain ⟨node, _, reported⟩ := List.mem_flatMap.mp reported
  rcases Graph.references_finding graph.board node.id node.content diagnostic reported with
    found | found
  · rw [found, unknown]
  · rw [found, invalid]

theorem loops_dropped (graph : Graph) (unwanted : wanted .silentCycle = false) :
    (loops graph).filter (fun diagnostic => wanted diagnostic.finding) = [] := by
  refine filter_dropped wanted _ ?_
  intro diagnostic reported
  rw [graph.loops_finding diagnostic reported, unwanted]

end Dropped

end Lint

namespace Graph

def connectionReports (graph : Graph) : List Diagnostic :=
  graph.lint.filter fun diagnostic => diagnostic.finding.isOfConnection

theorem connectionReports_eq (graph : Graph) :
    graph.connectionReports = Lint.connections graph graph.connections [] := by
  have starts := Lint.starts_dropped Finding.isOfConnection graph rfl rfl
  have names := Lint.names_dropped Finding.isOfConnection graph.board.properties [] rfl
  have references := Lint.references_dropped Finding.isOfConnection graph rfl rfl
  have loops := Lint.loops_dropped Finding.isOfConnection graph rfl
  have kept := List.filter_eq_self.mpr (Lint.connections_findings graph graph.connections [])
  rw [connectionReports, lint]
  simp only [List.filter_append, starts, names, references, loops, kept, List.nil_append,
    List.append_nil]

/-- Lint looks at the pins of a connection that joins two nodes and does not lead into a start node. -/
def Reaches (graph : Graph) (connection : Connection) : Prop :=
  connection.source.node ≠ connection.target.node ∧
    (∃ node, graph.node? connection.source.node = some node) ∧
    ∃ node, graph.node? connection.target.node = some node ∧ node.kind ≠ .start

theorem reached_iff (graph : Graph) (connection : Connection) :
    (Lint.connection graph connection).2 = true ↔ graph.Reaches connection := by
  simp only [Lint.connection, Reaches]
  cases source : graph.node? connection.source.node with
  | none => simp
  | some sourceNode =>
      cases target : graph.node? connection.target.node with
      | none => simp
      | some targetNode =>
          by_cases loop : connection.source.node = connection.target.node
          · simp [loop]
          · by_cases start : targetNode.kind = .start
            · simp [loop, start]
            · simp [loop, start]

theorem joins_of_clean (graph : Graph) (connection : Connection)
    (clean : (Lint.connection graph connection).1 = []) : graph.Joins connection := by
  simp only [Lint.connection] at clean
  cases source : graph.node? connection.source.node with
  | none => simp [source] at clean
  | some sourceNode =>
      cases target : graph.node? connection.target.node with
      | none => simp [source, target] at clean
      | some targetNode =>
          by_cases loop : connection.source.node = connection.target.node
          · simp [target, loop] at clean
          · by_cases start : targetNode.kind = .start
            · simp [source, target, loop, start] at clean
            · simp only [source, target, loop, start, if_false, List.append_eq_nil_iff,
                ite_eq_right_iff, List.cons_ne_nil, imp_false] at clean
              obtain ⟨out, into⟩ := clean
              exact ⟨loop, ⟨sourceNode, source, Nat.lt_of_not_le out⟩,
                targetNode, target, Nat.lt_of_not_le into⟩

theorem connect_ok_iff (graph : Graph) (connection : Connection) :
    graph.connect connection = .ok (graph.push connection) ↔
      graph.Joins connection ∧
        ∀ earlier ∈ graph.connections, earlier.source ≠ connection.source := by
  have unused : graph.target? connection.source = none ↔
      ∀ earlier ∈ graph.connections, earlier.source ≠ connection.source := by
    rw [target_none_iff]
    simp
  rw [← unused, ← objection_none_iff, connect]
  cases graph.objection? connection with
  | none => simp
  | some error => simp

/-- A pushed connection goes unreported if it joins two pins and lint overlooked whatever leaves its
output already. -/
theorem pushed_unreported_iff (graph : Graph) (connection : Connection) :
    (graph.push connection).connectionReports = graph.connectionReports ↔
      graph.Joins connection ∧
        ∀ earlier ∈ graph.connections, earlier.source = connection.source →
          ¬graph.Reaches earlier := by
  have seen : connection.source ∈ Lint.outputsAfter graph graph.connections [] ↔
      ∃ earlier ∈ graph.connections,
        earlier.source = connection.source ∧ graph.Reaches earlier := by
    rw [Lint.mem_outputsAfter]
    simp [reached_iff]
  rw [connectionReports_eq, connectionReports_eq, Lint.connections_pushed]
  simp only [push, Lint.connections_append, List.append_right_eq_self]
  constructor
  · intro silent
    have clean : (Lint.connection graph connection).1 = [] := by
      by_cases reached : (Lint.connection graph connection).2 = true
      · simp only [Lint.connections, reached, if_true, List.append_eq_nil_iff] at silent
        exact silent.1.1
      · simp only [Lint.connections, reached, Bool.false_eq_true, if_false,
          List.append_eq_nil_iff] at silent
        exact silent.1
    have joins := graph.joins_of_clean connection clean
    refine ⟨joins, ?_⟩
    intro earlier member same reaches
    have used := seen.mpr ⟨earlier, member, same, reaches⟩
    simp [Lint.connections, graph.connection_clean connection joins, used] at silent
  · rintro ⟨joins, overlooked⟩
    have unused : connection.source ∉ Lint.outputsAfter graph graph.connections [] := by
      intro used
      obtain ⟨earlier, member, same, reaches⟩ := seen.mp used
      exact overlooked earlier member same reaches
    simp [Lint.connections, graph.connection_clean connection joins, unused]

/-- A connection is accepted exactly if lint has nothing new to say once it is pushed and lint reached
the pins of every connection that leaves its output already. Lint keeps silent about a pushed connection
exactly if it joins two pins and none of those before it on its output was reached. -/
theorem connect_iff_unreported (graph : Graph) (connection : Connection) :
    (graph.connect connection = .ok (graph.push connection) ↔
      (graph.push connection).connectionReports = graph.connectionReports ∧
        ∀ earlier ∈ graph.connections, earlier.source = connection.source →
          graph.Reaches earlier) ∧
    ((graph.push connection).connectionReports = graph.connectionReports ↔
      graph.Joins connection ∧
        ∀ earlier ∈ graph.connections, earlier.source = connection.source →
          ¬graph.Reaches earlier) := by
  refine ⟨?_, graph.pushed_unreported_iff connection⟩
  rw [connect_ok_iff, pushed_unreported_iff]
  constructor
  · rintro ⟨joins, alone⟩
    refine ⟨⟨joins, ?_⟩, ?_⟩
    · intro earlier member same
      exact absurd same (alone earlier member)
    · intro earlier member same
      exact absurd same (alone earlier member)
  · rintro ⟨⟨joins, overlooked⟩, reached⟩
    refine ⟨joins, ?_⟩
    intro earlier member same
    exact overlooked earlier member same (reached earlier member same)

def circling : Graph :=
  { new "tale" with
    nodes := Graph.file [(1, .of .start), (2, .line "hello"), (3, .line "other")]
    connections := [.flow 2 0 2] }

/-- Lint says of the first connection only that it leads back, forgets that it uses the output, and so
lets a second one pass that is never followed and that `connect` refuses. -/
theorem shadowed_connection_unreported :
    ¬∀ (graph : Graph) (connection : Connection),
      (∃ after, graph.connect connection = .ok after) ↔
        (graph.push connection).connectionReports = graph.connectionReports := by
  intro agree
  have silent : (circling.push (.flow 2 0 3)).connectionReports = circling.connectionReports := by
    decide
  have refused : circling.connect (.flow 2 0 3) = .error (.pinOccupied ⟨2, 0⟩) := by rfl
  obtain ⟨after, accepted⟩ := (agree circling (.flow 2 0 3)).mpr silent
  rw [refused] at accepted
  cases accepted

end Graph

end Dialogue

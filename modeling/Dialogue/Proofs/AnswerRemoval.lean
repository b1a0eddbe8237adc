import Dialogue.Proofs.Wiring
/-!
Taking an answer out of a choice. The other answers keep their order and lead where they led, whatever
connections the graph holds: several of one pin, some of pins that are not there, some that lead back to
the choice.
-/
namespace Dialogue.Graph

variable {σ : Type}

def branches (graph : Graph) (id : NodeId) (answers : List (Option String)) :
    List (Option String × Option Endpoint) :=
  answers.mapIdx fun pin answer => (answer, graph.target? ⟨id, pin⟩)

def restored (id : NodeId) (index : Nat) (connection : Connection) : Connection :=
  { connection with source := unshift id index connection.source }

/-- Answer `index` of the choice is gone from `after`, and nothing but what left it. -/
structure LosesAnswer (before after : Graph) (id : NodeId) (index : Nat) (own : NodeId)
    (position : Point) (answers : List (Option String)) : Prop where
  remaining : after.node? id = some ⟨own, position, .choice (answers.eraseIdx index)⟩
  /-- Each remaining answer still leads where it led. -/
  together : after.branches id (answers.eraseIdx index) =
    (before.branches id answers).eraseIdx index
  ahead : ∀ pin < index, after.target? ⟨id, pin⟩ = before.target? ⟨id, pin⟩
  behind : ∀ pin, index ≤ pin → after.target? ⟨id, pin⟩ = before.target? ⟨id, pin + 1⟩
  elsewhere : ∀ source, source.node ≠ id → after.target? source = before.target? source
  /-- Moved back to their old pins, the connections are those that did not leave the answer, in their
  order. -/
  kept : after.connections.map (restored id index) =
    before.connections.filter fun connection => connection.source ≠ ⟨id, index⟩
  /-- Connections of other nodes stand as they are. -/
  unmoved : (after.connections.filter fun connection => connection.source.node ≠ id) =
    before.connections.filter fun connection => connection.source.node ≠ id
  entering : (after.connections.filter fun connection =>
      connection.source.node ≠ id ∧ connection.target.node = id) =
    before.connections.filter fun connection =>
      connection.source.node ≠ id ∧ connection.target.node = id
  others : ∀ other ≠ id, after.node? other = before.node? other
  listed : after.nodes.keys = before.nodes.keys
  table : after.table = before.table
  board : after.board = before.board
  nextId : after.nextId = before.nextId

inductive KeepsAnswers (graph : Graph) (id : NodeId) (index : Nat) : GraphError → Prop where
  | unknown (missing : graph.node? id = none) : KeepsAnswers graph id index (.unknownNode id)
  | notAChoice {node : Node} (stored : graph.node? id = some node) (other : node.kind ≠ .choice) :
      KeepsAnswers graph id index (.notAChoice id)
  | outOfRange {own : NodeId} {position : Point} {answers : List (Option String)}
      (stored : graph.node? id = some ⟨own, position, .choice answers⟩)
      (beyond : answers.length ≤ index) :
      KeepsAnswers graph id index (.choiceOutOfRange id index)

theorem unshift_ahead (id : NodeId) (index : Nat) (pin : Pin) (ahead : pin < index) :
    unshift id index ⟨id, pin⟩ = ⟨id, pin⟩ :=
  if_neg fun reached => Nat.not_le_of_lt ahead reached.2

theorem unshift_behind (id : NodeId) (index : Nat) (pin : Pin) (behind : index ≤ pin) :
    unshift id index ⟨id, pin⟩ = ⟨id, pin + 1⟩ :=
  if_pos ⟨rfl, behind⟩

theorem unshift_elsewhere (id : NodeId) (index : Nat) (source : Endpoint)
    (elsewhere : source.node ≠ id) : unshift id index source = source :=
  if_neg fun own => elsewhere own.1

theorem shiftPin_none_iff (id : NodeId) (index : Nat) (connection : Connection) :
    shiftPin id index connection = none ↔ connection.source = ⟨id, index⟩ := by
  obtain ⟨⟨node, pin⟩, target⟩ := connection
  by_cases own : node = id
  · by_cases hit : pin = index
    · simp [shiftPin, own, hit]
    · by_cases later : index < pin
      · simp [shiftPin, own, hit, later]
      · simp [shiftPin, own, hit, later]
  · simp [shiftPin, own]

theorem shifted_restored (id : NodeId) (index : Nat) (connections : List Connection) :
    (connections.filterMap (shiftPin id index)).map (restored id index) =
      connections.filter fun connection => connection.source ≠ ⟨id, index⟩ := by
  rw [List.map_filterMap, ← List.filterMap_eq_filter]
  refine List.filterMap_congr fun connection _ => ?_
  cases shifted : shiftPin id index connection with
  | none =>
      have dropped := (shiftPin_none_iff id index connection).mp shifted
      simp [Option.guard, dropped]
  | some moved =>
      have stays : connection.source ≠ ⟨id, index⟩ := fun dropped => by
        rw [(shiftPin_none_iff id index connection).mpr dropped] at shifted
        cases shifted
      obtain ⟨source, target⟩ := shiftPin_some id index connection moved shifted
      have same : restored id index moved = connection := by
        simp [restored, ← source, target]
      simp [Option.guard, stays, same]

theorem shifted_elsewhere (id : NodeId) (index : Nat) (wanted : Connection → Bool)
    (connections : List Connection)
    (elsewhere : ∀ connection, wanted connection = true → connection.source.node ≠ id) :
    (connections.filterMap (shiftPin id index)).filter wanted = connections.filter wanted := by
  rw [List.filter_filterMap, ← List.filterMap_eq_filter]
  refine List.filterMap_congr fun connection _ => ?_
  by_cases own : connection.source.node = id
  · -- It still leaves the choice, so it is not wanted before or after.
    have unwanted (other : Connection) (same : other.source.node = id) : wanted other = false :=
      Bool.eq_false_iff.mpr fun wants => elsewhere other wants same
    cases shifted : shiftPin id index connection with
    | none => simp [Option.guard, unwanted connection own]
    | some moved =>
        have source := (shiftPin_some id index connection moved shifted).1
        rw [source, unshift_node] at own
        rw [Option.filter_some, unwanted moved own, Option.guard, unwanted connection]
        · rfl
        · rw [source, unshift_node, own]
  · rw [shiftPin, if_pos own, Option.filter_some, Option.guard]

theorem branches_erased (before after : Graph) (id : NodeId) (index : Nat)
    (answers : List (Option String))
    (closed : after.target? = Wiring.close before.target? id index) :
    after.branches id (answers.eraseIdx index) = (before.branches id answers).eraseIdx index := by
  apply List.ext_getElem?
  intro pin
  simp only [branches, List.getElem?_mapIdx, List.getElem?_eraseIdx, closed, Wiring.close]
  split
  next ahead => rw [unshift_ahead id index pin ahead]
  next reached => rw [unshift_behind id index pin (Nat.le_of_not_lt reached)]

theorem removeChoice_loses (graph : Graph) (id : NodeId) (index : Nat) (own : NodeId)
    (position : Point) (answers : List (Option String))
    (stored : graph.node? id = some ⟨own, position, .choice answers⟩)
    (within : index < answers.length) :
    ∃ after, graph.removeChoice id index = .ok after ∧
      graph.LosesAnswer after id index own position answers := by
  have choice : graph.answers? id = .ok answers := by
    simp only [answers?, stored]
  refine ⟨{ graph.setContent id (.choice (answers.eraseIdx index)) with
    connections := graph.connections.filterMap (shiftPin id index) }, ?_, ?_⟩
  · simp only [removeChoice, choice, bind, Except.bind, within, if_true]
    rfl
  · have closed := graph.shifted_target { graph.setContent id (.choice (answers.eraseIdx index)) with
      connections := graph.connections.filterMap (shiftPin id index) } id index rfl
    constructor
    · simp only [node?] at stored ⊢
      simp [setContent, stored]
    · exact branches_erased _ _ _ _ _ closed
    · intro pin ahead
      rw [closed, Wiring.close, unshift_ahead id index pin ahead]
    · intro pin behind
      rw [closed, Wiring.close, unshift_behind id index pin behind]
    · intro source elsewhere
      rw [closed, Wiring.close, unshift_elsewhere id index source elsewhere]
    · exact shifted_restored id index graph.connections
    · exact shifted_elsewhere id index _ graph.connections fun connection => of_decide_eq_true
    · exact shifted_elsewhere id index _ graph.connections fun connection wanted =>
        (of_decide_eq_true wanted).1
    · intro other different
      simp only [node?]
      simp [setContent, different]
    · exact Keyed.keys_mapWithKey _ _
    · rfl
    · rfl
    · rfl

theorem removeChoice_refused_iff (graph : Graph) (id : NodeId) (index : Nat) (error : GraphError) :
    graph.removeChoice id index = .error error ↔ graph.KeepsAnswers id index error := by
  constructor
  · intro refused
    simp only [removeChoice, answers?, bind, Except.bind] at refused
    cases stored : graph.node? id with
    | none =>
        simp only [stored] at refused
        cases refused
        exact .unknown stored
    | some node =>
        obtain ⟨own, position, content⟩ := node
        cases content with
        | choice answers =>
            simp only [stored] at refused
            split at refused
            · cases refused
            next beyond =>
              cases refused
              exact .outOfRange stored (Nat.le_of_not_lt beyond)
        | _ =>
            simp only [stored] at refused
            cases refused
            refine .notAChoice stored fun same => ?_
            cases same
  · intro keeps
    cases keeps with
    | unknown missing => simp only [removeChoice, answers?, missing, bind, Except.bind]
    | @notAChoice node stored other =>
        obtain ⟨own, position, content⟩ := node
        cases content with
        | choice => exact absurd rfl other
        | _ => simp only [removeChoice, answers?, stored, bind, Except.bind]
    | outOfRange stored beyond =>
        simp only [removeChoice, answers?, stored, bind, Except.bind, if_neg (Nat.not_lt_of_le beyond)]
        rfl

/-- Taking out an answer of a choice takes with it what left the answer and leaves everything else as it
was; where there is no such answer the reason is given, and the graph stays. -/
theorem remaining_answers_lead (graph : Graph) (id : NodeId) (index : Nat) :
    (∀ own position answers, graph.node? id = some ⟨own, position, .choice answers⟩ →
      index < answers.length → ∃ after, graph.removeChoice id index = .ok after ∧
        (Edit.removeChoice id index : Edit σ).perform graph = after ∧
        graph.LosesAnswer after id index own position answers) ∧
    (∀ error, graph.removeChoice id index = .error error ↔ graph.KeepsAnswers id index error) ∧
    ∀ error, graph.KeepsAnswers id index error →
      (Edit.removeChoice id index : Edit σ).perform graph = graph := by
  refine ⟨?_, graph.removeChoice_refused_iff id index, ?_⟩
  · intro own position answers stored within
    obtain ⟨after, removed, loses⟩ :=
      graph.removeChoice_loses id index own position answers stored within
    exact ⟨after, removed, by rw [Edit.perform, removed]; rfl, loses⟩
  · intro error keeps
    rw [Edit.perform, (graph.removeChoice_refused_iff id index error).mpr keeps]
    rfl

/-- Two answers of three lead somewhere, the last one twice, and the middle one back to the choice. -/
example :
    let graph : Graph := { new "tale" with
      nodes := file [(1, .choice ["a", "b", "c"]), (2, .line "x"), (3, .line "y")]
      connections := [.flow 1 2 2, .flow 1 1 1, .flow 1 0 3, .flow 2 0 1, .flow 1 2 3] }
    (graph.removeChoice 1 1).toOption.map Graph.connections =
      some [.flow 1 1 2, .flow 1 0 3, .flow 2 0 1, .flow 1 1 3] := by
  decide

end Dialogue.Graph

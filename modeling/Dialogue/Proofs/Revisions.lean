import Dialogue.Proofs.Trail
import Dialogue.Proofs.KeyedLaws
/-!
Walks on a revised board. Where every clause and effect does on the revised board what a revised form of
it does on the board as it was, whole walks do too: two runs of the same calls give the same answers, turn
by turn, and leave the same host.
-/
namespace Dialogue

variable {σ : Type}

/-- A change to what the graph asks and does, and the change to the board that should amount to the
same. -/
structure Revision where
  clause : Clause → Clause
  effect : Effect → Effect
  board : Board → Board

namespace Revision

def scene (revision : Revision) (scene : Scene σ) : Scene σ :=
  { scene with board := revision.board scene.board }

def content (revision : Revision) : Content → Content
  | .condition test => .condition { test with clauses := test.clauses.map revision.clause }
  | .action change => .action { change with effects := change.effects.map revision.effect }
  | content => content

def graph (revision : Revision) (graph : Graph) : Graph :=
  { graph with
    nodes := graph.nodes.mapValues fun node =>
      { node with content := revision.content node.content } }

/-- Running on the revised board comes to the same as running what is revised itself. -/
structure Faithful (revision : Revision) (registry : Registry σ) : Prop where
  checks : ∀ (clause : Clause) (board : Board) (host : Host σ),
    clause.check registry (revision.board board) host =
      (revision.clause clause).check registry board host
  runs : ∀ (effect : Effect) (scene : Scene σ),
    effect.run registry (revision.scene scene) =
      ((revision.effect effect).run registry scene).map revision.scene id

end Revision

inductive Traversal.Call where
  | begin
  | advance (pin : Pin)
deriving DecidableEq, Repr

structure Turn (σ : Type) where
  traversal : Traversal
  scene : Scene σ
  outcome : Option (Outcome TraversalError Advance)

def Traversal.Call.perform (graph : Graph) (registry : Registry σ) (traversal : Traversal)
    (scene : Scene σ) : Traversal.Call → Turn σ
  | begin => ⟨traversal.begin graph, scene, none⟩
  | advance pin =>
      let (traversal, scene, outcome) := traversal.advance graph registry pin scene
      ⟨traversal, scene, some outcome⟩

def turns (graph : Graph) (registry : Registry σ) :
    List Traversal.Call → Traversal → Scene σ → List (Turn σ)
  | [], _, _ => []
  | call :: rest, traversal, scene =>
      let turn := call.perform graph registry traversal scene
      turn :: turns graph registry rest turn.traversal turn.scene

def Turn.mapScene (f : Scene σ → Scene σ) (turn : Turn σ) : Turn σ :=
  { turn with scene := f turn.scene }

def Walk.mapScene (f : Scene σ → Scene σ) (walk : Walk σ) : Walk σ :=
  { walk with scene := f walk.scene }

namespace Revision

theorem content_kind (revision : Revision) (content : Content) :
    (revision.content content).kind = content.kind := by
  cases content <;> rfl

theorem graph_node (revision : Revision) (graph : Graph) (id : NodeId) :
    (revision.graph graph).node? id = (graph.node? id).map fun node =>
      { node with content := revision.content node.content } :=
  graph.nodes.find_mapValues _ id

theorem graph_start (revision : Revision) (graph : Graph) :
    (revision.graph graph).start? = graph.start? := by
  simp only [Graph.start?, Revision.graph, Keyed.mapValues, Keyed.mapWithKey, List.find?_map,
    Option.map_map, Function.comp_def, Node.kind, content_kind]
  rfl

namespace Faithful

variable {revision : Revision} {registry : Registry σ} (faithful : revision.Faithful registry)
include faithful

theorem clauses_revised (board : Board) (connective : Connective) (strict : Bool)
    (clauses : List Clause) (host : Host σ) :
    runClauses registry (revision.board board) connective strict clauses host =
      runClauses registry board connective strict (clauses.map revision.clause) host := by
  induction clauses generalizing host with
  | nil => rfl
  | cons clause rest ih => simp only [runClauses, List.map_cons, faithful.checks, ih]

theorem effects_revised (strict : Bool) (index : Nat) (effects : List Effect) (scene : Scene σ) :
    runEffects registry strict index effects (revision.scene scene) =
      (runEffects registry strict index (effects.map revision.effect) scene).map revision.scene id := by
  induction effects generalizing index scene with
  | nil => rfl
  | cons effect rest ih =>
      simp only [runEffects, List.map_cons, faithful.runs]
      -- Both runs go on together, or a refusal that is not tolerated or a crash ends both.
      rcases (revision.effect effect).run registry scene with ⟨after, applied | error | _⟩
      · simp [ih]
      · cases strict <;> simp [ih]
      · simp

theorem enter_revised (strict : Bool) (node : NodeId) (scene : Scene σ) (content : Content) :
    content.enter registry strict node (revision.scene scene) =
      ((revision.content content).enter registry strict node scene).map id
        (Prod.map id revision.scene) := by
  cases content with
  | condition test =>
      have evaluated := faithful.clauses_revised scene.board test.connective strict test.clauses
        scene.host
      simp only [Content.enter, Revision.content, Condition.evaluate, Revision.scene, evaluated]
      rcases runClauses registry scene.board test.connective strict
        (test.clauses.map revision.clause) scene.host with ⟨host, _ | evaluation⟩
      · rfl
      · simp only
        cases reportRefusals strict node evaluation.failures <;> rfl
  | action change =>
      simp only [Content.enter, Revision.content, Action.apply, faithful.effects_revised]
      rcases runEffects registry strict 0 (change.effects.map revision.effect) scene
        with ⟨after, _ | report⟩
      · rfl
      · simp only [Prod.map, id]
        cases reportRefusals strict node (report.failures.map Prod.snd) <;> rfl
  | _ => rfl

omit faithful in
/-- Until a silent node is entered nothing looks at the board. -/
theorem walk_revised_or_enters (graph : Graph) (strict : Bool) (hops : Nat) (source : Endpoint)
    (events : List Event) (scene : Scene σ) :
    walk graph registry strict hops source events (revision.scene scene) =
        (walk (revision.graph graph) registry strict hops source events scene).mapScene
          revision.scene ∨
      ∃ fewer target node, hops = fewer + 1 ∧ graph.target? source = some target ∧
        graph.node? target.node = some node ∧ node.kind.isPresentable = false := by
  have target : (revision.graph graph).target? = graph.target? := rfl
  cases leads : graph.target? source with
  | none => exact Or.inl (by simp [walk.eq_def, target, leads, Walk.mapScene])
  | some reached =>
      cases stored : graph.node? reached.node with
      | none => exact Or.inl (by simp [walk.eq_def, target, leads, graph_node, stored, Walk.mapScene])
      | some node =>
          have kept : ({ node with content := revision.content node.content } : Node).kind =
              node.kind := revision.content_kind node.content
          cases shown : node.kind.isPresentable with
          | true =>
              exact Or.inl (by
                simp [walk.eq_def, target, leads, graph_node, stored, kept, shown, Walk.mapScene])
          | false =>
              cases hops with
              | zero =>
                  exact Or.inl (by
                    simp [walk.eq_def, target, leads, graph_node, stored, kept, shown,
                      Walk.mapScene])
              | succ fewer => exact Or.inr ⟨fewer, reached, node, rfl, rfl, stored, shown⟩

theorem walk_revised (graph : Graph) (strict : Bool) (hops : Nat) (source : Endpoint)
    (events : List Event) (scene : Scene σ) :
    walk graph registry strict hops source events (revision.scene scene) =
      (walk (revision.graph graph) registry strict hops source events scene).mapScene
        revision.scene := by
  induction hops generalizing source events scene with
  | zero =>
      rcases walk_revised_or_enters graph strict 0 source events scene with
        alike | ⟨fewer, _, _, spent, _⟩
      · exact alike
      · exact absurd spent (Nat.succ_ne_zero fewer).symm
  | succ hops ih =>
      rcases walk_revised_or_enters graph strict (hops + 1) source events scene with
        alike | ⟨_, target, node, _, leads, stored, silent⟩
      · exact alike
      -- Both walks enter the node, and from there on they are walks with a hop less.
      have revised : (revision.graph graph).node? target.node =
          some { node with content := revision.content node.content } := by
        rw [graph_node, stored]
        rfl
      rw [walk_enter graph registry strict hops source target events _ node leads stored silent,
        walk_enter (revision.graph graph) registry strict hops source target events scene _ leads
          revised ((congrArg _ (revision.content_kind node.content)).trans silent),
        faithful.enter_revised]
      rcases (revision.content node.content).enter registry strict node.id scene
        with ⟨_ | pin | error | _, caused, after⟩
      · rfl
      · exact ih _ _ _
      · rfl
      · rfl

theorem advance_revised (graph : Graph) (traversal : Traversal) (pin : Pin) (scene : Scene σ) :
    traversal.advance graph registry pin (revision.scene scene) =
      (traversal.advance (revision.graph graph) registry pin scene).map id
        (Prod.map revision.scene id) := by
  unfold Traversal.advance
  cases traversal.position with
  | idle => rfl
  | ended => rfl
  | atNode node =>
      simp only [faithful.walk_revised, Walk.mapScene]
      cases (walk (revision.graph graph) registry traversal.config.strict
        traversal.config.maxHops ⟨node, pin⟩ [] scene).stop <;> rfl

theorem turns_revised (graph : Graph) (calls : List Traversal.Call) (traversal : Traversal)
    (scene : Scene σ) :
    turns graph registry calls traversal (revision.scene scene) =
      (turns (revision.graph graph) registry calls traversal scene).map
        (Turn.mapScene revision.scene) := by
  induction calls generalizing traversal scene with
  | nil => rfl
  | cons call rest ih =>
      have turned : call.perform graph registry traversal (revision.scene scene) =
          (call.perform (revision.graph graph) registry traversal scene).mapScene
            revision.scene := by
        cases call with
        | begin => simp [Traversal.Call.perform, Traversal.begin, graph_start, Turn.mapScene]
        | advance pin => simp [Traversal.Call.perform, faithful.advance_revised, Turn.mapScene]
      simp only [turns, turned, List.map_cons]
      exact congrArg _ (ih _ _)

end Faithful

end Revision

end Dialogue

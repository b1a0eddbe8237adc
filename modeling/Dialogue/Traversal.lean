import Dialogue.Graph
/-!
Walking a graph. An advance leaves the current node through a pin and runs conditions and actions until
a line or a choice is reached or the path ends. The number of silent nodes one advance may enter is
bounded, so a walk ends on every graph.
-/
namespace Dialogue

variable {σ : Type}

structure Config where
  /-- How many silent nodes one advance may enter. -/
  maxHops : Nat
  /-- Give up at the first refused call instead of going on without it. -/
  strict : Bool
deriving DecidableEq, Repr

def Config.default : Config := ⟨256, false⟩

inductive Position where
  | idle
  | atNode (node : NodeId)
  | ended
deriving DecidableEq, Repr

inductive Event where
  | entered (node : NodeId)
  | evaluated (node : NodeId) (result : Bool)
  | applied (node : NodeId) (report : Report)
  | refused (node : NodeId) (error : CallError)
deriving DecidableEq, Repr

inductive Step where
  | presented (node : NodeId)
  | ended
deriving DecidableEq, Repr

structure Advance where
  step : Step
  events : List Event
deriving DecidableEq, Repr

inductive TraversalError where
  | notStarted
  | cycleDetected (node : NodeId) (hops : Nat)
  | call (node : NodeId) (error : CallError)
deriving DecidableEq, Repr

def TraversalError.message : TraversalError → String
  | .notStarted => "traversal has not begun"
  | .cycleDetected node hops =>
      "gave up after " ++ toString hops ++ " condition/action hops at node " ++ showNode node
  | .call node error =>
      "capability call failed at node " ++ showNode node ++ ": " ++ error.message

structure Traversal where
  config : Config
  position : Position
deriving DecidableEq, Repr

inductive Flow where
  | present
  | leave (pin : Pin)
  | fail (error : CallError)
  | crash
deriving DecidableEq, Repr

/-- Refused calls as events of the node, unless the first one already ends a strict walk. -/
def reportRefusals (strict : Bool) (node : NodeId) (errors : List CallError) :
    Except CallError (List Event) :=
  match strict, errors with
  | true, error :: _ => .error error
  | _, errors => .ok (errors.map (Event.refused node))

def Content.enter (registry : Registry σ) (strict : Bool) (node : NodeId) (scene : Scene σ) :
    Content → Flow × List Event × Scene σ
  | .line _ | .choice _ => (.present, [], scene)
  | .start => (.leave 0, [], scene)
  | .condition test =>
      match test.evaluate registry scene.board strict scene.host with
      | (host, none) => (.crash, [], { scene with host := host })
      | (host, some evaluation) =>
          match reportRefusals strict node evaluation.failures with
          | .error error => (.fail error, [], { scene with host := host })
          | .ok refusals =>
              (.leave (if evaluation.result then 0 else 1),
                refusals ++ [.evaluated node evaluation.result], { scene with host := host })
  | .action change =>
      match change.apply registry strict scene with
      | (scene, none) => (.crash, [], scene)
      | (scene, some report) =>
          match reportRefusals strict node (report.failures.map Prod.snd) with
          | .error error => (.fail error, [], scene)
          | .ok refusals => (.leave 0, refusals ++ [.applied node report], scene)

inductive Stop where
  | presented (node : NodeId)
  | ended
  | outOfHops (node : NodeId)
  | failed (node : NodeId) (error : CallError)
  | crashed
deriving DecidableEq, Repr

structure Walk (σ : Type) where
  stop : Stop
  /-- What happened on the way, latest first. -/
  events : List Event
  scene : Scene σ

/-- Follows the pin and what lies behind it. `hops` is how many silent nodes may still be entered; it
is used up by each of them, and a line or a choice ends the walk. A node is left by the id it carries. -/
def walk (graph : Graph) (registry : Registry σ) (strict : Bool) :
    Nat → Endpoint → List Event → Scene σ → Walk σ
  | hops, source, events, scene =>
      match graph.target? source with
      | none => ⟨.ended, events, scene⟩
      | some target =>
          match graph.node? target.node with
          | none => ⟨.ended, events, scene⟩
          | some node =>
              if node.kind.isPresentable then
                ⟨.presented node.id, .entered node.id :: events, scene⟩
              else
                match hops with
                | 0 => ⟨.outOfHops node.id, events, scene⟩
                | hops + 1 =>
                    match node.content.enter registry strict node.id scene with
                    | (.leave pin, caused, scene) =>
                        walk graph registry strict hops ⟨node.id, pin⟩
                          (caused.reverse ++ .entered node.id :: events) scene
                    | (.present, caused, scene) =>
                        ⟨.presented node.id, caused.reverse ++ .entered node.id :: events,
                          scene⟩
                    | (.fail error, caused, scene) =>
                        ⟨.failed node.id error,
                          caused.reverse ++ .entered node.id :: events, scene⟩
                    | (.crash, caused, scene) =>
                        ⟨.crashed, caused.reverse ++ .entered node.id :: events, scene⟩

namespace Traversal

def new (config : Config) : Traversal := ⟨config, .idle⟩

def current? (traversal : Traversal) : Option NodeId :=
  match traversal.position with
  | .atNode node => some node
  | _ => none

def isEnded (traversal : Traversal) : Bool := traversal.position = .ended

def begin (traversal : Traversal) (graph : Graph) : Traversal :=
  { traversal with position := match graph.start? with
      | some node => .atNode node
      | none => .ended }

/-- Leaves the current node through the pin. After a crash the position is what it was before. -/
def advance (traversal : Traversal) (graph : Graph) (registry : Registry σ) (pin : Pin)
    (scene : Scene σ) : Traversal × Scene σ × Outcome TraversalError Advance :=
  match traversal.position with
  | .idle => (traversal, scene, .failed .notStarted)
  | .ended => (traversal, scene, .done ⟨.ended, []⟩)
  | .atNode node =>
      let config := traversal.config
      let walked := walk graph registry config.strict config.maxHops ⟨node, pin⟩ [] scene
      let stopped : Traversal := { traversal with position := .ended }
      match walked.stop with
      | .presented node =>
          ({ traversal with position := .atNode node }, walked.scene,
            .done ⟨.presented node, walked.events.reverse⟩)
      | .ended => (stopped, walked.scene, .done ⟨.ended, walked.events.reverse⟩)
      | .outOfHops node => (stopped, walked.scene, .failed (.cycleDetected node config.maxHops))
      | .failed node error => (stopped, walked.scene, .failed (.call node error))
      | .crashed => (traversal, walked.scene, .crashed)

end Traversal

end Dialogue

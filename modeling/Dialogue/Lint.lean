import Dialogue.Graph
/-!
What an editor should point out in a graph. Nothing reported here keeps a dialogue from being played.
Loops in which nothing is ever shown are found by a depth-first search over the connections between nodes
that are not presentable; it reports the node that a path comes back to.
-/
namespace Dialogue.SilentLoop

/-- Searches from `node`. The path holds the nodes being searched, the answer the nodes seen by then, or
the node of the path that was met again. A path has no node twice, so depth is bounded by the number of
nodes. -/
def visit (next : NodeId → List NodeId) :
    Nat → List NodeId → List NodeId → NodeId → Except NodeId (List NodeId)
  | 0, _, seen, _ => .ok seen
  | depth + 1, path, seen, node =>
      (next node).foldlM
        (fun seen target =>
          if target = node ∨ target ∈ path then .error target
          else if target ∈ seen then .ok seen
          else visit next depth (node :: path) seen target)
        (node :: seen)

def search (next : NodeId → List NodeId) (nodes : List NodeId) : Except NodeId (List NodeId) :=
  nodes.foldlM
    (fun seen node => if node ∈ seen then .ok seen else visit next nodes.length [] seen node) []

def isSilent (graph : Graph) (id : NodeId) : Bool :=
  match graph.node? id with
  | some node => !node.kind.isPresentable
  | none => false

def silentNodes (graph : Graph) : List NodeId := graph.nodes.keys.filter (isSilent graph)

def successors (graph : Graph) (id : NodeId) : List NodeId :=
  (graph.connections.filter fun connection =>
    connection.source.node = id && isSilent graph id && isSilent graph connection.target.node).map
    fun connection => connection.target.node

def find? (graph : Graph) : Option NodeId :=
  match search (successors graph) (silentNodes graph) with
  | .error node => some node
  | .ok _ => none

end Dialogue.SilentLoop

namespace Dialogue

inductive Finding where
  | missingStart
  | multipleStart
  | unknownNode
  | pinOutOfRange
  | selfConnection
  | connectionIntoStart
  | duplicateOutput
  | duplicateProperty
  | unknownProperty
  | invalidOperation
  | silentCycle
deriving DecidableEq, Repr

inductive Severity where
  | warning
  | error
deriving DecidableEq, Repr

def Severity.title : Severity → String
  | .warning => "Warning"
  | .error => "Error"

namespace Finding

def message : Finding → String
  | missingStart => "graph has no start node"
  | multipleStart => "graph has more than one start node"
  | unknownNode => "connection refers to unknown node"
  | pinOutOfRange => "connection uses a port the node does not have"
  | selfConnection => "node is connected to itself"
  | connectionIntoStart => "connection leads into a start node"
  | duplicateOutput => "output port has more than one connection"
  | duplicateProperty => "duplicate property name"
  | unknownProperty => "clause or effect refers to unknown property"
  | invalidOperation => "operation is not valid for the property kind"
  | silentCycle => "condition/action nodes form a loop with no dialogue or choice"

def severity : Finding → Severity
  | unknownNode | pinOutOfRange | selfConnection | connectionIntoStart | duplicateProperty => .error
  | missingStart | multipleStart | duplicateOutput | unknownProperty | invalidOperation
  | silentCycle => .warning

end Finding

structure Diagnostic where
  finding : Finding
  node : Option NodeId
  pin : Option Pin
deriving DecidableEq, Repr

namespace Diagnostic

def severity (diagnostic : Diagnostic) : Severity := diagnostic.finding.severity

def showPlace (write : Nat → String) : Option Nat → String
  | some place => "Some(" ++ write place ++ ")"
  | none => "None"

def message (diagnostic : Diagnostic) : String :=
  diagnostic.severity.title ++ ": " ++ diagnostic.finding.message ++ " (node=" ++
    showPlace showNode diagnostic.node ++ " port=" ++ showPlace toString diagnostic.pin ++ ")"

def plain (finding : Finding) : Diagnostic := ⟨finding, none, none⟩

def atNode (finding : Finding) (node : NodeId) : Diagnostic := ⟨finding, some node, none⟩

def atPin (finding : Finding) (endpoint : Endpoint) : Diagnostic :=
  ⟨finding, some endpoint.node, some endpoint.pin⟩

end Diagnostic

namespace Lint

open Diagnostic

def starts (graph : Graph) : List Diagnostic :=
  match (graph.nodes.values.filter fun node => node.kind = .start).map Node.id with
  | [] => [plain .missingStart]
  | _ :: extra => extra.map (atNode .multipleStart)

def names : List Property → List String → List Diagnostic
  | [], _ => []
  | property :: rest, seen =>
      if property.name ∈ seen then plain .duplicateProperty :: names rest seen
      else names rest (property.name :: seen)

/-- What is wrong with a connection by itself, and whether its pins were looked at. -/
def connection (graph : Graph) (connection : Connection) : List Diagnostic × Bool :=
  let source := connection.source
  let target := connection.target
  match graph.node? source.node, graph.node? target.node with
  | none, _ => ([atNode .unknownNode source.node], false)
  | _, none => ([atNode .unknownNode target.node], false)
  | some sourceNode, some targetNode =>
      if source.node = target.node then ([atNode .selfConnection source.node], false)
      else if targetNode.kind = .start then ([atNode .connectionIntoStart target.node], false)
      else
        ((if sourceNode.outputs.length ≤ source.pin then [atPin .pinOutOfRange source] else []) ++
          (if targetNode.inputs.length ≤ target.pin then [atPin .pinOutOfRange target] else []),
          true)

/-- Connections in order; an output counts as used once a connection got as far as its pins. -/
def connections (graph : Graph) : List Connection → List Endpoint → List Diagnostic
  | [], _ => []
  | head :: rest, used =>
      let (found, reached) := connection graph head
      if reached then
        let repeated := if head.source ∈ used then [atPin .duplicateOutput head.source] else []
        found ++ repeated ++ connections graph rest (head.source :: used)
      else found ++ connections graph rest used

def reference (board : Board) (node : NodeId) (property : Option PropertyId) (suits : Kind → Bool) :
    List Diagnostic :=
  match property with
  | none => []
  | some id =>
      match board.find? id with
      | none => [atNode .unknownProperty node]
      | some found => if suits found.kind then [] else [atNode .invalidOperation node]

def references (board : Board) (node : NodeId) : Content → List Diagnostic
  | .condition condition =>
      condition.clauses.flatMap fun clause => reference board node clause.property clause.test.suits
  | .action action =>
      action.effects.flatMap fun effect => reference board node effect.property effect.command.suits
  | _ => []

def loops (graph : Graph) : List Diagnostic :=
  match SilentLoop.find? graph with
  | some node => [atNode .silentCycle node]
  | none => []

end Lint

def Graph.lint (graph : Graph) : List Diagnostic :=
  Lint.starts graph ++ Lint.names graph.board.properties [] ++
    Lint.connections graph graph.connections [] ++
    (graph.nodes.values.flatMap fun node => Lint.references graph.board node.id node.content) ++
    Lint.loops graph

end Dialogue

import Dialogue.Node
/-!
The graph: nodes filed under ids, and connections from output pins to input pins in the order they were
made. Where two connections leave one pin, the earlier one is followed.
-/
namespace Dialogue

structure Endpoint where
  node : NodeId
  pin : Pin
deriving DecidableEq, Repr

structure Connection where
  source : Endpoint
  target : Endpoint
deriving DecidableEq, Repr

structure Graph where
  /-- The string table its keys are looked up in. -/
  table : String
  nodes : Keyed NodeId Node
  connections : List Connection
  board : Board
  /-- Where the search for the next free id begins. -/
  nextId : NodeId

def Connection.flow (node : NodeId) (pin : Pin) (target : NodeId) : Connection :=
  ⟨⟨node, pin⟩, ⟨target, 0⟩⟩

namespace Graph

def new (table : String) : Graph := ⟨table, .empty, [], .empty, 1⟩

def file (nodes : List (NodeId × Node)) : Keyed NodeId Node :=
  .ofList (nodes.map fun (id, node) => (id, { node with id := id }))

def node? (graph : Graph) (id : NodeId) : Option Node := graph.nodes.find? id

/-- Every node carries the id it is filed under. A graph put together by hand may fail this. -/
def IsFiled (graph : Graph) : Prop := ∀ entry ∈ graph.nodes.entries, entry.2.id = entry.1

instance (graph : Graph) : Decidable graph.IsFiled :=
  inferInstanceAs (Decidable (∀ entry ∈ graph.nodes.entries, entry.2.id = entry.1))

theorem isFiled_iff (graph : Graph) :
    graph.IsFiled ↔ ∀ key node, graph.node? key = some node → node.id = key :=
  ⟨fun filed key node stored => filed (key, node) (graph.nodes.mem_of_find key node stored),
    fun filed entry member => filed entry.1 entry.2 (graph.nodes.find_of_mem _ _ member)⟩

theorem IsFiled.id_eq {graph : Graph} (filed : graph.IsFiled) {key : NodeId} {node : Node}
    (stored : graph.node? key = some node) : node.id = key :=
  graph.isFiled_iff.mp filed key node stored

def start? (graph : Graph) : Option NodeId :=
  (graph.nodes.entries.find? fun entry => entry.2.kind = .start).map Prod.fst

def target? (graph : Graph) (source : Endpoint) : Option Endpoint :=
  (graph.connections.find? fun connection => connection.source = source).map Connection.target

theorem target_listed (graph : Graph) {source target : Endpoint}
    (leads : graph.target? source = some target) : ⟨source, target⟩ ∈ graph.connections := by
  obtain ⟨connection, found, rfl⟩ := Option.map_eq_some_iff.mp leads
  have leaves : connection.source = source := by simpa using List.find?_some found
  exact leaves ▸ List.mem_of_find?_eq_some found

def outgoing (graph : Graph) (id : NodeId) : List Connection :=
  graph.connections.filter fun connection => connection.source.node = id

def values (graph : Graph) : List Value :=
  graph.board.values ++ graph.nodes.values.flatMap fun node => node.content.values

def mapValues (graph : Graph) (f : Value → Value) : Graph :=
  { graph with
    board := graph.board.mapValues f
    nodes := graph.nodes.mapValues fun node => { node with content := node.content.mapValues f } }

end Graph

/-!
The edits an editor offers. An edit that is refused names its reason and leaves the graph as it was; ids
are never handed out twice.
-/

inductive GraphError where
  | unknownNode (node : NodeId)
  | outputOutOfRange (endpoint : Endpoint)
  | inputOutOfRange (endpoint : Endpoint)
  | selfConnection (node : NodeId)
  | pinOccupied (endpoint : Endpoint)
  | notAChoice (node : NodeId)
  | choiceOutOfRange (node : NodeId) (index : Nat)
deriving DecidableEq, Repr

def showNode (id : NodeId) : String := "NodeId(" ++ toString id ++ ")"

def GraphError.message : GraphError → String
  | .unknownNode node => "unknown node " ++ showNode node
  | .outputOutOfRange e => "node " ++ showNode e.node ++ " has no output port " ++ toString e.pin
  | .inputOutOfRange e => "node " ++ showNode e.node ++ " has no input port " ++ toString e.pin
  | .selfConnection node => "node " ++ showNode node ++ " cannot connect to itself"
  | .pinOccupied e =>
      "output port " ++ toString e.pin ++ " of node " ++ showNode e.node ++ " is already connected"
  | .notAChoice node => "node " ++ showNode node ++ " is not a choice node"
  | .choiceOutOfRange node index => "choice node " ++ showNode node ++ " has no choice " ++ toString index

namespace Graph

/-- The first id from `next` on that is not among the ascending keys. -/
def firstFree (next : NodeId) (keys : List NodeId) : NodeId :=
  keys.foldl (fun next key => if key = next then next + 1 else next) next

def freshId (graph : Graph) : NodeId := firstFree graph.nextId graph.nodes.keys

def addNode (graph : Graph) (node : Node) : NodeId × Graph :=
  (graph.freshId,
    { graph with
      nodes := graph.nodes.insert graph.freshId { node with id := graph.freshId }
      nextId := graph.freshId + 1 })

def putNode (graph : Graph) (id : NodeId) (node : Node) : Graph :=
  { graph with nodes := graph.nodes.insert id node }

def dropNode (graph : Graph) (id : NodeId) : Graph :=
  { graph with nodes := graph.nodes.erase id }

def touches (id : NodeId) (connection : Connection) : Bool :=
  connection.source.node = id || connection.target.node = id

def removeNode (graph : Graph) (id : NodeId) : Option (Node × Graph) :=
  (graph.node? id).map fun node =>
    (node, { graph with
      nodes := graph.nodes.erase id
      connections := graph.connections.filter fun connection => !touches id connection })

def setContent (graph : Graph) (id : NodeId) (content : Content) : Graph :=
  { graph with nodes := graph.nodes.modify id fun node => { node with content := content } }

def push (graph : Graph) (connection : Connection) : Graph :=
  { graph with connections := graph.connections ++ [connection] }

def objection? (graph : Graph) (connection : Connection) : Option GraphError :=
  let source := connection.source
  let target := connection.target
  match graph.node? source.node, graph.node? target.node with
  | none, _ => some (.unknownNode source.node)
  | _, none => some (.unknownNode target.node)
  | some sourceNode, some targetNode =>
      if source.node = target.node then some (.selfConnection source.node)
      else if sourceNode.outputs.length ≤ source.pin then some (.outputOutOfRange source)
      else if targetNode.inputs.length ≤ target.pin then some (.inputOutOfRange target)
      else if (graph.target? source).isSome then some (.pinOccupied source)
      else none

def connect (graph : Graph) (connection : Connection) : Except GraphError Graph :=
  match graph.objection? connection with
  | some error => .error error
  | none => .ok (graph.push connection)

def link (graph : Graph) (node : NodeId) (pin : Pin) (target : NodeId) : Except GraphError Graph :=
  graph.connect (.flow node pin target)

def disconnect (graph : Graph) (source : Endpoint) : Option (Connection × Graph) :=
  (graph.connections.find? fun connection => connection.source = source).map fun found =>
    (found, { graph with
      connections := graph.connections.eraseP fun connection => connection.source = source })

def answers? (graph : Graph) (id : NodeId) : Except GraphError (List (Option String)) :=
  match graph.node? id with
  | none => .error (.unknownNode id)
  | some node =>
      match node.content with
      | .choice answers => .ok answers
      | _ => .error (.notAChoice id)

def addChoice (graph : Graph) (id : NodeId) : Except GraphError (Pin × Graph) := do
  let answers ← graph.answers? id
  return (answers.length, graph.setContent id (.choice (answers ++ [none])))

/-- Where a connection goes when answer `index` of node `id` is taken out: away if it left that answer,
one pin down if it left a later one. -/
def shiftPin (id : NodeId) (index : Nat) (connection : Connection) : Option Connection :=
  if connection.source.node ≠ id then some connection
  else if connection.source.pin = index then none
  else if index < connection.source.pin then
    some { connection with source := ⟨id, connection.source.pin - 1⟩ }
  else some connection

def removeChoice (graph : Graph) (id : NodeId) (index : Nat) : Except GraphError Graph := do
  let answers ← graph.answers? id
  if index < answers.length then
    return { graph.setContent id (.choice (answers.eraseIdx index)) with
      connections := graph.connections.filterMap (shiftPin id index) }
  else throw (.choiceOutOfRange id index)

def setChoiceKey (graph : Graph) (id : NodeId) (index : Nat) (key : Option String) :
    Except GraphError Graph := do
  let answers ← graph.answers? id
  if index < answers.length then
    return graph.setContent id (.choice (answers.set index key))
  else throw (.choiceOutOfRange id index)

def addProperty (graph : Graph) (id : PropertyId) (name : String) (kind : Kind) :
    Except BoardError (Property × Graph) := do
  let (property, board) ← graph.board.add id name kind
  return (property, { graph with board := board })

/-- Conditions and actions that named the property keep its id. -/
def removeProperty (graph : Graph) (id : PropertyId) : Option (Property × Graph) :=
  (graph.board.remove id).map fun (property, board) => (property, { graph with board := board })

def renameProperty (graph : Graph) (id : PropertyId) (name : String) : Except BoardError Graph := do
  return { graph with board := ← graph.board.rename id name }

def setValue (graph : Graph) (id : PropertyId) (value : Value) : Except BoardError Graph := do
  return { graph with board := ← graph.board.setValue id value }

def bindHandles {σ : Type} (graph : Graph) (host : Host σ) : Nat × Graph :=
  (host.countBindable graph.values, graph.mapValues host.rebindValue)

end Graph

end Dialogue

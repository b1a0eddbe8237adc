import Dialogue.Graph
import Dialogue.Json.Record
/-!
Boards, nodes and graphs as stored. Of a handle only the key is kept. Nodes are filed under their ids; a
graph that files one under another id is refused once everything else about it is known to be in order.
-/
namespace Dialogue

open Json

namespace Kind

def stored : List (String × Kind) :=
  [("Text", text), ("Integer", integer), ("Real", real), ("Boolean", boolean), ("Handle", handle)]

def name : Kind → String
  | text => "Text"
  | integer => "Integer"
  | real => "Real"
  | boolean => "Boolean"
  | handle => "Handle"

def toJson (kind : Kind) : Json := ofText kind.name

def ofJson? : Reader Kind := oneOf? stored

end Kind

namespace Value

def toJson : Value → Json
  | empty => ofText "None"
  | text s => tagged "Text" (ofText s)
  | integer n => tagged "Integer" (ofInt n.toInt)
  | real x => tagged "Real" (ofReal x)
  | boolean b => tagged "Boolean" (.boolean b)
  | handle h => tagged "Handle" (ofText h.key)

def ofJson? : Reader Value := fun json =>
  (tagged? json).bind fun
    | ("None", content) => if isBare content then some empty else none
    | ("Text", some content) => (text? content).map text
    | ("Integer", some content) => (word? content).map integer
    | ("Real", some content) => (real? content).map real
    | ("Boolean", some content) => (boolean? content).map boolean
    | ("Handle", some content) => (text? content).map fun key => handle (.detached key)
    | _ => none

end Value

namespace Property

def toJson (property : Property) : Json :=
  record [("id", ofText property.id), ("name", ofText property.name),
    ("kind", property.kind.toJson), ("value", property.value.toJson)]

def ofJson? : Reader Property := fun json => do
  let members ← record? ["id", "name", "kind", "value"] json
  return {
    id := ← required members "id" text?
    name := ← required members "name" text?
    kind := ← required members "kind" Kind.ofJson?
    value := ← defaulted members "value" .empty Value.ofJson? }

end Property

namespace Board

def toJson (board : Board) : Json := ofList Property.toJson board.properties

def ofJson? : Reader Board := fun json => (list? Property.ofJson? json).map Board.mk

end Board

def countBound : Nat := UInt64.size

def idBound : Nat := UInt32.size

namespace Comparator

def stored : List (String × Comparator) :=
  [("Equals", equals), ("NotEquals", notEquals), ("Less", less), ("LessOrEqual", lessOrEqual),
   ("Greater", greater), ("GreaterOrEqual", greaterOrEqual)]

def name : Comparator → String
  | equals => "Equals"
  | notEquals => "NotEquals"
  | less => "Less"
  | lessOrEqual => "LessOrEqual"
  | greater => "Greater"
  | greaterOrEqual => "GreaterOrEqual"

def ofJson? : Reader Comparator := oneOf? stored

end Comparator

namespace Connective

def stored : List (String × Connective) := [("And", all), ("Or", any)]

def name : Connective → String
  | all => "And"
  | any => "Or"

def ofJson? : Reader Connective := oneOf? stored

end Connective

def callToJson (operation : String) (arguments : List Value) : Json :=
  tagged "Call" (record
    [("operation", ofText operation), ("arguments", ofList Value.toJson arguments)])

def callOfJson? : Reader (String × List Value) := fun json => do
  let members ← record? ["operation", "arguments"] json
  return (← required members "operation" text?,
    ← defaulted members "arguments" [] (list? Value.ofJson?))

namespace Test

def toJson : Test → Json
  | unset => ofText "Unset"
  | compare comparator operand =>
      tagged "Compare" (record
        [("comparator", ofText comparator.name), ("operand", operand.toJson)])
  | call operation arguments => callToJson operation arguments

def ofJson? : Reader Test := fun json =>
  (tagged? json).bind fun
    | ("Unset", content) => if isBare content then some unset else none
    | ("Compare", some content) => do
        let members ← record? ["comparator", "operand"] content
        return compare (← required members "comparator" Comparator.ofJson?)
          (← required members "operand" Value.ofJson?)
    | ("Call", some content) => (callOfJson? content).map fun (name, arguments) => call name arguments
    | _ => none

end Test

namespace Clause

def toJson (clause : Clause) : Json :=
  record [("property", ofOption ofText clause.property), ("test", clause.test.toJson)]

def ofJson? : Reader Clause := fun json => do
  let members ← record? ["property", "test"] json
  return {
    property := ← defaulted members "property" none (optional? text?)
    test := ← defaulted members "test" .unset Test.ofJson? }

end Clause

namespace Condition

def toJson (condition : Condition) : Json :=
  record [("clauses", ofList Clause.toJson condition.clauses),
    ("operator", ofText condition.connective.name)]

def ofJson? : Reader Condition := fun json => do
  let members ← record? ["clauses", "operator"] json
  return {
    clauses := ← defaulted members "clauses" [] (list? Clause.ofJson?)
    connective := ← defaulted members "operator" .all Connective.ofJson? }

end Condition

namespace Mutation

def stored : List (String × Mutation) :=
  [("Set", set), ("Append", append), ("Decrease", decrease)]

def name : Mutation → String
  | set => "Set"
  | append => "Append"
  | decrease => "Decrease"

def ofJson? : Reader Mutation := oneOf? stored

end Mutation

namespace Command

def toJson : Command → Json
  | unset => ofText "Unset"
  | mutate mutation operand =>
      tagged "Mutate" (record [("operation", ofText mutation.name), ("operand", operand.toJson)])
  | call operation arguments => callToJson operation arguments

def ofJson? : Reader Command := fun json =>
  (tagged? json).bind fun
    | ("Unset", content) => if isBare content then some unset else none
    | ("Mutate", some content) => do
        let members ← record? ["operation", "operand"] content
        return mutate (← required members "operation" Mutation.ofJson?)
          (← required members "operand" Value.ofJson?)
    | ("Call", some content) => (callOfJson? content).map fun (name, arguments) => call name arguments
    | _ => none

end Command

namespace Effect

def toJson (effect : Effect) : Json :=
  record [("property", ofOption ofText effect.property), ("command", effect.command.toJson)]

def ofJson? : Reader Effect := fun json => do
  let members ← record? ["property", "command"] json
  return {
    property := ← defaulted members "property" none (optional? text?)
    command := ← defaulted members "command" .unset Command.ofJson? }

end Effect

namespace Action

def toJson (action : Action) : Json :=
  record [("effects", ofList Effect.toJson action.effects)]

def ofJson? : Reader Action := fun json => do
  let members ← record? ["effects"] json
  return { effects := ← defaulted members "effects" [] (list? Effect.ofJson?) }

end Action

namespace Line

def toJson (line : Line) : Json :=
  record [("localization_key", ofOption ofText line.key),
    ("speaker_image", ofOption ofText line.portrait)]

def ofJson? : Reader Line := fun json => do
  let members ← record? ["localization_key", "speaker_image"] json
  return {
    key := ← defaulted members "localization_key" none (optional? text?)
    portrait := ← defaulted members "speaker_image" none (optional? text?) }

end Line

namespace NodeKind

def stored : List (String × NodeKind) :=
  [("Start", start), ("Dialogue", line), ("Choice", choice), ("Condition", condition),
   ("Action", action)]

def ofJson? : Reader NodeKind := oneOf? stored

end NodeKind

namespace Content

def choiceOfJson? : Reader Content := fun json => do
  let members ← record? ["choices"] json
  return choice (← required members "choices" (list? (optional? text?)))

def toJson : Content → Json
  | start => ofText "Start"
  | line spoken => tagged "Dialogue" spoken.toJson
  | choice answers =>
      tagged "Choice" (record [("choices", ofList (ofOption ofText) answers)])
  | condition test => tagged "Condition" test.toJson
  | action change => tagged "Action" change.toJson

def ofJson? : Reader Content := fun json =>
  (tagged? json).bind fun
    | ("Start", content) => if isBare content then some start else none
    | ("Dialogue", some content) => (Line.ofJson? content).map line
    | ("Choice", some content) => choiceOfJson? content
    | ("Condition", some content) => (Condition.ofJson? content).map condition
    | ("Action", some content) => (Action.ofJson? content).map action
    | _ => none

end Content

namespace Point

def toJson (point : Point) : Json := .array [ofSingle point.x, ofSingle point.y]

def ofJson? : Reader Point
  | .array [x, y] => do return ⟨← single? x, ← single? y⟩
  | _ => none

end Point

namespace Node

def toJson (node : Node) : Json :=
  record [("id", ofNat node.id), ("position", node.position.toJson), ("data", node.content.toJson)]

def ofJson? : Reader Node := fun json => do
  let members ← record? ["id", "position", "data"] json
  return {
    id := ← required members "id" (natBelow? idBound)
    position := ← defaulted members "position" ⟨0, 0⟩ Point.ofJson?
    content := ← required members "data" Content.ofJson? }

end Node

/-!
Reading from text: one value, with nothing after it. A fault in what was read wins over anything that
follows it.
-/

inductive ReadError where
  /-- Not JSON, or JSON of another shape. -/
  | malformed
  /-- A graph files a node under an id that is not the node's own. -/
  | misfiled (key id : NodeId)
deriving DecidableEq, Repr

namespace ReadError

def message : ReadError → String
  | malformed => "data of the wrong form"
  | misfiled key id => "node stored under " ++ showNode key ++ " carries id " ++ showNode id

variable {α : Type}

def ofOption : Option α → Except ReadError α
  | some value => .ok value
  | none => .error malformed

end ReadError

variable {α : Type}

def Document.read (document : Document) (read : Json → Except ReadError α) : Except ReadError α := do
  let value ← read document.root
  if document.trailing = [] then return value else throw .malformed

def readText (read : Json → Except ReadError α) (text : String) : Except ReadError α :=
  (Document.ofText text.toList).read read

def readText? (read : Reader α) (text : String) : Option α :=
  (readText (fun json => ReadError.ofOption (read json)) text).toOption

namespace Endpoint

def toJson (endpoint : Endpoint) : Json :=
  record [("node", ofNat endpoint.node), ("port", ofNat endpoint.pin)]

def ofJson? : Reader Endpoint := fun json => do
  let members ← record? ["node", "port"] json
  return {
    node := ← required members "node" (natBelow? idBound)
    pin := ← required members "port" (natBelow? countBound) }

end Endpoint

namespace Connection

def toJson (connection : Connection) : Json :=
  record [("from", connection.source.toJson), ("to", connection.target.toJson)]

def ofJson? : Reader Connection := fun json => do
  let members ← record? ["from", "to"] json
  return {
    source := ← required members "from" Endpoint.ofJson?
    target := ← required members "to" Endpoint.ofJson? }

end Connection

namespace Graph

/-- An id as the name of a member: its digits and nothing else. -/
def key? (lexeme : List Char) : Option NodeId :=
  (Whole.natural? lexeme).filter fun id => id < idBound && Whole.digits id = lexeme

def nodes? : Reader (Keyed NodeId Node)
  | .object fields =>
      (fields.mapM fun (key, node) => do return (← key? key, ← Node.ofJson? node)).map Keyed.ofList
  | _ => none

def misfiled? (graph : Graph) : Option (NodeId × NodeId) :=
  (graph.nodes.entries.find? fun entry => entry.1 ≠ entry.2.id).map fun entry => (entry.1, entry.2.id)

/-- The least id after all that are in use. The greatest id of all has none after it. -/
def idAfter (keys : List NodeId) : NodeId :=
  match keys.getLast? with
  | some last => min (last + 1) (idBound - 1)
  | none => 1

def toJson (graph : Graph) : Json :=
  record [("localization_table", ofText graph.table),
    ("nodes", .object (graph.nodes.entries.map fun entry =>
      (Whole.digits entry.1, entry.2.toJson))),
    ("connections", ofList Connection.toJson graph.connections),
    ("blackboard", graph.board.toJson),
    ("next_node_id", ofNat graph.nextId)]

def parts? : Reader Graph := fun json => do
  let members ← record?
    ["localization_table", "nodes", "connections", "blackboard", "next_node_id"] json
  let nodes ← required members "nodes" nodes?
  return {
    table := ← defaulted members "localization_table" "" text?
    nodes := nodes
    connections := ← defaulted members "connections" [] (list? Connection.ofJson?)
    board := ← defaulted members "blackboard" .empty Board.ofJson?
    nextId := max (← defaulted members "next_node_id" 0 (natBelow? idBound)) (idAfter nodes.keys) }

def ofJson (json : Json) : Except ReadError Graph := do
  let graph ← ReadError.ofOption (parts? json)
  match graph.misfiled? with
  | some (key, id) => throw (.misfiled key id)
  | none => return graph

end Graph

end Dialogue

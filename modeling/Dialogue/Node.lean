import Dialogue.Action
import Dialogue.Condition
/-!
Nodes: what a dialogue graph is made of, and the palette an editor shows for them. Nodes are connected
at their pins; a pin is known by its place in the list of pin names.
-/
namespace Dialogue

abbrev NodeId := Nat

abbrev Pin := Nat

inductive NodeKind where
  | start
  | line
  | choice
  | condition
  | action
deriving DecidableEq, Repr

structure Line where
  key : Option String
  portrait : Option String
deriving DecidableEq, Repr

inductive Content where
  | start
  | line (line : Line)
  | choice (answers : List (Option String))
  | condition (condition : Condition)
  | action (action : Action)
deriving DecidableEq

structure Point where
  x : Float32
  y : Float32
deriving DecidableEq

structure Node where
  id : NodeId
  position : Point
  content : Content
deriving DecidableEq

inductive Category where
  | entry
  | presentation
  | logic
deriving DecidableEq, Repr

def Category.title : Category → String
  | .entry => "Entry"
  | .presentation => "Presentation"
  | .logic => "Logic"

namespace NodeKind

def palette : List NodeKind := [start, line, choice, condition, action]

def title : NodeKind → String
  | start => "Start"
  | line => "Dialogue"
  | choice => "Choice"
  | condition => "Condition"
  | action => "Action"

def named? (title : String) : Option NodeKind := palette.find? fun kind => kind.title == title

def category : NodeKind → Category
  | start => .entry
  | line | choice => .presentation
  | condition | action => .logic

def description : NodeKind → String
  | start => "Where the dialogue begins."
  | line => "Shows a localized line with an optional speaker image."
  | choice => "Lets the player pick one of several answers."
  | condition => "Chooses a path by testing blackboard properties."
  | action => "Sets blackboard properties or calls operations on handles."

def isPresentable : NodeKind → Bool
  | line | choice => true
  | start | condition | action => false

def inputs : NodeKind → List String
  | start => []
  | _ => ["in"]

/-- A choice has a pin for each answer; the other kinds do not look at the content. -/
def outputs : NodeKind → Content → List String
  | start, _ => ["then"]
  | line, _ => ["next"]
  | choice, .choice answers => answers.mapIdx fun i key => key.getD ("choice " ++ toString i)
  | choice, _ => []
  | condition, _ => ["true", "false"]
  | action, _ => ["then"]

def blank : NodeKind → Content
  | start => .start
  | line => .line ⟨none, none⟩
  | choice => .choice [none]
  | condition => .condition ⟨[], .all⟩
  | action => .action ⟨[]⟩

end NodeKind

namespace Content

def kind : Content → NodeKind
  | start => .start
  | line _ => .line
  | choice _ => .choice
  | condition _ => .condition
  | action _ => .action

def values : Content → List Value
  | condition test => test.clauses.flatMap fun clause => clause.test.values
  | action change => change.effects.flatMap fun effect => effect.command.values
  | _ => []

def mapValues (f : Value → Value) : Content → Content
  | condition test =>
      condition { test with
        clauses := test.clauses.map fun clause => { clause with test := clause.test.mapValues f } }
  | action change =>
      action { change with
        effects := change.effects.map fun effect =>
          { effect with command := effect.command.mapValues f } }
  | content => content

end Content

namespace Node

/-- A node that no graph has given an id yet. -/
def of (content : Content) : Node := ⟨0, ⟨0, 0⟩, content⟩

def line (key : String) : Node := of (.line ⟨some key, none⟩)

def choice (keys : List String) : Node := of (.choice (keys.map some))

def kind (node : Node) : NodeKind := node.content.kind

def inputs (node : Node) : List String := node.kind.inputs

def outputs (node : Node) : List String := node.kind.outputs node.content

end Node

end Dialogue

import Dialogue.Board
import Dialogue.Registry
/-!
Conditions: clauses over the board joined by "all" or "any". Clauses run in order and only until the
answer is known; a clause that calls an operation may change the host.
-/
namespace Dialogue

variable {σ : Type}

inductive Comparator where
  | equals
  | notEquals
  | less
  | lessOrEqual
  | greater
  | greaterOrEqual
deriving DecidableEq, Repr

namespace Comparator

def all : List Comparator :=
  [equals, notEquals, less, greater, lessOrEqual, greaterOrEqual]

def suits (comparator : Comparator) : Kind → Bool
  | .integer | .real => true
  | .text | .boolean => comparator = equals || comparator = notEquals
  | .handle => false

def allowedFor (kind : Kind) : List Comparator := all.filter fun comparator => comparator.suits kind

/-- Without an order between the sides only "not equal" holds. -/
def holds : Comparator → Option Ordering → Bool
  | equals, order => order = some .eq
  | notEquals, order => order ≠ some .eq
  | less, order => order = some .lt
  | lessOrEqual, order => order = some .lt || order = some .eq
  | greater, order => order = some .gt
  | greaterOrEqual, order => order = some .gt || order = some .eq

end Comparator

def Value.compareAs (kind : Kind) (left right : Value) : Option Ordering :=
  match kind with
  | .text => some (compare left.asText right.asText)
  | .integer => some (compare left.asInteger right.asInteger)
  | .real => Real.compare? left.asReal right.asReal
  | .boolean => some (compare left.asBoolean right.asBoolean)
  | .handle => none

inductive Connective where
  | all
  | any
deriving DecidableEq, Repr

inductive Test where
  | unset
  | compare (comparator : Comparator) (operand : Value)
  | call (operation : String) (arguments : List Value)
deriving DecidableEq

namespace Test

def suits (test : Test) (kind : Kind) : Bool :=
  match test with
  | unset => true
  | compare comparator _ => comparator.suits kind
  | call _ _ => kind = .handle

def values : Test → List Value
  | unset => []
  | compare _ operand => [operand]
  | call _ arguments => arguments

def mapValues (f : Value → Value) : Test → Test
  | unset => unset
  | compare comparator operand => compare comparator (f operand)
  | call operation arguments => call operation (arguments.map f)

end Test

structure Clause where
  property : Option PropertyId
  test : Test
deriving DecidableEq

structure Condition where
  clauses : List Clause
  connective : Connective
deriving DecidableEq

def Property.satisfies (property : Property) (comparator : Comparator) (operand : Value) : Bool :=
  let kind := if property.kind = .integer then .real else property.kind
  comparator.suits property.kind && comparator.holds (property.value.compareAs kind operand)

/-- A clause without a property holds; one whose property is gone, or that asks nothing of it, does
not. -/
def Clause.check (registry : Registry σ) (board : Board) (clause : Clause) (host : Host σ) :
    Host σ × Outcome CallError Bool :=
  match clause.property with
  | none => (host, .done true)
  | some id =>
      match board.find? id with
      | none => (host, .done false)
      | some property =>
          match clause.test with
          | .unset => (host, .done false)
          | .compare comparator operand => (host, .done (property.satisfies comparator operand))
          | .call operation arguments =>
              match property.kind, property.value with
              | .handle, .handle handle =>
                  match registry.invoke host handle operation (.value .boolean) arguments with
                  | (host, .done answer) => (host, .done answer.asBoolean)
                  | (host, .failed error) => (host, .failed error)
                  | (host, .crashed) => (host, .crashed)
              | _, _ => (host, .done false)

structure Evaluation where
  result : Bool
  /-- What the clauses that ran gave, in order. -/
  clauses : List Bool
  failures : List CallError
deriving DecidableEq, Repr

namespace Connective

def default : Connective → Bool
  | all => true
  | any => false

def settles (connective : Connective) (passed : Bool) : Bool :=
  passed != connective.default

end Connective

namespace Evaluation

def prepend (passed : Bool) (failures : List CallError) (evaluation : Evaluation) : Evaluation :=
  ⟨evaluation.result, passed :: evaluation.clauses, failures ++ evaluation.failures⟩

end Evaluation

/-- Runs clauses until one settles the answer. A refused call counts as false; in strict mode it ends
the evaluation. There is no evaluation once an operation crashed. -/
def runClauses (registry : Registry σ) (board : Board) (connective : Connective) (strict : Bool) :
    List Clause → Host σ → Host σ × Option Evaluation
  | [], host => (host, some ⟨connective.default, [], []⟩)
  | clause :: rest, host =>
      match clause.check registry board host with
      | (host, .crashed) => (host, none)
      | (host, .done passed) =>
          if connective.settles passed then (host, some ⟨passed, [passed], []⟩)
          else
            let (host, tail) := runClauses registry board connective strict rest host
            (host, tail.map (Evaluation.prepend passed []))
      | (host, .failed error) =>
          if strict || connective.settles false then (host, some ⟨false, [false], [error]⟩)
          else
            let (host, tail) := runClauses registry board connective strict rest host
            (host, tail.map (Evaluation.prepend false [error]))

def Condition.evaluate (registry : Registry σ) (board : Board) (strict : Bool) (condition : Condition)
    (host : Host σ) : Host σ × Option Evaluation :=
  runClauses registry board condition.connective strict condition.clauses host

end Dialogue

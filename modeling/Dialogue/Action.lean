import Dialogue.Board
import Dialogue.Registry
/-!
Actions: effects that run in order, each on what the earlier ones left. An effect writes a property or
calls an operation on the object a property holds.
-/
namespace Dialogue

variable {σ : Type}

inductive Mutation where
  | set
  | append
  | decrease
deriving DecidableEq, Repr

namespace Mutation

def all : List Mutation := [set, append, decrease]

def suits (mutation : Mutation) : Kind → Bool
  | .integer | .real => true
  | .text | .boolean | .handle => mutation = set

def allowedFor (kind : Kind) : List Mutation := all.filter fun mutation => mutation.suits kind

end Mutation

inductive Command where
  | unset
  | mutate (mutation : Mutation) (operand : Value)
  | call (operation : String) (arguments : List Value)
deriving DecidableEq

namespace Command

def suits (command : Command) (kind : Kind) : Bool :=
  match command with
  | unset => true
  | mutate mutation _ => mutation.suits kind
  | call _ _ => kind = .handle

def values : Command → List Value
  | unset => []
  | mutate _ operand => [operand]
  | call _ arguments => arguments

def mapValues (f : Value → Value) : Command → Command
  | unset => unset
  | mutate mutation operand => mutate mutation (f operand)
  | call operation arguments => call operation (arguments.map f)

end Command

structure Effect where
  property : Option PropertyId
  command : Command
deriving DecidableEq

structure Action where
  effects : List Effect
deriving DecidableEq

structure Scene (σ : Type) where
  board : Board
  host : Host σ

structure Report where
  applied : Nat
  skipped : Nat
  failures : List (Nat × CallError)
deriving DecidableEq, Repr

namespace Report

def none : Report := ⟨0, 0, []⟩

def countApplied (report : Report) : Report := { report with applied := report.applied + 1 }

def countSkipped (report : Report) : Report := { report with skipped := report.skipped + 1 }

def fail (report : Report) (index : Nat) (error : CallError) : Report :=
  { report with failures := (index, error) :: report.failures }

end Report

/-- The value a mutation gives a property, before it is converted to the property's kind. Whole numbers
stop at the ends of their range. -/
def Property.mutated? (property : Property) (mutation : Mutation) (operand : Value) : Option Value :=
  match mutation, property.kind with
  | .set, _ => some operand
  | .append, .integer =>
      some (.integer (Int64.ofIntClamp (property.value.asInteger.toInt + operand.asInteger.toInt)))
  | .decrease, .integer =>
      some (.integer (Int64.ofIntClamp (property.value.asInteger.toInt - operand.asInteger.toInt)))
  | .append, .real => some (.real (property.value.asReal + operand.asReal))
  | .decrease, .real => some (.real (property.value.asReal - operand.asReal))
  | _, _ => Option.none

def Effect.run (registry : Registry σ) (effect : Effect) (scene : Scene σ) :
    Scene σ × Outcome CallError Bool :=
  match effect.property.bind scene.board.find? with
  | none => (scene, .done false)
  | some property =>
      match effect.command with
      | .unset => (scene, .done false)
      | .mutate mutation operand =>
          match property.mutated? mutation operand with
          | none => (scene, .done false)
          | some value =>
              ({ scene with board := scene.board.update property.id fun p => p.assign value },
                .done true)
      | .call operation arguments =>
          match property.kind, property.value with
          | .handle, .handle handle =>
              match registry.invoke scene.host handle operation .nothing arguments with
              | (host, .done _) => ({ scene with host := host }, .done true)
              | (host, .failed error) => ({ scene with host := host }, .failed error)
              | (host, .crashed) => ({ scene with host := host }, .crashed)
          | _, _ => (scene, .done false)

/-- Runs effects from the one at `index` on. In strict mode nothing runs after a refused call; after a
crash there is no report. -/
def runEffects (registry : Registry σ) (strict : Bool) :
    Nat → List Effect → Scene σ → Scene σ × Option Report
  | _, [], scene => (scene, some .none)
  | index, effect :: rest, scene =>
      match effect.run registry scene with
      | (scene, .crashed) => (scene, none)
      | (scene, .done applied) =>
          let (scene, report) := runEffects registry strict (index + 1) rest scene
          (scene, report.map (if applied then Report.countApplied else Report.countSkipped))
      | (scene, .failed error) =>
          if strict then (scene, some (Report.none.fail index error))
          else
            let (scene, report) := runEffects registry strict (index + 1) rest scene
            (scene, report.map fun report => report.fail index error)

def Action.apply (registry : Registry σ) (strict : Bool) (action : Action) (scene : Scene σ) :
    Scene σ × Option Report :=
  runEffects registry strict 0 action.effects scene

end Dialogue

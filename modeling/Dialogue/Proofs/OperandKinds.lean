import Dialogue.Proofs.PropertyFates
import Mathlib.Data.List.Forall2
/-!
Operands count as what they are of the kind of their property. A value that has been converted to a kind is
not changed by converting it again, and two operands that come to the same value of the kind are the same to
every mutation; so operands can be converted beforehand and no board, host or report shows it.
-/
namespace Dialogue

variable {σ : Type}

namespace Value

theorem coerce_again (value : Value) (kind : Kind) :
    (value.coerce kind).coerce kind = value.coerce kind := by
  cases kind with
  | text | integer | real | boolean => rfl
  | handle => cases value <;> rfl

theorem mutated_alike (property : Property) (mutation : Mutation) (left right : Value)
    (alike : left.coerce property.kind = right.coerce property.kind) :
    (property.mutated? mutation left).map property.assign =
      (property.mutated? mutation right).map property.assign := by
  obtain ⟨id, name, kind, value⟩ := property
  cases mutation with
  | set => exact congrArg (fun value => some (⟨id, name, kind, value⟩ : Property)) alike
  | append | decrease =>
      cases kind with
      | text | boolean | handle => rfl
      | integer =>
          have same : left.asInteger = right.asInteger := Value.integer.inj alike
          simp only [Property.mutated?, same]
      | real =>
          have same : left.asReal = right.asReal := Value.real.inj alike
          simp only [Property.mutated?, same]

end Value

namespace Effect

/-- The effects differ in nothing but operands, and not in these as values of the property's kind. -/
inductive AlikeOn (board : Board) : Effect → Effect → Prop where
  | same (effect : Effect) : AlikeOn board effect effect
  | operands {id : PropertyId} {property : Property} {mutation : Mutation} {left right : Value}
      (found : board.find? id = some property)
      (alike : left.coerce property.kind = right.coerce property.kind) :
      AlikeOn board ⟨some id, .mutate mutation left⟩ ⟨some id, .mutate mutation right⟩

def coerced (board : Board) (effect : Effect) : Effect :=
  match effect.property.bind board.find?, effect.command with
  | some property, .mutate mutation operand =>
      { effect with command := .mutate mutation (operand.coerce property.kind) }
  | _, _ => effect

theorem coerced_alike (board : Board) (effect : Effect) : AlikeOn board (effect.coerced board) effect := by
  obtain ⟨_ | id, command⟩ := effect
  · exact .same _
  · simp only [coerced, Option.bind_some]
    cases found : board.find? id with
    | none => exact .same _
    | some property =>
        cases command with
        | unset | call => exact .same _
        | mutate mutation operand => exact .operands found (operand.coerce_again property.kind)

theorem fate_alike (id : PropertyId) (mutation : Mutation) (left right : Value) (property : Property)
    (alike : left.coerce property.kind = right.coerce property.kind) :
    fate ⟨some id, .mutate mutation left⟩ property = fate ⟨some id, .mutate mutation right⟩ property := by
  have mutated := Value.mutated_alike property mutation left right alike
  simp only [fate]
  cases wroteLeft : property.mutated? mutation left <;>
    cases wroteRight : property.mutated? mutation right <;>
    simp_all

/-- Kinds are all that matters of the board on which the effects were found alike. -/
theorem run_alike (registry : Registry σ) (board : Board) (left right : Effect)
    (alike : AlikeOn board left right) (scene : Scene σ) (kinds : scene.board.kinds = board.kinds) :
    left.run registry scene = right.run registry scene := by
  cases alike with
  | same => rfl
  | @operands id property mutation left right found alike =>
      have mutates (operand : Value) : mutates id ⟨some id, .mutate mutation operand⟩ = true := by
        simp [mutates]
      have written : scene.board.update id (fate ⟨some id, .mutate mutation left⟩) =
          scene.board.update id (fate ⟨some id, .mutate mutation right⟩) := by
        refine scene.board.update_congr id _ _ fun now foundNow => ?_
        have sameKind := Board.find_kind scene.board board kinds id
        rw [foundNow, found] at sameKind
        exact fate_alike id mutation left right now (by rwa [Option.some.inj sameKind])
      rw [run_mutation registry _ id (mutates left), run_mutation registry _ id (mutates right),
        write_mutation _ id (mutates left), write_mutation _ id (mutates right), written]
      rfl

end Effect

theorem runEffects_alike (registry : Registry σ) (strict : Bool) (board : Board) (index : Nat)
    (lefts rights : List Effect) (alike : List.Forall₂ (Effect.AlikeOn board) lefts rights)
    (scene : Scene σ) (kinds : scene.board.kinds = board.kinds) :
    runEffects registry strict index lefts scene = runEffects registry strict index rights scene := by
  induction alike generalizing index scene with
  | nil => rfl
  | @cons left right lefts rights head _ ih =>
      have later : (right.run registry scene).1.board.kinds = board.kinds := by
        rw [run_board, Board.write_kinds, kinds]
      simp only [runEffects, Effect.run_alike registry board left right head scene kinds]
      generalize right.run registry scene = ran at later ⊢
      obtain ⟨middle, applied | error | _⟩ := ran
      · simp only [ih (index + 1) middle later]
      · simp only [ih (index + 1) middle later]
      · rfl

def Action.coerced (board : Board) (action : Action) : Action :=
  ⟨action.effects.map (Effect.coerced board)⟩

/-- Under any registry and host and in either mode, also where a call is refused or breaks down: an action
whose operands are converted to the kinds of their properties leaves the same scene and the same report as
the action itself. For to convert twice is to convert once, and actions that differ only in operands which
come to the same values of these kinds are the same. -/
theorem operands_count_by_kind (registry : Registry σ) (strict : Bool) (scene : Scene σ) :
    (∀ action, (Action.coerced scene.board action).apply registry strict scene =
      action.apply registry strict scene) ∧
    (∀ (value : Value) kind, (value.coerce kind).coerce kind = value.coerce kind) ∧
    ∀ lefts rights, List.Forall₂ (Effect.AlikeOn scene.board) lefts rights →
      Action.apply registry strict ⟨lefts⟩ scene = Action.apply registry strict ⟨rights⟩ scene := by
  have same (lefts rights : List Effect)
      (alike : List.Forall₂ (Effect.AlikeOn scene.board) lefts rights) :=
    runEffects_alike registry strict scene.board 0 lefts rights alike scene rfl
  refine ⟨fun action => same _ _ ?_, Value.coerce_again, same⟩
  exact List.forall₂_map_left_iff.mpr (List.forall₂_same.mpr fun effect _ =>
    effect.coerced_alike scene.board)

theorem operands_count_by_kind_demo :
    let registry := Machine.registry Terminal.machineType
    let board : Board := ⟨⟨"visits", "seen", .integer, .integer 0⟩ :: Demo.played.board.properties⟩
    let visited (set up down : Value) : List Effect :=
      [⟨some "visits", .mutate .set set⟩, ⟨some "visits", .mutate .append up⟩,
        ⟨some "machine", .call "Explode" []⟩, ⟨some "visits", .mutate .decrease down⟩]
    let said := visited (.text " +7 ") (.real 2.5) (.boolean true)
    let meant := visited (.integer 7) (.integer 2) (.integer 1)
    List.Forall₂ (Effect.AlikeOn board) said meant ∧
      Action.apply registry false ⟨said⟩ ⟨board, Terminal.host⟩ =
        Action.apply registry false ⟨meant⟩ ⟨board, Terminal.host⟩ := by
  intro registry board visited said meant
  have held : board.find? "visits" = some ⟨"visits", "seen", .integer, .integer 0⟩ := by decide
  have alike : List.Forall₂ (Effect.AlikeOn board) said meant :=
    .cons (.operands held (by decide)) (.cons (.operands held (by decide +kernel))
      (.cons (.same _) (.cons (.operands held (by decide)) .nil)))
  exact ⟨alike, (operands_count_by_kind registry false ⟨board, Terminal.host⟩).2.2 said meant alike⟩

end Dialogue

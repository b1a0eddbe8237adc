import Dialogue.Proofs.BoardLaws
import Dialogue.Traversal
/-!
What effects do to the board. A write looks at the board alone: neither the registry nor the host, nor
any call before it, changes what it leaves there. Whatever writes keep, every run of effects keeps.
-/
namespace Dialogue

variable {σ : Type}

/-- The board after an effect. Only a mutation that suits its property writes. -/
def Effect.write (effect : Effect) (board : Board) : Board :=
  match effect.property.bind board.find?, effect.command with
  | some property, .mutate mutation operand =>
      match property.mutated? mutation operand with
      | some value => board.update property.id fun p => p.assign value
      | none => board
  | _, _ => board

def Action.write (action : Action) (board : Board) : Board :=
  action.effects.foldl (fun board effect => effect.write board) board

def Content.action? : Content → Option Action
  | .action change => some change
  | _ => none

def Content.write (content : Content) (board : Board) : Board :=
  match content.action? with
  | some change => change.write board
  | none => board

theorem run_board (registry : Registry σ) (effect : Effect) (scene : Scene σ) :
    (effect.run registry scene).1.board = effect.write scene.board := by
  unfold Effect.run Effect.write
  cases effect.property.bind scene.board.find? with
  | none => rfl
  | some property =>
      cases effect.command with
      | unset => rfl
      | mutate mutation operand =>
          simp only
          cases property.mutated? mutation operand <;> rfl
      | call operation arguments =>
          simp only
          split
          · split <;> rfl
          · rfl

/-- Effects that all had their turn have written what each of them writes, in order. -/
theorem runEffects_board (registry : Registry σ) (strict : Bool) (index : Nat)
    (effects : List Effect) (scene after : Scene σ) (report : Report)
    (ran : runEffects registry strict index effects scene = (after, some report))
    (tolerated : strict = true → report.failures = []) :
    after.board = effects.foldl (fun board effect => effect.write board) scene.board := by
  induction effects generalizing index scene report with
  | nil =>
      cases ran
      rfl
  | cons effect rest ih =>
      have written := run_board registry effect scene
      simp only [runEffects] at ran
      simp only [List.foldl_cons, ← written]
      split at ran
      · cases ran
      next middle applied ranFirst =>
        simp only [ranFirst, Prod.mk.injEq, Option.map_eq_some_iff] at ran ⊢
        obtain ⟨same, tail, ranRest, counted⟩ := ran
        refine ih (index + 1) middle tail (Prod.ext same ranRest) fun isStrict => ?_
        have clean := tolerated isStrict
        rw [← counted] at clean
        cases applied <;> exact clean
      next middle error ranFirst =>
        -- A refused effect writes nothing; a strict run that tolerates none had none.
        split at ran
        next isStrict =>
          cases ran
          exact absurd (tolerated isStrict) (by simp [Report.fail])
        next isLenient =>
          simp only [ranFirst, Prod.mk.injEq, Option.map_eq_some_iff] at ran ⊢
          obtain ⟨same, tail, ranRest, _⟩ := ran
          exact ih (index + 1) middle tail (Prod.ext same ranRest) fun isStrict =>
            absurd isStrict isLenient

theorem write_cases (effect : Effect) (board : Board) :
    effect.write board = board ∨
      ∃ id value, effect.write board = board.update id fun property => property.assign value := by
  unfold Effect.write
  split
  · split
    · exact Or.inr ⟨_, _, rfl⟩
    · exact Or.inl rfl
  · exact Or.inl rfl

theorem write_map {α : Type} (f : Property → α) (effect : Effect) (board : Board)
    (kept : ∀ property value, f (property.assign value) = f property) :
    (effect.write board).properties.map f = board.properties.map f := by
  rcases write_cases effect board with same | ⟨id, value, assigned⟩
  · rw [same]
  · rw [assigned]
    exact Board.updateFirst_map f id (fun property => property.assign value) board.properties
      fun property => kept property value

/-- What no write breaks holds of the board that effects leave, also where a refusal or a crash cut them
short. -/
theorem runEffects_keeps (registry : Registry σ) (strict : Bool) (holds : Board → Prop)
    (kept : ∀ (effect : Effect) board, holds board → holds (effect.write board)) (index : Nat)
    (effects : List Effect) (scene : Scene σ) (begins : holds scene.board) :
    holds (runEffects registry strict index effects scene).1.board := by
  induction effects generalizing index scene with
  | nil => exact begins
  | cons effect rest ih =>
      have written := kept effect scene.board begins
      rw [← run_board registry effect scene] at written
      simp only [runEffects]
      generalize effect.run registry scene = ran at written ⊢
      obtain ⟨middle, applied | error | _⟩ := ran
      · exact ih (index + 1) middle written
      · cases strict with
        | true => exact written
        | false => exact ih (index + 1) middle written
      · exact written

theorem apply_board (registry : Registry σ) (strict : Bool) (change : Action)
    (scene after : Scene σ) (report : Report)
    (applied : change.apply registry strict scene = (after, some report))
    (tolerated : strict = true → report.failures = []) : after.board = change.write scene.board :=
  runEffects_board registry strict 0 change.effects scene after report applied tolerated

end Dialogue

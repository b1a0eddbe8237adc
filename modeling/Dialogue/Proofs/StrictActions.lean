import Dialogue.Proofs.ReportedReferences
import Dialogue.Proofs.Steadiness
import Dialogue.Proofs.TakingTurns
import Mathlib.Data.Nat.Find
/-!
Actions in strict mode. A refused call changes nothing, so a strict run leaves what the effects before the
first refusal leave, and its report is theirs with this one failure.
-/
namespace Dialogue

variable {σ : Type}

namespace Action

def before (action : Action) (index : Nat) : Action := ⟨action.effects.take index⟩

/-- The effect at `index` is refused once those before it have had their turn. -/
def FailsAt (registry : Registry σ) (action : Action) (scene : Scene σ) (index : Nat)
    (error : CallError) : Prop :=
  ∃ effect, action.effects[index]? = some effect ∧
    (effect.run registry ((action.before index).apply registry false scene).1).2 = .failed error

structure FailsFirst (registry : Registry σ) (action : Action) (scene : Scene σ) (index : Nat)
    (error : CallError) : Prop where
  fails : action.FailsAt registry scene index error
  first : ∀ earlier < index, ∀ other, ¬action.FailsAt registry scene earlier other

inductive Attempts (registry : Registry σ) (action : Action) (scene : Scene σ) : Bool → Nat → Prop where
  | leniently : Attempts registry action scene false action.effects.length
  | unhindered {strict : Bool} (accepted : ∀ index error, ¬action.FailsAt registry scene index error) :
      Attempts registry action scene strict action.effects.length
  | cutShort {index : Nat} {error : CallError} (first : action.FailsFirst registry scene index error) :
      Attempts registry action scene true (index + 1)

/-- What a report says of the effects that had their turn. -/
structure Accounts (registry : Registry σ) (action : Action) (scene : Scene σ) (strict : Bool)
    (report : Report) : Prop where
  total : action.Attempts registry scene strict
    (report.applied + report.skipped + report.failures.length)
  ascending : report.failures.Pairwise fun left right => left.1 < right.1
  failed : ∀ index error, (index, error) ∈ report.failures → action.FailsAt registry scene index error
  complete : strict = false → ∀ index error, action.FailsAt registry scene index error →
    (index, error) ∈ report.failures
  /-- Only a call on a property that holds handles can be refused. -/
  called : ∀ index error, (index, error) ∈ report.failures →
    ∃ id operation arguments property,
      action.effects[index]? = some ⟨some id, .call operation arguments⟩ ∧
        scene.board.find? id = some property ∧ property.kind = .handle

end Action

theorem run_failed (registry : Registry σ) (effect : Effect) (scene after : Scene σ)
    (error : CallError) (refused : effect.run registry scene = (after, .failed error)) :
    after = scene ∧ ∃ id operation arguments property,
      effect = ⟨some id, .call operation arguments⟩ ∧ scene.board.find? id = some property ∧
        property.kind = .handle := by
  obtain ⟨_ | id, command⟩ := effect
  · cases refused
  · simp only [Effect.run, Option.bind_some] at refused
    cases held : scene.board.find? id with
    | none =>
        simp only [held] at refused
        cases refused
    | some property =>
        simp only [held] at refused
        cases command with
        | unset => cases refused
        | mutate mutation operand =>
            simp only at refused
            split at refused <;> cases refused
        | call operation arguments =>
            simp only at refused
            split at refused
            next handle isHandle _ =>
              split at refused
              · cases refused
              next host failure called =>
                have same := registry.invoke_failed _ _ _ _ _ _ _ called
                subst same
                cases refused
                exact ⟨rfl, id, operation, arguments, property, rfl, held, isHandle⟩
              · cases refused
            · cases refused

theorem failsFirst_or_none (registry : Registry σ) (action : Action) (scene : Scene σ) :
    (∀ index error, ¬action.FailsAt registry scene index error) ∨
      ∃ index error, action.FailsFirst registry scene index error := by
  classical
  by_cases some : ∃ index error, action.FailsAt registry scene index error
  · obtain ⟨error, fails⟩ := Nat.find_spec some
    exact Or.inr ⟨Nat.find some, error, fails, fun earlier below other sooner =>
      Nat.find_min some below ⟨other, sooner⟩⟩
  · exact Or.inl fun index error fails => some ⟨index, error, fails⟩

/-- Kinds do not change, so the property held handles from the first. -/
theorem failsAt_called (registry : Registry σ) (action : Action) (scene : Scene σ) (index : Nat)
    (error : CallError) (fails : action.FailsAt registry scene index error) :
    ∃ id operation arguments property,
      action.effects[index]? = some ⟨some id, .call operation arguments⟩ ∧
        scene.board.find? id = some property ∧ property.kind = .handle := by
  obtain ⟨effect, stands, refused⟩ := fails
  have kinds := runEffects_keeps registry false (fun board => board.kinds = scene.board.kinds)
    (fun effect board same => (Board.write_kinds effect board).trans same) 0
    (action.before index).effects scene rfl
  obtain ⟨_, id, operation, arguments, property, rfl, held, isHandle⟩ :=
    run_failed registry effect _ _ error (Prod.ext rfl refused)
  have declared := Board.find_kind _ _ kinds id
  rw [Action.apply] at held
  rw [held, Option.map_some, eq_comm, Option.map_eq_some_iff] at declared
  obtain ⟨first, heldFirst, sameKind⟩ := declared
  exact ⟨id, operation, arguments, first, stands, heldFirst, sameKind.trans isHandle⟩

theorem cutShort_accounts (registry : Registry σ) (action : Action) (scene : Scene σ) (index : Nat)
    (error : CallError) (cut : action.FailsFirst registry scene index error) (report : Report)
    (counted : report.applied + report.skipped = index) :
    action.Accounts registry scene true ⟨report.applied, report.skipped, [(index, error)]⟩ := by
  have only (place : Nat) (other : CallError) (member : (place, other) ∈ [(index, error)]) :
      action.FailsAt registry scene place other := by
    cases List.mem_singleton.mp member
    exact cut.fails
  refine ⟨?_, List.pairwise_singleton _ _, only, nofun,
    fun place other member => failsAt_called registry action scene place other
      (only place other member)⟩
  simpa [counted] using Action.Attempts.cutShort cut

section Steady

variable (registry : Registry σ) (steady : registry.Steady)
include steady

theorem turns_survived (effects : List Effect) (scene : Scene σ) :
    .crashed ∉ (everyTurn (Effect.run registry) effects scene).2 := fun crash =>
  takeTurns_outcomes (fun _ => false) (Effect.run registry) (· ≠ .crashed)
    (run_steady registry steady) effects scene _ crash rfl

theorem apply_lenient (action : Action) (scene : Scene σ) :
    action.apply registry false scene =
      (everyTurn (Effect.run registry) action.effects scene).map id
        fun outcomes => some (Report.of 0 outcomes) := by
  have survived := turns_survived registry steady action.effects scene
  have every := takeTurns_every (Outcome.isFinal false) (Effect.run registry) action.effects scene
    fun outcome member => by
      cases outcome with
      | crashed => exact absurd member survived
      | _ => rfl
  rw [Action.apply, runEffects_turns, every]
  simp only [Prod.map, Report.of?, if_neg survived]

theorem failsAt_iff (action : Action) (scene : Scene σ) (index : Nat) (error : CallError) :
    action.FailsAt registry scene index error ↔
      (everyTurn (Effect.run registry) action.effects scene).2[index]? = some (.failed error) := by
  simp only [Action.FailsAt, apply_lenient registry steady, everyTurn_outcome, Action.before,
    Option.map_eq_some_iff, Prod.map, id]

theorem strict_unhindered (action : Action) (scene : Scene σ)
    (accepted : ∀ index error, ¬action.FailsAt registry scene index error) :
    action.apply registry true scene = action.apply registry false scene := by
  have every := takeTurns_every (Outcome.isFinal true) (Effect.run registry) action.effects scene
    fun outcome member => by
      obtain ⟨index, stands⟩ := List.mem_iff_getElem?.mp member
      cases outcome with
      | done => rfl
      | failed error => exact absurd ((failsAt_iff registry steady ..).mpr stands) (accepted index error)
      | crashed => exact absurd member (turns_survived registry steady action.effects scene)
  rw [apply_lenient registry steady, Action.apply, runEffects_turns, every]
  simp only [Prod.map, Report.of?, if_neg (turns_survived registry steady action.effects scene)]

theorem done_before (action : Action) (scene : Scene σ) (index : Nat) (error : CallError)
    (cut : action.FailsFirst registry scene index error) :
    ∀ outcome ∈ (everyTurn (Effect.run registry) (action.before index).effects scene).2,
      ∃ applied, outcome = .done applied := by
  intro outcome member
  cases outcome with
  | done applied => exact ⟨applied, rfl⟩
  | failed other =>
      rw [Action.before, everyTurn_take] at member
      obtain ⟨earlier, within, stands⟩ := List.mem_take_iff_getElem.mp member
      have fails := (failsAt_iff registry steady action scene earlier other).mpr
        (List.getElem?_eq_some_iff.mpr ⟨_, stands⟩)
      exact absurd fails (cut.first earlier (Nat.lt_of_lt_of_le within (Nat.min_le_left _ _)) other)
  | crashed => exact absurd member (turns_survived registry steady _ scene)

/-- The refused effect is the last to have its turn, and leaves the scene as it was. -/
theorem strict_turns (action : Action) (scene : Scene σ) (index : Nat) (error : CallError)
    (cut : action.FailsFirst registry scene index error) :
    takeTurns (Outcome.isFinal true) (Effect.run registry) action.effects scene =
      (everyTurn (Effect.run registry) (action.before index).effects scene).map id
        fun outcomes => outcomes ++ [.failed error] := by
  obtain ⟨effect, stands, refused⟩ := cut.fails
  obtain ⟨within, same⟩ := List.getElem?_eq_some_iff.mp stands
  have split : action.effects =
      (action.before index).effects ++ effect :: action.effects.drop (index + 1) := by
    rw [Action.before, ← same, ← List.drop_eq_getElem_cons within, List.take_append_drop]
  have goesOn : ∀ outcome ∈
      (everyTurn (Effect.run registry) (action.before index).effects scene).2,
      outcome.isFinal true = false := by
    intro outcome member
    obtain ⟨applied, rfl⟩ := done_before registry steady action scene index error cut outcome member
    rfl
  rw [apply_lenient registry steady] at refused
  rcases ran : everyTurn (Effect.run registry) (action.before index).effects scene
    with ⟨reached, outcomes⟩
  simp only [ran, Prod.map, id] at refused
  have stays : effect.run registry reached = (reached, .failed error) := by
    rcases called : effect.run registry reached with ⟨after, outcome⟩
    rw [called] at refused
    subst refused
    rw [(run_failed registry effect reached after error called).1]
  have first : UpToFirst (Outcome.isFinal true) (Effect.run registry) scene action.effects
      ((action.before index).effects ++ [effect]) := by
    refine split ▸ .first _ _ effect goesOn ?_
    rw [ran, stays]
    rfl
  rw [takeTurns_upToFirst _ _ _ _ scene first, everyTurn_append, ran, everyTurn_cons, stays]
  rfl

theorem strict_cutShort (action : Action) (scene : Scene σ) (index : Nat) (error : CallError)
    (cut : action.FailsFirst registry scene index error) :
    ∃ reached report, (action.before index).apply registry false scene = (reached, some report) ∧
      report.failures = [] ∧ report.applied + report.skipped = index ∧
      action.apply registry true scene =
        (reached, some ⟨report.applied, report.skipped, [(index, error)]⟩) := by
  have done := done_before registry steady action scene index error cut
  have survived := turns_survived registry steady (action.before index).effects scene
  have length := everyTurn_length (Effect.run registry) (action.before index).effects scene
  have turns := strict_turns registry steady action scene index error cut
  rw [apply_lenient registry steady, Action.apply, runEffects_turns, turns]
  generalize everyTurn (Effect.run registry) (action.before index).effects scene = before at *
  obtain ⟨reached, outcomes⟩ := before
  obtain ⟨effect, stands, _⟩ := cut.fails
  have within := (List.getElem?_eq_some_iff.mp stands).1
  have length : outcomes.length = index := by
    exact length.trans ((List.length_take ..).trans (Nat.min_eq_left (Nat.le_of_lt within)))
  have failures : (Report.of 0 outcomes).failures = [] := by
    refine Report.of_accepted 0 outcomes fun outcome member => ?_
    obtain ⟨applied, rfl⟩ := done outcome member
    rfl
  have total := Report.of_total 0 outcomes survived
  rw [failures, length] at total
  have alive : .crashed ∉ outcomes ++ [.failed error] := by
    simpa using survived
  refine ⟨reached, Report.of 0 outcomes, rfl, failures, total, ?_⟩
  simp only [Prod.map, id, Report.of?, if_neg alive, Report.of_append, failures, length]
  simp [Report.of, Outcome.error?]

theorem whole_accounts (action : Action) (scene : Scene σ) (strict : Bool)
    (whole : strict = false ∨ ∀ index error, ¬action.FailsAt registry scene index error) :
    action.Accounts registry scene strict
      (Report.of 0 (everyTurn (Effect.run registry) action.effects scene).2) := by
  have failed (index : Nat) (error : CallError) :
      (index, error) ∈
          (Report.of 0 (everyTurn (Effect.run registry) action.effects scene).2).failures ↔
        action.FailsAt registry scene index error := by
    rw [Report.mem_of_failures, failsAt_iff registry steady]
  refine ⟨?_, Report.of_ascending _ _, fun index error => (failed index error).mp,
    fun _ index error => (failed index error).mpr,
    fun index error member => failsAt_called registry action scene index error
      ((failed index error).mp member)⟩
  rw [Report.of_total _ _ (turns_survived registry steady action.effects scene), everyTurn_length]
  rcases whole with rfl | accepted
  · exact .leniently
  · exact .unhindered accepted

theorem apply_accounts (action : Action) (scene : Scene σ) (strict : Bool) :
    ∃ after report, action.apply registry strict scene = (after, some report) ∧
      action.Accounts registry scene strict report := by
  have lenient := apply_lenient registry steady action scene
  cases strict with
  | false => exact ⟨_, _, lenient, whole_accounts registry steady action scene false (Or.inl rfl)⟩
  | true =>
      rcases failsFirst_or_none registry action scene with accepted | ⟨index, error, cut⟩
      · exact ⟨_, _, (strict_unhindered registry steady action scene accepted).trans lenient,
          whole_accounts registry steady action scene true (Or.inr accepted)⟩
      · obtain ⟨reached, report, _, _, counted, ran⟩ :=
          strict_cutShort registry steady action scene index error cut
        exact ⟨reached, _, ran, cutShort_accounts registry action scene index error cut report counted⟩

/-- A strict run is the lenient one as long as nothing is refused, and otherwise the lenient run of the
effects before the first refusal; both account for every effect that had its turn, and a refused one
changes nothing. -/
theorem strict_stops_at_first (action : Action) (scene : Scene σ) :
    ((∀ index error, ¬action.FailsAt registry scene index error) →
      action.apply registry true scene = action.apply registry false scene) ∧
    (∀ index error, action.FailsFirst registry scene index error →
      ∃ reached report, (action.before index).apply registry false scene = (reached, some report) ∧
        action.apply registry true scene =
          (reached, some ⟨report.applied, report.skipped, [(index, error)]⟩)) ∧
    (∀ strict, ∃ after report, action.apply registry strict scene = (after, some report) ∧
      action.Accounts registry scene strict report) ∧
    ∀ (effect : Effect) (before after : Scene σ) error,
      effect.run registry before = (after, .failed error) → after = before := by
  refine ⟨strict_unhindered registry steady action scene, ?_,
    apply_accounts registry steady action scene, ?_⟩
  · intro index error cut
    obtain ⟨reached, report, ran, _, _, strictly⟩ :=
      strict_cutShort registry steady action scene index error cut
    exact ⟨reached, report, ran, strictly⟩
  · intro effect before after error refused
    exact (run_failed registry effect before after error refused).1

end Steady

theorem strict_stops_at_first_demo :
    let registry := Machine.registry Terminal.machineType
    let scene : Scene Machine := ⟨Demo.played.board, Terminal.host⟩
    let visit : Effect := ⟨some "visits", .mutate .append (.integer 1)⟩
    let action : Action := ⟨[visit, ⟨some "machine", .call "Explode" []⟩, visit]⟩
    let error : CallError := .operationNotFound Machine.title "Explode"
    registry.Steady ∧ action.FailsFirst registry scene 1 error ∧
      ∃ reached report, (action.before 1).apply registry false scene = (reached, some report) ∧
        action.apply registry true scene =
          (reached, some ⟨report.applied, report.skipped, [(1, error)]⟩) := by
  intro registry scene visit action error
  have cut : action.FailsFirst registry scene 1 error := by
    refine ⟨⟨_, rfl, rfl⟩, fun earlier below other => ?_⟩
    obtain rfl : earlier = 0 := Nat.lt_one_iff.mp below
    rintro ⟨effect, stands, refused⟩
    cases stands
    cases refused
  exact ⟨machine_steady _, cut,
    (strict_stops_at_first registry (machine_steady _) action scene).2.1 1 error cut⟩

end Dialogue

import Dialogue.Proofs.TakingTurns
/-!
Which clauses of a condition are asked, and what comes of them. Asking goes on until one clause decides, so
a host never hears of the clauses behind it; how a refused call counts matters to "any" alone.
-/
namespace Dialogue

variable {σ : Type}

def Test.isCall : Test → Bool
  | unset | compare _ _ => false
  | call _ _ => true

/-- The clauses of a condition up to the first that decides. -/
abbrev Condition.Asks (registry : Registry σ) (board : Board) (strict : Bool) (condition : Condition)
    (host : Host σ) (asked : List Clause) : Prop :=
  UpToFirst (condition.connective.isDecided strict) (Clause.check registry board) host
    condition.clauses asked

theorem all_strictness (registry : Registry σ) (board : Board) (clauses : List Clause)
    (host : Host σ) :
    runClauses registry board .all true clauses host =
      runClauses registry board .all false clauses host := by
  have alike : Connective.all.isDecided true = Connective.all.isDecided false := by
    funext outcome
    cases outcome <;> rfl
  rw [runClauses_turns, runClauses_turns, alike]

/-- Modes differ in refusals alone, and an evaluation records each of those. -/
theorem unrefused_strictness (registry : Registry σ) (board : Board) (connective : Connective)
    (clauses : List Clause) (host : Host σ) (evaluation : Evaluation)
    (evaluated : (runClauses registry board connective false clauses host).2 = some evaluation)
    (accepted : evaluation.failures = []) :
    runClauses registry board connective true clauses host =
      runClauses registry board connective false clauses host := by
  rw [runClauses_turns] at evaluated
  rw [runClauses_turns, runClauses_turns]
  refine congrArg _ (takeTurns_congr _ _ _ clauses host fun outcome member => ?_)
  obtain ⟨_, rfl⟩ := (connective.conclude_eq_some _ _).mp evaluated
  have unrefused := List.filterMap_eq_nil_iff.mp accepted outcome member
  cases outcome with
  | failed error => cases unrefused
  | _ => cases connective <;> rfl

def Clause.saysOf (board : Board) (clause : Clause) : Bool :=
  match clause.property with
  | none => true
  | some id =>
      match board.find? id, clause.test with
      | some property, .compare comparator operand => property.satisfies comparator operand
      | _, _ => false

/-- What clauses that call nothing amount to, in whatever order they stand. -/
def Connective.sum : Connective → List Bool → Bool
  | all, said => said.all id
  | any, said => said.any id

theorem check_quiet (registry : Registry σ) (board : Board) (clause : Clause) (host : Host σ)
    (quiet : clause.test.isCall = false) :
    clause.check registry board host = (host, .done (clause.saysOf board)) := by
  obtain ⟨property, test⟩ := clause
  cases property with
  | none => rfl
  | some id =>
      simp only [Clause.check, Clause.saysOf]
      cases board.find? id with
      | none => rfl
      | some property =>
          cases test with
          | unset => rfl
          | compare => rfl
          | call => cases quiet

theorem quiet_result (registry : Registry σ) (board : Board) (connective : Connective)
    (strict : Bool) (clauses : List Clause) (host : Host σ)
    (quiet : ∀ clause ∈ clauses, clause.test.isCall = false) :
    ∃ evaluation, runClauses registry board connective strict clauses host = (host, some evaluation) ∧
      evaluation.result = connective.sum (clauses.map (Clause.saysOf board)) := by
  induction clauses with
  | nil => exact ⟨_, rfl, by cases connective <;> rfl⟩
  | cons clause rest ih =>
      obtain ⟨tail, ran, result⟩ := ih fun other later => quiet other (List.mem_cons_of_mem _ later)
      rw [runClauses, check_quiet registry board clause host (quiet clause List.mem_cons_self)]
      by_cases settled : connective.settles (clause.saysOf board) = true
      · refine ⟨⟨clause.saysOf board, [clause.saysOf board], []⟩, by simp [settled], ?_⟩
        cases connective <;> simp_all [Connective.settles, Connective.default, Connective.sum]
      · refine ⟨tail.prepend (clause.saysOf board) [], by simp [settled, ran], ?_⟩
        cases connective <;>
          simp_all [Connective.settles, Connective.default, Connective.sum, Evaluation.prepend]

theorem sum_perm (connective : Connective) (said others : List Bool) (order : said.Perm others) :
    connective.sum said = connective.sum others := by
  cases connective with
  | all => exact order.all_eq
  | any => exact order.any_eq

/-- Exactly the clauses up to the first that decides are asked, and the evaluation and the host are what
these leave. "All" comes to the same in either mode, "any" as long as no call is refused; and clauses
that call nothing may stand in any order. -/
theorem asked_until_decided (registry : Registry σ) (board : Board) (strict : Bool)
    (condition : Condition) (host : Host σ) :
    (∃ asked, (∀ part, condition.Asks registry board strict host part ↔ part = asked) ∧
      condition.evaluate registry board strict host =
        (everyTurn (Clause.check registry board) asked host).map id condition.connective.conclude) ∧
    (condition.connective = .all →
      condition.evaluate registry board true host = condition.evaluate registry board false host) ∧
    (∀ evaluation, (condition.evaluate registry board false host).2 = some evaluation →
      evaluation.failures = [] →
        condition.evaluate registry board true host =
          condition.evaluate registry board false host) ∧
    ((∀ clause ∈ condition.clauses, clause.test.isCall = false) →
      ∃ result, ∀ clauses, clauses.Perm condition.clauses → ∃ evaluation,
        Condition.evaluate registry board strict ⟨clauses, condition.connective⟩ host =
          (host, some evaluation) ∧ evaluation.result = result) := by
  obtain ⟨clauses, connective⟩ := condition
  refine ⟨?_, ?_, unrefused_strictness registry board connective clauses host, ?_⟩
  · obtain ⟨asked, first⟩ := upToFirst_exists (connective.isDecided strict)
      (Clause.check registry board) clauses host
    refine ⟨asked, fun part => ⟨fun again => ?_, fun same => same ▸ first⟩, ?_⟩
    · exact upToFirst_unique _ _ clauses part asked host again first
    · rw [Condition.evaluate, runClauses_turns, takeTurns_upToFirst _ _ clauses asked host first]
  · rintro rfl
    exact all_strictness registry board clauses host
  · intro quiet
    refine ⟨connective.sum (clauses.map (Clause.saysOf board)), fun others order => ?_⟩
    obtain ⟨evaluation, ran, result⟩ := quiet_result registry board connective strict others host
      fun clause member => quiet clause (order.subset member)
    exact ⟨evaluation, ran, result.trans (sum_perm connective _ _ (order.map _))⟩

end Dialogue

import Dialogue.Proofs.BoardWrites
import Dialogue.Proofs.Connecting
import Dialogue.Proofs.TakingTurns
import Dialogue.Terminal.Program
/-!
What lint says of clauses and effects comes true when they run. A reference to a property is judged by the
kind that is declared of it, and no write changes a kind; so a reported clause is false and a reported
effect is skipped on every board that declares the same, wherever they stand and whatever ran before.
-/
namespace Dialogue

variable {σ : Type}

def Finding.isOfReference : Finding → Bool
  | .unknownProperty | .invalidOperation => true
  | .missingStart | .multipleStart | .unknownNode | .selfConnection | .connectionIntoStart
  | .pinOutOfRange | .duplicateOutput | .duplicateProperty | .silentCycle => false

namespace Board

def kinds (board : Board) : List (PropertyId × Kind) :=
  board.properties.map fun property => (property.id, property.kind)

theorem find_kind (left right : Board) (alike : left.kinds = right.kinds) (id : PropertyId) :
    (left.find? id).map Property.kind = (right.find? id).map Property.kind := by
  have looked (board : Board) : (board.find? id).map Property.kind =
      (board.kinds.find? fun declared => declared.1 == id).map Prod.snd := by
    simp only [find?, kinds, List.find?_map, Option.map_map]
    rfl
  rw [looked, looked, alike]

theorem write_kinds (effect : Effect) (board : Board) : (effect.write board).kinds = board.kinds :=
  write_map (fun property => (property.id, property.kind)) effect board fun _ _ => rfl

end Board

namespace Lint

/-- Lint has something to say exactly if the property is missing or its kind does not suit. -/
theorem reference_reported_iff (board : Board) (node : NodeId) (property : Option PropertyId)
    (suits : Kind → Bool) :
    reference board node property suits ≠ [] ↔
      ∃ id, property = some id ∧ ∀ found, board.find? id = some found → suits found.kind = false := by
  cases property with
  | none => simp [reference]
  | some id =>
      cases held : board.find? id with
      | none => simp [reference, held]
      | some found => cases suited : suits found.kind <;> simp [reference, held, suited]

theorem reference_kinds (left right : Board) (alike : left.kinds = right.kinds) (node : NodeId)
    (property : Option PropertyId) (suits : Kind → Bool) :
    reference left node property suits = reference right node property suits := by
  cases property with
  | none => rfl
  | some id =>
      have kinds := left.find_kind right alike id
      cases heldLeft : left.find? id <;> cases heldRight : right.find? id <;>
        simp_all [reference]

end Lint

theorem reported_check (registry : Registry σ) (board : Board) (node : NodeId) (clause : Clause)
    (host : Host σ)
    (reported : Lint.reference board node clause.property clause.test.suits ≠ []) :
    clause.check registry board host = (host, .done false) := by
  obtain ⟨id, named, unsuited⟩ := (Lint.reference_reported_iff _ _ _ _).mp reported
  simp only [Clause.check, named]
  cases held : board.find? id with
  | none => rfl
  | some property =>
      have unsuited := unsuited property held
      cases test : clause.test with
      | unset => rfl
      | compare comparator operand =>
          have unordered : comparator.suits property.kind = false := by
            simpa [test, Test.suits] using unsuited
          simp [Property.satisfies, unordered]
      | call operation arguments =>
          have other : property.kind ≠ .handle := by simpa [test, Test.suits] using unsuited
          simp only
          split
          next isHandle _ => exact absurd isHandle other
          · rfl

/-- A mutation has a value for exactly the kinds it suits. -/
theorem mutated_isSome (property : Property) (mutation : Mutation) (operand : Value) :
    (property.mutated? mutation operand).isSome = mutation.suits property.kind := by
  obtain ⟨id, name, kind, value⟩ := property
  cases mutation <;> cases kind <;> rfl

theorem reported_run (registry : Registry σ) (node : NodeId) (effect : Effect) (scene : Scene σ)
    (reported : Lint.reference scene.board node effect.property effect.command.suits ≠ []) :
    effect.run registry scene = (scene, .done false) := by
  obtain ⟨id, named, unsuited⟩ := (Lint.reference_reported_iff _ _ _ _).mp reported
  simp only [Effect.run, named, Option.bind_some]
  cases held : scene.board.find? id with
  | none => rfl
  | some property =>
      have unsuited := unsuited property held
      cases command : effect.command with
      | unset => rfl
      | mutate mutation operand =>
          have valueless : (property.mutated? mutation operand).isSome = false := by
            rw [mutated_isSome]
            simpa [command, Command.suits] using unsuited
          simp only [Option.isNone_iff_eq_none.mp (Option.isSome_eq_false_iff.mp valueless)]
      | call operation arguments =>
          have other : property.kind ≠ .handle := by
            simpa [command, Command.suits] using unsuited
          simp only
          split
          next isHandle _ => exact absurd isHandle other
          · rfl

theorem unreported_mutation (registry : Registry σ) (node : NodeId) (id : PropertyId)
    (mutation : Mutation) (operand : Value) (scene : Scene σ)
    (unreported : Lint.reference scene.board node (some id) mutation.suits = []) :
    ∃ held value, scene.board.find? id = some held ∧ held.mutated? mutation operand = some value ∧
      Effect.run registry ⟨some id, .mutate mutation operand⟩ scene =
        (⟨scene.board.update id fun property => property.assign value, scene.host⟩, .done true) := by
  simp only [Effect.run, Option.bind_some]
  cases held : scene.board.find? id with
  | none => simp [Lint.reference, held] at unreported
  | some property =>
      have suited : mutation.suits property.kind = true := by
        simpa [Lint.reference, held] using unreported
      rw [← mutated_isSome property mutation operand] at suited
      obtain ⟨value, mutated⟩ := Option.isSome_iff_exists.mp suited
      refine ⟨property, value, rfl, mutated, ?_⟩
      simp only [mutated, scene.board.find_id id property held]

/-- An effect that lint has nothing against and that still does nothing. -/
inductive Effect.Inert (board : Board) : Effect → Prop where
  | unbound {command : Command} : Inert board ⟨none, command⟩
  | unset {property : Option PropertyId} : Inert board ⟨property, .unset⟩
  | unhandled {id : PropertyId} {operation : String} {arguments : List Value} {property : Property}
      (held : board.find? id = some property) (isHandle : property.kind = .handle)
      (missing : property.value.asHandle? = none) :
      Inert board ⟨some id, .call operation arguments⟩

theorem unreported_skip (registry : Registry σ) (node : NodeId) (effect : Effect) (scene : Scene σ)
    (unreported : Lint.reference scene.board node effect.property effect.command.suits = [])
    (skipped : (effect.run registry scene).2 = .done false) : effect.Inert scene.board := by
  obtain ⟨_ | id, command⟩ := effect
  · exact .unbound
  · cases command with
    | unset => exact .unset
    | mutate mutation operand =>
        obtain ⟨_, _, _, _, applied⟩ :=
          unreported_mutation registry node id mutation operand scene unreported
        rw [applied] at skipped
        cases skipped
    | call operation arguments =>
        cases held : scene.board.find? id with
        | none => simp [Lint.reference, held] at unreported
        | some property =>
            have isHandle : property.kind = .handle := by
              simpa [Lint.reference, held, Command.suits] using unreported
            refine .unhandled held isHandle ?_
            simp only [Effect.run, Option.bind_some, held, isHandle] at skipped
            cases value : property.value with
            | handle handle =>
                simp only [value] at skipped
                split at skipped <;> cases skipped
            | _ => rfl

theorem recorded_checked (registry : Registry σ) (board : Board) (connective : Connective)
    (strict : Bool) (clauses : List Clause) (host after : Host σ) (evaluation : Evaluation)
    (ran : runClauses registry board connective strict clauses host = (after, some evaluation))
    (index : Nat) (clause : Clause) (passed : Bool) (stands : clauses[index]? = some clause)
    (recorded : evaluation.clauses[index]? = some passed) :
    ∃ before middle : Host σ, clause.check registry board before = (middle, .done passed) ∨
      passed = false ∧ ∃ error, clause.check registry board before = (middle, .failed error) := by
  rw [runClauses_turns] at ran
  obtain ⟨survived, rfl⟩ := (connective.conclude_eq_some _ _).mp (congrArg Prod.snd ran)
  rw [List.getElem?_map] at recorded
  obtain ⟨outcome, given, rfl⟩ := Option.map_eq_some_iff.mp recorded
  obtain ⟨asked, before, inPlace, rfl⟩ := takeTurns_given _ _ clauses host index outcome given
  cases stands.symm.trans inPlace
  rcases checked : clause.check registry board before with ⟨middle, answer | error | _⟩
  · exact ⟨before, middle, Or.inl (by simp [checked])⟩
  · exact ⟨before, middle, Or.inr ⟨by simp, error, checked⟩⟩
  · rw [checked] at given
    exact absurd (List.mem_of_getElem? given) survived

/-- The effects `before` have run, and the next one gets its turn in the scene `reached`. -/
def ComesTo (registry : Registry σ) (strict : Bool) (before : List Effect)
    (scene reached : Scene σ) : Prop :=
  ∃ report, runEffects registry strict 0 before scene = (reached, some report) ∧
    (strict = true → report.failures = [])

theorem comesTo_kinds (registry : Registry σ) (strict : Bool) (before : List Effect)
    (scene reached : Scene σ) (comes : ComesTo registry strict before scene reached) :
    reached.board.kinds = scene.board.kinds := by
  obtain ⟨report, ran, _⟩ := comes
  have kept := runEffects_keeps registry strict (fun board => board.kinds = scene.board.kinds)
    (fun effect board same => (Board.write_kinds effect board).trans same) 0 before scene rfl
  rwa [ran] at kept

/-- What lint says about the clauses and effects of a graph is what becomes of them on a board. An effect
may stand behind any others, and runs in the scene these have left. -/
structure Graph.Foretells (graph : Graph) (registry : Registry σ) (board : Board) : Prop where
  /-- Findings about references are those about the single clauses and effects, in order. -/
  collected : graph.lint.filter (fun diagnostic => diagnostic.finding.isOfReference) =
    graph.nodes.values.flatMap fun node => Lint.references graph.board node.id node.content
  clause_false : ∀ key id position (test : Condition) (clause : Clause),
    graph.node? key = some ⟨id, position, .condition test⟩ → clause ∈ test.clauses →
    Lint.reference graph.board id clause.property clause.test.suits ≠ [] →
      ∀ host : Host σ, clause.check registry board host = (host, .done false)
  recorded_false : ∀ key id position (test : Condition) (index : Nat) (clause : Clause),
    graph.node? key = some ⟨id, position, .condition test⟩ → test.clauses[index]? = some clause →
    Lint.reference graph.board id clause.property clause.test.suits ≠ [] →
      ∀ strict (host after : Host σ) evaluation,
        test.evaluate registry board strict host = (after, some evaluation) →
          evaluation.clauses[index]? ≠ some true
  effect_skipped : ∀ key id position before (effect : Effect) rest,
    graph.node? key = some ⟨id, position, .action ⟨before ++ effect :: rest⟩⟩ →
    Lint.reference graph.board id effect.property effect.command.suits ≠ [] →
      ∀ strict (host : Host σ) reached, ComesTo registry strict before ⟨board, host⟩ reached →
        effect.run registry reached = (reached, .done false)
  /-- The property is found and assigned what the mutation makes of it; the host stays as it was. -/
  mutation_applied : ∀ key id position before (effect : Effect) rest property mutation operand,
    graph.node? key = some ⟨id, position, .action ⟨before ++ effect :: rest⟩⟩ →
    effect = ⟨some property, .mutate mutation operand⟩ →
    Lint.reference graph.board id effect.property effect.command.suits = [] →
      ∀ strict (host : Host σ) reached, ComesTo registry strict before ⟨board, host⟩ reached →
        ∃ held value, reached.board.find? property = some held ∧
          held.mutated? mutation operand = some value ∧
          effect.run registry reached =
            (⟨reached.board.update property fun found => found.assign value, reached.host⟩,
              .done true)
  skipped_inert : ∀ key id position before (effect : Effect) rest,
    graph.node? key = some ⟨id, position, .action ⟨before ++ effect :: rest⟩⟩ →
    Lint.reference graph.board id effect.property effect.command.suits = [] →
      ∀ strict (host : Host σ) reached, ComesTo registry strict before ⟨board, host⟩ reached →
        (effect.run registry reached).2 = .done false → effect.Inert reached.board

theorem referenceReports_eq (graph : Graph) :
    graph.lint.filter (fun diagnostic => diagnostic.finding.isOfReference) =
      graph.nodes.values.flatMap fun node =>
        Lint.references graph.board node.id node.content := by
  have starts := Lint.starts_dropped Finding.isOfReference graph rfl rfl
  have names := Lint.names_dropped Finding.isOfReference graph.board.properties [] rfl
  have connections := Lint.connections_dropped Finding.isOfReference graph [] <| by
    intro finding ofConnection
    cases finding <;> first | rfl | cases ofConnection
  have loops := Lint.loops_dropped Finding.isOfReference graph rfl
  rw [Graph.lint]
  simp only [List.filter_append, starts, names, connections, loops, List.nil_append,
    List.append_nil]
  rw [List.filter_eq_self]
  intro diagnostic reported
  obtain ⟨node, _, reference⟩ := List.mem_flatMap.mp reported
  rcases Graph.references_finding graph.board node.id node.content diagnostic reference with
    found | found <;> rw [found] <;> rfl

/-- The board may have come to hold other values, and names play no part. -/
theorem lint_foretells (graph : Graph) (registry : Registry σ) (board : Board)
    (alike : board.kinds = graph.board.kinds) : graph.Foretells registry board := by
  have judged := Lint.reference_kinds board graph.board alike
  have reachedJudged (strict : Bool) (before : List Effect) (host : Host σ) (reached : Scene σ)
      (comes : ComesTo registry strict before ⟨board, host⟩ reached) :=
    Lint.reference_kinds reached.board graph.board
      ((comesTo_kinds registry strict before ⟨board, host⟩ reached comes).trans alike)
  constructor
  · exact referenceReports_eq graph
  · intro key id position test clause _ _ reported host
    rw [← judged] at reported
    exact reported_check registry board id clause host reported
  · intro key id position test index clause _ stands reported strict host after evaluation ran passed
    rw [← judged] at reported
    obtain ⟨before, middle, checked | ⟨never, _⟩⟩ :=
      recorded_checked registry board test.connective strict test.clauses host after evaluation ran
        index clause true stands passed
    · rw [reported_check registry board id clause before reported] at checked
      cases checked
    · cases never
  · intro key id position before effect rest _ reported strict host reached comes
    rw [← reachedJudged strict before host reached comes] at reported
    exact reported_run registry id effect reached reported
  · rintro key id position before effect rest property mutation operand _ rfl unreported strict host
      reached comes
    rw [← reachedJudged strict before host reached comes] at unreported
    exact unreported_mutation registry id property mutation operand reached unreported
  · intro key id position before effect rest _ unreported strict host reached comes skipped
    rw [← reachedJudged strict before host reached comes] at unreported
    exact unreported_skip registry id effect reached unreported skipped

def Graph.misread : Graph where
  table := "Gate"
  nodes := file [
    (1, .of .start),
    (2, .of (.condition
      ⟨[⟨some "name", .compare .less (.text "Zoe")⟩, ⟨some "gone", .call "Ask" []⟩], .any⟩)),
    (3, .of (.action ⟨[⟨some "name", .mutate .set (.text "Zoe")⟩,
      ⟨some "name", .mutate .append (.integer 1)⟩, ⟨some "visits", .mutate .append (.integer 1)⟩]⟩))]
  connections := [.flow 1 0 2, .flow 2 0 3]
  board := ⟨[⟨"name", "name", .text, .text ""⟩, ⟨"visits", "visits", .integer, .integer 0⟩]⟩
  nextId := 4

theorem lint_foretells_demo :
    let registry := Machine.registry Terminal.machineType
    let board : Board :=
      ⟨[⟨"name", "called", .text, .text "Ada"⟩, ⟨"visits", "seen", .integer, .integer 41⟩]⟩
    let renamed : Board :=
      ⟨[⟨"name", "called", .text, .text "Zoe"⟩, ⟨"visits", "seen", .integer, .integer 41⟩]⟩
    let count : Effect := ⟨some "name", .mutate .append (.integer 1)⟩
    board.kinds = Graph.misread.board.kinds ∧
      Graph.misread.lint.filter (fun diagnostic => diagnostic.finding.isOfReference) =
        [.atNode .invalidOperation 2, .atNode .unknownProperty 2, .atNode .invalidOperation 3] ∧
      (∀ host : Host Machine, Clause.check registry board
        ⟨some "name", .compare .less (.text "Zoe")⟩ host = (host, .done false)) ∧
      count.run registry ⟨renamed, Terminal.host⟩ = (⟨renamed, Terminal.host⟩, .done false) := by
  intro registry board renamed count
  have foretold := lint_foretells Graph.misread registry board (by decide)
  refine ⟨by decide, foretold.collected.trans (by decide), ?_, ?_⟩
  · exact foretold.clause_false 2 2 _ _ _ rfl List.mem_cons_self (by decide)
  · exact foretold.effect_skipped 3 3 _ [⟨some "name", .mutate .set (.text "Zoe")⟩] count _ rfl
      (by decide) true Terminal.host _ ⟨_, rfl, by decide⟩

end Dialogue

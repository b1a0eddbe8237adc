import Dialogue.Proofs.StrictActions
/-!
What becomes of a single property when an action is applied. Only the mutations of that property have a
say in it, each by what the ones before it made of the property; so mutations of different properties can
be swapped, and a list of effects can be cut anywhere.
-/
namespace Dialogue

variable {σ : Type}

def Effect.mutates (id : PropertyId) (effect : Effect) : Bool :=
  match effect.property, effect.command with
  | some named, .mutate _ _ => named = id
  | _, _ => false

def Effect.fate (effect : Effect) (property : Property) : Property :=
  match effect.command with
  | .mutate mutation operand =>
      match property.mutated? mutation operand with
      | some value => property.assign value
      | none => property
  | _ => property

def Action.on (id : PropertyId) (action : Action) : Action :=
  ⟨action.effects.filter (Effect.mutates id)⟩

def Action.fate (id : PropertyId) (action : Action) (property : Property) : Property :=
  (action.on id).effects.foldl (fun property effect => effect.fate property) property

/-- The one report, and behind it another that goes on after `count` effects. -/
def Report.followed (report : Report) (count : Nat) (later : Report) : Report :=
  ⟨report.applied + later.applied, report.skipped + later.skipped,
    report.failures ++ later.failures.map fun failure => (failure.1 + count, failure.2)⟩

theorem Report.of_followed (before after : List (Outcome CallError Bool)) :
    Report.of 0 (before ++ after) =
      (Report.of 0 before).followed before.length (Report.of 0 after) := by
  have places : after.zipIdx before.length = (after.zipIdx 0).map (Prod.map id (· + before.length)) := by
    simp [List.map_snd_add_zipIdx_eq_zipIdx]
  have later : (Report.of before.length after).failures =
      (Report.of 0 after).failures.map fun failure => (failure.1 + before.length, failure.2) := by
    simp only [of, places, List.filterMap_map, List.map_filterMap]
    refine List.filterMap_congr fun turn _ => ?_
    cases failed : turn.1.error? <;> simp [failed]
  rw [of_append, Nat.zero_add, later]
  rfl

theorem fate_id (effect : Effect) (property : Property) : (effect.fate property).id = property.id := by
  unfold Effect.fate
  split
  · split <;> rfl
  · rfl

theorem mutates_iff (effect : Effect) (id : PropertyId) :
    effect.mutates id = true ↔ ∃ mutation operand, effect = ⟨some id, .mutate mutation operand⟩ := by
  obtain ⟨_ | named, command⟩ := effect
  · simp [Effect.mutates]
  · cases command <;> simp [Effect.mutates]

theorem write_mutation (effect : Effect) (id : PropertyId) (mutates : effect.mutates id = true)
    (board : Board) : effect.write board = board.update id effect.fate := by
  obtain ⟨mutation, operand, rfl⟩ := (mutates_iff effect id).mp mutates
  simp only [Effect.write, Option.bind_some]
  cases held : board.find? id with
  | none => exact (board.update_fixed id _ (by simp [held])).symm
  | some property =>
      simp only
      cases mutated : property.mutated? mutation operand with
      | none =>
          refine (board.update_fixed id _ fun found same => ?_).symm
          cases held.symm.trans same
          simp only [Effect.fate, mutated]
      | some value =>
          rw [board.find_id id property held]
          refine board.update_congr id _ _ fun found same => ?_
          cases held.symm.trans same
          simp only [Effect.fate, mutated]

theorem write_unchanged (effect : Effect) (board : Board) (still : ∀ id, effect.mutates id = false) :
    effect.write board = board := by
  unfold Effect.write
  split
  next property mutation operand found isMutation =>
    obtain ⟨named, named_eq, _⟩ := Option.bind_eq_some_iff.mp found
    simpa [Effect.mutates, named_eq, isMutation] using still named
  · rfl

theorem write_find (effect : Effect) (id : PropertyId) (board : Board) :
    (effect.write board).find? id =
      (board.find? id).map fun property =>
        if effect.mutates id then effect.fate property else property := by
  by_cases own : effect.mutates id = true
  · rw [write_mutation effect id own, board.find_update id id _ (fate_id effect)]
    simp [own]
  · by_cases other : ∃ named, effect.mutates named = true
    · obtain ⟨named, mutates⟩ := other
      have different : id ≠ named := fun same => own (same ▸ mutates)
      rw [write_mutation effect named mutates, board.find_update named id _ (fate_id effect)]
      simp [own, different]
    · rw [write_unchanged effect board fun named =>
        Bool.eq_false_iff.mpr fun mutates => other ⟨named, mutates⟩]
      simp [own]

/-- What the effects write to a property is what its own mutations make of it. -/
theorem writes_find (action : Action) (id : PropertyId) (board : Board) :
    (action.write board).find? id = (board.find? id).map (action.fate id) := by
  obtain ⟨effects⟩ := action
  simp only [Action.write]
  induction effects generalizing board with
  | nil => exact Option.map_id'.symm
  | cons effect rest ih =>
      rw [List.foldl_cons, ih, write_find, Option.map_map]
      refine congrArg (fun fate => (board.find? id).map fate) (funext fun property => ?_)
      by_cases own : effect.mutates id = true
      · simp [Action.fate, Action.on, own]
      · simp [Action.fate, Action.on, own]

theorem fate_on (action : Action) (id : PropertyId) : (action.on id).fate id = action.fate id := by
  funext property
  simp [Action.fate, Action.on]

theorem run_mutation (registry : Registry σ) (effect : Effect) (id : PropertyId)
    (mutates : effect.mutates id = true) (scene : Scene σ) :
    effect.run registry scene = (⟨effect.write scene.board, scene.host⟩,
      .done ((scene.board.find? id).any fun property => effect.command.suits property.kind)) := by
  obtain ⟨mutation, operand, rfl⟩ := (mutates_iff effect id).mp mutates
  simp only [Effect.run, Effect.write, Option.bind_some]
  cases scene.board.find? id with
  | none => rfl
  | some property =>
      simp only [Option.any_some, Command.suits, ← mutated_isSome property mutation operand]
      cases property.mutated? mutation operand <;> rfl

theorem mutations_apply (registry : Registry σ) (strict : Bool) (id : PropertyId) (index : Nat)
    (effects : List Effect) (only : ∀ effect ∈ effects, effect.mutates id = true) (scene : Scene σ) :
    (runEffects registry strict index effects scene).1 =
      ⟨Action.write ⟨effects⟩ scene.board, scene.host⟩ := by
  simp only [Action.write]
  induction effects generalizing index scene with
  | nil => rfl
  | cons effect rest ih =>
      have tail index scene := ih index (fun other later =>
        only other (List.mem_cons_of_mem _ later)) scene
      simp only [runEffects, run_mutation registry effect id (only effect List.mem_cons_self), tail,
        List.foldl_cons]

theorem writes_commute (left right : Effect) (first second : PropertyId) (different : first ≠ second)
    (mutatesFirst : left.mutates first = true) (mutatesSecond : right.mutates second = true)
    (board : Board) : right.write (left.write board) = left.write (right.write board) := by
  simp only [write_mutation left first mutatesFirst, write_mutation right second mutatesSecond]
  exact board.update_update first second _ _ (fate_id left) (fate_id right)
    fun same => absurd same different

theorem write_unseen (effect : Effect) (named id : PropertyId) (different : named ≠ id)
    (mutates : effect.mutates named = true) (board : Board) :
    (effect.write board).find? id = board.find? id := by
  rw [write_mutation effect named mutates, board.find_update named id _ (fate_id effect),
    if_neg different.symm]

/-- Neither of two mutations of different properties sees what the other writes. -/
theorem mutations_swap (registry : Registry σ) (strict : Bool) (left right : Effect)
    (first second : PropertyId) (different : first ≠ second)
    (mutatesFirst : left.mutates first = true) (mutatesSecond : right.mutates second = true)
    (before rest : List Effect) (index : Nat) (scene : Scene σ) :
    runEffects registry strict index (before ++ left :: right :: rest) scene =
      runEffects registry strict index (before ++ right :: left :: rest) scene := by
  induction before generalizing index scene with
  | nil =>
      simp only [List.nil_append, runEffects, run_mutation registry left first mutatesFirst,
        run_mutation registry right second mutatesSecond,
        write_unseen left first second different mutatesFirst,
        write_unseen right second first different.symm mutatesSecond,
        writes_commute left right first second different mutatesFirst mutatesSecond, Option.map_map]
      refine congrArg (Prod.mk _) (congrArg (fun counts => Option.map counts _) ?_)
      generalize Option.any _ _ = leftApplies
      generalize Option.any _ _ = rightApplies
      cases leftApplies <;> cases rightApplies <;> rfl
  | cons effect earlier ih => simp only [List.cons_append, runEffects, ih]

section Steady

variable (registry : Registry σ) (steady : registry.Steady)
include steady

theorem apply_fate (action : Action) (scene : Scene σ) (id : PropertyId) :
    (action.apply registry false scene).1.board.find? id =
      (scene.board.find? id).map (action.fate id) := by
  have ran := apply_lenient registry steady action scene
  have written := apply_board registry false action scene _ _ ran nofun
  rw [ran]
  exact (congrArg (fun board => board.find? id) written).trans (writes_find action id scene.board)

theorem apply_followed (first second : List Effect) (scene : Scene σ) :
    ∃ middle after left right, Action.apply registry false ⟨first⟩ scene = (middle, some left) ∧
      Action.apply registry false ⟨second⟩ middle = (after, some right) ∧
      Action.apply registry false ⟨first ++ second⟩ scene =
        (after, some (left.followed first.length right)) := by
  refine ⟨_, _, _, _, apply_lenient registry steady ⟨first⟩ scene,
    apply_lenient registry steady ⟨second⟩ _, ?_⟩
  rw [apply_lenient registry steady]
  simp only [everyTurn_append, Prod.map, id, Report.of_followed, everyTurn_length]
  rfl

/-- A property comes to what its own mutations make of it, whatever stands between them and however the
calls go. So mutations of different properties can change places, and a list of effects is its two parts,
one after the other. -/
theorem fates_are_apart (scene : Scene σ) :
    (∀ action id, (Action.apply registry false action scene).1.board.find? id =
      (scene.board.find? id).map (action.fate id)) ∧
    (∀ action id (others : Registry σ) strict host,
      (Action.apply registry false action scene).1.board.find? id =
        ((action.on id).apply others strict ⟨scene.board, host⟩).1.board.find? id) ∧
    (∀ (left right : Effect) first second, first ≠ second → left.mutates first = true →
      right.mutates second = true → ∀ strict before rest,
        Action.apply registry strict ⟨before ++ left :: right :: rest⟩ scene =
          Action.apply registry strict ⟨before ++ right :: left :: rest⟩ scene) ∧
    ∀ first second, ∃ middle after left right,
      Action.apply registry false ⟨first⟩ scene = (middle, some left) ∧
      Action.apply registry false ⟨second⟩ middle = (after, some right) ∧
      Action.apply registry false ⟨first ++ second⟩ scene =
        (after, some (left.followed first.length right)) := by
  refine ⟨fun action id => apply_fate registry steady action scene id, ?_, ?_,
    fun first second => apply_followed registry steady first second scene⟩
  · intro action id others strict host
    have only : ∀ effect ∈ (action.on id).effects, effect.mutates id = true := fun effect member =>
      (List.mem_filter.mp member).2
    rw [apply_fate registry steady, Action.apply, mutations_apply others strict id 0 _ only,
      writes_find, fate_on]
  · intro left right first second different mutatesFirst mutatesSecond strict before rest
    exact mutations_swap registry strict left right first second different mutatesFirst mutatesSecond
      before rest 0 scene

end Steady

/-- The refused call is not noticed, nor is the second property under the id; both visits are counted, up
to the end of the range. -/
theorem fates_are_apart_demo :
    let registry := Machine.registry Terminal.machineType
    let board : Board := ⟨⟨"visits", "seen", .integer, .integer 9223372036854775805⟩ ::
      ⟨"visits", "unseen", .integer, .integer 0⟩ :: Demo.played.board.properties⟩
    let visit : Effect := ⟨some "visits", .mutate .append (.integer 2)⟩
    let action : Action := ⟨[visit, ⟨some "machine", .call "Explode" []⟩, visit]⟩
    registry.Steady ∧ (action.apply registry false ⟨board, Terminal.host⟩).1.board.find? "visits" =
      some ⟨"visits", "seen", .integer, .integer 9223372036854775807⟩ := by
  intro registry board visit action
  have fate := (fates_are_apart registry (machine_steady _) ⟨board, Terminal.host⟩).1 action "visits"
  exact ⟨machine_steady _, fate.trans (by decide)⟩

end Dialogue

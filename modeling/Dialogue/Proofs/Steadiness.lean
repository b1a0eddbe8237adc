import Dialogue.Proofs.Invocations
import Dialogue.Proofs.TakingTurns
import Dialogue.Terminal.Program
/-!
Registries whose operations always come back. A crash can only start in an operation that breaks down, so
without such operations every call, clause, effect and node gives an answer.
-/
namespace Dialogue

variable {σ : Type}

/-- Whatever object and arguments an operation on offer is given, it leaves a result. -/
def Registry.Steady (registry : Registry σ) : Prop :=
  ∀ offer ∈ registry.offers, ∀ operation ∈ offer.operations, ∀ object arguments,
    (operation.run object arguments).result.isSome

namespace Registry

theorem invoke_steady (registry : Registry σ) (steady : registry.Steady) (host : Host σ)
    (handle : Handle) (text : String) (returns : Returns) (arguments : List Value) :
    (registry.invoke host handle text returns arguments).2 ≠ .crashed := by
  have invokes := registry.invoke_invokes host handle text returns arguments
  generalize registry.invoke host handle text returns arguments = result at invokes ⊢
  cases invokes with
  | refused => nofun
  | @ran operation stored resolved =>
      -- The call runs an operation on offer, and every one of these leaves a result.
      obtain ⟨_, offer, _, offered, member, _⟩ := lookup_offered _ _ _ _ _ _ _ resolved
      obtain ⟨result, replied⟩ := Option.isSome_iff_exists.mp
        (steady offer (List.mem_of_find?_eq_some offered) operation member stored.content
          (operation.coerceArguments arguments))
      simp [Reply.outcome, replied]

end Registry

theorem check_steady (registry : Registry σ) (steady : registry.Steady) (board : Board)
    (clause : Clause) (host : Host σ) : (clause.check registry board host).2 ≠ .crashed := by
  unfold Clause.check
  repeat' split
  all_goals try simp
  next called =>
    exact registry.invoke_steady steady _ _ _ _ _ (congrArg Prod.snd called)

theorem runClauses_steady (registry : Registry σ) (steady : registry.Steady) (board : Board)
    (connective : Connective) (strict : Bool) (clauses : List Clause) (host : Host σ) :
    (runClauses registry board connective strict clauses host).2.isSome := by
  have survived := takeTurns_outcomes (connective.isDecided strict) (Clause.check registry board)
    (· ≠ .crashed) (check_steady registry steady board) clauses host
  rw [runClauses_turns]
  exact Option.isSome_iff_exists.mpr
    ⟨_, (connective.conclude_eq_some _ _).mpr ⟨fun crash => survived _ crash rfl, rfl⟩⟩

theorem run_steady (registry : Registry σ) (steady : registry.Steady) (effect : Effect)
    (scene : Scene σ) : (effect.run registry scene).2 ≠ .crashed := by
  unfold Effect.run
  repeat' split
  all_goals try simp
  next called =>
    exact registry.invoke_steady steady _ _ _ _ _ (congrArg Prod.snd called)

theorem runEffects_steady (registry : Registry σ) (steady : registry.Steady) (strict : Bool)
    (index : Nat) (effects : List Effect) (scene : Scene σ) :
    (runEffects registry strict index effects scene).2.isSome := by
  have survived := takeTurns_outcomes (Outcome.isFinal strict) (Effect.run registry) (· ≠ .crashed)
    (run_steady registry steady) effects scene
  rw [runEffects_turns]
  exact Option.isSome_iff_exists.mpr
    ⟨_, (Report.of?_eq_some _ _ _).mpr ⟨fun crash => survived _ crash rfl, rfl⟩⟩

theorem on_steady {τ : Type} (type : HostType σ τ) (name : String)
    (parameters : List (String × Kind)) (returns : Returns) (run : τ → List Value → Reply τ)
    (answers : ∀ inner arguments, (run inner arguments).result.isSome) (object : σ)
    (arguments : List Value) :
    ((Operation.on type name parameters returns run).run object arguments).result.isSome := by
  simp only [Operation.on]
  split
  · exact answers _ _
  · rfl

theorem machine_offered (type : HostType σ Machine) (offer : Offer σ)
    (offered : offer ∈ (Machine.registry type).offers) :
    offer = ⟨type.name, Machine.title, Machine.operations type⟩ := by
  simpa [Machine.registry, Registry.register, Registry.empty, Registry.extend] using offered

theorem machine_steady (type : HostType σ Machine) : (Machine.registry type).Steady := by
  intro offer offered operation member object arguments
  obtain rfl := machine_offered type offer offered
  simp only [Machine.operations, List.mem_cons, List.not_mem_nil, or_false] at member
  rcases member with rfl | rfl | rfl | rfl | rfl | rfl | rfl | rfl | rfl | rfl | rfl | rfl
  all_goals exact on_steady type _ _ _ _ (fun _ _ => rfl) object arguments

def Demo.played : Graph := ((Demo.graph "machine" "visits").bindHandles Terminal.host).2

theorem enter_steady (registry : Registry σ) (steady : registry.Steady) (strict : Bool)
    (node : NodeId) (scene : Scene σ) (content : Content) :
    (content.enter registry strict node scene).1 ≠ .crash := by
  cases content with
  | start => simp [Content.enter]
  | line => simp [Content.enter]
  | choice => simp [Content.enter]
  | condition test =>
      have answered := runClauses_steady registry steady scene.board test.connective strict
        test.clauses scene.host
      simp only [Content.enter, Condition.evaluate]
      split
      next evaluated => simp [evaluated] at answered
      · split <;> simp
  | action change =>
      have answered := runEffects_steady registry steady strict 0 change.effects scene
      simp only [Content.enter, Action.apply]
      split
      next applied => simp [applied] at answered
      · split <;> simp

/-- So a walk always stops at something the dialogue itself came to. -/
theorem walk_steady (registry : Registry σ) (steady : registry.Steady) (graph : Graph)
    (strict : Bool) (hops : Nat) (source : Endpoint) (events : List Event) (scene : Scene σ) :
    (walk graph registry strict hops source events scene).stop ≠ .crashed := by
  fun_induction walk graph registry strict hops source events scene with
  | case5 => next onward => exact onward
  | case8 =>
      next entered =>
        exact absurd (congrArg Prod.fst entered) (enter_steady registry steady strict _ _ _)
  | _ => nofun

theorem advance_steady (registry : Registry σ) (steady : registry.Steady) (graph : Graph)
    (traversal : Traversal) (pin : Pin) (scene : Scene σ) :
    (traversal.advance graph registry pin scene).2.2 ≠ .crashed := by
  unfold Traversal.advance
  cases traversal.position with
  | idle => nofun
  | ended => nofun
  | atNode node =>
      have stops := walk_steady registry steady graph traversal.config.strict
        traversal.config.maxHops ⟨node, pin⟩ [] scene
      simp only
      split
      case h_5 broke => exact absurd broke stops
      all_goals nofun

theorem Player.leave_steady (player : Player σ) (steady : player.registry.Steady) (pin : Pin)
    (host : Host σ) : (player.leave pin host).2.2 ≠ .crashed := by
  have comesBack := advance_steady player.registry steady player.graph player.traversal pin
    ⟨player.board, host⟩
  unfold leave
  generalize player.traversal.advance player.graph player.registry pin ⟨player.board, host⟩ =
    advanced at comesBack ⊢
  obtain ⟨traversal, scene, outcome⟩ := advanced
  cases outcome with
  | done => nofun
  | failed => nofun
  | crashed => exact absurd rfl comesBack

end Dialogue

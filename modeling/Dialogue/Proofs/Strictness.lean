import Dialogue.Proofs.TakingTurns
import Dialogue.Proofs.Trail
/-!
Strict and lenient runs side by side. They are the same until a call is refused; there the strict run
stops, while the lenient one reports the refusal and goes on.
-/
namespace Dialogue

variable {σ : Type}

def refusals (events : List Event) : List (NodeId × CallError) :=
  events.filterMap fun
    | .refused node error => some (node, error)
    | _ => none

/-- Clauses run strictly as they do leniently, or the strict run ends with the first failure of the
lenient one. -/
theorem clauses_strict (registry : Registry σ) (board : Board) (connective : Connective)
    (clauses : List Clause) (host : Host σ) :
    (runClauses registry board connective true clauses host =
        runClauses registry board connective false clauses host ∧
      ∀ evaluation, (runClauses registry board connective false clauses host).2 = some evaluation →
        evaluation.failures = []) ∨
    ∃ error cut evaluation,
      runClauses registry board connective true clauses host = (cut, some evaluation) ∧
      evaluation.failures = [error] ∧
      ∀ whole, (runClauses registry board connective false clauses host).2 = some whole →
        whole.failures.head? = some error := by
  simp only [runClauses_turns, Prod.map, id]
  rcases takeTurns_refused (connective.isDecided false) (connective.isDecided true)
      (Clause.check registry board) (by cases connective <;> rfl)
      (fun _ => by cases connective <;> rfl)
      (fun outcome accepted => by cases outcome <;> cases accepted <;> cases connective <;> rfl)
      clauses host with ⟨same, accepted⟩ | ⟨cut, before, error, later, ran, whole, accepted, survived⟩
  · refine Or.inl ⟨by rw [same], fun evaluation concluded => ?_⟩
    obtain ⟨_, rfl⟩ := (connective.conclude_eq_some _ _).mp concluded
    exact List.filterMap_eq_nil_iff.mpr accepted
  · have clean := List.filterMap_eq_nil_iff.mpr accepted
    have survived : .crashed ∉ before ++ [.failed error] := by simpa using survived
    rw [ran, whole]
    refine Or.inr ⟨error, cut, _, congrArg (Prod.mk cut)
      ((connective.conclude_eq_some _ _).mpr ⟨survived, rfl⟩), ?_, fun evaluation concluded => ?_⟩
    · simp [clean, Outcome.error?]
    · obtain ⟨_, rfl⟩ := (connective.conclude_eq_some _ _).mp concluded
      simp [clean, Outcome.error?]

theorem effects_strict (registry : Registry σ) (index : Nat) (effects : List Effect)
    (scene : Scene σ) :
    (runEffects registry true index effects scene = runEffects registry false index effects scene ∧
      ∀ report, (runEffects registry false index effects scene).2 = some report →
        report.failures = []) ∨
    ∃ failure cut report,
      runEffects registry true index effects scene = (cut, some report) ∧
      report.failures = [failure] ∧
      ∀ whole, (runEffects registry false index effects scene).2 = some whole →
        whole.failures.head? = some failure := by
  simp only [runEffects_turns, Prod.map, id]
  rcases takeTurns_refused (Outcome.isFinal false) (Outcome.isFinal true) (Effect.run registry)
      rfl (fun _ => rfl) (fun outcome accepted => by cases outcome <;> cases accepted <;> rfl)
      effects scene with ⟨same, accepted⟩ | ⟨cut, before, error, later, ran, whole, accepted, survived⟩
  · refine Or.inl ⟨by rw [same], fun report reported => ?_⟩
    obtain ⟨_, rfl⟩ := (Report.of?_eq_some _ _ _).mp reported
    exact Report.of_accepted index _ accepted
  · have refused (later : List (Outcome CallError Bool)) :=
      Report.of_refused index before later error accepted
    have survived : .crashed ∉ before ++ [.failed error] := by simpa using survived
    rw [ran, whole]
    refine Or.inr ⟨(index + before.length, error), cut, _, congrArg (Prod.mk cut)
      ((Report.of?_eq_some _ _ _).mpr ⟨survived, rfl⟩), refused [], fun report reported => ?_⟩
    obtain ⟨_, rfl⟩ := (Report.of?_eq_some _ _ _).mp reported
    rw [refused later, List.head?_cons]

theorem refusals_append (left right : List Event) :
    refusals (left ++ right) = refusals left ++ refusals right :=
  List.filterMap_append ..

theorem refusals_reverse (events : List Event) :
    refusals events.reverse = (refusals events).reverse :=
  List.filterMap_reverse ..

theorem refusals_reported (node : NodeId) (errors : List CallError) :
    refusals (errors.map (Event.refused node)) = errors.map fun error => (node, error) := by
  induction errors with
  | nil => rfl
  | cons error rest ih => exact congrArg (List.cons (node, error)) ih

theorem refusals_entered (caused events : List Event) (node : NodeId) :
    refusals (caused.reverse ++ .entered node :: events) =
      (refusals caused).reverse ++ refusals events := by
  rw [refusals_append, refusals_reverse]
  rfl

theorem report_lenient (node : NodeId) (errors : List CallError) :
    reportRefusals false node errors = .ok (errors.map (Event.refused node)) := by
  cases errors <;> rfl

theorem report_strict (node : NodeId) (error : CallError) (rest : List CallError) :
    reportRefusals true node (error :: rest) = .error error := rfl

theorem enter_lenient (registry : Registry σ) (node : NodeId) (scene : Scene σ)
    (content : Content) (error : CallError) :
    (content.enter registry false node scene).1 ≠ .fail error := by
  cases content with
  | start => simp [Content.enter]
  | line => simp [Content.enter]
  | choice => simp [Content.enter]
  | condition test =>
      simp only [Content.enter, report_lenient]
      split <;> simp
  | action change =>
      simp only [Content.enter, report_lenient]
      split <;> simp

/-- The node runs strictly as it runs leniently, or the strict walk gives up at it with the first
refusal that the lenient walk reports of it. -/
def RunsStrictly (registry : Registry σ) (node : NodeId) (scene : Scene σ) (content : Content) :
    Prop :=
  (content.enter registry true node scene = content.enter registry false node scene ∧
    refusals (content.enter registry false node scene).2.1 = []) ∨
  ∃ error cut, content.enter registry true node scene = (.fail error, [], cut) ∧
    ((content.enter registry false node scene).1 = .crash ∨
      ∃ exit caused after more,
        content.enter registry false node scene = (.leave exit, caused, after) ∧
          refusals caused = (node, error) :: more)

theorem condition_strict (registry : Registry σ) (node : NodeId) (scene : Scene σ)
    (test : Condition) : RunsStrictly registry node scene (.condition test) := by
  rcases whole : runClauses registry scene.board test.connective false test.clauses scene.host
    with ⟨host, lenient⟩
  rcases clauses_strict registry scene.board test.connective test.clauses scene.host with
    ⟨same, clean⟩ | ⟨error, cut, evaluation, ran, only, first⟩
  · simp only [whole] at same clean
    cases lenient with
    | none => exact Or.inl ⟨by simp [Content.enter, Condition.evaluate, same, whole],
        by simp [Content.enter, Condition.evaluate, whole, refusals]⟩
    | some evaluation =>
        have spotless := clean evaluation rfl
        left
        constructor
        · simp [Content.enter, Condition.evaluate, same, whole, spotless, reportRefusals]
        · simp [Content.enter, Condition.evaluate, whole, spotless, reportRefusals, refusals]
  · refine Or.inr ⟨error, { scene with host := cut }, ?_, ?_⟩
    · simp [Content.enter, Condition.evaluate, ran, only, report_strict]
    · simp only [whole] at first
      cases lenient with
      | none => exact Or.inl (by simp [Content.enter, Condition.evaluate, whole])
      | some evaluation =>
          obtain ⟨more, failures⟩ := List.head?_eq_some_iff.mp (first evaluation rfl)
          refine Or.inr ⟨if evaluation.result then 0 else 1,
            evaluation.failures.map (Event.refused node) ++ [.evaluated node evaluation.result],
            { scene with host := host }, more.map fun error => (node, error), ?_, ?_⟩
          · simp only [Content.enter, Condition.evaluate, whole, report_lenient]
          · rw [refusals_append, refusals_reported, failures]
            simp [refusals]

theorem action_strict (registry : Registry σ) (node : NodeId) (scene : Scene σ)
    (change : Action) : RunsStrictly registry node scene (.action change) := by
  rcases whole : runEffects registry false 0 change.effects scene with ⟨after, lenient⟩
  rcases effects_strict registry 0 change.effects scene with
    ⟨same, clean⟩ | ⟨failure, cut, report, ran, only, first⟩
  · simp only [whole] at same clean
    cases lenient with
    | none => exact Or.inl ⟨by simp [Content.enter, Action.apply, same, whole],
        by simp [Content.enter, Action.apply, whole, refusals]⟩
    | some report =>
        have spotless := clean report rfl
        left
        constructor
        · simp [Content.enter, Action.apply, same, whole, spotless, reportRefusals]
        · simp [Content.enter, Action.apply, whole, spotless, reportRefusals, refusals]
  · refine Or.inr ⟨failure.2, cut, ?_, ?_⟩
    · simp [Content.enter, Action.apply, ran, only, report_strict]
    · simp only [whole] at first
      cases lenient with
      | none => exact Or.inl (by simp [Content.enter, Action.apply, whole])
      | some report =>
          obtain ⟨more, failures⟩ := List.head?_eq_some_iff.mp (first report rfl)
          refine Or.inr ⟨0,
            (report.failures.map Prod.snd).map (Event.refused node) ++ [.applied node report],
            after, (more.map Prod.snd).map fun error => (node, error), ?_, ?_⟩
          · simp only [Content.enter, Action.apply, whole, report_lenient]
          · rw [refusals_append, refusals_reported, failures]
            simp [refusals]

theorem enter_strict (registry : Registry σ) (node : NodeId) (scene : Scene σ)
    (content : Content) : RunsStrictly registry node scene content := by
  cases content with
  | start => exact Or.inl ⟨rfl, rfl⟩
  | line => exact Or.inl ⟨rfl, rfl⟩
  | choice => exact Or.inl ⟨rfl, rfl⟩
  | condition test => exact condition_strict registry node scene test
  | action change => exact action_strict registry node scene change

/-- Strictness is asked about only when a silent node is entered. -/
theorem walk_before_enter (graph : Graph) (registry : Registry σ) (hops : Nat) (source : Endpoint)
    (events : List Event) (scene : Scene σ) :
    (∀ strict, walk graph registry strict hops source events scene =
        walk graph registry false hops source events scene) ∧
      refusals (walk graph registry false hops source events scene).events = refusals events ∧
      (∀ node error,
        (walk graph registry false hops source events scene).stop ≠ .failed node error) ∨
    ∃ fewer target node, hops = fewer + 1 ∧ graph.target? source = some target ∧
      graph.node? target.node = some node ∧ node.kind.isPresentable = false := by
  cases leads : graph.target? source with
  | none => exact Or.inl (by simp [walk.eq_def, leads])
  | some target =>
      cases stored : graph.node? target.node with
      | none => exact Or.inl (by simp [walk.eq_def, leads, stored])
      | some node =>
          cases shown : node.kind.isPresentable with
          | true => exact Or.inl (by simp [walk.eq_def, leads, stored, shown, refusals])
          | false =>
              cases hops with
              | zero => exact Or.inl (by simp [walk.eq_def, leads, stored, shown])
              | succ fewer => exact Or.inr ⟨fewer, target, node, rfl, rfl, stored, shown⟩

/-- Both walks are one, and it reports no refusal of its own; or the strict walk gives up with the first
refusal that the lenient one adds to what it had. -/
theorem walk_strict (graph : Graph) (registry : Registry σ) (hops : Nat) (source : Endpoint)
    (events : List Event) (scene : Scene σ) :
    (walk graph registry true hops source events scene =
        walk graph registry false hops source events scene ∧
      refusals (walk graph registry false hops source events scene).events = refusals events) ∨
    ∃ node error,
      (walk graph registry true hops source events scene).stop = .failed node error ∧
      ((walk graph registry false hops source events scene).stop = .crashed ∨
        ∃ later, refusals (walk graph registry false hops source events scene).events =
          later ++ (node, error) :: refusals events) := by
  induction hops generalizing source events scene with
  | zero =>
      rcases walk_before_enter graph registry 0 source events scene with
        ⟨same, quiet, _⟩ | ⟨fewer, _, _, spent, _⟩
      · exact Or.inl ⟨same true, quiet⟩
      · exact absurd spent (Nat.succ_ne_zero fewer).symm
  | succ hops ih =>
      rcases walk_before_enter graph registry (hops + 1) source events scene with
        ⟨same, quiet, _⟩ | ⟨_, target, node, _, leads, stored, silent⟩
      · exact Or.inl ⟨same true, quiet⟩
      rw [walk_enter graph registry true hops source target events scene node leads stored silent,
        walk_enter graph registry false hops source target events scene node leads stored silent]
      rcases enter_strict registry node.id scene node.content with
        ⟨same, quiet⟩ | ⟨error, cut, refused, crashes | ⟨exit, caused, after, more, left, first⟩⟩
      · -- The node ran alike, so the walks part later or never.
        rcases entered : node.content.enter registry false node.id scene
          with ⟨flow, caused, after⟩
        simp only [entered] at quiet
        have unchanged : refusals (caused.reverse ++ .entered node.id :: events) =
            refusals events := by
          rw [refusals_entered, quiet]
          rfl
        rw [same, entered]
        cases flow with
        | present => exact Or.inl ⟨rfl, unchanged⟩
        | fail error => exact Or.inl ⟨rfl, unchanged⟩
        | crash => exact Or.inl ⟨rfl, unchanged⟩
        | leave exit =>
            have onward := ih ⟨node.id, exit⟩
              (caused.reverse ++ .entered node.id :: events) after
            rw [unchanged] at onward
            exact onward
      · rcases entered : node.content.enter registry false node.id scene
          with ⟨flow, caused, after⟩
        simp only [entered] at crashes
        subst crashes
        rw [refused]
        exact Or.inr ⟨node.id, error, rfl, Or.inl rfl⟩
      · -- The strict walk gives up here; what the lenient one reports later only adds to this.
        have reported : refusals (caused.reverse ++ .entered node.id :: events) =
            more.reverse ++ (node.id, error) :: refusals events := by
          rw [refusals_entered, first]
          simp
        rw [refused, left]
        refine Or.inr ⟨node.id, error, rfl, ?_⟩
        rcases ih ⟨node.id, exit⟩ (caused.reverse ++ .entered node.id :: events) after
          with ⟨_, kept⟩ | ⟨other, failure, _, crashed | ⟨later, added⟩⟩
        · exact Or.inr ⟨more.reverse, kept.trans reported⟩
        · exact Or.inl crashed
        · refine Or.inr ⟨later ++ (other, failure) :: more.reverse, added.trans ?_⟩
          rw [reported]
          simp

theorem walk_lenient (graph : Graph) (registry : Registry σ) (hops : Nat) (source : Endpoint)
    (events : List Event) (scene : Scene σ) (node : NodeId) (error : CallError) :
    (walk graph registry false hops source events scene).stop ≠ .failed node error := by
  induction hops generalizing source events scene with
  | zero =>
      rcases walk_before_enter graph registry 0 source events scene with
        ⟨_, _, never⟩ | ⟨fewer, _, _, spent, _⟩
      · exact never node error
      · exact absurd spent (Nat.succ_ne_zero fewer).symm
  | succ hops ih =>
      rcases walk_before_enter graph registry (hops + 1) source events scene with
        ⟨_, _, never⟩ | ⟨_, target, reached, _, leads, stored, silent⟩
      · exact never node error
      rw [walk_enter graph registry false hops source target events scene reached leads stored
        silent]
      have tolerant := enter_lenient registry reached.id scene reached.content
      rcases entered : reached.content.enter registry false reached.id scene
        with ⟨flow, caused, after⟩
      simp only [entered] at tolerant
      cases flow with
      | present => simp
      | crash => simp
      | fail failure => exact absurd rfl (tolerant failure)
      | leave exit => exact ih _ _ _

theorem advance_answer (graph : Graph) (registry : Registry σ) (config : Config) (node : NodeId)
    (pin : Pin) (scene : Scene σ) (answer : Advance)
    (answered : (Traversal.advance ⟨config, .atNode node⟩ graph registry pin scene).2.2 =
      .done answer) :
    (walk graph registry config.strict config.maxHops ⟨node, pin⟩ [] scene).stop ≠ .crashed ∧
      answer.events =
        (walk graph registry config.strict config.maxHops ⟨node, pin⟩ [] scene).events.reverse := by
  simp only [Traversal.advance] at answered
  split at answered
  next shown stop =>
    cases answered
    exact ⟨by simp [stop], rfl⟩
  next stop =>
    cases answered
    exact ⟨by simp [stop], rfl⟩
  · cases answered
  · cases answered
  · cases answered

theorem advance_lenient (graph : Graph) (registry : Registry σ) (maxHops : Nat)
    (position : Position) (pin : Pin) (scene : Scene σ) (node : NodeId) (error : CallError) :
    (Traversal.advance ⟨⟨maxHops, false⟩, position⟩ graph registry pin scene).2.2 ≠
      .failed (.call node error) := by
  cases position with
  | idle => simp [Traversal.advance]
  | ended => simp [Traversal.advance]
  | atNode current =>
      have never := walk_lenient graph registry maxHops ⟨current, pin⟩ [] scene node error
      simp only [Traversal.advance]
      split
      · simp
      · simp
      · simp
      next other failure stop =>
        intro same
        cases same
        exact never stop
      · simp

theorem advance_strict (graph : Graph) (registry : Registry σ) (maxHops : Nat)
    (position : Position) (pin : Pin) (scene : Scene σ) :
    let strictly := Traversal.advance ⟨⟨maxHops, true⟩, position⟩ graph registry pin scene
    let leniently := Traversal.advance ⟨⟨maxHops, false⟩, position⟩ graph registry pin scene
    ((leniently.1.position = strictly.1.position ∧ leniently.2 = strictly.2) ∧
        ∀ answer, leniently.2.2 = .done answer → refusals answer.events = []) ∨
      ∃ node error, strictly.2.2 = .failed (.call node error) ∧
        ∀ answer, leniently.2.2 = .done answer →
          ∃ later, refusals answer.events = (node, error) :: later := by
  intro strictly leniently
  cases position with
  | idle => exact Or.inl ⟨⟨rfl, rfl⟩, nofun⟩
  | ended =>
      refine Or.inl ⟨⟨rfl, rfl⟩, ?_⟩
      intro answer answered
      cases answered
      rfl
  | atNode current =>
      rcases walk_strict graph registry maxHops ⟨current, pin⟩ [] scene with
        ⟨same, quiet⟩ | ⟨node, error, gaveUp, rest⟩
      · left
        constructor
        · simp only [strictly, leniently, Traversal.advance, same]
          split <;> exact ⟨rfl, rfl⟩
        · intro answer answered
          obtain ⟨_, events⟩ := advance_answer _ _ _ _ _ _ _ answered
          rw [events, refusals_reverse, quiet]
          rfl
      · right
        refine ⟨node, error, ?_, ?_⟩
        · simp only [strictly, Traversal.advance, gaveUp]
        · -- A lenient run that crashed has no answer; any other reports the refusal.
          intro answer answered
          obtain ⟨finished, events⟩ := advance_answer _ _ _ _ _ _ _ answered
          rcases rest with crashed | ⟨later, reported⟩
          · exact absurd crashed finished
          · refine ⟨later.reverse, ?_⟩
            rw [events, refusals_reverse, reported]
            simp [refusals]

/-- Strict and lenient runs agree. A strict run that answers, or uses up its hops, is the lenient run;
a lenient run whose calls were all accepted is the strict run; where some were refused, the strict run
ends with the first of them; and a lenient run never ends with a refused call. -/
theorem strictness_agrees (graph : Graph) (registry : Registry σ) (pin : Pin) (scene : Scene σ)
    (maxHops : Nat) (position : Position) :
    let strictly := Traversal.advance ⟨⟨maxHops, true⟩, position⟩ graph registry pin scene
    let leniently := Traversal.advance ⟨⟨maxHops, false⟩, position⟩ graph registry pin scene
    let agree := leniently.1.position = strictly.1.position ∧ leniently.2 = strictly.2
    ((∃ answer, strictly.2.2 = .done answer) ∨
        (∃ node hops, strictly.2.2 = .failed (.cycleDetected node hops)) → agree) ∧
      (∀ answer, leniently.2.2 = .done answer → refusals answer.events = [] → agree) ∧
      (∀ answer node error later, leniently.2.2 = .done answer →
        refusals answer.events = (node, error) :: later →
        strictly.2.2 = .failed (.call node error)) ∧
      ∀ node error, leniently.2.2 ≠ .failed (.call node error) := by
  intro strictly leniently agree
  have tolerant := advance_lenient graph registry maxHops position pin scene
  rcases advance_strict graph registry maxHops position pin scene with
    ⟨same, quiet⟩ | ⟨node, error, failed, first⟩
  · refine ⟨fun _ => same, fun _ _ _ => same, ?_, tolerant⟩
    intro answer node error later answered refused
    rw [quiet answer answered] at refused
    cases refused
  · refine ⟨?_, ?_, ?_, tolerant⟩
    · rintro (⟨answer, answered⟩ | ⟨_, _, spent⟩)
      · exact nomatch failed.symm.trans answered
      · exact nomatch failed.symm.trans spent
    · intro answer answered accepted
      obtain ⟨later, reported⟩ := first answer answered
      rw [accepted] at reported
      cases reported
    · intro answer other failure later answered refused
      obtain ⟨_, reported⟩ := first answer answered
      rw [refused] at reported
      cases reported
      exact failed

end Dialogue

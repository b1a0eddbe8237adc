import Dialogue.Proofs.BoardWrites
/-!
Walks as relations. A trail lists the silent nodes that a walk entered and left again, in order; each was
found behind the pin through which the one before was left. A walk is a trail and a halt: the trail goes
on until a node is shown, the path ends, the hops are used up or a node cannot be left. An advance leaves
the traversal at the node it presents, at the end, or, if it was not begun or an operation broke down, where
it stood.
-/
namespace Dialogue

variable {σ : Type}

structure Visit where
  node : NodeId
  content : Content
  /-- What running the node reported. -/
  caused : List Event
  exit : Pin

def Visit.events (visit : Visit) : List Event := .entered visit.node :: visit.caused

def eventsOf (visits : List Visit) : List Event := visits.flatMap Visit.events

def enteredNodes (events : List Event) : List NodeId :=
  events.filterMap fun
    | .entered node => some node
    | _ => none

/-- A silent node runs and is left through a pin: a condition through the pin of its result, an action
or a start node through the first. What a call refused is reported, and a strict walk tolerates none. -/
inductive Passes (registry : Registry σ) (strict : Bool) (node : NodeId) (before : Scene σ) :
    Content → List Event → Pin → Scene σ → Prop where
  | start : Passes registry strict node before .start [] 0 before
  | condition {test : Condition} {host : Host σ} {evaluation : Evaluation}
      (evaluated :
        test.evaluate registry before.board strict before.host = (host, some evaluation))
      (tolerated : strict = true → evaluation.failures = []) :
      Passes registry strict node before (.condition test)
        (evaluation.failures.map (Event.refused node) ++ [.evaluated node evaluation.result])
        (if evaluation.result then 0 else 1) { before with host := host }
  | action {change : Action} {after : Scene σ} {report : Report}
      (applied : change.apply registry strict before = (after, some report))
      (tolerated : strict = true → report.failures = []) :
      Passes registry strict node before (.action change)
        ((report.failures.map Prod.snd).map (Event.refused node) ++ [.applied node report])
        0 after

inductive GivesUp (registry : Registry σ) (before : Scene σ) :
    Content → CallError → Scene σ → Prop where
  | condition {test : Condition} {host : Host σ} {evaluation : Evaluation} {error : CallError}
      (evaluated :
        test.evaluate registry before.board true before.host = (host, some evaluation))
      (first : evaluation.failures.head? = some error) :
      GivesUp registry before (.condition test) error { before with host := host }
  | action {change : Action} {after : Scene σ} {report : Report} {error : CallError}
      (applied : change.apply registry true before = (after, some report))
      (first : (report.failures.map Prod.snd).head? = some error) :
      GivesUp registry before (.action change) error after

inductive Trail (graph : Graph) (registry : Registry σ) (strict : Bool) :
    Endpoint → Scene σ → List Visit → Endpoint → Scene σ → Prop where
  | here {source : Endpoint} {scene : Scene σ} :
      Trail graph registry strict source scene [] source scene
  | enter {source target last : Endpoint} {scene after reached : Scene σ} {node : Node}
      {caused : List Event} {exit : Pin} {visits : List Visit}
      (leads : graph.target? source = some target)
      (stored : graph.node? target.node = some node)
      (passes : Passes registry strict node.id scene node.content caused exit after)
      (onward : Trail graph registry strict ⟨node.id, exit⟩ after visits last reached) :
      Trail graph registry strict source scene
        (⟨node.id, node.content, caused, exit⟩ :: visits) last reached

/-- Why a walk stops that leaves through `source` with some hops left: the stop, what it reports
beyond the trail, and the scene it leaves. -/
inductive Halts (graph : Graph) (registry : Registry σ) (strict : Bool) (hops : Nat)
    (source : Endpoint) (scene : Scene σ) : Stop → List Event → Scene σ → Prop where
  | presented {target : Endpoint} {node : Node} (leads : graph.target? source = some target)
      (stored : graph.node? target.node = some node)
      (shown : node.kind.isPresentable = true) :
      Halts graph registry strict hops source scene (.presented node.id)
        [.entered node.id] scene
  | unconnected (nowhere : graph.target? source = none) :
      Halts graph registry strict hops source scene .ended [] scene
  | missing {target : Endpoint} (leads : graph.target? source = some target)
      (gone : graph.node? target.node = none) :
      Halts graph registry strict hops source scene .ended [] scene
  | outOfHops {target : Endpoint} {node : Node} (spent : hops = 0)
      (leads : graph.target? source = some target)
      (stored : graph.node? target.node = some node)
      (silent : node.kind.isPresentable = false) :
      Halts graph registry strict hops source scene (.outOfHops node.id) [] scene
  | failed {target : Endpoint} {node : Node} {error : CallError} {final : Scene σ}
      (left : 0 < hops) (leads : graph.target? source = some target)
      (stored : graph.node? target.node = some node) (isStrict : strict = true)
      (givesUp : GivesUp registry scene node.content error final) :
      Halts graph registry strict hops source scene (.failed node.id error)
        [.entered node.id] final
  | crashed {target : Endpoint} {node : Node} {caused : List Event} {final : Scene σ}
      (left : 0 < hops) (leads : graph.target? source = some target)
      (stored : graph.node? target.node = some node)
      (broke : node.content.enter registry strict node.id scene = (.crash, caused, final)) :
      Halts graph registry strict hops source scene .crashed (.entered node.id :: caused) final

theorem passes_silent (registry : Registry σ) (strict : Bool) (node : NodeId)
    (before after : Scene σ) (content : Content) (caused : List Event) (exit : Pin)
    (passes : Passes registry strict node before content caused exit after) :
    content.kind.isPresentable = false := by
  cases passes <;> rfl

theorem gives_up_silent (registry : Registry σ) (before after : Scene σ) (content : Content)
    (error : CallError) (givesUp : GivesUp registry before content error after) :
    content.kind.isPresentable = false := by
  cases givesUp <;> rfl

theorem report_ok_iff (strict : Bool) (node : NodeId) (errors : List CallError)
    (events : List Event) :
    reportRefusals strict node errors = .ok events ↔
      (strict = true → errors = []) ∧ events = errors.map (Event.refused node) := by
  cases strict <;> cases errors <;> simp [reportRefusals, eq_comm]

theorem report_error_iff (strict : Bool) (node : NodeId) (errors : List CallError)
    (error : CallError) :
    reportRefusals strict node errors = .error error ↔
      strict = true ∧ errors.head? = some error := by
  cases strict <;> cases errors <;> simp [reportRefusals]

theorem enter_leave_iff (registry : Registry σ) (strict : Bool) (node : NodeId)
    (before after : Scene σ) (content : Content) (caused : List Event) (exit : Pin) :
    content.enter registry strict node before = (.leave exit, caused, after) ↔
      Passes registry strict node before content caused exit after := by
  constructor
  · intro entered
    cases content with
    | start =>
        cases entered
        exact .start
    | line => cases entered
    | choice => cases entered
    | condition test =>
        simp only [Content.enter] at entered
        split at entered
        · cases entered
        next host evaluation evaluated =>
          split at entered
          · cases entered
          next refusals reported =>
            obtain ⟨tolerated, rfl⟩ := (report_ok_iff ..).mp reported
            cases entered
            exact .condition evaluated tolerated
    | action change =>
        simp only [Content.enter] at entered
        split at entered
        · cases entered
        next after report applied =>
          split at entered
          · cases entered
          next refusals reported =>
            obtain ⟨tolerated, rfl⟩ := (report_ok_iff ..).mp reported
            cases entered
            exact .action applied fun isStrict => List.map_eq_nil_iff.mp (tolerated isStrict)
  · intro passes
    cases passes with
    | start => rfl
    | @condition _ _ evaluation evaluated tolerated =>
        have reported := (report_ok_iff strict node evaluation.failures _).mpr ⟨tolerated, rfl⟩
        simp only [Content.enter, evaluated, reported]
    | @action _ _ report applied tolerated =>
        have reported := (report_ok_iff strict node (report.failures.map Prod.snd) _).mpr
          ⟨fun isStrict => List.map_eq_nil_iff.mpr (tolerated isStrict), rfl⟩
        simp only [Content.enter, applied, reported]

theorem enter_fail_iff (registry : Registry σ) (strict : Bool) (node : NodeId)
    (before after : Scene σ) (content : Content) (caused : List Event) (error : CallError) :
    content.enter registry strict node before = (.fail error, caused, after) ↔
      strict = true ∧ caused = [] ∧ GivesUp registry before content error after := by
  constructor
  · intro entered
    cases content with
    | start => cases entered
    | line => cases entered
    | choice => cases entered
    | condition test =>
        simp only [Content.enter] at entered
        split at entered
        · cases entered
        next host evaluation evaluated =>
          split at entered
          next reported =>
            obtain ⟨rfl, first⟩ := (report_error_iff ..).mp reported
            cases entered
            exact ⟨rfl, rfl, .condition evaluated first⟩
          · cases entered
    | action change =>
        simp only [Content.enter] at entered
        split at entered
        · cases entered
        next after report applied =>
          split at entered
          next reported =>
            obtain ⟨rfl, first⟩ := (report_error_iff ..).mp reported
            cases entered
            exact ⟨rfl, rfl, .action applied first⟩
          · cases entered
  · rintro ⟨rfl, rfl, givesUp⟩
    cases givesUp with
    | condition evaluated first =>
        have reported := (report_error_iff true node _ error).mpr ⟨rfl, first⟩
        simp only [Content.enter, evaluated, reported]
    | action applied first =>
        have reported := (report_error_iff true node _ error).mpr ⟨rfl, first⟩
        simp only [Content.enter, applied, reported]

theorem enter_crash_silent (registry : Registry σ) (strict : Bool) (node : NodeId)
    (before after : Scene σ) (content : Content) (caused : List Event)
    (broke : content.enter registry strict node before = (.crash, caused, after)) :
    content.kind.isPresentable = false := by
  cases content with
  | line => cases broke
  | choice => cases broke
  | _ => rfl

theorem enter_silent (registry : Registry σ) (strict : Bool) (node : NodeId) (before : Scene σ)
    (content : Content) (silent : content.kind.isPresentable = false) :
    (content.enter registry strict node before).1 ≠ .present := by
  cases content with
  | start => simp [Content.enter]
  | line => simp [Content.kind, NodeKind.isPresentable] at silent
  | choice => simp [Content.kind, NodeKind.isPresentable] at silent
  | condition test =>
      simp only [Content.enter]
      split
      · simp
      · split <;> simp
  | action change =>
      simp only [Content.enter]
      split
      · simp
      · split <;> simp

theorem walk_enter (graph : Graph) (registry : Registry σ) (strict : Bool) (hops : Nat)
    (source target : Endpoint) (events : List Event) (scene : Scene σ) (node : Node)
    (leads : graph.target? source = some target) (stored : graph.node? target.node = some node)
    (silent : node.kind.isPresentable = false) :
    walk graph registry strict (hops + 1) source events scene =
      match node.content.enter registry strict node.id scene with
      | (.leave pin, caused, scene) =>
          walk graph registry strict hops ⟨node.id, pin⟩
            (caused.reverse ++ .entered node.id :: events) scene
      | (.present, caused, scene) =>
          ⟨.presented node.id, caused.reverse ++ .entered node.id :: events, scene⟩
      | (.fail error, caused, scene) =>
          ⟨.failed node.id error, caused.reverse ++ .entered node.id :: events, scene⟩
      | (.crash, caused, scene) =>
          ⟨.crashed, caused.reverse ++ .entered node.id :: events, scene⟩ := by
  rw [walk]
  simp only [leads, stored, silent]
  rcases node.content.enter registry strict node.id scene with ⟨flow, caused, after⟩
  cases flow <;> simp

/-- Along a trail a walk does nothing but spend a hop on each visit and collect what it reports. -/
theorem walk_of_trail (graph : Graph) (registry : Registry σ) (strict : Bool)
    {source last : Endpoint} {scene reached : Scene σ} {visits : List Visit}
    (trail : Trail graph registry strict source scene visits last reached) (hops : Nat)
    (events : List Event) (within : visits.length ≤ hops) :
    walk graph registry strict hops source events scene =
      walk graph registry strict (hops - visits.length) last
        ((eventsOf visits).reverse ++ events) reached := by
  induction trail generalizing hops events with
  | here => simp [eventsOf]
  | @enter _ target _ scene after _ node caused exit visits leads stored passes _ ih =>
      have silent : node.kind.isPresentable = false := passes_silent _ _ _ _ _ _ _ _ passes
      have entered := (enter_leave_iff ..).mpr passes
      -- Each visit takes one hop, so there is one left for it.
      cases hops with
      | zero => simp at within
      | succ hops =>
          have onward := ih hops (caused.reverse ++ .entered node.id :: events)
            (by simpa using within)
          rw [walk_enter graph registry strict hops _ target events scene node leads stored silent,
            entered]
          simp only [onward]
          simp [eventsOf, Visit.events, List.append_assoc]

theorem walk_of_halt (graph : Graph) (registry : Registry σ) (strict : Bool) (hops : Nat)
    {source : Endpoint} {scene final : Scene σ} {stop : Stop} {more : List Event}
    (halts : Halts graph registry strict hops source scene stop more final)
    (events : List Event) :
    walk graph registry strict hops source events scene =
      ⟨stop, more.reverse ++ events, final⟩ := by
  cases halts with
  | presented leads stored shown =>
      rw [walk]
      simp only [leads, stored, shown]
      rfl
  | unconnected nowhere =>
      rw [walk]
      simp only [nowhere]
      rfl
  | missing leads gone =>
      rw [walk]
      simp only [leads, gone]
      rfl
  | outOfHops spent leads stored silent =>
      subst spent
      rw [walk]
      simp only [leads, stored, silent]
      rfl
  | @failed target node _ _ left leads stored isStrict givesUp =>
      have silent := gives_up_silent _ _ _ _ _ givesUp
      have entered := (enter_fail_iff registry strict node.id ..).mpr
        ⟨isStrict, rfl, givesUp⟩
      obtain ⟨hops, rfl⟩ := Nat.exists_eq_add_one.mpr left
      rw [walk_enter graph registry strict hops _ target events scene _ leads stored silent,
        entered]
      rfl
  | @crashed target _ _ _ left leads stored broke =>
      have silent := enter_crash_silent _ _ _ _ _ _ _ broke
      obtain ⟨hops, rfl⟩ := Nat.exists_eq_add_one.mpr left
      rw [walk_enter graph registry strict hops _ target events scene _ leads stored silent,
        broke]
      simp

/-- A walk halts where it stands, or else it has a hop left and passes through the next node. -/
theorem halts_or_passes (graph : Graph) (registry : Registry σ) (strict : Bool) (hops : Nat)
    (source : Endpoint) (scene : Scene σ) :
    (∃ stop more final, Halts graph registry strict hops source scene stop more final) ∨
      ∃ target node caused exit after, 0 < hops ∧ graph.target? source = some target ∧
        graph.node? target.node = some node ∧
        Passes registry strict node.id scene node.content caused exit after := by
  cases leads : graph.target? source with
  | none => exact Or.inl ⟨_, _, _, .unconnected leads⟩
  | some target =>
      cases stored : graph.node? target.node with
      | none => exact Or.inl ⟨_, _, _, .missing leads stored⟩
      | some node =>
          cases kind : node.kind.isPresentable with
          | true => exact Or.inl ⟨_, _, _, .presented leads stored kind⟩
          | false =>
              rcases Nat.eq_zero_or_pos hops with spent | left
              · exact Or.inl ⟨_, _, _, .outOfHops spent leads stored kind⟩
              · have goesOn := enter_silent registry strict node.id scene node.content kind
                rcases entered : node.content.enter registry strict node.id scene
                  with ⟨flow, caused, after⟩
                cases flow with
                | present => exact absurd (congrArg Prod.fst entered) goesOn
                | leave exit =>
                    exact Or.inr ⟨_, _, _, _, _, left, rfl, stored,
                      (enter_leave_iff ..).mp entered⟩
                | fail error =>
                    obtain ⟨isStrict, _, givesUp⟩ := (enter_fail_iff ..).mp entered
                    exact Or.inl ⟨_, _, _, .failed left leads stored isStrict givesUp⟩
                | crash => exact Or.inl ⟨_, _, _, .crashed left leads stored entered⟩

/-- Every walk is a trail within its hops and then a halt. -/
theorem trail_halts (graph : Graph) (registry : Registry σ) (strict : Bool) (hops : Nat)
    (source : Endpoint) (scene : Scene σ) :
    ∃ visits last reached stop more final,
      Trail graph registry strict source scene visits last reached ∧ visits.length ≤ hops ∧
        Halts graph registry strict (hops - visits.length) last reached stop more final := by
  -- Passing through a node takes a hop, so the hops left bound the rest of the trail.
  induction hops generalizing source scene with
  | zero =>
      rcases halts_or_passes graph registry strict 0 source scene with
        ⟨stop, more, final, halts⟩ | ⟨_, _, _, _, _, left, _⟩
      · exact ⟨[], source, scene, stop, more, final, .here, Nat.le_refl 0, halts⟩
      · exact absurd left (Nat.lt_irrefl 0)
  | succ hops ih =>
      rcases halts_or_passes graph registry strict (hops + 1) source scene with
        ⟨stop, more, final, halts⟩ | ⟨target, node, caused, exit, after, _, leads, stored, passes⟩
      · exact ⟨[], source, scene, stop, more, final, .here, Nat.zero_le _, halts⟩
      · obtain ⟨visits, last, reached, stop, more, final, trail, within, halts⟩ :=
          ih ⟨node.id, exit⟩ after
        refine ⟨_ :: visits, last, reached, stop, more, final,
          .enter leads stored passes trail, Nat.succ_le_succ within, ?_⟩
        simpa using halts

/-- A walk and the relation agree: its result is that of any trail within its hops that halts, and
there is such a trail. -/
theorem walk_iff (graph : Graph) (registry : Registry σ) (strict : Bool) (hops : Nat)
    (source : Endpoint) (scene final : Scene σ) (stop : Stop) (events : List Event) :
    walk graph registry strict hops source [] scene = ⟨stop, events.reverse, final⟩ ↔
      ∃ visits last reached more,
        Trail graph registry strict source scene visits last reached ∧ visits.length ≤ hops ∧
          Halts graph registry strict (hops - visits.length) last reached stop more final ∧
          events = eventsOf visits ++ more := by
  constructor
  · intro walked
    obtain ⟨visits, last, reached, stop, more, final, trail, within, halts⟩ :=
      trail_halts graph registry strict hops source scene
    rw [walk_of_trail graph registry strict trail hops [] within,
      walk_of_halt graph registry strict _ halts] at walked
    simp only [Walk.mk.injEq] at walked
    obtain ⟨rfl, same, rfl⟩ := walked
    refine ⟨visits, last, reached, more, trail, within, halts, ?_⟩
    simpa using (congrArg List.reverse same).symm
  · rintro ⟨visits, last, reached, more, trail, within, halts, rfl⟩
    rw [walk_of_trail graph registry strict trail hops [] within,
      walk_of_halt graph registry strict _ halts]
    simp

/-- What an advance can answer, and the traversal it leaves then. -/
inductive Settles (graph : Graph) (before : Traversal) :
    Traversal → Outcome TraversalError Advance → Prop where
  | presented {key : NodeId} {node : Node} {events : List Event}
      (stored : graph.node? key = some node) (shown : node.kind.isPresentable = true) :
      Settles graph before { before with position := .atNode node.id }
        (.done ⟨.presented node.id, events⟩)
  | ended {events : List Event} :
      Settles graph before { before with position := .ended } (.done ⟨.ended, events⟩)
  | notStarted (idle : before.position = .idle) :
      Settles graph before before (.failed .notStarted)
  | failed {error : TraversalError} (started : error ≠ .notStarted) :
      Settles graph before { before with position := .ended } (.failed error)
  | crashed : Settles graph before before .crashed

theorem walk_presented (graph : Graph) (registry : Registry σ) (strict : Bool) (hops : Nat)
    (source : Endpoint) (scene : Scene σ) (id : NodeId)
    (stop : (walk graph registry strict hops source [] scene).stop = .presented id) :
    ∃ key node, graph.node? key = some node ∧ node.kind.isPresentable = true ∧ node.id = id := by
  obtain ⟨visits, last, reached, found, more, final, trail, within, halts⟩ :=
    trail_halts graph registry strict hops source scene
  rw [walk_of_trail graph registry strict trail hops [] within,
    walk_of_halt graph registry strict _ halts] at stop
  cases halts with
  | presented leads stored shown =>
      cases stop
      exact ⟨_, _, stored, shown, rfl⟩
  | unconnected => cases stop
  | missing => cases stop
  | outOfHops => cases stop
  | failed => cases stop
  | crashed => cases stop

theorem advance_settles (graph : Graph) (registry : Registry σ) (traversal : Traversal) (pin : Pin)
    (scene : Scene σ) :
    Settles graph traversal (traversal.advance graph registry pin scene).1
      (traversal.advance graph registry pin scene).2.2 := by
  obtain ⟨config, position⟩ := traversal
  cases position with
  | idle => exact .notStarted rfl
  | ended => exact .ended
  | atNode current =>
      simp only [Traversal.advance]
      split
      next id stop =>
        obtain ⟨key, node, stored, shown, rfl⟩ := walk_presented _ _ _ _ _ _ id stop
        exact .presented stored shown
      · exact .ended
      · exact .failed nofun
      · exact .failed nofun
      · exact .crashed

end Dialogue

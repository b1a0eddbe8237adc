import Dialogue.Proofs.Steadiness
import Dialogue.Proofs.Trail
/-!
What an advance does, in full: it follows the only trail there is until a node is shown, the path ends,
the hops are used up or a strict walk gives up. Nothing is run twice and nothing beyond the trail.
-/
namespace Dialogue

variable {σ : Type}

/-- How an advance ends that has followed `visits`, is about to leave through `last` and has come to the
scene `reached`: the traversal and the scene it leaves, and its answer. -/
inductive Concludes (graph : Graph) (registry : Registry σ) (traversal : Traversal)
    (visits : List Visit) (last : Endpoint) (reached : Scene σ) :
    Traversal × Scene σ × Outcome TraversalError Advance → Prop where
  | presented {target : Endpoint} {node : Node} (leads : graph.target? last = some target)
      (stored : graph.node? target.node = some node)
      (shown : node.kind = .line ∨ node.kind = .choice) :
      Concludes graph registry traversal visits last reached
        ({ traversal with position := .atNode node.id }, reached,
          .done ⟨.presented node.id, eventsOf visits ++ [.entered node.id]⟩)
  | unconnected (nowhere : graph.target? last = none) :
      Concludes graph registry traversal visits last reached
        ({ traversal with position := .ended }, reached, .done ⟨.ended, eventsOf visits⟩)
  | missing {target : Endpoint} (leads : graph.target? last = some target)
      (gone : graph.node? target.node = none) :
      Concludes graph registry traversal visits last reached
        ({ traversal with position := .ended }, reached, .done ⟨.ended, eventsOf visits⟩)
  /-- The trail is as long as it may be, and one more silent node follows; it is not run. -/
  | outOfHops {target : Endpoint} {node : Node}
      (spent : visits.length = traversal.config.maxHops)
      (leads : graph.target? last = some target)
      (stored : graph.node? target.node = some node)
      (silent : node.kind = .start ∨ node.kind = .condition ∨ node.kind = .action) :
      Concludes graph registry traversal visits last reached
        ({ traversal with position := .ended }, reached,
          .failed (.cycleDetected node.id traversal.config.maxHops))
  | refused {target : Endpoint} {node : Node} {error : CallError} {final : Scene σ}
      (left : visits.length < traversal.config.maxHops)
      (leads : graph.target? last = some target)
      (stored : graph.node? target.node = some node)
      (isStrict : traversal.config.strict = true)
      (givesUp : GivesUp registry reached node.content error final) :
      Concludes graph registry traversal visits last reached
        ({ traversal with position := .ended }, final, .failed (.call node.id error))

/-- The node that an answer names. -/
def answered? : Outcome TraversalError Advance → Option NodeId
  | .done ⟨.presented node, _⟩ => some node
  | .failed (.cycleDetected node _) => some node
  | .failed (.call node _) => some node
  | _ => none

/-- Each visit is to the node behind the pin through which the one before was left. -/
def Chained (graph : Graph) : Endpoint → List Visit → Endpoint → Prop
  | source, [], last => source = last
  | source, visit :: rest, last =>
      (graph.target? source).map Endpoint.node = some visit.node ∧
        Chained graph ⟨visit.node, visit.exit⟩ rest last

theorem presentable_iff (kind : NodeKind) :
    kind.isPresentable = true ↔ kind = .line ∨ kind = .choice := by
  cases kind <;> simp [NodeKind.isPresentable]

theorem silent_iff (kind : NodeKind) :
    kind.isPresentable = false ↔ kind = .start ∨ kind = .condition ∨ kind = .action := by
  cases kind <;> simp [NodeKind.isPresentable]

theorem passes_enters_nothing (registry : Registry σ) (strict : Bool) (node : NodeId)
    (before after : Scene σ) (content : Content) (caused : List Event) (exit : Pin)
    (passes : Passes registry strict node before content caused exit after) :
    enteredNodes caused = [] := by
  cases passes <;> simp [enteredNodes]

theorem passes_board (registry : Registry σ) (strict : Bool) (node : NodeId)
    (before after : Scene σ) (content : Content) (caused : List Event) (exit : Pin)
    (passes : Passes registry strict node before content caused exit after) :
    after.board = content.write before.board := by
  cases passes with
  | start => rfl
  | condition evaluated tolerated => rfl
  | action applied tolerated =>
      exact apply_board registry strict _ before after _ applied tolerated

theorem trail_entered (graph : Graph) (registry : Registry σ) (strict : Bool)
    {source last : Endpoint} {scene reached : Scene σ} {visits : List Visit}
    (trail : Trail graph registry strict source scene visits last reached) :
    enteredNodes (eventsOf visits) = visits.map Visit.node := by
  induction trail with
  | here => rfl
  | enter _ _ passes _ ih =>
      have nothing := passes_enters_nothing _ _ _ _ _ _ _ _ passes
      simp only [enteredNodes, eventsOf, Visit.events, List.flatMap_cons, List.cons_append,
        List.filterMap_cons, List.filterMap_append, List.map_cons] at ih nothing ⊢
      rw [nothing, ih, List.nil_append]

theorem trail_silent (graph : Graph) (registry : Registry σ) (strict : Bool)
    {source last : Endpoint} {scene reached : Scene σ} {visits : List Visit}
    (trail : Trail graph registry strict source scene visits last reached) :
    ∀ visit ∈ visits, visit.content.kind.isPresentable = false := by
  induction trail with
  | here => simp
  | enter _ _ passes _ ih =>
      intro visit member
      rcases List.mem_cons.mp member with same | later
      · subst same
        exact passes_silent _ _ _ _ _ _ _ _ passes
      · exact ih visit later

theorem trail_chained (graph : Graph) (filed : graph.IsFiled) (registry : Registry σ) (strict : Bool)
    {source last : Endpoint} {scene reached : Scene σ} {visits : List Visit}
    (trail : Trail graph registry strict source scene visits last reached) :
    Chained graph source visits last := by
  induction trail with
  | here => rfl
  | @enter _ target _ _ _ _ node _ _ _ leads stored _ _ ih =>
      refine ⟨?_, ih⟩
      rw [leads, Option.map_some, filed.id_eq stored]

theorem concludes_chained (graph : Graph) (filed : graph.IsFiled) (registry : Registry σ)
    (traversal : Traversal) {visits : List Visit} {last : Endpoint} {reached : Scene σ}
    {result : Traversal × Scene σ × Outcome TraversalError Advance}
    (concludes : Concludes graph registry traversal visits last reached result) (node : NodeId)
    (names : answered? result.2.2 = some node) :
    (graph.target? last).map Endpoint.node = some node := by
  cases concludes with
  | presented leads stored => simpa [answered?, leads, filed.id_eq stored] using names
  | unconnected => simp [answered?] at names
  | missing => simp [answered?] at names
  | outOfHops _ leads stored => simpa [answered?, leads, filed.id_eq stored] using names
  | refused _ leads stored => simpa [answered?, leads, filed.id_eq stored] using names

/-- The board at the end of a trail is what the entered actions write, in order. -/
theorem trail_board (graph : Graph) (registry : Registry σ) (strict : Bool)
    {source last : Endpoint} {scene reached : Scene σ} {visits : List Visit}
    (trail : Trail graph registry strict source scene visits last reached) :
    reached.board = (visits.filterMap fun visit => visit.content.action?).foldl
      (fun board change => change.write board) scene.board := by
  induction trail with
  | here => rfl
  | @enter _ _ _ _ _ _ node _ _ _ _ _ passes _ ih =>
      rw [ih, passes_board _ _ _ _ _ _ _ _ passes]
      cases found : node.content.action? <;> simp [Content.write, found]

theorem advance_of_conclusion (graph : Graph) (registry : Registry σ) (traversal : Traversal)
    (here : NodeId) (placed : traversal.position = .atNode here) (pin : Pin)
    {scene reached : Scene σ} {visits : List Visit} {last : Endpoint}
    {result : Traversal × Scene σ × Outcome TraversalError Advance}
    (trail : Trail graph registry traversal.config.strict ⟨here, pin⟩ scene visits last reached)
    (within : visits.length ≤ traversal.config.maxHops)
    (concludes : Concludes graph registry traversal visits last reached result) :
    traversal.advance graph registry pin scene = result := by
  -- The walk follows the trail, and what halts it there is read off the conclusion.
  have onward := walk_of_trail graph registry traversal.config.strict trail
    traversal.config.maxHops [] within
  have halted : ∀ stop more final, Halts graph registry traversal.config.strict
      (traversal.config.maxHops - visits.length) last reached stop more final →
      walk graph registry traversal.config.strict traversal.config.maxHops ⟨here, pin⟩ [] scene =
        ⟨stop, more.reverse ++ ((eventsOf visits).reverse ++ []), final⟩ :=
    fun _ _ _ halts => onward.trans (walk_of_halt graph registry _ _ halts _)
  cases concludes with
  | presented leads stored shown =>
      have walked := halted _ _ _ (.presented leads stored ((presentable_iff _).mpr shown))
      simp [Traversal.advance, placed, walked]
  | unconnected nowhere =>
      have walked := halted _ _ _ (.unconnected nowhere)
      simp [Traversal.advance, placed, walked]
  | missing leads gone =>
      have walked := halted _ _ _ (.missing leads gone)
      simp [Traversal.advance, placed, walked]
  | outOfHops spent leads stored silent =>
      have walked := halted _ _ _
        (.outOfHops (by omega) leads stored ((silent_iff _).mpr silent))
      simp [Traversal.advance, placed, walked]
  | refused left leads stored isStrict givesUp =>
      have walked := halted _ _ _ (.failed (by omega) leads stored isStrict givesUp)
      simp [Traversal.advance, placed, walked]

theorem halt_concludes (graph : Graph) (registry : Registry σ) (steady : registry.Steady)
    (traversal : Traversal) {reached final : Scene σ} {visits : List Visit} {last : Endpoint}
    {stop : Stop} {more : List Event} (within : visits.length ≤ traversal.config.maxHops)
    (halts : Halts graph registry traversal.config.strict
      (traversal.config.maxHops - visits.length) last reached stop more final) :
    ∃ result, Concludes graph registry traversal visits last reached result := by
  cases halts with
  | presented leads stored shown =>
      exact ⟨_, .presented leads stored ((presentable_iff _).mp shown)⟩
  | unconnected nowhere => exact ⟨_, .unconnected nowhere⟩
  | missing leads gone => exact ⟨_, .missing leads gone⟩
  | outOfHops spent leads stored silent =>
      exact ⟨_, .outOfHops (by omega) leads stored ((silent_iff _).mp silent)⟩
  | failed left leads stored isStrict givesUp =>
      exact ⟨_, .refused (by omega) leads stored isStrict givesUp⟩
  | @crashed _ node _ _ _ _ _ broke =>
      -- The only halt without a conclusion, and the one that steady operations rule out.
      have comesBack := enter_steady registry steady traversal.config.strict node.id reached
        node.content
      exact absurd (congrArg Prod.fst broke) comesBack

/-- With operations that always come back, an advance answers `result` exactly if a trail from where it
stands leads to that conclusion within its hops. Where nodes carry the ids they are filed under, each node
that is entered or named is the one that the pin before it leads to. -/
theorem advance_exact (registry : Registry σ) (steady : registry.Steady) (graph : Graph)
    (traversal : Traversal) (here : NodeId) (placed : traversal.position = .atNode here) (pin : Pin)
    (scene : Scene σ) :
    (∀ result, traversal.advance graph registry pin scene = result ↔
      ∃ visits last reached,
        Trail graph registry traversal.config.strict ⟨here, pin⟩ scene visits last reached ∧
          visits.length ≤ traversal.config.maxHops ∧
          Concludes graph registry traversal visits last reached result) ∧
    ∀ visits last reached,
      Trail graph registry traversal.config.strict ⟨here, pin⟩ scene visits last reached →
        enteredNodes (eventsOf visits) = visits.map Visit.node ∧
        (graph.IsFiled → Chained graph ⟨here, pin⟩ visits last ∧
          ∀ result, Concludes graph registry traversal visits last reached result →
            ∀ node, answered? result.2.2 = some node →
              (graph.target? last).map Endpoint.node = some node) ∧
        (∀ visit ∈ visits, visit.content.kind.isPresentable = false) ∧
        reached.board = (visits.filterMap fun visit => visit.content.action?).foldl
          (fun board change => change.write board) scene.board := by
  constructor
  · intro result
    constructor
    · rintro rfl
      obtain ⟨visits, last, reached, stop, more, final, trail, within, halts⟩ :=
        trail_halts graph registry traversal.config.strict traversal.config.maxHops
          ⟨here, pin⟩ scene
      obtain ⟨result, concludes⟩ := halt_concludes graph registry steady traversal within halts
      have same := advance_of_conclusion graph registry traversal here placed pin trail within
        concludes
      exact ⟨visits, last, reached, trail, within, same ▸ concludes⟩
    · rintro ⟨visits, last, reached, trail, within, concludes⟩
      exact advance_of_conclusion graph registry traversal here placed pin trail within concludes
  · intro visits last reached trail
    refine ⟨trail_entered _ _ _ trail, fun filed => ⟨trail_chained _ filed _ _ trail, ?_⟩,
      trail_silent _ _ _ trail, trail_board _ _ _ trail⟩
    intro result concludes node names
    exact concludes_chained graph filed registry traversal concludes node names

theorem advance_exact_demo :
    (Machine.registry Terminal.machineType).Steady ∧
      ∃ visits last reached,
        Trail Demo.played (Machine.registry Terminal.machineType) false ⟨3, 0⟩
          ⟨Demo.played.board, Terminal.host⟩ visits last reached ∧
        visits.length ≤ 2 ∧
        Concludes Demo.played (Machine.registry Terminal.machineType)
          ⟨⟨2, false⟩, .atNode 3⟩ visits last reached
          (⟨⟨2, false⟩, .atNode 7⟩,
            ⟨⟨[⟨"machine", "sample", .handle, .handle ⟨"sample", some ⟨0, "Machine"⟩⟩⟩,
              ⟨"visits", "visits", .integer, .integer 1⟩]⟩, Terminal.host⟩,
            .done ⟨.presented 7,
              [.entered 4, .applied 4 ⟨1, 0, []⟩, .entered 5, .evaluated 5 false, .entered 7]⟩) :=
  ⟨machine_steady _, ((advance_exact (Machine.registry Terminal.machineType) (machine_steady _)
    Demo.played ⟨⟨2, false⟩, .atNode 3⟩ 3 rfl 0 ⟨Demo.played.board, Terminal.host⟩).1 _).mp rfl⟩

end Dialogue
